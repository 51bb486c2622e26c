import SceneMarkup.CommandLine.Plan

/-!
# Outlets

A plan says what is to be written, and an outlet writes it. How it does so is left to the outlet: a
program writes to files, and a proof may look at what is written instead. The log is written through
the same outlet, so that all that a run writes passes here.
-/

namespace SceneMarkup.CommandLine

/-- The ways to write something. -/
structure Outlet (m : Type → Type) where
  /-- Writes a text to the standard output. -/
  print (text : String) : m Unit
  /-- Makes a text all that stands in a file. -/
  save (path text : String) : m Unit
  /-- Writes a line to the standard error. -/
  complain (text : String) : m Unit
  /-- Sets the log up. -/
  openLog : m Unit
  /-- Hands a record to its logger. -/
  log (x : Log.Record) : m Unit

variable {m : Type → Type} [Monad m]

/-- Carries a plan out and gives the status of the program. Success is the last to be known. -/
def Plan.carryOut (outlet : Outlet m) : Plan → m UInt32
  | .print text => do
    outlet.print text
    return 0
  | .save path text => do
    outlet.save path text
    outlet.log (Notice.written path).toRecord
    return 0
  | .stop status => return status.toUInt32
  | .crash f => do
    outlet.complain f.message
    return 1
  | .escape f => do
    outlet.complain f.message
    return 1

/-- Carries out all that a run has come to: the log is set up, the notices are logged, and then the
plan is carried out. -/
def Report.carryOut {σ : Type} (outlet : Outlet m) (report : Report σ) : m UInt32 := do
  if report.hasLog then outlet.openLog
  report.notices.forM fun n => outlet.log n.toRecord
  report.plan.carryOut outlet

end SceneMarkup.CommandLine
