import SceneMarkup.CommandLine.Options
import SceneMarkup.Markup.Snippet
import SceneMarkup.Service.Snapshot

/-!
# The command

The command writes the snippet of the node that a link names, to the standard output or to a
file. A run of it comes to a plan: what is to be written, and nothing when anything before the
writing has failed. Whoever carries the plan out has only the writing left to do.

A run also keeps a log. It is set up when the command line has been read, and takes the notices of
the run.
-/

namespace SceneMarkup.CommandLine

/-- Something that the command leaves a notice of. -/
inductive Notice
  | ofService (n : ServiceNotice)
  | ofGeneration (n : SceneMarkup.Notice)
  /-- The service has refused. -/
  | requestFailed (r : Refusal)
  /-- The snippet stands in a file. -/
  | written (path : String)

/-- The record of a notice. -/
def Notice.toRecord : Notice → Log.Record
  | ofService n => n.toRecord
  | ofGeneration n => n.toRecord
  | requestFailed r =>
    ⟨.error, "figma_inspector.cli", "Figma request failed: " ++ r.message⟩
  | written path => ⟨.info, "figma_inspector.cli", "Snippet written to " ++ path⟩

/-- The name of the logger of the command. Whatever the program logs is under this name. -/
def loggerName : String := "figma_inspector"

/-- The name of the log, in the directory of the logs. -/
def logName : String := "cli.log"

/-- What is to be done in the end. -/
inductive Plan
  /-- The text goes to the standard output. -/
  | print (text : String)
  /-- The text goes to a file. -/
  | save (path text : String)
  /-- The command ends with a status. -/
  | stop (status : Nat)
  /-- The command breaks off. -/
  | crash (f : Failure)
  /-- A fault has escaped from generation. -/
  | escape (f : Fault)

namespace Plan

/-- The status of the command line that is not understood. -/
def misuseStatus : Nat := 2

/-- Where a text goes: to the file that is named, if any. -/
def deliver (output : Option String) (text : String) : Plan :=
  match output with
  | some path => if path = "" then print text else save path text
  | none => print text

end Plan

/-- What a run of the command comes to. -/
structure Report (σ : Type) where
  plan : Plan
  line : Line σ ServiceNotice
  /-- Whether there is a log. The log is not there for a command line that asks for no run. -/
  hasLog : Bool
  notices : List Notice

/-- The notices among events. -/
def noticesOf {ν : Type} (events : List (Event ν)) : List ν :=
  events.filterMap fun
    | .noted n => some n
    | _ => none

/-- The snapshot that a link leads to. The client is closed in any case. -/
def fetch {σ : Type} (server : Server σ) (settings : Settings) (o : Options) :
    Exchange σ ServiceNotice Snapshot :=
  match Link.read o.link with
  | .error d => Exchange.refuse (.badLink d)
  | .ok link =>
    match Client.create o.token settings.token settings.timeout with
    | .error r => Exchange.refuse r
    | .ok client =>
      Client.during (Snapshot.load server client link.file link.node o.followVariables)

/-- The plan for a snapshot, with the notices of generation. -/
def generate (o : Options) (s : Snapshot) : Plan × List SceneMarkup.Notice :=
  let t := (Snippet.text o.followVariables s.node).run s.tables.host ()
  match t.outcome with
  | .ok snippet => (.deliver o.output (snippet ++ "\n"), t.notices)
  | .error f => (.escape f, t.notices)

/-- Runs the command with its options. -/
def runWith {σ : Type} (server : Server σ) (settings : Settings) (o : Options) (state : σ) :
    Report σ :=
  match fetch server settings o (Line.fresh state) with
  | (result, line) =>
    let earlier := (noticesOf line.events).map Notice.ofService
    match result with
    | .ok snapshot =>
      let (plan, notices) := generate o snapshot
      ⟨plan, line, true, earlier ++ notices.map .ofGeneration⟩
    | .error (.refused r) => ⟨.stop 1, line, true, earlier ++ [.requestFailed r]⟩
    | .error f => ⟨.crash f, line, true, earlier⟩

/-- Runs the command. -/
def run {σ : Type} (server : Server σ) (settings : Settings) (words : List String) (state : σ) :
    Report σ :=
  match parse settings.followVariables words with
  | .run o => runWith server settings o state
  | .help => ⟨.stop 0, Line.fresh state, false, []⟩
  | .misuse => ⟨.stop Plan.misuseStatus, Line.fresh state, false, []⟩

end SceneMarkup.CommandLine
