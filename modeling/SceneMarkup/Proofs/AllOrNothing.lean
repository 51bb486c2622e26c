import Mathlib.Logic.Function.Basic
import SceneMarkup.CommandLine.Outlet
import SceneMarkup.Proofs.AskedFor
import SceneMarkup.Proofs.LifeCycle
import SceneMarkup.Proofs.Logging

/-!
# All or nothing

A run of the command writes its snippet to one place, or it writes nothing at all but its log.
Everything that can fail on the way to the snippet comes before the writing, so a plan with a text
is only made when the text is complete.

A run is carried out on an outlet that keeps what is written (`recording`). Writing may fail as
well, and whatever it then leaves behind is up to the conditions: a run does not end with success in
this case. The log is a file like others, and nothing keeps a command line from naming it for the
snippet.

* `SameButLog`: surroundings that differ in the log and on the standard error only.
* `ComesTo`: what reading the link, finding the token and loading the snapshot come to.
* `Generates`: the snippet of a snapshot.
* `Referred`: a request that an earlier reply has led to.
* `run_allOrNothing`: all this about a whole run, with what it leaves of connections and what it has
  asked for.
-/

namespace SceneMarkup.CommandLine

open Exchange Client

/-- Where a text can be written. -/
inductive Place
  | output
  | file (path : String)
  /-- A file in the directory of the logs. -/
  | log (name : String)

/-- What there is to see of a program: what it has printed, what stands in the files, and the
loggers, with the files of their directory and the standard error. -/
structure Surroundings where
  printed : String
  files : String → Option String
  logs : Log.Registry

namespace Surroundings

/-- What stands at a place; none where there is no file. -/
def at? (w : Surroundings) : Place → Option String
  | .output => some w.printed
  | .file path => w.files path
  | .log name => w.logs.file? name

/-- The surroundings with a text written to a place. -/
def write (w : Surroundings) : Place → String → Surroundings
  | .output, text => { w with printed := w.printed ++ text }
  | .file path, text => { w with files := Function.update w.files path (some text) }
  | .log name, text => { w with logs.files := Tables.put name text w.logs.files }

/-- The surroundings with a line on the standard error. -/
def complain (w : Surroundings) (text : String) : Surroundings :=
  { w with logs.console := w.logs.console ++ text ++ "\n" }

/-- The surroundings with records logged, one after the other. -/
def note (w : Surroundings) (xs : List Log.Record) : Surroundings :=
  { w with logs := xs.foldl (fun logs x => logs.record x) w.logs }

end Surroundings

/-- The conditions under which a program runs. -/
structure Conditions where
  /-- The file in the directory of the logs that a path leads to, if it leads there. -/
  logFile? : String → Option String
  /-- Whether the log cannot be opened. -/
  refusesLog : Surroundings → Bool
  /-- What is left where a text cannot be written to a place; none where it can. -/
  refusesText : Place → String → Surroundings → Option Surroundings

namespace Conditions

variable (c : Conditions)

/-- The place to which a path leads. -/
def place (path : String) : Place :=
  match c.logFile? path with
  | some name => .log name
  | none => .file path

/-- The place of the snippet: the file that is named, if any. -/
def target : Option String → Place
  | some path => if path = "" then .output else c.place path
  | none => .output

/-- The surroundings with the log set up, if it can be. -/
def start (w : Surroundings) : Option Surroundings :=
  if c.refusesLog w then none
  else
    match w.logs.setUp loggerName logName with
    | .ok (_, logs) => some { w with logs }
    | .error _ => none

/-- Whether the log can be set up. -/
def opens (w : Surroundings) : Bool := (c.start w).isSome

/-- Writes a text to a place, unless something is in the way. -/
def record (place : Place) (text : String) : OptionT (StateM Surroundings) Unit :=
  OptionT.mk fun w =>
    match c.refusesText place text w with
    | some left => (none, left)
    | none => (some (), w.write place text)

/-- An outlet that keeps what is written. -/
def recording : Outlet (OptionT (StateM Surroundings)) where
  print := c.record .output
  save path := c.record (c.place path)
  complain text := modify fun w => w.complain text
  openLog := OptionT.mk fun w =>
    match c.start w with
    | some started => (some (), started)
    | none => (none, w)
  log x := modify fun w => w.note [x]

end Conditions

/-- Carries a plan out. The status is missing when the program breaks off. -/
def Plan.execute (c : Conditions) (plan : Plan) (w : Surroundings) :
    Option UInt32 × Surroundings :=
  (plan.carryOut c.recording).run.run w

/-- Carries out all that a run has come to. -/
def Report.execute {σ : Type} (c : Conditions) (report : Report σ) (w : Surroundings) :
    Option UInt32 × Surroundings :=
  (report.carryOut c.recording).run.run w

/-- What is logged of a snippet that has been written. -/
def savedRecords : Option String → List Log.Record
  | some path => if path = "" then [] else [(Notice.written path).toRecord]
  | none => []

/-- What carrying out a plan with a text comes to. -/
def Conditions.written (c : Conditions) (output : Option String) (text : String)
    (w : Surroundings) :
    Option UInt32 × Surroundings :=
  match c.refusesText (c.target output) text w with
  | some left => (none, left)
  | none => (some 0, (w.write (c.target output) text).note (savedRecords output))

/-- Nothing has changed but the log and the standard error. -/
def Surroundings.SameButLog (w w' : Surroundings) : Prop :=
  ∀ place, place ≠ .log logName → w'.at? place = w.at? place

variable {c : Conditions} {w w' w'' : Surroundings}

namespace Surroundings

theorem SameButLog.refl (w : Surroundings) : w.SameButLog w := fun _ _ => rfl

theorem SameButLog.trans (h : w.SameButLog w') (h' : w'.SameButLog w'') : w.SameButLog w'' :=
  fun place hplace => (h' place hplace).trans (h place hplace)

/-- A line on the standard error stands at no place. -/
theorem sameButLog_complain (w : Surroundings) (text : String) :
    w.SameButLog (w.complain text) := by
  intro place _
  cases place <;> rfl

/-- Records go to the log and nowhere else, as long as the loggers write to no other file. -/
theorem sameButLog_note
    (hlogs : w.logs.WritesOnly logName) (xs : List Log.Record) :
    w.SameButLog (w.note xs) ∧ (w.note xs).logs.WritesOnly logName := by
  induction xs generalizing w with
  | nil => exact ⟨.refl w, hlogs⟩
  | cons x xs ih =>
      have hfirst : w.SameButLog (w.note [x]) := by
        intro place hplace
        cases place with
        | output | file path => rfl
        | log name => exact hlogs.record_file? x fun heq => hplace (heq ▸ rfl)
      obtain ⟨hrest, hkept⟩ := ih (w := w.note [x]) (hlogs.record x)
      exact ⟨hfirst.trans hrest, hkept⟩

/-- Writing to a place makes no difference elsewhere. -/
theorem at?_write_of_ne {place other : Place} (h : other ≠ place) (text : String) :
    (w.write place text).at? other = w.at? other := by
  cases place with
  | output =>
      cases other with
      | output => exact absurd rfl h
      | file path | log name => rfl
  | file path =>
      cases other with
      | output | log name => rfl
      | file path' =>
          have hne : path' ≠ path := fun heq => h (heq ▸ rfl)
          exact Function.update_of_ne hne (some text) w.files
  | log name =>
      cases other with
      | output | file path => rfl
      | log name' =>
          have hne : name ≠ name' := fun heq => h (heq ▸ rfl)
          exact (Tables.lookup?_put name text w.logs.files name').trans (if_neg hne)

/-- What stands at a place after writing to it: on the standard output the text comes behind the
rest. -/
theorem at?_write_self (place : Place) (text : String) :
    (w.write place text).at? place =
      some (match place with
        | .output => w.printed ++ text
        | _ => text) := by
  cases place with
  | output => rfl
  | file path => exact Function.update_self path (some text) w.files
  | log name => exact (Tables.lookup?_put name text w.logs.files name).trans (if_pos rfl)

/-- The same text at the same place leaves what was the same the same. -/
theorem SameButLog.write (h : w.SameButLog w') (place : Place) (text : String) :
    (w.write place text).SameButLog (w'.write place text) := by
  intro other hother
  by_cases heq : other = place
  · subst heq
    rw [at?_write_self, at?_write_self]
    cases other with
    | output =>
        have hprinted : w'.printed = w.printed := Option.some.inj (h .output hother)
        rw [hprinted]
    | file path | log name => rfl
  · rw [at?_write_of_ne heq, at?_write_of_ne heq]
    exact h other hother

end Surroundings

/-- The file of the log lies in the directory of the logs, whatever else lies there. -/
theorem locate_logName (files : List String) :
    Log.FilePath.locate files logName = .ok (.file logName) := by
  rfl

/-- Setting the log up changes the log only. -/
theorem sameButLog_start
    {started : Surroundings} (hlogs : w.logs.WritesOnly logName) (h : c.start w = some started) :
    w.SameButLog started ∧ started.logs.WritesOnly logName := by
  obtain ⟨l, logs, hsetUp, hwrites, hfiles⟩ := hlogs.setUp loggerName (locate_logName _)
  unfold Conditions.start at h
  rw [hsetUp] at h
  split at h
  · cases h
  · cases h
    refine ⟨?_, hwrites⟩
    intro place hplace
    cases place with
    | output | file path => rfl
    | log name => exact hfiles name fun heq => hplace (heq ▸ rfl)

/-- One step after another, on surroundings that are passed on. -/
theorem run_bind {α β : Type} (x : OptionT (StateM Surroundings) α)
    (k : α → OptionT (StateM Surroundings) β) (w : Surroundings) :
    (x >>= k).run.run w =
      match x.run.run w with
      | (some a, w') => (k a).run.run w'
      | (none, w') => (none, w') := by
  simp only [Bind.bind, OptionT.bind, OptionT.run, OptionT.mk, StateT.run, StateT.bind]
  rcases x w with ⟨_ | a, w'⟩
  · rfl
  · rfl

/-- The notices of a run are logged one after the other. -/
theorem forM_log (notices : List Notice) (w : Surroundings) :
    ((notices.forM fun n => c.recording.log n.toRecord).run.run w) =
      (some (), w.note (notices.map Notice.toRecord)) := by
  induction notices generalizing w with
  | nil => rfl
  | cons n notices ih => exact ih (w.note [n.toRecord])

/-- A run with a log sets it up, logs its notices and carries its plan out. Without the log it
breaks off at once. -/
theorem execute_eq {σ : Type} {report : Report σ} (h : report.hasLog = true) :
    report.execute c w =
      match c.start w with
      | some started => report.plan.execute c (started.note (report.notices.map Notice.toRecord))
      | none => (none, w) := by
  rw [Report.execute, Report.carryOut, if_pos h, run_bind]
  have hopen : c.recording.openLog.run.run w =
      match c.start w with
      | some started => (some (), started)
      | none => (none, w) := rfl
  rw [hopen]
  cases c.start w with
  | none => rfl
  | some started =>
      dsimp only
      rw [run_bind, forM_log]
      rfl

/-- Carrying a snippet out writes it to its place. Only then it is logged that it stands in a
file. -/
theorem execute_deliver (output : Option String) (text : String) :
    (Plan.deliver output text).execute c w = c.written output text w := by
  have hprinted : (c.recording.print text).run.run w =
      match c.refusesText .output text w with
      | some left => (none, left)
      | none => (some (), w.write .output text) := rfl
  have hsaved : ∀ path, (c.recording.save path text).run.run w =
      match c.refusesText (c.place path) text w with
      | some left => (none, left)
      | none => (some (), w.write (c.place path) text) := fun path => rfl
  have hprint : (Plan.print text).execute c w = c.written none text w := by
    rw [Plan.execute, Plan.carryOut, run_bind, hprinted, Conditions.written]
    dsimp only [Conditions.target]
    cases c.refusesText .output text w with
    | some left => rfl
    | none => rfl
  cases output with
  | none => exact hprint
  | some path =>
      by_cases hpath : path = ""
      · subst hpath
        exact hprint
      · have htarget : c.target (some path) = c.place path := if_neg hpath
        rw [Plan.deliver, if_neg hpath, Plan.execute, Plan.carryOut, run_bind, hsaved,
          Conditions.written, htarget, savedRecords, if_neg hpath]
        cases c.refusesText (c.place path) text w with
        | some left => rfl
        | none => rfl

/-- A plan without a text: the run has failed on the way to it. -/
inductive Plan.Fails : Plan → Prop
  | stop : Plan.Fails (.stop 1)
  | crash (f : Failure) : Plan.Fails (.crash f)
  | escape (f : Fault) : Plan.Fails (.escape f)

/-- A plan without a text writes to the standard error at most. -/
theorem Plan.Fails.execute {plan : Plan} (h : plan.Fails) (w : Surroundings) :
    ∃ w', plan.execute c w = (some 1, w') ∧ w.SameButLog w' := by
  cases h with
  | stop => exact ⟨w, rfl, .refl w⟩
  | crash f => exact ⟨w.complain f.message, rfl, Surroundings.sameButLog_complain w _⟩
  | escape f => exact ⟨w.complain f.message, rfl, Surroundings.sameButLog_complain w _⟩

/-- Success means that nothing was in the way of the text. -/
theorem written_of_success
    {output : Option String} {text : String} (h : (c.written output text w).1 = some 0) :
    (c.written output text w).2 = (w.write (c.target output) text).note (savedRecords output) := by
  unfold Conditions.written at h ⊢
  split at h
  · cases h
  · rfl

section

variable {σ : Type} (server : Server σ) (settings : Settings) (o : Options) (state : σ)

/-- What is there before anything is written: the link is read, the token is found, and the snapshot
is loaded, each unless the one before has failed. -/
inductive ComesTo : Except Failure Snapshot → Line σ ServiceNotice → Prop
  | badLink {d : Link.Defect} :
      Link.read o.link = .error d →
      ComesTo (.error (.refused (.badLink d))) (Line.fresh state)
  | noToken {link : Link} {refusal : Refusal} :
      Link.read o.link = .ok link →
      Client.create o.token settings.token settings.timeout = .error refusal →
      ComesTo (.error (.refused refusal)) (Line.fresh state)
  | loaded {link : Link} {client : Client} {r : Except Failure Snapshot}
      {l : Line σ ServiceNotice} :
      Link.read o.link = .ok link →
      Client.create o.token settings.token settings.timeout = .ok client →
      Snapshot.load server client link.file link.node o.followVariables (Line.fresh state) =
        (r, l) →
      ComesTo r (hangUp l)

variable {server settings o state}

theorem ComesTo.fetch_eq
    {r : Except Failure Snapshot} {l : Line σ ServiceNotice}
    (h : ComesTo server settings o state r l) :
    fetch server settings o (Line.fresh state) = (r, l) := by
  unfold fetch
  cases h with
  | badLink hlink =>
      rw [hlink]
      rfl
  | noToken hlink htoken =>
      simp only [hlink, htoken]
      rfl
  | loaded hlink htoken hload =>
      simp only [hlink, htoken, Client.during, ensuring, hload]

variable (server settings o state)

theorem exists_comesTo : ∃ r l, ComesTo server settings o state r l := by
  cases hlink : Link.read o.link with
  | error d => exact ⟨_, _, .badLink hlink⟩
  | ok link =>
      cases htoken : Client.create o.token settings.token settings.timeout with
      | error refusal => exact ⟨_, _, .noToken hlink htoken⟩
      | ok client => exact ⟨_, _, .loaded hlink htoken rfl⟩

end

/-- The snippet of a snapshot, if generation makes one. -/
def Generates (o : Options) (s : Snapshot) (snippet : String) : Prop :=
  ((Snippet.text o.followVariables s.node).run s.tables.host ()).outcome = .ok snippet

/-- No connection is open, neither to the service nor for downloads. -/
structure AtRest {σ : Type} (settings : Settings) (o : Options) (l : Line σ ServiceNotice) :
    Prop where
  isOpen : l.isOpen = false
  downloads : l.downloads.standing = []
  service : ∀ client, Client.create o.token settings.token settings.timeout = .ok client →
    (l.service client.token).standing = []

section

variable {σ : Type} {server : Server σ} {settings : Settings} {o : Options} {state : σ}
variable {r : Except Failure Snapshot} {l : Line σ ServiceNotice}

theorem atRest_fresh (state : σ) : AtRest settings o (Line.fresh state) :=
  ⟨rfl, rfl, fun _ _ => rfl⟩

/-- However loading ends, the client is closed behind it. -/
theorem ComesTo.atRest (h : ComesTo server settings o state r l) : AtRest settings o l := by
  cases h with
  | badLink => exact atRest_fresh state
  | noToken => exact atRest_fresh state
  | @loaded link client r l hlink htoken hload =>
      obtain ⟨asked, es, -, hadds⟩ :=
        Snapshot.load_keeps server client link.file link.node o.followVariables (Line.fresh state)
      rw [hload] at hadds
      obtain ⟨hsound, -⟩ := (sound_fresh state).adds hadds
      obtain ⟨hclosed, hnone, -⟩ := hsound.hangUp
      refine ⟨hclosed.standing_eq_nil_iff.1 hnone, hclosed.downloads, ?_⟩
      intro client' htoken'
      -- the options make one client only
      cases htoken.symm.trans htoken'
      exact hnone

/-- However loading ends, all its requests are sent for a reason. -/
theorem ComesTo.grounded
    (h : ComesTo server settings o state r l) {q : Request} (hq : q ∈ l.requests) :
    ∃ link client, Link.read o.link = .ok link ∧
      Client.create o.token settings.token settings.timeout = .ok client ∧
      Grounded server client link.file state
        (Snapshot.Concerns link.file link.node o.followVariables)
        l.requests := by
  cases h with
  | badLink => cases hq
  | noToken => cases hq
  | @loaded link client r l hlink hclient hload =>
      rw [requests_hangUp]
      exact ⟨link, client, hlink, hclient, Snapshot.load_grounded hload⟩

/-- A request of a run is a download, and an earlier reply of the run to a request for renderings
has told of its destination. -/
def Referred (server : Server σ) (settings : Settings) (o : Options) (state : σ)
    (sent : List Request)
    (q : Request) : Prop :=
  ∃ link client before after d, Link.read o.link = .ok link ∧
    Client.create o.token settings.token settings.timeout = .ok client ∧
    sent = before ++ q :: after ∧ Told server client link.file state before d ∧ q = d.download

/-- Without following variables, the client asks for no variables of any file: the token goes with
no request for them, and what goes without the token goes where the service has told. -/
theorem ComesTo.no_library
    (h : ComesTo server settings o state r l) (hfollow : o.followVariables = false)
    {q : Request} (hq : q ∈ l.requests) :
    (q.token ≠ none ∧ ∀ file, q.address ≠ "/v1/files/" ++ file ++ "/variables/local") ∨
      Referred server settings o state l.requests q := by
  obtain ⟨link, client, hlink, hclient, hgrounded⟩ := h.grounded hq
  by_cases htoken : q.token = none
  · obtain ⟨before, after, d, hsent, htold, hdownload⟩ := hgrounded.download_of_no_token hq htoken
    exact .inr ⟨link, client, before, after, d, hlink, hclient, hsent, htold, hdownload⟩
  · rw [hfollow] at hgrounded
    exact .inl ⟨htoken, fun file =>
      Snapshot.no_library hgrounded (Link.file_of_read hlink) hq htoken file⟩

end

section

variable {σ : Type} {server : Server σ} {settings : Settings} {o : Options} {state : σ}
variable {r : Except Failure Snapshot} {l : Line σ ServiceNotice} {s : Snapshot}

/-- A run has the line on which its snapshot was loaded, and a log. -/
theorem runWith_line (h : ComesTo server settings o state r l) :
    (runWith server settings o state).line = l ∧
      (runWith server settings o state).hasLog = true := by
  rw [runWith, h.fetch_eq]
  rcases r with f | s
  · cases f <;> exact ⟨rfl, rfl⟩
  · exact ⟨rfl, rfl⟩

/-- A refusal ends a run with status one. -/
theorem runWith_plan_of_refusal
    {refusal : Refusal} (h : ComesTo server settings o state (.error (.refused refusal)) l) :
    (runWith server settings o state).plan = .stop 1 := by
  rw [runWith, h.fetch_eq]

/-- A snippet is delivered with a line break behind it. -/
theorem runWith_plan_of_snippet
    {snippet : String} (h : ComesTo server settings o state (.ok s) l)
    (hsnippet : Generates o s snippet) :
    (runWith server settings o state).plan = .deliver o.output (snippet ++ "\n") := by
  rw [runWith, h.fetch_eq]
  show (generate o s).1 = _
  rw [generate, hsnippet]

/-- Where no snippet comes out, whether the snapshot is there or not, the plan has no text. -/
theorem runWith_fails
    (h : ComesTo server settings o state r l)
    (hnone : ∀ s snippet, r = .ok s → ¬ Generates o s snippet) :
    (runWith server settings o state).plan.Fails := by
  rw [runWith, h.fetch_eq]
  rcases r with f | s
  · cases f with
    | refused refusal => exact .stop
    | transport | unreadable | unaddressed | noScheme | defect | invalid => exact .crash _
  · show (generate o s).1.Fails
    unfold generate
    dsimp only
    split
    next snippet hsnippet => exact absurd hsnippet (hnone s snippet rfl)
    next f _ => exact .escape f

/-- Once the log is there, the plan is carried out where nothing but the log is different. -/
theorem execute_of_opens
    {report : Report σ} (hlog : report.hasLog = true) (hlogs : w.logs.WritesOnly logName)
    (hopens : c.opens w = true) :
    ∃ u, w.SameButLog u ∧ u.logs.WritesOnly logName ∧
      report.execute c w = report.plan.execute c u := by
  obtain ⟨started, hstart⟩ := Option.isSome_iff_exists.1 hopens
  obtain ⟨hstarted, hkept⟩ := sameButLog_start hlogs hstart
  obtain ⟨hnoted, hkept⟩ :=
    Surroundings.sameButLog_note hkept (report.notices.map Notice.toRecord)
  exact ⟨_, hstarted.trans hnoted, hkept, by rw [execute_eq hlog, hstart]⟩

/-- Without the log, a run breaks off at once. -/
theorem execute_of_not_opens
    {report : Report σ} (hlog : report.hasLog = true) (hopens : c.opens w = false) :
    report.execute c w = (none, w) := by
  rw [execute_eq hlog, Option.not_isSome_iff_eq_none.1 (Bool.eq_false_iff.1 hopens)]

/-- A snippet is written where nothing but the log is different, and after it nothing but the log
is. -/
theorem execute_of_snippet
    {snippet : String} (h : ComesTo server settings o state (.ok s) l)
    (hsnippet : Generates o s snippet) (hlogs : w.logs.WritesOnly logName)
    (hopens : c.opens w = true) :
    ∃ u, w.SameButLog u ∧
      (runWith server settings o state).execute c w = c.written o.output (snippet ++ "\n") u ∧
      (w.write (c.target o.output) (snippet ++ "\n")).SameButLog
        ((u.write (c.target o.output) (snippet ++ "\n")).note (savedRecords o.output)) := by
  obtain ⟨u, hsame, hkept, hexecute⟩ := execute_of_opens (runWith_line h).2 hlogs hopens
  rw [runWith_plan_of_snippet h hsnippet, execute_deliver] at hexecute
  have hkept' : (u.write (c.target o.output) (snippet ++ "\n")).logs.WritesOnly logName := by
    cases c.target o.output <;> exact hkept
  refine ⟨u, hsame, hexecute, (hsame.write _ _).trans ?_⟩
  exact (Surroundings.sameButLog_note hkept' (savedRecords o.output)).1

/-- Without a snippet nothing but the log is different. -/
theorem execute_of_failure
    (h : ComesTo server settings o state r l)
    (hnone : ∀ s snippet, r = .ok s → ¬ Generates o s snippet) (hlogs : w.logs.WritesOnly logName)
    (hopens : c.opens w = true) :
    ∃ w', (runWith server settings o state).execute c w = (some 1, w') ∧ w.SameButLog w' := by
  obtain ⟨u, hsame, -, hexecute⟩ := execute_of_opens (runWith_line h).2 hlogs hopens
  obtain ⟨w', hfails, hsame'⟩ := (runWith_fails h hnone).execute (c := c) u
  exact ⟨w', hexecute.trans hfails, hsame.trans hsame'⟩

end

/-- **The command is all or nothing.** A run ends with success only when its snippet has been
written to its place, and nothing else has changed but the log. When the link, the token, the
snapshot or the snippet fails, nothing but the log has changed at all, and the status is one, as it
is for every refusal. A log that cannot be set up ends a run at once. In any case no connection
stays open, and without following variables the client asks for none: without its token it only goes
where the service has told of a rendering. The loggers of the process write to the log only, as they
do at its start and after a run. -/
theorem run_allOrNothing
    {σ : Type} (server : Server σ) {settings : Settings} {words : List String} {o : Options}
    (ho : parse settings.followVariables words = .run o) (state : σ) (c : Conditions)
    {w : Surroundings} (hlogs : w.logs.WritesOnly logName) :
    ∃ r l, ComesTo server settings o state r l ∧
      let report := run server settings words state
      let ending := report.execute c w
      (ending.1 = some 0 → ∃ s snippet u, r = .ok s ∧ Generates o s snippet ∧ w.SameButLog u ∧
        ending.2 = (u.write (c.target o.output) (snippet ++ "\n")).note (savedRecords o.output) ∧
        (w.write (c.target o.output) (snippet ++ "\n")).SameButLog ending.2) ∧
      (∀ s snippet, r = .ok s → Generates o s snippet → c.opens w = true →
        ∃ u, w.SameButLog u ∧ ending = c.written o.output (snippet ++ "\n") u) ∧
      ((∀ s snippet, r = .ok s → ¬ Generates o s snippet) → w.SameButLog ending.2 ∧
        (c.opens w = true → ending.1 = some 1)) ∧
      (c.opens w = false → ending = (none, w)) ∧
      (∀ refusal, r = .error (.refused refusal) → report.plan = .stop 1) ∧
      AtRest settings o report.line ∧
      (o.followVariables = false → ∀ q ∈ report.line.requests,
        (q.token ≠ none ∧ ∀ file, q.address ≠ "/v1/files/" ++ file ++ "/variables/local") ∨
          Referred server settings o state report.line.requests q) := by
  have hrun : run server settings words state = runWith server settings o state := by
    rw [run, ho]
  obtain ⟨r, l, h⟩ := exists_comesTo server settings o state
  obtain ⟨hline, hlog⟩ := runWith_line h
  have hclosed : c.opens w = false →
      (runWith server settings o state).execute c w = (none, w) :=
    execute_of_not_opens hlog
  have hfailed : (∀ s snippet, r = .ok s → ¬ Generates o s snippet) → c.opens w = true →
      ∃ w', (runWith server settings o state).execute c w = (some 1, w') ∧ w.SameButLog w' :=
    fun hnone => execute_of_failure h hnone hlogs
  rw [hrun]
  refine ⟨r, l, h, ?_, ?_, ?_, hclosed, ?_, ?_, ?_⟩
  · intro hsuccess
    cases hopens : c.opens w with
    | false =>
        rw [hclosed hopens] at hsuccess
        cases hsuccess
    | true =>
        by_cases hsome : ∃ s snippet, r = .ok s ∧ Generates o s snippet
        · obtain ⟨s, snippet, rfl, hsnippet⟩ := hsome
          obtain ⟨u, hsame, hexecute, hafter⟩ := execute_of_snippet h hsnippet hlogs hopens
          rw [hexecute] at hsuccess
          have hending := written_of_success hsuccess
          rw [hexecute]
          exact ⟨s, snippet, u, rfl, hsnippet, hsame, hending, hending ▸ hafter⟩
        · obtain ⟨w', hexecute, -⟩ :=
            hfailed (fun s snippet hr hsnippet => hsome ⟨s, snippet, hr, hsnippet⟩) hopens
          rw [hexecute] at hsuccess
          have hone : (1 : UInt32) = 0 := Option.some.inj hsuccess
          exact absurd hone (by decide)
  · rintro s snippet rfl hsnippet hopens
    obtain ⟨u, hsame, hexecute, -⟩ := execute_of_snippet h hsnippet hlogs hopens
    exact ⟨u, hsame, hexecute⟩
  · intro hnone
    cases hopens : c.opens w with
    | false =>
        rw [hclosed hopens]
        exact ⟨.refl w, nofun⟩
    | true =>
        obtain ⟨w', hexecute, hsame⟩ := hfailed hnone hopens
        rw [hexecute]
        exact ⟨hsame, fun _ => rfl⟩
  · rintro refusal rfl
    exact runWith_plan_of_refusal h
  · rw [hline]
    exact h.atRest
  · intro hfollow q hq
    rw [hline] at hq ⊢
    exact h.no_library hfollow hq

/-- A command line that names a file and does not follow variables. -/
def quietWords (path : String) : List String :=
  ["https://www.figma.com/design/f/x?node-id=2", "--token", "t", "--no-variables", "-o", path]

/-- The options of this command line. -/
def quietOptions (path : String) : Options :=
  ⟨"https://www.figma.com/design/f/x?node-id=2", false, some path, some "t"⟩

/-- A service that gives the entry of a node and is too slow for all else. -/
def entryOnly : Server Unit := fun q s =>
  (if q.address = "/v1/files/f/nodes" then
    .ok ⟨200, "\x7b\"nodes\": \x7b\"2\": \x7b\"document\": \x7b\"type\": \"FRAME\"\x7d\x7d\x7d\x7d"⟩
  else .error (.timedOut "slow"), s)

/-- Surroundings in which nothing has been written. -/
def Surroundings.empty : Surroundings := ⟨"", fun _ => none, .empty⟩

/-- Conditions under which nothing is in the way. The log is where it usually is. -/
def unhindered : Conditions where
  logFile? path := if path = "logs/cli.log" then some logName else none
  refusesLog _ := false
  refusesText _ _ _ := none

/-- With the entry of the node, a snippet stands in the file and nothing is printed. Without it
there is no file. -/
theorem run_allOrNothing_entryOnly :
    (∃ s snippet, Generates (quietOptions "card.slint") s snippet ∧
      let ending := (run entryOnly .default (quietWords "card.slint") ()).execute unhindered .empty
      ending.1 = some 0 ∧ ending.2.files "card.slint" = some (snippet ++ "\n") ∧
        ending.2.printed = "") ∧
      let ending := (run tooSlow .default (quietWords "card.slint") ()).execute unhindered .empty
      ending.1 = some 1 ∧ ending.2.files "card.slint" = none ∧ ending.2.printed = "" := by
  have hparse : parse Settings.default.followVariables (quietWords "card.slint") =
      .run (quietOptions "card.slint") := by
    decide +kernel
  have hlogs : Surroundings.empty.logs.WritesOnly logName :=
    Log.Registry.writesOnly_of_no_loggers rfl
  constructor
  · obtain ⟨r, l, -, hwritten, -⟩ := run_allOrNothing entryOnly hparse () unhindered hlogs
    have hstatus : ((run entryOnly .default (quietWords "card.slint") ()).execute unhindered
        .empty).1 = some 0 := by
      decide +kernel
    obtain ⟨s, snippet, u, -, hsnippet, -, -, hafter⟩ := hwritten hstatus
    refine ⟨s, snippet, hsnippet, hstatus, ?_, ?_⟩
    · exact hafter (.file "card.slint") nofun
    · exact Option.some.inj (hafter .output nofun)
  · obtain ⟨r, l, h, -, hsnippet, hnothing, -⟩ :=
      run_allOrNothing tooSlow hparse () unhindered hlogs
    have hstatus : ((run tooSlow .default (quietWords "card.slint") ()).execute unhindered
        .empty).1 = some 1 := by
      decide +kernel
    have hnone : ∀ s snippet, r = .ok s → ¬ Generates (quietOptions "card.slint") s snippet := by
      intro s snippet hr hgenerates
      obtain ⟨u, -, hexecute⟩ := hsnippet s snippet hr hgenerates rfl
      rw [hexecute] at hstatus
      have hzero : (0 : UInt32) = 1 := Option.some.inj hstatus
      exact absurd hzero (by decide)
    obtain ⟨hsame, -⟩ := hnothing hnone
    exact ⟨hstatus, hsame (.file "card.slint") nofun, Option.some.inj (hsame .output nofun)⟩

/-- A service whose one rendering is said to be where the variables of the file are. -/
def misleading : Server Unit := fun q s =>
  (if q.address = "/v1/files/f/nodes" then
    .ok ⟨200, "\x7b\"nodes\": \x7b\"2\": \x7b\"document\": \x7b\"type\": \"LINE\", " ++
      "\"id\": \"2\"\x7d\x7d\x7d\x7d"⟩
  else if q.address = "/v1/images/f" then
    .ok ⟨200, "\x7b\"images\": \x7b\"2\": " ++
      "\"https://api.figma.com/v1/files/f/variables/local\"\x7d\x7d"⟩
  else .error (.timedOut "slow"), s)

/-- A command line may name the log for the snippet. Then a run that fails writes to its output
file. And a reply may lead to the address of the variables. Then a run that does not follow
variables sends a request to it, though without the token. -/
theorem log_and_variables_reached :
    parse Settings.default.followVariables (quietWords "logs/cli.log") =
        .run (quietOptions "logs/cli.log") ∧
      (let ending :=
        (run tooSlow .default (quietWords "logs/cli.log") ()).execute unhindered .empty
      ending.1 = some 1 ∧
        Surroundings.empty.at? (unhindered.target (some "logs/cli.log")) = none ∧
        (ending.2.at? (unhindered.target (some "logs/cli.log"))).isSome = true) ∧
      ((run misleading .default (quietWords "logs/cli.log") ()).line.requests.map
        fun q => (q.address, q.token)).contains ("/v1/files/f/variables/local", none) = true := by
  refine ⟨by decide +kernel, ⟨by decide +kernel, rfl, by decide +kernel⟩, by decide +kernel⟩

end SceneMarkup.CommandLine
