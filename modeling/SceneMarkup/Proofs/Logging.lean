import SceneMarkup.Log.Registry
import SceneMarkup.Lookup.Tables

/-!
# What logging writes

Loggers write to the files that they were set up with, and to the standard error. So when all of
them were set up with one file, a record changes no other file, whatever its source and its level
are.

* `Log.Registry.WritesOnly`: no logger writes to another file.
* `Log.Registry.record_file?`, `Log.Registry.record_writesOnly`: a record leaves other files as they
  are, and the loggers as well.
* `Log.Registry.setUp_ok`: the same of setting a logger up.
-/

namespace SceneMarkup.Log.Registry

variable {name other : String} {r : Registry}

/-- What stands in a file of the directory of the logs. -/
def file? (name : String) (r : Registry) : Option String := Tables.lookup? name r.files

/-- Every handler that writes to a file writes to this one. -/
def WritesOnly (name : String) (r : Registry) : Prop :=
  ∀ l ∈ r.loggers, ∀ h ∈ l.handlers, ∀ other, h.target = .file other → other = name

/-- A registry in which nothing is set up writes to no file at all. -/
theorem writesOnly_of_no_loggers (h : r.loggers = []) : r.WritesOnly name := by
  intro l hl
  rw [h] at hl
  cases hl

/-- Adding to a file leaves the others as they are. -/
theorem lookup?_append (text : String) (files : List (String × String)) (hother : other ≠ name) :
    Tables.lookup? other (append name text files) = Tables.lookup? other files := by
  induction files with
  | nil => rfl
  | cons f files ih =>
      obtain ⟨key, content⟩ := f
      by_cases hkey : key = name
      · subst hkey
        simp only [append, List.map_cons, if_true, Tables.lookup?, if_neg hother.symm]
        exact ih
      · simp only [append, List.map_cons, if_neg hkey, Tables.lookup?]
        split
        · rfl
        · exact ih

/-- A new entry at the end leaves the entries of other keys as they are. -/
theorem lookup?_snoc (content : String) (files : List (String × String)) (hother : other ≠ name) :
    Tables.lookup? other (files ++ [(name, content)]) = Tables.lookup? other files := by
  induction files with
  | nil => exact if_neg hother.symm
  | cons f files ih =>
      obtain ⟨key, content⟩ := f
      simp only [List.cons_append, Tables.lookup?]
      split
      · rfl
      · exact ih

/-- Making a file leaves the others as they are. -/
theorem lookup?_createFile (files : List (String × String)) (hother : other ≠ name) :
    Tables.lookup? other (createFile name files) = Tables.lookup? other files := by
  unfold createFile
  split
  · rfl
  · exact lookup?_snoc "" files hother

/-- The handlers that a record meets belong to loggers that were set up. -/
theorem mem_handlersOf {names : List String} {h : Handler} (hh : h ∈ r.handlersOf names) :
    ∃ l ∈ r.loggers, h ∈ l.handlers := by
  induction names with
  | nil => cases hh
  | cons first above ih =>
      unfold handlersOf at hh
      split at hh
      next l hl =>
        rcases List.mem_append.1 hh with hown | habove
        · exact ⟨l, List.mem_of_find?_eq_some hl, hown⟩
        · split at habove
          · exact ih habove
          · cases habove
      next => exact ih hh

/-- A handler writes to its own target. -/
theorem target_of_lineFor? {x : Record} {h : Handler} {line : Target × String}
    (hline : lineFor? x h = some line) : line.1 = h.target := by
  unfold lineFor? at hline
  split at hline
  · cases hline
  · split at hline
    next htarget =>
      cases hline
      exact htarget.symm
    next =>
      cases hline
      rfl

/-- The lines of a message go to the one file, if they go to a file. -/
theorem WritesOnly.linesFor
    (h : r.WritesOnly name) {source message : String} {level : Level} {line : Target × String}
    (hline : line ∈ r.linesFor source level message)
    (htarget : line.1 = .file other) : other = name := by
  unfold Registry.linesFor at hline
  dsimp only at hline
  split at hline
  · split at hline
    · -- A message that meets no handler goes to the standard error, if it goes anywhere.
      split at hline
      · cases hline
      · rw [List.mem_singleton.1 hline] at htarget
        cases htarget
    next =>
      obtain ⟨handler, hhandler, hmade⟩ := List.mem_filterMap.1 hline
      obtain ⟨l, hl, hmem⟩ := mem_handlersOf hhandler
      exact h l hl handler hmem other ((target_of_lineFor? hmade).symm.trans htarget)
  · cases hline

/-- Writing a line leaves the loggers as they are. -/
theorem write_loggers (line : Target × String) (r : Registry) :
    (r.write line).loggers = r.loggers := by
  obtain ⟨target, text⟩ := line
  cases target with
  | file name | elsewhere | console => rfl

/-- Writing a line leaves every file as it is that is not its target. -/
theorem write_file? {line : Target × String} (h : line.1 ≠ .file other) (r : Registry) :
    (r.write line).file? other = r.file? other := by
  obtain ⟨target, text⟩ := line
  cases target with
  | file name =>
      have hother : other ≠ name := fun heq => h (heq ▸ rfl)
      exact lookup?_append text r.files hother
  | elsewhere | console => rfl

theorem foldl_write_loggers (lines : List (Target × String)) (r : Registry) :
    (lines.foldl write r).loggers = r.loggers := by
  induction lines generalizing r with
  | nil => rfl
  | cons line lines ih => exact (ih (r.write line)).trans (write_loggers line r)

/-- A row of lines leaves a file as it is when none of them goes there. -/
theorem foldl_write_file?
    {lines : List (Target × String)} (h : ∀ line ∈ lines, line.1 ≠ .file other) (r : Registry) :
    (lines.foldl write r).file? other = r.file? other := by
  induction lines generalizing r with
  | nil => rfl
  | cons line lines ih =>
      obtain ⟨hline, hlines⟩ := List.forall_mem_cons.1 h
      exact (ih hlines (r.write line)).trans (write_file? hline r)

theorem record_loggers (x : Record) (r : Registry) : (r.record x).loggers = r.loggers :=
  foldl_write_loggers _ _

/-- A record leaves the loggers as they are, so that they still write to the one file only. -/
theorem WritesOnly.record (h : r.WritesOnly name) (x : Record) : (r.record x).WritesOnly name := by
  rw [WritesOnly, record_loggers]
  exact h

/-- A record changes no file but the one that the loggers write to. -/
theorem WritesOnly.record_file? (h : r.WritesOnly name) (x : Record) (hother : other ≠ name) :
    (r.record x).file? other = r.file? other := by
  refine foldl_write_file? ?_ _
  intro line hline htarget
  exact hother (h.linesFor hline htarget)

/-- The handlers of a logger that is set up: those that it had, and two new ones. -/
theorem mem_newLogger {known : String} {target : Target} {earlier : Option Logger} {h : Handler}
    (hh : h ∈ (newLogger known target earlier).handlers) :
    (∃ l, earlier = some l ∧ h ∈ l.handlers) ∨ h.target = target ∨ h.target = .console := by
  rcases List.mem_append.1 hh with hold | hnew
  · cases earlier with
    | none => cases hold
    | some l => exact .inl ⟨l, rfl, hold⟩
  · simp only [List.mem_cons, List.not_mem_nil, or_false] at hnew
    rcases hnew with rfl | rfl
    · exact .inr (.inl rfl)
    · exact .inr (.inr rfl)

/-- With a logger that is set up with the one file, the loggers still write to no other file. -/
theorem WritesOnly.put_newLogger (h : r.WritesOnly name) (known : String) :
    ∀ l ∈ putLogger (newLogger known (.file name) (r.logger? known)) r.loggers,
      ∀ handler ∈ l.handlers,
      ∀ other, handler.target = .file other → other = name := by
  intro l hl handler hhandler other htarget
  rcases List.mem_append.1 hl with hkept | hnew
  · exact h l (List.mem_filter.1 hkept).1 handler hhandler other htarget
  · rw [List.mem_singleton.1 hnew] at hhandler
    rcases mem_newLogger hhandler with ⟨earlier, hearlier, hmem⟩ | hfile | hconsole
    · exact h earlier (List.mem_of_find?_eq_some hearlier) handler hmem other htarget
    · rw [hfile] at htarget
      cases htarget
      rfl
    · rw [hconsole] at htarget
      cases htarget

/-- Setting a logger up with the one file makes it, unless it is there, and changes no other
file. -/
theorem WritesOnly.setUp
    (h : r.WritesOnly name) (logger : String) {path : String}
    (hpath : FilePath.locate (r.files.map (·.1)) path = .ok (.file name)) :
    ∃ l r', r.setUp logger path = .ok (l, r') ∧ r'.WritesOnly name ∧
      ∀ other, other ≠ name → r'.file? other = r.file? other := by
  by_cases hdone : r.done.contains logger = true ∧ (r.logger? (canonical logger)).isSome
  · obtain ⟨hdone, hsome⟩ := hdone
    obtain ⟨l, hl⟩ := Option.isSome_iff_exists.1 hsome
    refine ⟨l, r, ?_, h, fun _ _ => rfl⟩
    simp only [Registry.setUp, hl, hdone]
  · have hsetUp : r.setUp logger path =
        .ok (newLogger (canonical logger) (.file name) (r.logger? (canonical logger)),
          { r.know logger with
            loggers := putLogger
              (newLogger (canonical logger) (.file name) (r.logger? (canonical logger))) r.loggers
            done := logger :: r.done
            verdicts := []
            files := createFile name r.files }) := by
      unfold Registry.setUp
      dsimp only
      split
      next l hl hdone' => exact absurd ⟨hdone', by simp [hl]⟩ hdone
      next => rw [hpath]; rfl
    exact ⟨_, _, hsetUp, h.put_newLogger _, fun other hother => lookup?_createFile r.files hother⟩

end SceneMarkup.Log.Registry
