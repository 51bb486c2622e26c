import SceneMarkup.Proofs.Isolation
import SceneMarkup.Proofs.LineForms

/-!
# Line breaks in markup

A block is printed line by line, and a line should stay one line. The text of a scene keeps its
lines exactly if no text that is quoted in a remark has a line break of its own
(`lines_unbroken_iff`).

One direction is the form of the lines. For the other one, whatever the host says when it fails has
to be found in some line again:

* `Describes.stops`: the fault of a variable ends the script of a property, and so stands in its
  remark.
* `contained_quotes`, `block_quotes`: faults are quoted by properties and so by blocks.
* `Fits.quotes_type`: types without an element are quoted.

A host that fails with a message of two lines breaks a line (`broken_remark`).
-/

namespace SceneMarkup

open Script (Turn)
open Block (indent)
open Property (isRemark)

variable {α : Type} {followed : Bool} {n : Node}

/-- A text stands at the end of a line. -/
def QuotedIn (lines : List String) (text : String) : Prop :=
  ∃ line ∈ lines, ∃ head, line = head ++ text

theorem QuotedIn.mono
    {lines lines' : List String} {text : String}
    (h : QuotedIn lines text) (hsubset : ∀ line ∈ lines, line ∈ lines') :
    QuotedIn lines' text := by
  obtain ⟨line, hline, head, rfl⟩ := h
  exact ⟨_, hsubset _ hline, head, rfl⟩

theorem QuotedIn.indent
    {lines : List String} {text : String} (h : QuotedIn lines text) (depth : Int) :
    QuotedIn (lines.map (indent depth)) text := by
  obtain ⟨line, hline, head, rfl⟩ := h
  refine ⟨_, List.mem_map_of_mem hline, Block.indentation depth ++ head, ?_⟩
  rw [Block.indent, String.append_assoc]

/-- What lines without line breaks quote has none. -/
theorem QuotedIn.inline
    {lines : List String} {text : String}
    (h : QuotedIn lines text) (hinline : ∀ line ∈ lines, Inline line) :
    Inline text := by
  obtain ⟨line, hline, head, rfl⟩ := h
  exact (inline_append.1 (hinline _ hline)).2

/-- The faults in a conversation are quoted in its result. -/
def Quotes (log : List Turn) (lines : List String) : Prop :=
  ∀ t ∈ log, t.FaultsIn (QuotedIn lines)

/-- Lines that quote their logs still do so when logs and lines are put together. -/
theorem quotes_append
    {log log' : List Turn} {lines lines' : List String}
    (h : Quotes log lines) (h' : Quotes log' lines') :
    Quotes (log ++ log') (lines ++ lines') := by
  refine List.forall_mem_append.2 ⟨?_, ?_⟩
  · intro t ht
    refine (h t ht).imp ?_
    intro m hm
    exact hm.mono fun line hline => List.mem_append_left _ hline
  · intro t ht
    refine (h' t ht).imp ?_
    intro m hm
    exact hm.mono fun line hline => List.mem_append_right _ hline

theorem collect_quotes
    {f : α → Script (List String)}
    (hf : ∀ a, (f a).Always fun log r => ∃ lines, r = .ok lines ∧ Quotes log lines) :
    ∀ l : List α, (Script.collect f l).Always fun log r =>
      ∃ lines, r = .ok lines ∧ Quotes log lines
  | [] => ⟨[], rfl, nofun⟩
  | a :: rest => by
      rw [Script.collect, Script.always_bind]
      refine (hf a).imp ?_
      rintro log _ ⟨lines, rfl, hlines⟩
      refine (Script.always_bind _ _ _).2 ((collect_quotes hf rest).imp ?_)
      rintro logs _ ⟨others, rfl, hothers⟩
      refine ⟨lines ++ others, rfl, ?_⟩
      rw [List.append_nil]
      exact quotes_append hlines hothers

/-- A fault in a conversation is what it ends in, unless the fault concerns a drawing. -/
def Stopped (log : List Turn) (r : Except Fault α) : Prop :=
  ∀ t ∈ log, (∀ m, t.query ≠ .drawingOf m) → ∀ f, t.reply = .error f → r = .error (.host f)

theorem stopped_cons_ok
    {q : Query} {answer : q.Answer} {log : List Turn} {r : Except Fault α} (h : Stopped log r) :
    Stopped (⟨q, .ok answer⟩ :: log) r := by
  intro t ht hquery f hf
  rcases List.mem_cons.1 ht with rfl | ht
  · cases hf
  · exact h t ht hquery f hf

theorem stopped_last (q : Query) (f : HostFault) :
    Stopped [⟨q, .error f⟩] (.error (.host f) : Except Fault α) := by
  intro t ht _ g hg
  obtain rfl := List.mem_singleton.1 ht
  cases hg
  rfl

/-- A script that describes a node stops at the first fault of the host. -/
theorem Script.Describes.stops {s : Script α} (hs : s.Describes followed n) :
    s.Always Stopped := by
  induction hs with
  | done a => exact nofun
  | fail f => exact nofun
  | note x _ ih => exact ih
  | resolve id _ _ ih =>
      rw [Reference.resolve_bind]
      rintro (f | _ | v)
      · exact stopped_last _ f
      · exact (ih none).imp fun _ _ => stopped_cons_ok
      · rintro (f | _ | c)
        · exact stopped_cons_ok (stopped_last _ f)
        · exact (ih none).imp fun _ _ h => stopped_cons_ok (stopped_cons_ok h)
        · exact (ih _).imp fun _ _ h => stopped_cons_ok (stopped_cons_ok h)
  | drawing _ ih =>
      intro r
      refine (ih r).imp ?_
      intro log o h t ht hquery f hf
      rcases List.mem_cons.1 ht with rfl | ht
      · exact absurd rfl (hquery n)
      · exact h t ht hquery f hf

namespace Property

/-- Only the commands of a path ask for a drawing. The other properties do not look at the children
of a node, and so their questions cannot tell it from a node with one child more. -/
theorem lines_ask_noDrawing {p : Property} (hp : p ≠ commands) (followed : Bool) (n : Node) :
    (p.lines followed n).Asks fun q => ∀ m, q ≠ .drawingOf m := by
  cases n with
  | mk a k children =>
      let other : Node := .mk a k (.mk a k children :: children)
      have hsame : p.lines followed other = p.lines followed (.mk a k children) := by
        cases p with
        | commands => exact absurd rfl hp
        | _ => rfl
      have hother : (p.lines followed (.mk a k children)).Asks (Query.Concerns followed other) :=
        hsame ▸ (lines_describes p).asks
      refine ((lines_describes p).asks.and hother).imp ?_
      rintro log r ⟨hself, hother⟩ t ht m hm
      have hmself : m = .mk a k children := by simpa [hm, Query.Concerns] using hself t ht
      have hmother : m = other := by simpa [hm, Query.Concerns] using hother t ht
      have hchildren : children = .mk a k children :: children := by
        simpa [other] using hmself.symm.trans hmother
      exact absurd hchildren.symm (List.cons_ne_self _ _)

/-- The faults that a property meets are quoted in its lines or end it. -/
theorem lines_quote (followed : Bool) (n : Node) (p : Property) :
    (p.lines followed n).Always fun log r =>
      (∀ lines, r = .ok lines → Quotes log lines) ∧
        ∀ f, r = .error f → ∀ t ∈ log, t.FaultsIn (· = f.message) := by
  by_cases hp : p = commands
  · subst hp
    show (commandLines n).Always _
    rw [commandLines_eq]
    rintro (f | svg)
    · refine ⟨?_, nofun⟩
      rintro _ ⟨⟩ t ht _ g hg
      obtain rfl := List.mem_singleton.1 ht
      cases hg
      exact ⟨_, List.mem_singleton_self _, "// Error exporting SVG: ", rfl⟩
    · have hnone : ∀ lines, Quotes [⟨.drawingOf n, .ok svg⟩] lines := by
        intro lines t ht _ g hg
        obtain rfl := List.mem_singleton.1 ht
        cases hg
      simp only [afterDrawing]
      split
      · refine ⟨fun lines _ => hnone lines, ?_⟩
        rintro f ⟨⟩
      · refine ⟨fun lines _ => hnone lines, ?_⟩
        rintro f ⟨⟩
  · refine ((lines_describes p).stops.and (lines_ask_noDrawing hp followed n)).imp ?_
    rintro log r ⟨hstopped, hquery⟩
    constructor
    · rintro lines rfl t ht _ f hf
      cases hstopped t ht (hquery t ht) f hf
    · rintro f rfl t ht _ g hg
      cases hstopped t ht (hquery t ht) g hg
      rfl

/-- A property that is contained quotes the fault that ended it. -/
theorem contained_quotes (followed : Bool) (n : Node) (p : Property) :
    (p.contained followed n).Always fun log r => ∃ lines, r = .ok lines ∧ Quotes log lines := by
  rw [contained, Script.recover_eq_resume, Script.always_resume]
  refine (lines_quote followed n p).imp ?_
  rintro log (f | lines) ⟨hok, herror⟩
  · refine ⟨[p.faultRemark f], rfl, ?_⟩
    rw [List.append_nil]
    intro t ht
    refine (herror f rfl t ht).imp ?_
    rintro _ rfl
    exact ⟨_, List.mem_singleton_self _, "// Error processing " ++ p.name ++ ": ", rfl⟩
  · refine ⟨lines, rfl, ?_⟩
    rw [List.append_nil]
    exact hok lines rfl

end Property

namespace Block

theorem mem_lines_of_mem_properties
    {depth : Int} {keyword : String} {identifier comment : Option String}
    {properties : List String} {children : List Block} {line : String}
    (h : line ∈ properties.map (indent (depth + 1))) :
    line ∈ (mk (some keyword) identifier comment properties children).lines depth := by
  have hsome : properties ≠ [] := by
    rintro rfl
    cases h
  simp only [lines, List.mem_append]
  right
  rw [if_neg (by simp [hsome])]
  simp [List.mem_map.1 h]

theorem mem_lines_of_mem_children
    {depth : Int} {keyword : String} {identifier comment : Option String}
    {properties : List String} {children : List Block} {line : String}
    (h : line ∈ linesOfAll (depth + 1) children) :
    line ∈ (mk (some keyword) identifier comment properties children).lines depth := by
  have hsome : children ≠ [] := by
    rintro rfl
    simp [linesOfAll] at h
  simp only [lines, List.mem_append]
  right
  rw [if_neg (by simp [hsome])]
  simp [h]

end Block

namespace Snippet

mutual

/-- A block quotes every fault in its conversation, at whatever depth it stands. -/
theorem block_quotes (followed : Bool) :
    ∀ n : Node, (block followed n).Always fun log r =>
      ∃ b, r = .ok b ∧ ∀ depth, Quotes log (b.lines depth)
  | .mk a k children => by
      rcases instance_or_element k with ⟨c, rfl⟩ | hk
      · -- Why a component is missing is not told.
        rw [block_instance]
        rintro (f | found)
        · refine ⟨_, rfl, ?_⟩
          intro depth t ht hquery
          obtain rfl := List.mem_singleton.1 ht
          exact absurd rfl (hquery _)
        · refine ⟨_, rfl, ?_⟩
          intro depth t ht hquery
          obtain rfl := List.mem_singleton.1 ht
          exact absurd rfl (hquery _)
      · rw [block_element followed a children hk, Script.always_bind]
        refine (collect_quotes (Property.contained_quotes followed _) _).imp ?_
        rintro own _ ⟨lines, rfl, hlines⟩
        refine (Script.always_bind _ _ _).2 ((blocks_quote followed children).imp ?_)
        rintro inner _ ⟨bs, rfl, hbs⟩
        refine ⟨_, rfl, ?_⟩
        intro depth
        rw [List.append_nil]
        refine List.forall_mem_append.2 ⟨?_, ?_⟩
        · intro t ht
          refine (hlines t ht).imp ?_
          intro m hm
          exact (hm.indent (depth + 1)).mono fun _ => Block.mem_lines_of_mem_properties
        · intro t ht
          refine (hbs (depth + 1) t ht).imp ?_
          intro m hm
          exact hm.mono fun _ => Block.mem_lines_of_mem_children

theorem blocks_quote (followed : Bool) :
    ∀ ns : List Node, (blocks followed ns).Always fun log r =>
      ∃ bs, r = .ok bs ∧ ∀ depth, Quotes log (Block.linesOfAll depth bs)
  | [] => ⟨[], rfl, fun _ => nofun⟩
  | n :: rest => by
      rw [blocks_cons, Script.always_bind]
      refine (block_quotes followed n).imp ?_
      rintro log _ ⟨b, rfl, hb⟩
      refine (Script.always_bind _ _ _).2 ((blocks_quote followed rest).imp ?_)
      rintro logs _ ⟨bs, rfl, hbs⟩
      refine ⟨b :: bs, rfl, ?_⟩
      intro depth
      rw [List.append_nil, Block.linesOfAll]
      exact quotes_append (hb depth) (hbs depth)

end

/-- A node of a row has a block in the row of blocks. -/
theorem FitsAll.exists_of_mem
    {R : NodeClass → List String → Prop} {ns : List Node} {bs : List Block} (h : FitsAll R ns bs)
    {c : Node} (hc : c ∈ ns) :
    ∃ b, Fits R c b ∧ ∀ depth, ∀ line ∈ b.lines depth, line ∈ Block.linesOfAll depth bs := by
  induction ns generalizing bs with
  | nil => cases hc
  | cons n rest ih =>
      cases h with
      | @cons _ _ b bs hhead hrest =>
          rcases List.mem_cons.1 hc with rfl | hc
          · refine ⟨b, hhead, ?_⟩
            intro depth line hline
            rw [Block.linesOfAll]
            exact List.mem_append_left _ hline
          · obtain ⟨b', hb', hsubset⟩ := ih hrest hc
            refine ⟨b', hb', ?_⟩
            intro depth line hline
            rw [Block.linesOfAll]
            exact List.mem_append_right _ (hsubset depth line hline)

/-- The type of a node without an element is quoted. -/
theorem Fits.quotes_type
    {R : NodeClass → List String → Prop} {type : String} (htype : n.ShowsType type)
    {b : Block} (h : Fits R n b) (depth : Int) :
    QuotedIn (b.lines depth) type := by
  induction htype generalizing b depth with
  | here =>
      cases h with
      | element =>
          have hsome : "Unsupported type: " ++ type ≠ "" := ne_empty_append (.inl (by decide))
          have hremark : QuotedIn (Block.remark (remark (.other type))) type := by
            refine ⟨"// " ++ ("Unsupported type: " ++ type), ?_, "// " ++ "Unsupported type: ", ?_⟩
            · simp [Block.remark, remark, hsome]
            · rw [String.append_assoc]
          refine (hremark.indent depth).mono ?_
          intro line hline
          rw [Block.lines]
          exact List.mem_append_left _ hline
  | child hk hc _ ih =>
      cases h with
      | ofInstance => exact absurd rfl (hk _)
      | element _ _ hall =>
          obtain ⟨b, hb, hsubset⟩ := hall.exists_of_mem hc
          refine (ih hb (depth + 1)).mono ?_
          intro line hline
          exact Block.mem_lines_of_mem_children (hsubset (depth + 1) line hline)

/-- The lines that a reader of a text sees. -/
def physicalLines (s : String) : List String := (s.toList.splitOn '\n').map String.ofList

theorem lines_ne_nil {n : Node} {b : Block} {R : NodeClass → List String → Prop} (h : Fits R n b) :
    b.lines 0 ≠ [] := by
  cases h with
  | @ofInstance a c children found =>
      cases found <;> simp [blockOfComponent, Block.lines, Block.remark]
  | element =>
      rw [Block.lines]
      split <;> simp

/-- If no line has a line break, the lines of the text are those of the block. -/
theorem physicalLines_render
    {b : Block} (hne : b.lines 0 ≠ []) (h : ∀ line ∈ b.lines 0, Inline line) :
    physicalLines b.render = b.lines 0 := by
  have hbreak : "\n".toList = ['\n'] := rfl
  have htext : b.render.toList = ['\n'].intercalate ((b.lines 0).map String.toList) := by
    rw [Block.render, String.toList_intercalate, hbreak]
  have hpieces : ∀ piece ∈ (b.lines 0).map String.toList, '\n' ∉ piece := by
    intro piece hpiece
    obtain ⟨line, hline, rfl⟩ := List.mem_map.1 hpiece
    exact h line hline
  rw [physicalLines, htext, List.splitOn_intercalate '\n' hpieces (by simpa using hne)]
  simp [Function.comp_def]

theorem text_outcome
    {σ : Type} {host : Host σ} {state : σ} {followed : Bool} {n : Node} {b : Block}
    (hb : ((block followed n).run host state).outcome = .ok b) :
    ((text followed n).run host state).outcome = .ok b.render := by
  show (((block followed n).bind fun b => .done b.render).run host state).outcome = _
  rw [Script.bind_eq_resume, Script.run_resume]
  simp only [Script.Transcript.andThen, hb]
  rfl

end Snippet

namespace Property

/-- A property that a fault has stopped is one line, a remark. -/
theorem contained_of_fault
    {σ : Type} {host : Host σ} {state : σ} {followed : Bool} {n : Node} {p : Property} {f : Fault}
    (hf : ((p.lines followed n).run host state).outcome = .error f) :
    ((p.contained followed n).run host state).outcome = .ok [p.faultRemark f] := by
  rw [contained, Script.recover_eq_resume, Script.run_resume]
  simp only [Script.Transcript.andThen, hf]
  rfl

/-- A remark on a fault has one line if and only if the message has. -/
theorem faultRemark_inline_iff {p : Property} {f : Fault} :
    Inline (p.faultRemark f) ↔ Inline f.message := by
  have hmarks : Inline "// Error processing " ∧ Inline ": " := by decide
  show Inline ("// Error processing " ++ p.name ++ ": " ++ f.message) ↔ _
  simp [name_inline, hmarks]

end Property

namespace Snippet

/-- What a reader of a block sees is what has been printed. -/
structure Unbroken (b : Block) : Prop where
  inline : ∀ line ∈ b.lines 0, Inline line
  physical : physicalLines b.render = b.lines 0
  formed : ∀ line ∈ b.lines 0, Formed Inline line

/-- **The lines of a scene are unbroken exactly if no text that is quoted has a line break**, be it
what the host says when it fails or the type of a node without an element. -/
theorem lines_unbroken_iff
    {σ : Type} (host : Host σ) (state : σ) (followed : Bool) (n : Node) :
    ∃ b, ((block followed n).run host state).outcome = .ok b ∧
      ((text followed n).run host state).outcome = .ok b.render ∧
      (Unbroken b ↔
        (∀ t ∈ (block followed n).turns host state, t.FaultsIn Inline) ∧
          ∀ type, n.ShowsType type → Inline type) ∧
      ∀ (p : Property) (s : σ) (f : Fault),
        ((p.lines followed n).run host s).outcome = .error f →
        ((p.contained followed n).run host s).outcome = .ok [p.faultRemark f] ∧
          isRemark (p.faultRemark f) = true ∧
          (Inline (p.faultRemark f) ↔ Inline f.message) := by
  obtain ⟨b, hb, hquotes⟩ := (block_quotes followed n).run host state
  refine ⟨b, hb, text_outcome hb, ⟨?_, ?_⟩, ?_⟩
  · intro hunbroken
    constructor
    · intro t ht
      exact (hquotes 0 t ht).imp fun m hm => hm.inline hunbroken.inline
    · intro type htype
      have hends : (block followed n).Ends (fun _ => True) (Fits (Written fun _ => True) n) :=
        block_ends (fun _ _ => True.intro) followed n
      have hfits := hends.run host state (fun _ _ _ _ _ => True.intro) hb
      exact (hfits.quotes_type htype 0).inline hunbroken.inline
  · rintro ⟨hhost, htypes⟩
    have hfits := (block_ends (fun _ h => h) followed n).run host state hhost hb
    have hformed : ∀ line ∈ b.lines 0, Formed Inline line :=
      hfits.formed (fun _ h => h) htypes 0
    have hinline : ∀ line ∈ b.lines 0, Inline line :=
      fun line hline => (hformed line hline).inline
    exact ⟨hinline, physicalLines_render (lines_ne_nil hfits) hinline, hformed⟩
  · intro p s f hf
    exact ⟨Property.contained_of_fault hf, Property.isRemark_faultRemark p f,
      Property.faultRemark_inline_iff⟩

/-- A message of two lines tears the remark on it apart. -/
theorem broken_remark :
    ∃ b,
      (block true boundBox).answer
        (failingAt twoSizes.reply "wide" (.failed "request failed\n\x7d broken")) = .ok b ∧
      ∃ line ∈ b.lines 0, ¬ Inline line := by
  refine ⟨_, rfl, ?_⟩
  decide

end Snippet
end SceneMarkup
