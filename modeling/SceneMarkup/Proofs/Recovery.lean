import SceneMarkup.Proofs.Reader

/-!
# Snippets are unambiguous

The remarks of a snippet come from five places, and most of them quote what a host says, a drawing
or the type of a node. Literals may hold braces, signs of assignment and slashes. Still the blocks
of a snippet can be told from its text: there is one reader for all scenes, hosts and settings.

* `Property.Writes.readable`: the lines of properties are taken for lines of properties. A
  declaration starts with a name and a colon, a remark on a fault says so in front of the message,
  and the drawing that is quoted stands behind its remark.
* `Snippet.Fits.legible`: so the block of a scene is legible.
* `Snippet.texts_recovered`: its text is read back, if nothing that it quotes has a line break.
-/

namespace SceneMarkup

open Reader (Readable Legible LegibleAll)

namespace Text

theorem guardDigit_ne_nil {cs : List Char} (h : cs ≠ []) : guardDigit cs ≠ [] := by
  cases cs with
  | nil => exact absurd rfl h
  | cons c rest =>
      rw [guardDigit]
      split <;> simp

/-- A name in kebab case is never empty. -/
theorem kebab_isName (name : String) : IsName (kebab name) := by
  refine ⟨?_, kebab_chars name⟩
  rcases kebab_cases name with hunnamed | ⟨ws, hne, hpieces, hjoined⟩
  · rw [hunnamed]
    decide
  · have hlist := guardDigit_ne_nil (hyphenate_ne_nil hne fun w hw => (hpieces w hw).1)
    rw [hjoined]
    intro hempty
    exact hlist (String.ofList_eq_empty_iff.1 hempty)

/-- A name in Pascal case has no blank. -/
theorem blank_notMem_pascal (name : String) : ' ' ∉ (pascal name).toList := by
  intro h
  have hblank := pascal_chars name ' ' h
  revert hblank
  decide

end Text

theorem Snippet.blank_notMem_keyword (k : Kind) : ' ' ∉ (Snippet.keyword k).toList := by
  have hkeywords : ∀ s ∈ keywords, ' ' ∉ s.toList := by decide
  exact hkeywords _ (keyword_mem k)

namespace Property

theorem name_isName (p : Property) : IsName p.name := by
  have hname : p.name ≠ "" ∧ p.name.toList.all Text.isKebabChar = true := by
    cases p <;> decide
  exact ⟨hname.1, List.all_eq_true.1 hname.2⟩

theorem corner_isName (c : Corner) : IsName c.name := by
  have hname : c.name ≠ "" ∧ c.name.toList.all Text.isKebabChar = true := by
    cases c <;> decide
  exact ⟨hname.1, List.all_eq_true.1 hname.2⟩

/-- What starts with a name and a colon is a line of a property. -/
theorem named_readable {name : String} (hname : IsName name) (rest : String) :
    Readable [name ++ (": " ++ rest)] :=
  .property (flush_append hname.flush hname.ne_empty _) (Mark.of_declaration hname rest) .nil

theorem declaration_readable {name : String} (hname : IsName name) (value : String) :
    Readable [declaration name value] := by
  simpa only [declaration, String.append_assoc] using named_readable hname (value ++ ";")

theorem error_readable (text : String) : Readable ["// Error " ++ text] :=
  .property (flush_append (by decide) (by decide) text) (Mark.of_error text) .nil

/-- Whatever is quoted, the lines of a property are taken for what they are. -/
theorem Writes.readable {Q : String → Prop} {p : Property} {part : List String}
    (h : Writes Q p part) : Readable part := by
  cases h with
  | nothing => exact .nil
  | declared _ => exact declaration_readable (name_isName p) _
  | @corners rows hsublist hvalues =>
      clear hsublist hvalues
      induction rows with
      | nil => exact .nil
      | cons row rows ih => exact (declaration_readable (corner_isName row.1) row.2).append ih
  | justified =>
      simp only [declaration, String.append_assoc]
      exact named_readable (name_isName horizontalAlignment) _
  | @notDrawn message _ =>
      have hlead : "// Error exporting SVG: " = "// Error " ++ "exporting SVG: " := by decide
      rw [hlead, String.append_assoc]
      exact error_readable _
  | @noCommands svg =>
      exact .quoted (by decide) (by decide) (Reader.flush_slashes _) .nil
  | @stopped _ f _ =>
      have hlead : "// Error processing " = "// Error " ++ "processing " := by decide
      show Readable ["// Error processing " ++ p.name ++ ": " ++ f.message]
      rw [hlead, String.append_assoc, String.append_assoc, String.append_assoc]
      exact error_readable _

end Property

namespace Snippet

/-- The lines of the properties of a node can be read back. -/
theorem Written.readable
    {Q : String → Prop} {c : NodeClass} {lines : List String} (h : Written Q c lines) :
    Readable lines := by
  obtain ⟨parts, hparts, rfl⟩ := h
  generalize properties c = ps at hparts
  induction hparts with
  | nil => exact .nil
  | cons hpart _ ih => exact hpart.readable.append ih

/-- The block of an instance can be read back, whether its component is known or not. -/
theorem instance_legible (name : String) (found : Option MainComponent) :
    Legible (blockOfComponent name found) := by
  cases found with
  | none =>
      refine .alone ?_
      rw [String.toList_append]
      exact List.prefix_append _ _
  | some c =>
      exact .element (Text.kebab_isName name) (Text.blank_notMem_pascal c.declaredName) nofun .nil
        .nil

theorem remark_lead (k : Kind) : ∀ c, remark k = some c → Mark.typeLead <+: c.toList := by
  intro c hc
  cases k with
  | other type =>
      cases hc
      rw [String.toList_append]
      exact List.prefix_append _ _
  | frame | shape | instanceOf | text | path => cases hc

mutual

/-- A block that fits a node can be read back. -/
theorem Fits.legible {Q : String → Prop} {n : Node} {b : Block} :
    Fits (Written Q) n b → Legible b
  | .ofInstance => instance_legible _ _
  | @Fits.element _ a k _ _ _ _ hlines hall =>
      .element (Text.kebab_isName a.name) (blank_notMem_keyword k) (remark_lead k) hlines.readable
        hall.legible

theorem FitsAll.legible {Q : String → Prop} {ns : List Node} {bs : List Block} :
    FitsAll (Written Q) ns bs → LegibleAll bs
  | .nil => .nil
  | .cons hhead hrest => .cons hhead.legible hrest.legible

end

/-- Nothing that a run quotes has a line break, be it what the host says when it fails or the type
of a node without an element. -/
structure QuotesInline
    {σ : Type} (host : Host σ) (state : σ) (followed : Bool) (n : Node) : Prop where
  faults : ∀ t ∈ (block followed n).turns host state, t.FaultsIn Inline
  types : ∀ type, n.ShowsType type → Inline type

/-- A host that never says anything with a line break gives no cause for one. -/
theorem quotesInline_of_host
    {σ : Type} {host : Host σ} {n : Node}
    (hhost : ∀ q s f, (host q s).1 = .error f → Inline f.message)
    (htypes : ∀ type, n.ShowsType type → Inline type) (state : σ) (followed : Bool) :
    QuotesInline host state followed n :=
  ⟨Script.forall_mem_turns (fun q s _ => hhost q s) _ state, htypes⟩

/-- A text whose quotations have one line each gives its block back. -/
theorem recovered
    {σ : Type} {host : Host σ} {state : σ} {followed : Bool} {n : Node}
    (h : QuotesInline host state followed n) :
    ∃ b, ((block followed n).run host state).outcome = .ok b ∧
      ((text followed n).run host state).outcome = .ok b.render ∧
      Reader.read b.render = some b := by
  obtain ⟨b, hb, hfits⟩ := block_written (fun _ hs => hs) host state followed n h.faults
  have hinline : ∀ line ∈ b.lines 0, Inline line := by
    intro line hline
    exact (hfits.formed (fun _ hs => hs) h.types 0 line hline).inline
  have hphysical := physicalLines_render (lines_ne_nil hfits) hinline
  exact ⟨b, hb, text_outcome hb, Reader.read_render hfits.legible hphysical⟩

/-- **Snippets are unambiguous.** Whatever the scenes, the hosts and the settings of two runs are,
the reader gets from each of the two texts the blocks that it was printed from. So the blocks are
the same if the texts are. -/
theorem texts_recovered
    {σ σ' : Type} {host : Host σ} {host' : Host σ'} {state : σ} {state' : σ'}
    {followed followed' : Bool} {n n' : Node}
    (h : QuotesInline host state followed n) (h' : QuotesInline host' state' followed' n') :
    ∃ b b', ((block followed n).run host state).outcome = .ok b ∧
      ((block followed' n').run host' state').outcome = .ok b' ∧
      ((text followed n).run host state).outcome = .ok b.render ∧
      ((text followed' n').run host' state').outcome = .ok b'.render ∧
      Reader.read b.render = some b ∧ Reader.read b'.render = some b' ∧
      (b.render = b'.render → b = b') := by
  obtain ⟨b, hb, htext, hread⟩ := recovered h
  obtain ⟨b', hb', htext', hread'⟩ := recovered h'
  refine ⟨b, b', hb, hb', htext, htext', hread, hread', ?_⟩
  intro hsame
  rw [hsame, hread'] at hread
  exact (Option.some.inj hread).symm

/-- What a host replies that knows no variables and no components and draws every path alike. -/
def drawingAll (svg : String) : (q : Query) → q.Reply
  | .variableById _ => .ok none
  | .collectionById _ => .ok none
  | .componentOf _ => .ok none
  | .drawingOf _ => .ok svg

/-- A frame around a path, an instance and a node of which the type could be the head of an
element. -/
def sketch : Node :=
  .mk (.bare "1" "Sketch" ⟨[]⟩) (.frame "VERTICAL")
    [.mk (.bare "2" "Arrow" ⟨[]⟩) (.path .vector ⟨[], [], none⟩) [],
      .mk (.bare "3" "Icon" ⟨[]⟩) (.instanceOf none) [],
      .mk (.bare "4" "Star" ⟨[]⟩) (.other "star := Star \x7b") []]

theorem sketch_types : ∀ type, sketch.ShowsType type → Inline type := by
  intro type h
  rcases h with _ | ⟨-, hchild, h⟩
  simp only [List.mem_cons, List.not_mem_nil, or_false] at hchild
  rcases hchild with rfl | rfl | rfl
  · rcases h with _ | ⟨-, hnone, -⟩
    cases hnone
  · rcases h with _ | ⟨-, hnone, -⟩
    cases hnone
  · rcases h with _ | ⟨-, hnone, -⟩
    · decide
    · cases hnone

/-- The drawing of the path reads like the remark on the instance behind it. A host that fails at
every question makes another text of the same scene. -/
theorem texts_recovered_sketch :
    let host := Host.constant (drawingAll "Main component not found for instance: icon")
    let offline := Host.constant fun _ => .error (.failed "offline \x7b")
    QuotesInline host () true sketch ∧ QuotesInline offline () false sketch ∧
    ∃ b b', ((block true sketch).run host ()).outcome = .ok b ∧
      ((block false sketch).run offline ()).outcome = .ok b' ∧
      ((text true sketch).run host ()).outcome = .ok b.render ∧
      ((text false sketch).run offline ()).outcome = .ok b'.render ∧
      Reader.read b.render = some b ∧ Reader.read b'.render = some b' ∧
      (b.render = b'.render → b = b') := by
  intro host offline
  have hhost : QuotesInline host () true sketch := by
    refine quotesInline_of_host ?_ sketch_types () true
    intro q s f hf
    cases q <;> cases hf
  have hoffline : QuotesInline offline () false sketch := by
    refine quotesInline_of_host ?_ sketch_types () false
    rintro q s f ⟨⟩
    decide
  exact ⟨hhost, hoffline, texts_recovered hhost hoffline⟩

end Snippet
end SceneMarkup
