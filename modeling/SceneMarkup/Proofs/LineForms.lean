import SceneMarkup.Proofs.Ordering

/-!
# Forms of lines

Every line of markup is, after its indentation, a remark, the head of an element, the brace at its
end or a declaration (`Form`). In all of them only the end of a remark is free: it quotes what the
host says when it fails, or the type of a node without an element. The other free texts are escaped,
spelled with the characters of identifiers or put on one line before.

* `Property.Writes.remark_form`: the remarks that properties write.
* `Snippet.element_formed`: the lines of a block from those of its properties and children.
* `Snippet.Fits.formed`: all lines of a scene, for every class of texts that may be quoted.
-/

namespace SceneMarkup

open Block (header indent)
open Property (isRemark isRemark_append Declares declarations)
open Snippet (order)

variable {Q : String → Prop}

/-- The forms of a line without its indentation. -/
inductive Form (Q : String → Prop) : String → Prop
  | remark {head tail : String} :
      isRemark head = true → Inline head → Q tail → Form Q (head ++ tail)
  | opening {keyword : String} {identifier : Option String} :
      Inline (header keyword identifier) → Form Q (header keyword identifier ++ " \x7b")
  | bare {keyword : String} {identifier : Option String} :
      Inline (header keyword identifier) → Form Q (header keyword identifier ++ " \x7b\x7d")
  | closing : Form Q "\x7d"
  | declaration {c : NodeClass} {split : Bool} {name line : String} :
      name ∈ order split c → Declares name line → Form Q line

theorem Form.inline {line : String} (h : Form Inline line) : Inline line := by
  have hmarks : Inline " \x7b" ∧ Inline " \x7b\x7d" ∧ Inline "\x7d" := by decide
  cases h with
  | remark _ hhead htail => exact inline_append.2 ⟨hhead, htail⟩
  | opening hheader => exact inline_append.2 ⟨hheader, hmarks.1⟩
  | bare hheader => exact inline_append.2 ⟨hheader, hmarks.2.1⟩
  | closing => exact hmarks.2.2
  | @declaration c split name _ hname hdeclares =>
      exact hdeclares.inline (Snippet.order_inline split c name hname)

/-- A line at some depth. -/
def Formed (Q : String → Prop) (line : String) : Prop :=
  ∃ depth text, line = indent depth text ∧ Form Q text

theorem inline_indentation (depth : Int) : Inline (Block.indentation depth) := by
  rw [Block.indentation, inline_ofList]
  intro h
  have hblank := List.eq_of_mem_replicate h
  revert hblank
  decide

/-- A line behind its indentation is free of line breaks if remarks are. -/
theorem Formed.inline {line : String} (h : Formed Inline line) : Inline line := by
  obtain ⟨depth, text, rfl, hform⟩ := h
  exact inline_append.2 ⟨inline_indentation depth, hform.inline⟩

/-- Lines keep their form when they are indented. -/
theorem formed_of_mem_map_indent
    {depth : Int} {texts : List String} (h : ∀ text ∈ texts, Form Q text) :
    ∀ line ∈ texts.map (indent depth), Formed Q line := by
  intro line hline
  obtain ⟨text, htext, rfl⟩ := List.mem_map.1 hline
  exact ⟨depth, text, rfl, h text htext⟩

namespace Property

/-- A remark that a property writes ends in text that is allowed. -/
theorem Writes.remark_form
    (hQ : ∀ s, Inline s → Q s) {p : Property} {part : List String} (h : Writes Q p part) :
    ∀ line ∈ part, isRemark line = true → Form Q line := by
  have hmark : isRemark "// " = true ∧ Inline "// " := by decide
  cases h with
  | nothing => exact nofun
  | declared hv =>
      obtain ⟨c, cs, hname, hc⟩ := name_head p
      simp [isRemark_declaration hname hc]
  | @corners rows _ hvalues =>
      intro line hline
      obtain ⟨row, -, rfl⟩ := List.mem_map.1 hline
      obtain ⟨c, cs, hname, hc⟩ := corner_name_head row.1
      simp [isRemark_declaration hname hc]
  | justified =>
      rintro line hline -
      obtain rfl := List.mem_singleton.1 hline
      have hname : horizontalAlignment.name ∈ order false .text :=
        List.mem_flatMap.2 ⟨horizontalAlignment, by decide, by decide⟩
      exact .declaration hname (.justified ⟨by decide, by decide⟩)
  | notDrawn hmessage =>
      rintro line hline -
      obtain rfl := List.mem_singleton.1 hline
      exact .remark (by decide) (by decide) hmessage
  | @noCommands svg =>
      rintro line hline -
      rcases List.mem_pair.1 hline with rfl | rfl
      · exact .remark hmark.1 hmark.2
          (hQ "Could not extract path commands from SVG" (by decide))
      · exact .remark hmark.1 hmark.2 (hQ _ (Text.singleLine_inline svg))
  | @stopped _ f hmessage =>
      rintro line hline -
      obtain rfl := List.mem_singleton.1 hline
      have hhead : isRemark "// Error processing " = true ∧ Inline "// Error processing " := by
        decide
      have hcolon : Inline ": " := by decide
      refine .remark (isRemark_append (isRemark_append hhead.1 p.name) ": ") ?_ hmessage
      simp [hhead.2, name_inline, hcolon]

end Property

/-- What the properties of a class write are declarations and remarks. -/
theorem form_of_written
    (hQ : ∀ s, Inline s → Q s) {c : NodeClass} {lines : List String}
    (h : Snippet.Written Q c lines) :
    ∀ line ∈ lines, Form Q line := by
  obtain ⟨names, hnames, -, split, hsublist⟩ := (Snippet.inOrder_of_written h).ordered
  obtain ⟨parts, hparts, rfl⟩ := h
  intro line hline
  cases hremark : isRemark line with
  | true =>
      obtain ⟨part, hpart, hmem⟩ := List.mem_flatten.1 hline
      obtain ⟨p, -, hwrites⟩ := exists_of_forall₂ hparts part hpart
      exact hwrites.remark_form hQ line hmem hremark
  | false =>
      have hdeclared : line ∈ declarations parts.flatten :=
        List.mem_filter.2 ⟨hline, by simp [hremark]⟩
      obtain ⟨name, hname, hdeclares⟩ := exists_of_forall₂ hnames line hdeclared
      exact .declaration (hsublist.subset hname) hdeclares

/-- Types of nodes for which there is no element, outside of instances. -/
inductive Node.ShowsType (type : String) : Node → Prop
  | here {a : Attributes} {children : List Node} :
      ShowsType type (.mk a (.other type) children)
  | child {a : Attributes} {k : Kind} {children : List Node} {c : Node} :
      (∀ r, k ≠ .instanceOf r) → c ∈ children → c.ShowsType type →
      ShowsType type (.mk a k children)

namespace Snippet

/-- The elements that nodes become, apart from instances. -/
def keywords : List String := ["HorizontalLayout", "VerticalLayout", "Rectangle", "Text", "Path"]

/-- The elements that a node can become are few. -/
theorem keyword_mem (k : Kind) : keyword k ∈ keywords := by
  cases k with
  | frame mode =>
      show frameKeyword mode ∈ keywords
      unfold frameKeyword
      split_ifs <;> simp [keywords]
  | shape | instanceOf | text | path | other => simp [keyword, keywords]

theorem keyword_inline (k : Kind) : Inline (keyword k) := by
  have hkeywords : ∀ s ∈ keywords, Inline s := by decide
  exact hkeywords _ (keyword_mem k)

/-- A header has one line: the name in it is in kebab case. -/
theorem header_inline {keyword : String} (hkeyword : Inline keyword) (name : String) :
    Inline (header keyword (some (Text.kebab name))) := by
  have hassign : Inline " := " := by decide
  simp only [header]
  split
  · exact hkeyword
  · simp [hkeyword, Text.kebab_inline, hassign]

theorem comment_form {comment : Option String} (h : ∀ c, comment = some c → Form Q ("// " ++ c)) :
    ∀ text ∈ Block.remark comment, Form Q text := by
  cases comment with
  | none => exact nofun
  | some c =>
      simp only [Block.remark]
      split
      · exact nofun
      · simpa using h c rfl

/-- The lines of an element are its remark, its head, what is inside and the brace at its end. -/
theorem element_formed
    {depth : Int} {keyword : String} {identifier comment : Option String}
    {lines : List String} {bs : List Block}
    (hcomment : ∀ c, comment = some c → Form Q ("// " ++ c))
    (hheader : Inline (header keyword identifier))
    (hlines : ∀ line ∈ lines, Form Q line)
    (hbs : ∀ line ∈ Block.linesOfAll (depth + 1) bs, Formed Q line) :
    ∀ line ∈ (Block.mk (some keyword) identifier comment lines bs).lines depth,
      Formed Q line := by
  rw [Block.lines]
  refine List.forall_mem_append.2 ⟨formed_of_mem_map_indent (comment_form hcomment), ?_⟩
  split
  · intro line hline
    obtain rfl := List.mem_singleton.1 hline
    exact ⟨depth, _, rfl, .bare hheader⟩
  · refine List.forall_mem_cons.2 ⟨⟨depth, _, rfl, .opening hheader⟩, ?_⟩
    refine List.forall_mem_append.2 ⟨?_, ?_⟩
    · exact List.forall_mem_append.2 ⟨formed_of_mem_map_indent hlines, hbs⟩
    · intro line hline
      obtain rfl := List.mem_singleton.1 hline
      exact ⟨depth, _, rfl, .closing⟩

/-- The block of an instance has lines of these forms, whether its component is known or not. -/
theorem instance_formed
    (hQ : ∀ s, Inline s → Q s) (name : String) (found : Option MainComponent) (depth : Int) :
    ∀ line ∈ (blockOfComponent name found).lines depth, Formed Q line := by
  cases found with
  | some c =>
      refine element_formed nofun (header_inline (Text.pascal_inline c.declaredName) name) nofun ?_
      rw [Block.linesOfAll]
      exact nofun
  | none =>
      rw [blockOfComponent, Block.lines]
      refine formed_of_mem_map_indent (comment_form ?_)
      rintro _ ⟨⟩
      have hlead : Inline "Main component not found for instance: " := by decide
      refine .remark (by decide) (by decide) (hQ _ ?_)
      exact inline_append.2 ⟨hlead, Text.kebab_inline name⟩

/-- A remark names a type, and only where the kind has no element of its own. -/
theorem remark_form {k : Kind} (htype : ∀ type, k = .other type → Q type) :
    ∀ c, remark k = some c → Form Q ("// " ++ c) := by
  cases k with
  | other type =>
      rintro _ ⟨⟩
      rw [← String.append_assoc]
      exact .remark (by decide) (by decide) (htype type rfl)
  | frame | shape | instanceOf | text | path => exact nofun

mutual

/-- Every line of a block that fits its node has a form, at whatever depth it stands. -/
theorem Fits.formed
    (hQ : ∀ s, Inline s → Q s) {n : Node} {b : Block} :
    Fits (Written Q) n b → (∀ type, n.ShowsType type → Q type) →
      ∀ depth, ∀ line ∈ b.lines depth, Formed Q line
  | .ofInstance, _, depth => instance_formed hQ _ _ depth
  | @Fits.element _ a k children lines bs hk hlines hall, htypes, depth => by
      refine element_formed ?_ ?_ (form_of_written hQ hlines) ?_
      · refine remark_form ?_
        rintro type rfl
        exact htypes type .here
      · exact header_inline (keyword_inline k) a.name
      · refine hall.formed hQ ?_ (depth + 1)
        intro c hc type htype
        exact htypes type (.child hk hc htype)

theorem FitsAll.formed
    (hQ : ∀ s, Inline s → Q s) {ns : List Node} {bs : List Block} :
    FitsAll (Written Q) ns bs → (∀ n ∈ ns, ∀ type, n.ShowsType type → Q type) →
      ∀ depth, ∀ line ∈ Block.linesOfAll depth bs, Formed Q line
  | .nil, _, depth => by
      rw [Block.linesOfAll]
      exact nofun
  | .cons hhead hrest, htypes, depth => by
      obtain ⟨htypeHead, htypeRest⟩ := List.forall_mem_cons.1 htypes
      rw [Block.linesOfAll]
      exact List.forall_mem_append.2
        ⟨hhead.formed hQ htypeHead depth, hrest.formed hQ htypeRest depth⟩

end

end Snippet
end SceneMarkup
