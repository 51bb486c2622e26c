import Mathlib.Data.List.Basic
import SceneMarkup.Markup.Block

/-!
# How the lines of blocks nest

The text of a block shows its tree by braces and by indentation. This file says what the two have to
show, beside the function that writes the lines.

* `Laid`: the lines of a block at a depth as a relation, with one rule for each shape of a block.
  These lines and no others are written (`laid_iff`).
* `Row`: a line with the place of its block in the tree and what it is there for. The place decides
  the indentation of the line (`Row.written`).
* `Row.follow`: reads rows with a stack of the blocks that are open. A block begins directly inside
  the one that is open, a property stands directly inside its own block, and what is closed is the
  block that was opened last.
* `nesting_faithful`: the lines are laid out, they are the lines of rows that can be read to the end
  with nothing left open, and each block has those rows that belong to it.
-/

namespace SceneMarkup.Block

mutual

/-- The lines of a block at a depth, as they are laid out. -/
inductive Laid : Int → Block → List String → Prop
  /-- A block without a keyword is a comment and nothing else. -/
  | comment
      {depth : Int} {identifier comment : Option String} {properties : List String}
      {children : List Block} :
      Laid depth (.mk none identifier comment properties children)
        ((remark comment).map (indent depth))
  /-- A block with nothing inside it has a header with both braces. -/
  | bare {depth : Int} {keyword : String} {identifier comment : Option String} :
      Laid depth (.mk (some keyword) identifier comment [] [])
        ((remark comment).map (indent depth) ++
          [indent depth (header keyword identifier ++ " \x7b\x7d")])
  /-- Any other block closes behind its properties and its children, which stand one level
  deeper. -/
  | filled
      {depth : Int} {keyword : String} {identifier comment : Option String}
      {properties : List String}
      {children : List Block} {inner : List String} :
      properties ≠ [] ∨ children ≠ [] →
      LaidAll (depth + 1) children inner →
      Laid depth (.mk (some keyword) identifier comment properties children)
        ((remark comment).map (indent depth) ++
          indent depth (header keyword identifier ++ " \x7b") ::
          (properties.map (indent (depth + 1)) ++ inner ++ [indent depth "\x7d"]))

/-- The lines of a row of blocks, one block after the other. -/
inductive LaidAll : Int → List Block → List String → Prop
  | nil {depth : Int} : LaidAll depth [] []
  | cons {depth : Int} {b : Block} {bs : List Block} {own rest : List String} :
      Laid depth b own → LaidAll depth bs rest → LaidAll depth (b :: bs) (own ++ rest)

end

theorem isEmpty_and_isEmpty {α β : Type} (as : List α) (bs : List β) :
    (as.isEmpty && bs.isEmpty) = false ↔ as ≠ [] ∨ bs ≠ [] := by
  cases as <;> cases bs <;> simp

mutual

/-- The lines of a block are laid out. -/
theorem lines_laid : ∀ (depth : Int) (b : Block), Laid depth b (lines depth b)
  | _, mk none _ _ _ _ => by
      rw [lines]
      exact .comment
  | depth, mk (some keyword) identifier comment properties children => by
      rw [lines]
      split
      · next hempty =>
        obtain ⟨rfl, rfl⟩ : properties = [] ∧ children = [] := by simpa using hempty
        exact .bare
      · next hinside =>
        refine .filled ?_ (linesOfAll_laid (depth + 1) children)
        exact (isEmpty_and_isEmpty _ _).1 (Bool.eq_false_iff.2 hinside)

theorem linesOfAll_laid : ∀ (depth : Int) (bs : List Block), LaidAll depth bs (linesOfAll depth bs)
  | _, [] => by
      rw [linesOfAll]
      exact .nil
  | depth, b :: bs => by
      rw [linesOfAll]
      exact .cons (lines_laid depth b) (linesOfAll_laid depth bs)

end

mutual

/-- The layout leaves no choice: there is one list of lines. -/
theorem Laid.eq_lines :
    ∀ {depth : Int} {b : Block} {ls : List String}, Laid depth b ls → ls = lines depth b
  | _, _, _, .comment => by rw [lines]
  | _, _, _, .bare => by rw [lines]; rfl
  | _, _, _, .filled hinside hinner => by
      rw [lines, (isEmpty_and_isEmpty _ _).2 hinside, hinner.eq_linesOfAll]
      rfl

theorem LaidAll.eq_linesOfAll :
    ∀ {depth : Int} {bs : List Block} {ls : List String},
      LaidAll depth bs ls → ls = linesOfAll depth bs
  | _, _, _, .nil => by rw [linesOfAll]
  | _, _, _, .cons hown hrest => by rw [linesOfAll, hown.eq_lines, hrest.eq_linesOfAll]

end

/-- What is laid out is what is written. -/
theorem laid_iff {depth : Int} {b : Block} {ls : List String} :
    Laid depth b ls ↔ ls = lines depth b :=
  ⟨Laid.eq_lines, fun h => h ▸ lines_laid depth b⟩

/-- Lines can stand at a depth if and only if it and its indentation are integers of 64 bits. They
are laid out there. -/
theorem linesAt_eq_ok_iff {depth : Int} {b : Block} {ls : List String} :
    b.linesAt depth = .ok ls ↔
      (-9223372036854775808 ≤ depth ∧ 4 * depth ≤ 9223372036854775807) ∧ Laid depth b ls := by
  rw [laid_iff, linesAt, checkDepth]
  split
  next hbeyond => exact iff_of_false nofun fun h => by omega
  next hword =>
    split
    next hwide => exact iff_of_false nofun fun h => by omega
    next hfits =>
      refine ⟨fun h => ⟨by omega, ?_⟩, ?_⟩
      · exact (Except.ok.inj h).symm
      · rintro ⟨-, rfl⟩
        rfl

/-- What a line of a block is there for. -/
inductive Role
  | remark | bare | opening | property | closing
  deriving DecidableEq

/-- A line of a tree of blocks: the place of its block, given by the positions of the blocks on the
way from the root, what the line is there for, and what it says. -/
structure Row where
  place : List Nat
  role : Role
  text : String

namespace Row

/-- How many levels a row stands below the root. A property stands one level deeper than its
block. -/
def level (r : Row) : Nat := if r.role = .property then r.place.length + 1 else r.place.length

/-- The line of a row in a tree at a depth. -/
def written (depth : Int) (r : Row) : String := indent (depth + r.level) r.text

/-- The same row in a tree that stands at a place itself. -/
def under (place : List Nat) (r : Row) : Row := { r with place := place ++ r.place }

/-- The place of the block around the one at a place. -/
def around : List Nat → Option (List Nat)
  | [] => none
  | i :: place => some (i :: place).dropLast

/-- Reads a row, given the places of the blocks that are open, innermost first. -/
def follow (opened : List (List Nat)) (r : Row) : Option (List (List Nat)) :=
  match r.role with
  | .remark | .bare => if opened.head? = around r.place then some opened else none
  | .opening => if opened.head? = around r.place then some (r.place :: opened) else none
  | .property => if opened.head? = some r.place then some opened else none
  | .closing => if opened.head? = some r.place then some opened.tail else none

end Row

/-- The rows that belong to a block itself and stand before those of its children. -/
def leading : Block → List Row
  | mk none _ comment _ _ => (remark comment).map (Row.mk [] .remark)
  | mk (some keyword) identifier comment properties children =>
    (remark comment).map (Row.mk [] .remark) ++
      if properties.isEmpty && children.isEmpty then
        [⟨[], .bare, header keyword identifier ++ " \x7b\x7d"⟩]
      else
        ⟨[], .opening, header keyword identifier ++ " \x7b"⟩ ::
          properties.map (Row.mk [] .property)

/-- The rows that belong to a block itself and stand behind those of its children. -/
def trailing : Block → List Row
  | mk none _ _ _ _ => []
  | mk (some _) _ _ properties children =>
    if properties.isEmpty && children.isEmpty then [] else [⟨[], .closing, "\x7d"⟩]

mutual

/-- The rows of a tree of blocks. -/
def rows : Block → List Row
  | mk none identifier comment properties children =>
    leading (mk none identifier comment properties children)
  | mk (some keyword) identifier comment properties children =>
    leading (mk (some keyword) identifier comment properties children) ++ rowsFrom 0 children ++
      trailing (mk (some keyword) identifier comment properties children)

/-- The rows of a row of trees, the first of which has a position. -/
def rowsFrom (position : Nat) : List Block → List Row
  | [] => []
  | b :: bs => (rows b).map (Row.under [position]) ++ rowsFrom (position + 1) bs

end

/-- The block at a place, if all blocks around it have a keyword. -/
def shownAt : List Nat → Block → Option Block
  | [], b => some b
  | _ :: _, mk none _ _ _ _ => none
  | i :: place, mk (some _) _ _ _ children => children[i]?.bind (shownAt place)

theorem indentation_add (n m : Nat) :
    indentation (n + m : Nat) = indentation n ++ indentation m := by
  simp only [indentation, Int.toNat_natCast, Nat.mul_add, ← List.replicate_append_replicate,
    String.ofList_append]

/-- A line may be indented level by level. -/
theorem indent_add (n m : Nat) (line : String) :
    indent (n + m : Nat) line = indent n (indent m line) := by
  rw [indent, indent, indent, indentation_add, String.append_assoc]

namespace Row

/-- A row is written one level deeper if its block is inside another one. -/
theorem written_under (depth : Int) (i : Nat) (r : Row) :
    written depth (under [i] r) = written (depth + 1) r := by
  have hlevel : (under [i] r).level = r.level + 1 := by
    by_cases hrole : r.role = .property <;> simp [level, under, hrole]
  rw [written, written, hlevel, Int.natCast_add, Int.add_assoc, Int.add_comm 1]
  rfl

theorem written_natCast (n : Nat) (r : Row) : written n r = indent n (written 0 r) := by
  rw [written, written, Int.zero_add, ← indent_add, Int.natCast_add]

/-- Places inside places are put together. -/
theorem under_under (place : List Nat) (i : Nat) (r : Row) :
    under place (under [i] r) = under (place ++ [i]) r := by
  simp [under]

theorem around_concat (place : List Nat) (i : Nat) : around (place ++ [i]) = some place := by
  cases place with
  | nil => rfl
  | cons j place =>
    rw [List.cons_append, around, ← List.cons_append, List.dropLast_concat]

end Row

open Row

theorem remarks_written (depth : Int) (comment : Option String) :
    ((remark comment).map (Row.mk [] .remark)).map (written depth) =
        (remark comment).map (indent depth) := by
  rw [List.map_map]
  exact List.map_congr_left fun text _ => by
    simp [Function.comp_apply, written, level]

mutual

/-- The lines of a tree are those of its rows. -/
theorem lines_eq_rows : ∀ (depth : Int) (b : Block), lines depth b = (rows b).map (written depth)
  | depth, mk none _ comment _ _ => by
      rw [lines, rows, leading, remarks_written]
  | depth, mk (some keyword) identifier comment properties children => by
      rw [lines, rows, leading, trailing, List.map_append, List.map_append, List.map_append,
        remarks_written, ← linesOfAll_eq_rows]
      split
      · next hempty =>
        obtain ⟨rfl, rfl⟩ : properties = [] ∧ children = [] := by simpa using hempty
        simp [linesOfAll, written, level]
      · simp [written, level]

theorem linesOfAll_eq_rows :
    ∀ (depth : Int) (position : Nat) (bs : List Block),
      linesOfAll (depth + 1) bs = (rowsFrom position bs).map (written depth)
  | _, _, [] => by
      rw [linesOfAll, rowsFrom, List.map_nil]
  | depth, position, b :: bs => by
      have hunder : written depth ∘ under [position] = written (depth + 1) :=
        funext (written_under depth position)
      rw [linesOfAll, rowsFrom, List.map_append, List.map_map, hunder, lines_eq_rows (depth + 1) b,
        linesOfAll_eq_rows depth (position + 1) bs]

end

/-- Rows that leave what is open as it is can be read one after the other. -/
theorem foldlM_follow_of_forall
    {opened : List (List Nat)} {rs : List Row} (h : ∀ r ∈ rs, follow opened r = some opened) :
    rs.foldlM follow opened = some opened := by
  induction rs with
  | nil => rfl
  | cons r rs ih =>
    obtain ⟨hr, hrs⟩ := List.forall_mem_cons.1 h
    rw [List.foldlM_cons, hr]
    exact ih hrs

variable {place : List Nat} {opened : List (List Nat)}

theorem follow_remarks (h : opened.head? = around place) (comment : Option String) :
    (((remark comment).map (Row.mk [] .remark)).map (under place)).foldlM follow opened =
        some opened := by
  refine foldlM_follow_of_forall ?_
  simp [under, follow, h]

theorem follow_properties (properties : List String) :
    ((properties.map (Row.mk [] .property)).map (under place)).foldlM follow (place :: opened) =
      some (place :: opened) := by
  refine foldlM_follow_of_forall ?_
  simp [under, follow]

mutual

/-- The rows of a tree are read directly inside the block around it, and leave open what was open
before. -/
theorem follow_rows :
    ∀ (b : Block) (place : List Nat) (opened : List (List Nat)), opened.head? = around place →
      ((rows b).map (under place)).foldlM follow opened = some opened
  | mk none _ comment _ _, _, _, h => by
      rw [rows, leading]
      exact follow_remarks h comment
  | mk (some keyword) identifier comment properties children, place, opened, h => by
      rw [rows, leading, trailing, List.append_assoc, List.append_assoc, List.map_append,
        List.foldlM_append, follow_remarks h comment]
      show List.foldlM follow opened _ = _
      split
      · next hempty =>
        obtain ⟨rfl, rfl⟩ : properties = [] ∧ children = [] := by simpa using hempty
        simp [rowsFrom, under, follow, h]
      · -- The header opens the block, so the properties and the children are read inside it.
        rw [List.cons_append, List.map_cons, List.foldlM_cons]
        have hopening : follow opened
            (under place ⟨[], .opening, header keyword identifier ++ " \x7b"⟩) =
            some (place :: opened) := by simp [under, follow, h]
        rw [hopening]
        show List.foldlM follow (place :: opened) _ = _
        rw [List.map_append, List.foldlM_append, follow_properties]
        show List.foldlM follow (place :: opened) _ = _
        rw [List.map_append, List.foldlM_append, follow_rowsFrom children 0 place opened]
        simp [under, follow]

/-- A row of blocks leaves the block around it open. -/
theorem follow_rowsFrom :
    ∀ (bs : List Block) (position : Nat) (place : List Nat) (opened : List (List Nat)),
      ((rowsFrom position bs).map (under place)).foldlM follow (place :: opened) =
          some (place :: opened)
  | [], _, _, _ => by
      rw [rowsFrom]
      rfl
  | b :: bs, position, place, opened => by
      have hunder : under place ∘ under [position] = under (place ++ [position]) :=
        funext (under_under place position)
      rw [rowsFrom, List.map_append, List.map_map, hunder, List.foldlM_append,
        follow_rows b (place ++ [position]) (place :: opened) (around_concat place position).symm]
      exact follow_rowsFrom bs (position + 1) place opened

end

/-- The rows that belong to a block itself. -/
def own (b : Block) : List Row := leading b ++ trailing b

theorem place_of_mem_own {b : Block} {r : Row} (h : r ∈ own b) : r.place = [] := by
  obtain ⟨_ | keyword, identifier, comment, properties, children⟩ := b
  · simp only [own, leading, trailing, List.append_nil, List.mem_map] at h
    obtain ⟨text, -, rfl⟩ := h
    rfl
  · simp only [own, leading, trailing, List.mem_append, List.mem_map] at h
    split at h
    · rcases h with (⟨text, -, rfl⟩ | h) | h
      · rfl
      · rw [List.eq_of_mem_singleton h]
      · cases h
    · rcases h with (⟨text, -, rfl⟩ | h) | h
      · rfl
      · rcases List.mem_cons.1 h with rfl | h
        · rfl
        · obtain ⟨text, -, rfl⟩ := List.mem_map.1 h
          rfl
      · rw [List.eq_of_mem_singleton h]

/-- Each block of a row has a place of its own, from a position on. -/
theorem place_of_mem_rowsFrom {bs : List Block} {position : Nat} {r : Row}
    (h : r ∈ rowsFrom position bs) :
    ∃ i place, r.place = i :: place ∧ position ≤ i := by
  induction bs generalizing position with
  | nil =>
    rw [rowsFrom] at h
    cases h
  | cons b bs ih =>
    rw [rowsFrom, List.mem_append, List.mem_map] at h
    rcases h with ⟨r, -, rfl⟩ | h
    · exact ⟨position, r.place, rfl, Nat.le_refl position⟩
    · obtain ⟨i, place, hplace, hle⟩ := ih h
      exact ⟨i, place, hplace, by omega⟩

/-- Among the rows of the children, those at places in one child are the rows of this child. -/
theorem filter_rowsFrom (place : List Nat) :
    ∀ (bs : List Block) (position i : Nat),
      (rowsFrom position bs).filter (fun r => r.place = (position + i) :: place) =
        (bs[i]?.elim [] fun b => (rows b).filter fun r => r.place = place).map
            (under [position + i])
  | [], position, i => by
      simp [rowsFrom]
  | b :: bs, position, 0 => by
      have hlater : (rowsFrom (position + 1) bs).filter (fun r => r.place = position :: place) =
          [] := by
        refine List.filter_eq_nil_iff.2 fun r hr hplace => ?_
        obtain ⟨i, place', hplace', hle⟩ := place_of_mem_rowsFrom hr
        simp [hplace'] at hplace
        omega
      simp [rowsFrom, hlater, List.filter_map, under, Function.comp_def]
  | b :: bs, position, i + 1 => by
      have hfirst : ((rows b).map (under [position])).filter
          (fun r => r.place = (position + (i + 1)) :: place) = [] := by
        refine List.filter_eq_nil_iff.2 fun r hr hplace => ?_
        obtain ⟨r, -, rfl⟩ := List.mem_map.1 hr
        simp [under] at hplace
      have hrest := filter_rowsFrom place bs (position + 1) i
      rw [Nat.add_right_comm, Nat.add_assoc] at hrest
      rw [rowsFrom, List.filter_append, hfirst, List.nil_append, hrest]
      rfl

/-- Blocks inside a block have no row at its place. -/
theorem rowsFrom_notMem_root (bs : List Block) (position : Nat) :
    (rowsFrom position bs).filter (fun r => r.place = []) = [] := by
  refine List.filter_eq_nil_iff.2 fun r hr hplace => ?_
  obtain ⟨i, place, hchild, -⟩ := place_of_mem_rowsFrom hr
  simp [hchild] at hplace

/-- The rows at a place are those that belong to the block which is shown there, and there are none
if no block is. -/
theorem filter_rows (place : List Nat) (b : Block) :
    (rows b).filter (fun r => r.place = place) =
        ((b.shownAt place).elim [] own).map (under place) := by
  induction place generalizing b with
  | nil =>
    have hown : (own b).filter (fun r => r.place = []) = own b :=
      List.filter_eq_self.2 fun r hr => decide_eq_true (place_of_mem_own hr)
    have hunder : (own b).map (under []) = own b := List.map_id _
    rw [shownAt, Option.elim_some, hunder, ← hown]
    obtain ⟨_ | keyword, identifier, comment, properties, children⟩ := b
    · rw [rows, own, trailing, List.append_nil]
    · rw [rows, own, List.filter_append, List.filter_append, List.filter_append,
        rowsFrom_notMem_root, List.append_nil]
  | cons i place ih =>
    have hown : (own b).filter (fun r => r.place = i :: place) = [] := by
      refine List.filter_eq_nil_iff.2 fun r hr hplace => ?_
      simp [place_of_mem_own hr] at hplace
    rw [own, List.filter_append, List.append_eq_nil_iff] at hown
    obtain ⟨hleading, htrailing⟩ := hown
    obtain ⟨_ | keyword, identifier, comment, properties, children⟩ := b
    · rw [rows, hleading]
      rfl
    · have hchildren := filter_rowsFrom place children 0 i
      rw [Nat.zero_add] at hchildren
      rw [rows, List.filter_append, List.filter_append, hleading, htrailing, hchildren,
        List.nil_append, List.append_nil, shownAt]
      cases children[i]? with
      | none => rfl
      | some child =>
        rw [Option.elim_some, Option.bind_some, ih, List.map_map]
        exact List.map_congr_left fun r _ => rfl

/-- **Lines nest as the blocks do.** At a depth that is not negative the lines are those at depth
zero with four blanks more for each level. At every depth they, and no others, are laid out as the
tree is; and they are the lines of rows that match like brackets, of which each block has its
comment, its header, its properties and its closing brace, if all blocks around it have a keyword,
and otherwise none. -/
theorem nesting_faithful (b : Block) :
    (∀ n : Nat, b.lines n = (b.lines 0).map (indent n)) ∧
      ∀ depth : Int, (∀ ls, Laid depth b ls ↔ ls = b.lines depth) ∧
        b.lines depth = b.rows.map (written depth) ∧
        b.rows.foldlM follow [] = some [] ∧
        ∀ place, b.rows.filter (fun r => r.place = place) =
          ((b.shownAt place).elim [] own).map (under place) := by
  refine ⟨fun n => ?_, fun depth => ⟨fun _ => laid_iff, lines_eq_rows depth b, ?_, ?_⟩⟩
  · rw [lines_eq_rows n b, lines_eq_rows 0 b, List.map_map]
    exact List.map_congr_left fun r _ => written_natCast n r
  · have hroot := follow_rows b [] [] rfl
    have hunder : b.rows.map (under []) = b.rows := List.map_id _
    rwa [hunder] at hroot
  · exact fun place => filter_rows place b

end SceneMarkup.Block
