import SceneMarkup.Proofs.LineBreaks
import SceneMarkup.Proofs.TagSearch

/-!
# Reading markup back

A reader goes through a text line by line and puts the blocks together again. It does not need the
indentation: what a line is shows in how its text starts (`Mark`). There is one exception. The
remark that a drawing has no commands is followed by a quotation of the drawing, which can be any
text and read like any other remark. So this remark makes the reader take the next line as it is.

* `Mark.of_remark`, `Mark.of_opening`, `Mark.of_bare`, `Mark.of_declaration`: the marks of the lines
  of blocks.
* `Reader.take_properties`: lines of properties that are `Readable` go to the innermost element.
* `Reader.take_block`: a reader that takes in the lines of a block has one block more, and is where
  it was otherwise.
* `Reader.read_render`: so the text of a block is read back, if the block is `Legible`.
-/

namespace SceneMarkup

open Block (header indent)
open Snippet (physicalLines physicalLines_render)

/-- A text that does not start with a blank, and so can be told from its indentation. -/
def Flush (s : String) : Prop := s.toList.head? ≠ some ' '

instance (s : String) : Decidable (Flush s) :=
  inferInstanceAs (Decidable (s.toList.head? ≠ some ' '))

/-- A line that starts flush stays so, however it goes on. -/
theorem flush_append {s : String} (hs : Flush s) (hne : s ≠ "") (t : String) : Flush (s ++ t) := by
  rw [Flush, String.toList_append]
  cases hlist : s.toList with
  | nil => exact absurd (String.toList_inj.1 hlist) hne
  | cons c cs => simpa [Flush, hlist] using hs

theorem ne_empty_of_prefix
    {lead : List Char} {s : String} (h : lead <+: s.toList) (hlead : lead ≠ []) : s ≠ "" := by
  rintro rfl
  exact hlead (List.prefix_nil.1 h)

/-- The text of a line behind its indentation. -/
def content (line : String) : String := String.ofList (line.toList.dropWhile (· == ' '))

theorem content_indent {text : String} (h : Flush text) (depth : Int) :
    content (indent depth text) = text := by
  have hblanks : ∀ c ∈ List.replicate (4 * depth.toNat) ' ', (c == ' ') = true := by
    intro c hc
    simp [List.eq_of_mem_replicate hc]
  have hkept : text.toList.dropWhile (· == ' ') = text.toList := by
    cases hlist : text.toList with
    | nil => rfl
    | cons c cs =>
        have hc : c ≠ ' ' := by simpa [Flush, hlist] using h
        simp [hc]
  rw [content, indent, Block.indentation, String.toList_append, String.toList_ofList,
    List.dropWhile_append_of_pos hblanks, hkept, String.ofList_toList]

/-- Names of elements and properties, as they are spelled in markup. -/
structure IsName (s : String) : Prop where
  ne_empty : s ≠ ""
  chars : ∀ c ∈ s.toList, Text.isKebabChar c = true

theorem IsName.head {s : String} (h : IsName s) :
    ∃ c cs, s.toList = c :: cs ∧ Text.isKebabChar c = true := by
  cases hlist : s.toList with
  | nil => exact absurd (String.toList_inj.1 hlist) h.ne_empty
  | cons c cs => exact ⟨c, cs, rfl, h.chars c (hlist ▸ List.mem_cons_self)⟩

/-- A name starts flush. -/
theorem IsName.flush {s : String} (h : IsName s) : Flush s := by
  obtain ⟨c, cs, hlist, hc⟩ := h.head
  rw [Flush, hlist, List.head?_cons]
  rintro ⟨⟩
  revert hc
  decide

/-- A text falls apart at the first character that is not of a class. -/
theorem span_eq
    {p : Char → Bool} {cs : List Char} (hcs : ∀ c ∈ cs, p c = true)
    {d : Char} (hd : p d = false) (rest : List Char) :
    (cs ++ d :: rest).takeWhile p = cs ∧ (cs ++ d :: rest).dropWhile p = d :: rest := by
  rw [List.takeWhile_append_of_pos hcs, List.dropWhile_append_of_pos hcs]
  simp [hd]

/-- What the text of a line tells a reader. -/
inductive Mark
  /-- An element ends. -/
  | closing
  /-- The next line is a quotation. -/
  | quotation
  /-- An element follows, with a remark. -/
  | above (comment : String)
  /-- A remark stands in the place of an element. -/
  | alone (comment : String)
  /-- An element starts. -/
  | opening (identifier keyword : String)
  /-- An element starts and ends. -/
  | bare (identifier keyword : String)
  /-- The line is one of a property. -/
  | property
  deriving DecidableEq

namespace Mark

/-- The remark before a quotation. -/
def quotationRemark : List Char := "Could not extract path commands from SVG".toList

/-- What a remark above an element starts with. -/
def typeLead : List Char := "Unsupported type: ".toList

/-- What a remark in the place of an element starts with. -/
def componentLead : List Char := "Main component not found for instance: ".toList

/-- The mark of a remark, from its text behind the slashes. -/
def ofRemark (cs : List Char) : Mark :=
  if cs = quotationRemark then .quotation
  else if typeLead.isPrefixOf cs then .above (String.ofList cs)
  else if componentLead.isPrefixOf cs then .alone (String.ofList cs)
  else .property

/-- The mark of what follows the identifier of an element. -/
def ofTail (identifier : List Char) (cs : List Char) : Mark :=
  let keyword := String.ofList (cs.takeWhile (· ≠ ' '))
  let braces := cs.dropWhile (· ≠ ' ')
  if braces = " \x7b".toList then .opening (String.ofList identifier) keyword
  else if braces = " \x7b\x7d".toList then .bare (String.ofList identifier) keyword
  else .property

/-- The mark of a line that is not a remark. -/
def ofHead (cs : List Char) : Mark :=
  match Text.after? " := ".toList (cs.dropWhile Text.isKebabChar) with
  | some tail => ofTail (cs.takeWhile Text.isKebabChar) tail
  | none => .property

/-- The mark of the text of a line. -/
def of (text : String) : Mark :=
  if text = "\x7d" then .closing
  else
    match Text.after? "// ".toList text.toList with
    | some comment => ofRemark comment
    | none => ofHead text.toList

/-- A remark is known by its text. -/
theorem of_remark (comment : String) : of ("// " ++ comment) = ofRemark comment.toList := by
  have hclosing : "// " ++ comment ≠ "\x7d" := by
    intro h
    have hlist := congrArg String.toList h
    simp at hlist
  rw [of, if_neg hclosing, String.toList_append, Text.after?_append]

theorem ofRemark_type {comment : String} (h : typeLead <+: comment.toList) :
    ofRemark comment.toList = .above comment := by
  have hquotation : comment.toList ≠ quotationRemark := by
    obtain ⟨tail, htail⟩ := h
    rw [← htail]
    intro heq
    cases congrArg List.head? heq
  rw [ofRemark, if_neg hquotation, if_pos (List.isPrefixOf_iff_prefix.2 h), String.ofList_toList]

theorem ofRemark_component {comment : String} (h : componentLead <+: comment.toList) :
    ofRemark comment.toList = .alone comment := by
  have hothers : comment.toList ≠ quotationRemark ∧ typeLead.isPrefixOf comment.toList = false := by
    obtain ⟨tail, htail⟩ := h
    rw [← htail]
    constructor
    · intro heq
      cases congrArg List.head? heq
    · rfl
  rw [ofRemark, if_neg hothers.1, hothers.2, if_neg Bool.false_ne_true,
    if_pos (List.isPrefixOf_iff_prefix.2 h), String.ofList_toList]

/-- The remarks on faults belong to properties, whatever the host has said. -/
theorem of_error (text : String) : of ("// Error " ++ text) = .property := by
  have hlead : "// Error " ++ text = "// " ++ ("Error " ++ text) := by
    rw [← String.append_assoc]
    rfl
  have hothers : ("Error " ++ text).toList ≠ quotationRemark ∧
      typeLead.isPrefixOf ("Error " ++ text).toList = false ∧
      componentLead.isPrefixOf ("Error " ++ text).toList = false := by
    rw [String.toList_append]
    refine ⟨?_, rfl, rfl⟩
    intro heq
    cases congrArg List.head? heq
  rw [hlead, of_remark, ofRemark, if_neg hothers.1, hothers.2.1, hothers.2.2,
    if_neg Bool.false_ne_true, if_neg Bool.false_ne_true]

/-- A line that starts with a name is not a brace and not a remark. -/
theorem of_named {name : String} (hname : IsName name) (rest : String) :
    of (name ++ rest) = ofHead (name ++ rest).toList := by
  obtain ⟨c, cs, hlist, hc⟩ := hname.head
  have hclosing : name ++ rest ≠ "\x7d" := by
    intro h
    have hbrace := congrArg String.toList h
    rw [String.toList_append, hlist] at hbrace
    obtain ⟨rfl, -⟩ := List.cons.inj hbrace
    revert hc
    decide
  have hslash : '/' ≠ c := by
    rintro rfl
    revert hc
    decide
  have hremark : Text.after? "// ".toList (name ++ rest).toList = none := by
    rw [String.toList_append, hlist]
    exact if_neg hslash
  rw [of, if_neg hclosing, hremark]

/-- A line that starts with the head of an element. -/
theorem of_header
    {identifier : String} (hidentifier : IsName identifier) (keyword tail : String) :
    of (header keyword (some identifier) ++ tail) =
      ofTail identifier.toList (keyword ++ tail).toList := by
  have hheader :
      header keyword (some identifier) ++ tail = identifier ++ (" := " ++ (keyword ++ tail)) := by
    simp only [header, if_neg hidentifier.ne_empty, String.append_assoc]
  have hassign :
      (" := " ++ (keyword ++ tail)).toList = ' ' :: [':', '=', ' '] ++ (keyword ++ tail).toList :=
    String.toList_append
  obtain ⟨hname, hrest⟩ :=
    span_eq hidentifier.chars (show Text.isKebabChar ' ' = false by decide)
      ([':', '=', ' '] ++ (keyword ++ tail).toList)
  rw [hheader, of_named hidentifier, ofHead, String.toList_append, hassign, List.cons_append,
    hname, hrest]
  rfl

section

variable {identifier keyword : String}

/-- The keyword ends at the first blank. -/
theorem ofTail_eq (hkeyword : ' ' ∉ keyword.toList) (braces : List Char) :
    ofTail identifier.toList (keyword.toList ++ ' ' :: braces) =
      if ' ' :: braces = [' ', '{'] then .opening identifier keyword
      else if ' ' :: braces = [' ', '{', '}'] then .bare identifier keyword
      else .property := by
  have hchars : ∀ c ∈ keyword.toList, decide (c ≠ ' ') = true := by
    intro c hc
    rw [decide_eq_true_eq]
    rintro rfl
    exact hkeyword hc
  obtain ⟨hword, hbraces⟩ := span_eq hchars (show decide (' ' ≠ ' ') = false by decide) braces
  simp only [ofTail, hword, hbraces, String.ofList_toList]
  rfl

/-- A header with an open brace is the mark of an opening. -/
theorem of_opening (hidentifier : IsName identifier) (hkeyword : ' ' ∉ keyword.toList) :
    of (header keyword (some identifier) ++ " \x7b") = .opening identifier keyword := by
  rw [of_header hidentifier, String.toList_append]
  exact (ofTail_eq hkeyword ['{']).trans (if_pos rfl)

theorem of_bare (hidentifier : IsName identifier) (hkeyword : ' ' ∉ keyword.toList) :
    of (header keyword (some identifier) ++ " \x7b\x7d") = .bare identifier keyword := by
  rw [of_header hidentifier, String.toList_append]
  exact (ofTail_eq hkeyword ['{', '}']).trans ((if_neg (by decide)).trans (if_pos rfl))

end

/-- A declaration is a line of a property, whatever the value is. -/
theorem of_declaration {name : String} (hname : IsName name) (rest : String) :
    of (name ++ (": " ++ rest)) = .property := by
  obtain ⟨-, hrest⟩ :=
    span_eq hname.chars (show Text.isKebabChar ':' = false by decide) (' ' :: rest.toList)
  rw [of_named hname, ofHead, String.toList_append]
  have hcolon : (": " ++ rest).toList = ':' :: ' ' :: rest.toList := by simp
  rw [hcolon, hrest]
  rfl

end Mark

/-- What has been read of the inside of an element. -/
structure Inside where
  properties : List String
  children : List Block

/-- The head of an element that has not ended. -/
structure Head where
  identifier : String
  keyword : String
  comment : Option String

/-- What a reader takes the next line for. -/
inductive Awaited
  /-- A line with a mark. If an element starts there, a remark belongs to it. -/
  | line (comment : Option String)
  | quotation

/-- A reader in the middle of a text: what is inside the innermost element, and around it the
elements that have not ended, from inside out. -/
structure Reader where
  inside : Inside
  around : List (Head × Inside)
  awaited : Awaited

namespace Inside

/-- Nothing. -/
def empty : Inside := ⟨[], []⟩

/-- With more lines. -/
def write (i : Inside) (lines : List String) : Inside := ⟨i.properties ++ lines, i.children⟩

/-- With more blocks. -/
def add (i : Inside) (bs : List Block) : Inside := ⟨i.properties, i.children ++ bs⟩

@[simp] theorem write_nil (i : Inside) : i.write [] = i := by simp [write]

@[simp] theorem write_write (i : Inside) (lines lines' : List String) :
    (i.write lines).write lines' = i.write (lines ++ lines') := by
  simp [write]

@[simp] theorem add_nil (i : Inside) : i.add [] = i := by simp [add]

@[simp] theorem add_add (i : Inside) (bs bs' : List Block) :
    (i.add bs).add bs' = i.add (bs ++ bs') := by
  simp [add]

end Inside

/-- The block with a head. -/
def Head.block (h : Head) (i : Inside) : Block :=
  .mk (some h.keyword) (some h.identifier) h.comment i.properties i.children

namespace Reader

/-- A reader at the beginning of a text. -/
def start : Reader := ⟨.empty, [], .line none⟩

/-- The innermost element has ended. A brace too many is ignored. -/
def close (r : Reader) : Reader :=
  match r.around with
  | [] => r
  | (h, outside) :: around => ⟨outside.add [h.block r.inside], around, .line none⟩

/-- A reader goes on behind a line with a mark. -/
def follow (r : Reader) (comment : Option String) (text : String) : Mark → Reader
  | .closing => r.close
  | .quotation => ⟨r.inside.write [text], r.around, .quotation⟩
  | .above c => ⟨r.inside, r.around, .line (some c)⟩
  | .alone c => ⟨r.inside.add [.mk none none (some c) [] []], r.around, .line none⟩
  | .opening i k => ⟨.empty, (⟨i, k, comment⟩, r.inside) :: r.around, .line none⟩
  | .bare i k => ⟨r.inside.add [Head.block ⟨i, k, comment⟩ .empty], r.around, .line none⟩
  | .property => ⟨r.inside.write [text], r.around, .line none⟩

/-- A reader takes in a line. -/
def take (r : Reader) (line : String) : Reader :=
  match r.awaited with
  | .quotation => ⟨r.inside.write [content line], r.around, .line none⟩
  | .line comment => r.follow comment (content line) (Mark.of (content line))

/-- The block that has been read, if there is one and the text was complete. -/
def result : Reader → Option Block
  | ⟨⟨[], [b]⟩, [], .line none⟩ => some b
  | _ => none

/-- The block of a text. -/
def read (text : String) : Option Block :=
  ((physicalLines text).foldl take start).result

/-- Lines that a reader takes for lines of properties, one after the other. -/
inductive Readable : List String → Prop
  | nil : Readable []
  | property {line : String} {rest : List String} :
      Flush line → Mark.of line = .property → Readable rest → Readable (line :: rest)
  | quoted {line quotation : String} {rest : List String} :
      Flush line → Mark.of line = .quotation → Flush quotation → Readable rest →
      Readable (line :: quotation :: rest)

/-- Readable lines one after the other are readable. -/
theorem Readable.append
    {lines lines' : List String} (h : Readable lines) (h' : Readable lines') :
    Readable (lines ++ lines') := by
  induction h with
  | nil => exact h'
  | property hflush hmark _ ih => exact .property hflush hmark ih
  | quoted hflush hmark hquotation _ ih => exact .quoted hflush hmark hquotation ih

variable {inside : Inside} {around : List (Head × Inside)}

theorem take_indent {text : String} (h : Flush text) (comment : Option String) (depth : Int) :
    take ⟨inside, around, .line comment⟩ (indent depth text) =
      follow ⟨inside, around, .line comment⟩ comment text (Mark.of text) := by
  simp only [take, content_indent h]

/-- The line behind the remark on a drawing is a quotation, whatever it says. -/
theorem take_quotation {text : String} (h : Flush text) (depth : Int) :
    take ⟨inside, around, .quotation⟩ (indent depth text) =
      ⟨inside.write [text], around, .line none⟩ := by
  simp only [take, content_indent h]

/-- Lines of properties are added to the element around them. -/
theorem take_properties {lines : List String} (h : Readable lines) (depth : Int) :
    ∀ inside, (lines.map (indent depth)).foldl take ⟨inside, around, .line none⟩ =
      ⟨inside.write lines, around, .line none⟩ := by
  induction h with
  | nil => simp
  | @property line rest hflush hmark _ ih =>
      intro inside
      rw [List.map_cons, List.foldl_cons, take_indent hflush, hmark, follow, ih,
        Inside.write_write, List.singleton_append]
  | @quoted line quotation rest hflush hmark hquotation _ ih =>
      intro inside
      rw [List.map_cons, List.map_cons, List.foldl_cons, List.foldl_cons, take_indent hflush, hmark,
        follow, take_quotation hquotation, ih, Inside.write_write, Inside.write_write]
      rfl

mutual

/-- Blocks that can be told from their lines. -/
inductive Legible : Block → Prop
  | alone {comment : String} :
      Mark.componentLead <+: comment.toList → Legible (.mk none none (some comment) [] [])
  | element
      {keyword identifier : String} {comment : Option String} {lines : List String}
      {children : List Block} :
      IsName identifier →
      ' ' ∉ keyword.toList →
      (∀ c, comment = some c → Mark.typeLead <+: c.toList) →
      Readable lines →
      LegibleAll children →
      Legible (.mk (some keyword) (some identifier) comment lines children)

/-- A row of such blocks. -/
inductive LegibleAll : List Block → Prop
  | nil : LegibleAll []
  | cons {b : Block} {bs : List Block} : Legible b → LegibleAll bs → LegibleAll (b :: bs)

end

theorem flush_slashes (comment : String) : Flush ("// " ++ comment) :=
  flush_append (by decide) (by decide) comment

/-- The remark above an element is kept for it. -/
theorem take_remark
    {comment : Option String} (h : ∀ c, comment = some c → Mark.typeLead <+: c.toList)
    (depth : Int) :
    ((Block.remark comment).map (indent depth)).foldl take ⟨inside, around, .line none⟩ =
      ⟨inside, around, .line comment⟩ := by
  cases comment with
  | none => rfl
  | some c =>
      have hne : c ≠ "" := ne_empty_of_prefix (h c rfl) (by decide)
      rw [Block.remark, if_neg hne, List.map_singleton, List.foldl_cons, List.foldl_nil,
        take_indent (flush_slashes c), Mark.of_remark, Mark.ofRemark_type (h c rfl), follow]

theorem flush_header {identifier : String} (h : IsName identifier) (keyword tail : String) :
    Flush (header keyword (some identifier) ++ tail) := by
  simp only [header, if_neg h.ne_empty, String.append_assoc]
  exact flush_append h.flush h.ne_empty _

mutual

/-- **A reader that takes in the lines of a block has that block more.** -/
theorem take_block :
    ∀ {b : Block}, Legible b → ∀ (depth : Int) (inside : Inside) (around : List (Head × Inside)),
      (b.lines depth).foldl take ⟨inside, around, .line none⟩ =
        ⟨inside.add [b], around, .line none⟩
  | _, @Legible.alone comment h, depth, inside, around => by
      have hne : comment ≠ "" := ne_empty_of_prefix h (by decide)
      rw [Block.lines, Block.remark, if_neg hne, List.map_singleton, List.foldl_cons,
        List.foldl_nil, take_indent (flush_slashes comment), Mark.of_remark,
        Mark.ofRemark_component h, follow]
  | _, @Legible.element keyword identifier comment lines children
      hidentifier hkeyword hcomment hlines hchildren, depth, inside, around => by
      rw [Block.lines, List.foldl_append, take_remark hcomment]
      split
      next hempty =>
        obtain ⟨rfl, rfl⟩ : lines = [] ∧ children = [] := by simpa using hempty
        rw [List.foldl_cons, List.foldl_nil, take_indent (flush_header hidentifier _ _),
          Mark.of_bare hidentifier hkeyword, follow]
        rfl
      next =>
        have hclosing : Flush "\x7d" ∧ Mark.of "\x7d" = .closing := by decide
        rw [List.foldl_cons, take_indent (flush_header hidentifier _ _),
          Mark.of_opening hidentifier hkeyword, follow, List.foldl_append, List.foldl_append,
          take_properties hlines, take_blocks hchildren, List.foldl_cons, List.foldl_nil,
          take_indent hclosing.1, hclosing.2, follow, close]
        simp [Inside.write, Inside.add, Inside.empty, Head.block]

/-- From the lines of legible blocks these blocks are read, one after the other. -/
theorem take_blocks :
    ∀ {bs : List Block}, LegibleAll bs →
      ∀ (depth : Int) (inside : Inside) (around : List (Head × Inside)),
        (Block.linesOfAll depth bs).foldl take ⟨inside, around, .line none⟩ =
          ⟨inside.add bs, around, .line none⟩
  | _, .nil, depth, inside, around => by simp [Block.linesOfAll]
  | _, .cons hb hbs, depth, inside, around => by
      rw [Block.linesOfAll, List.foldl_append, take_block hb, take_blocks hbs, Inside.add_add,
        List.singleton_append]

end

/-- **The text of a block is read back.** -/
theorem read_render {b : Block} (h : Legible b) (hphysical : physicalLines b.render = b.lines 0) :
    read b.render = some b := by
  rw [read, hphysical, start, take_block h]
  rfl

end Reader
end SceneMarkup
