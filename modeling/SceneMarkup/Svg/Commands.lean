import SceneMarkup.Text.Search
import SceneMarkup.Text.WordChar

/-!
# Path commands of an SVG document

Commands are found by a left-to-right search for a tag and, inside it, for quoted attributes.
An attribute is looked for from the end of the tag backwards, so of several the last one counts
that still lets the rest of the search succeed; a value ends at the first quote of its kind
that does so.
-/

namespace SceneMarkup.Svg

open Text (after? search)

variable {β : Type}

/-- The last place before the end of the tag at which `k` succeeds. `k` is given the character
before the place and the text from the place on. -/
def lastInTag (k : Char → List Char → Option β) (previous : Char) : List Char → Option β
  | [] => k previous []
  | c :: cs =>
    if c = '>' then k previous (c :: cs)
    else
      match lastInTag k c cs with
      | some b => some b
      | none => k previous (c :: cs)

/-- The first closing quote behind which `k` succeeds. `k` is given the value, which is read in
reverse into `value`, and the text behind the quote. -/
def untilQuote (quote : Char) (k : List Char → List Char → Option β) (value : List Char) :
    List Char → Option β
  | [] => none
  | c :: cs =>
    if c = quote then
      match k value.reverse cs with
      | some b => some b
      | none => untilQuote quote k (c :: value) cs
    else untilQuote quote k (c :: value) cs

/-- A quoted value: the quote, single or double, decides where it may end. -/
def quotedValue (k : List Char → List Char → Option β) : List Char → Option β
  | [] => none
  | q :: cs => if q = '"' ∨ q = '\'' then untilQuote q k [] cs else none

/-- An attribute with its value, at this place. -/
def attributeHere (name : List Char) (k : List Char → List Char → Option β)
    (cs : List Char) : Option β :=
  (after? (name ++ ['=']) cs).bind (quotedValue k)

/-- The value of the `d` attribute of the first path tag that has one. The attribute's name
begins a word. -/
def pathData? (cs : List Char) : Option (List Char) :=
  search "<path".toList
    (lastInTag (fun previous rest =>
      if Text.isWordChar previous then none
      else attributeHere ['d'] (fun value _ => some value) rest) 'h') cs

/-- The last value of an attribute in the rest of the tag, of whatever name it is the end. -/
def attributeInTag (name : List Char) (k : List Char → List Char → Option β) :
    List Char → Option β :=
  lastInTag (fun _ rest => attributeHere name k rest) ' '

/-- The values of the attributes `y1`, `x2` and `y2`, in this order, of the first line tag that
has them. -/
def lineEnds? (cs : List Char) : Option (List Char × List Char × List Char) :=
  search "<line".toList
    (attributeInTag ['y', '1'] fun a =>
      attributeInTag ['x', '2'] fun b =>
        attributeInTag ['y', '2'] fun c _ => some (a, b, c)) cs

/-- The commands of a path: its data, unless it is empty. -/
def pathCommands? (svg : String) : Option String :=
  match pathData? svg.toList with
  | some (c :: cs) => some (String.ofList (c :: cs))
  | _ => none

/-- The commands of a line. It starts at the left edge of its own coordinates. -/
def lineCommands? (svg : String) : Option String :=
  match lineEnds? svg.toList with
  | some (a, b, c) =>
    if a = [] ∨ b = [] ∨ c = [] then none
    else some ("M0 " ++ String.ofList a ++ "L" ++ String.ofList b ++ " " ++ String.ofList c)
  | none => none

end SceneMarkup.Svg
