import SceneMarkup.Text.Blank

/-!
# Names as identifiers

Names in a design are free text. Two spellings of them are admissible in markup: kebab case for
elements and properties, Pascal case for components and globals. Both break the name into
pieces at the characters that they do not admit and write an ampersand as the word `and`.
-/

namespace SceneMarkup.Text

/-- An ASCII letter or digit. -/
def isAsciiAlphanum (c : Char) : Bool :=
  let n := c.toNat
  (48 ≤ n && n ≤ 57) || (65 ≤ n && n ≤ 90) || (97 ≤ n && n ≤ 122)

/-- An ASCII digit. -/
def isAsciiDigit (c : Char) : Bool :=
  let n := c.toNat
  48 ≤ n && n ≤ 57

/-- An ASCII letter in lower case, any other character unchanged. -/
def lowerAscii (c : Char) : Char :=
  let n := c.toNat
  if 65 ≤ n ∧ n ≤ 90 then Char.ofNat (n + 32) else c

/-- An ASCII letter in upper case, any other character unchanged. -/
def upperAscii (c : Char) : Char :=
  let n := c.toNat
  if 97 ≤ n ∧ n ≤ 122 then Char.ofNat (n - 32) else c

/-- An identifier does not start with a digit; an underscore is put before one. -/
def guardDigit : List Char → List Char
  | [] => []
  | c :: rest => if isAsciiDigit c then '_' :: c :: rest else c :: rest

/-- An ampersand is written as a word of its own, set apart by a separator. -/
def spellAnd (separator c : Char) : List Char :=
  if c = '&' then [separator, 'a', 'n', 'd', separator] else [c]

/-- A text with every run of characters of a class made one other character. `within` says whether
the character before is part of a run. -/
def fuseRuns (p : Char → Bool) (mark : Char) (within : Bool) : List Char → List Char
  | [] => []
  | c :: cs =>
    if p c then
      if within then fuseRuns p mark true cs else mark :: fuseRuns p mark true cs
    else c :: fuseRuns p mark false cs

/-- The characters that kebab case admits, but for the case of letters. -/
def isAdmitted (c : Char) : Bool := isAsciiAlphanum c || c == '_' || c == '-'

/-- A name in kebab case, `unnamed` when nothing is left of it. What is not admitted becomes a
hyphen, and hyphens stand single and inside the name. -/
def kebab (name : String) : String :=
  let spelled := (trim name.toList).flatMap (spellAnd '-')
  let admitted := fuseRuns (fun c => !isAdmitted c) '-' false spelled
  let single := fuseRuns (· == '-') '-' false admitted
  match (trimBy (· == '-') single).map lowerAscii with
  | [] => "unnamed"
  | cs => String.ofList (guardDigit cs)

/-- The characters that end a word of a name. All beyond the ASCII set are among them. -/
def isNameSeparator (c : Char) : Bool :=
  c == '-' || c == '_' || c == '/' || isBlank c || 128 ≤ c.toNat

/-- A word with a capital first letter. -/
def capitalize : List Char → List Char
  | [] => []
  | c :: rest => upperAscii c :: rest

/-- A name in Pascal case, `Unnamed` when nothing is left of it. -/
def pascal (name : String) : String :=
  let ws := (splitBy isNameSeparator (name.toList.flatMap (spellAnd ' '))).map
    fun w => capitalize (w.filter isAsciiAlphanum)
  match ws.flatten with
  | [] => "Unnamed"
  | cs => String.ofList (guardDigit cs)

/-- The segments of a name that is grouped by slashes, without blanks around them and without
empty ones. -/
def segments (name : String) : List String :=
  (((splitBy (· == '/') name.toList).map trim).filter (· ≠ [])).map String.ofList

end SceneMarkup.Text
