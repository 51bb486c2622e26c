import SceneMarkup.Text.Percent
import SceneMarkup.Text.Punycode
import SceneMarkup.Text.WordChar

/-!
# Hosts in addresses

A host is a number of four or of eight parts, or a name. Names are written in lower case, and
labels of a name with characters beyond the ASCII set are written in Punycode. What looks like a
number of either kind has to be one.

Names within the ASCII set are covered in full. Of names beyond it only those are that already stand
in lower case and in composed form: `name?` takes a character as it is, without a case mapping or a
normal form, and takes no combining mark. The rules that relate the characters of a label to each
other, such as those on its direction, are left out.
-/

namespace SceneMarkup.Host

open Text

/-- Whether a character follows another place in the pattern of four rows of digits with any one
character between them. Even places are before a row, odd ones inside it. -/
def advance (c : Char) (place : Nat) : List Nat :=
  if place % 2 = 0 then (if isAsciiDigit c then [place + 1] else [])
  else (if isAsciiDigit c then [place] else []) ++ if place < 7 then [place + 1] else []

/-- Four rows of digits with any one character between them. -/
def looksNumeric (cs : List Char) : Bool :=
  (cs.foldl (fun places c => (places.flatMap (advance c)).eraseDups) [0]).contains 7

/-- A part of a number of four parts. -/
def isOctet (cs : List Char) : Bool :=
  cs ≠ [] && cs.length ≤ 3 && cs.all isAsciiDigit &&
    (cs.length = 1 || cs.head? ≠ some '0') &&
    cs.foldl (fun n c => 10 * n + (c.toNat - 48)) 0 ≤ 255

/-- A number of four parts. -/
def isFourPart (cs : List Char) : Bool :=
  let parts := splitBy (· == '.') cs
  parts.length = 4 && parts.all isOctet

/-- A part of a number of eight parts. -/
def isGroup (cs : List Char) : Bool :=
  cs ≠ [] && cs.length ≤ 4 && cs.all fun c => (Hex.value? c).isSome

/-- The parts with a number of four parts at the end written as two parts. -/
def widen (parts : List (List Char)) : Option (List (List Char)) :=
  match parts.getLast? with
  | some last =>
    if last.contains '.' then
      if isFourPart last then some (parts.dropLast ++ [['0'], ['0']]) else none
    else some parts
  | none => none

/-- The parts on one side of a gap: an empty part at the outer end has to stand alone. -/
def isSide (parts : List (List Char)) : Bool := parts = [[]] || parts.all isGroup

/-- Parts of which one run may be left out. -/
def isEightParts (parts : List (List Char)) : Bool :=
  let inner := (parts.drop 1).dropLast
  match inner.takeWhile (· ≠ []), inner.dropWhile (· ≠ []) with
  | _, [] => parts.length = 8 && parts.all isGroup
  | before, _ :: after =>
    let left := parts.take 1 ++ before
    let right := after ++ parts.drop (parts.length - 1)
    let count := (left.filter (· ≠ [])).length + (right.filter (· ≠ [])).length
    after.all (· ≠ []) && isSide left && isSide right && count < 8

/-- A number of eight parts, perhaps with the name of a zone. -/
def isEightPart (cs : List Char) : Bool :=
  let number := cs.takeWhile (· ≠ '%')
  let zone := cs.dropWhile (· ≠ '%')
  let parts := splitBy (· == ':') number
  !cs.contains '/' && (zone = [] || (zone.length ≠ 1 && !(zone.drop 1).contains '%')) &&
    3 ≤ parts.length &&
    match widen parts with
    | some parts => parts.length ≤ 9 && isEightParts parts
    | none => false

/-- The characters of a name that need no escape. -/
def isNameSafe (c : Char) : Bool := "!$&'()*+,;=\"`\x7b\x7d%|\\".toList.contains c

/-- The full stops that end a label. -/
def isStop (c : Char) : Bool :=
  c == '.' || c.toNat == 0x3002 || c.toNat == 0xFF0E || c.toNat == 0xFF61

/-- A character of a label. Beyond the ASCII set these are letters and digits in whatever case they
stand, and combining marks are not among them. -/
def isLabelChar (c : Char) : Bool :=
  if c.toNat < 128 then isAsciiDigit c || (97 ≤ c.toNat && c.toNat ≤ 122) || c == '-'
  else isWordChar c

/-- The marker of labels in Punycode. -/
def marker : List Char := ['x', 'n', '-', '-']

/-- The written form of a label. -/
def label? (cs : List Char) : Option (List Char) :=
  let isPlain := cs.all (·.toNat < 128)
  let isMarked := isPlain && marker.isPrefixOf cs
  if cs = [] || cs.any (!isLabelChar ·) || cs.getLast? = some '-' || cs = marker ||
      (!isMarked && (cs.head? = some '-' || (cs.drop 2).take 2 = ['-', '-'])) then none
  else
    let written := if isPlain then cs else marker ++ Punycode.encode cs
    if written.length ≤ 63 then some written else none

/-- Labels with full stops between them. -/
def joinLabels : List (List Char) → List Char
  | [] => []
  | [l] => l
  | l :: ls => l ++ '.' :: joinLabels ls

/-- The written form of a name with characters beyond the ASCII set, which is expected in lower case
and in composed form. -/
def name? (cs : List Char) : Option (List Char) :=
  let labels := splitBy isStop cs
  let isClosed := labels.getLast? = some []
  let kept := if isClosed then labels.dropLast else labels
  match kept.mapM label? with
  | some written =>
    let text := joinLabels (if isClosed then written ++ [[]] else written)
    if text.length ≤ (if isClosed then 254 else 253) then some text else none
  | none => none

/-- The written form of a host, and nothing for what is no host. -/
def read? (cs : List Char) : Option (List Char) :=
  if cs = [] then some []
  else if looksNumeric cs then (if isFourPart cs then some cs else none)
  else if cs.head? = some '[' ∧ 2 ≤ cs.length ∧ cs.getLast? = some ']' then
    let inner := (cs.drop 1).dropLast
    if isEightPart inner then some inner else none
  else if cs.all (·.toNat < 128) then some (Percent.encode isNameSafe (cs.map lowerAscii))
  else name? (cs.map lowerAscii)

end SceneMarkup.Host
