import SceneMarkup.Number.Binary64
import SceneMarkup.Text.Blank
import SceneMarkup.Text.DecimalDigit
import SceneMarkup.Text.Identifier

/-!
# Reading number literals

A literal has an optional sign and is a decimal with an optional fraction and exponent, or the
name of infinity or of not-a-number in any case. Digits are ASCII digits; what surrounds a
literal and what may group its digits is for its reader to say.
-/

namespace SceneMarkup.Number

open Text (isAsciiDigit lowerAscii)

/-- A sign in front, and the rest. -/
def sign : List Char → Bool × List Char
  | '-' :: rest => (true, rest)
  | '+' :: rest => (false, rest)
  | cs => (false, cs)

/-- The number that a row of decimal digits stands for. -/
def ofDigits (ds : List Char) : Nat :=
  ds.foldl (fun n d => 10 * n + (d.toNat - 48)) 0

/-- A row of digits in front, and the rest. -/
def spanDigits (cs : List Char) : List Char × List Char :=
  (cs.takeWhile isAsciiDigit, cs.dropWhile isAsciiDigit)

/-- An exponent in front, and the rest; without one the exponent is zero. -/
def exponent : List Char → Option (Int × List Char)
  | [] => some (0, [])
  | c :: rest =>
    if c = 'e' ∨ c = 'E' then
      let (negative, rest) := sign rest
      match spanDigits rest with
      | ([], _) => none
      | (ds, rest) => some (if negative then -(ofDigits ds : Int) else ofDigits ds, rest)
    else some (0, c :: rest)

/-- An unsigned decimal. At least one digit stands before or after the point. -/
def decimal? (negative : Bool) (cs : List Char) : Option Binary64 :=
  let (whole, rest) := spanDigits cs
  let (fraction, rest) := match rest with
    | '.' :: rest => spanDigits rest
    | rest => ([], rest)
  if whole = [] ∧ fraction = [] then none
  else
    match exponent rest with
    | some (e, []) =>
      some (.ofDecimal negative (ofDigits (whole ++ fraction)) (e - fraction.length))
    | _ => none

/-- A literal that fills the whole text. -/
def float? (cs : List Char) : Option Binary64 :=
  let (negative, body) := sign cs
  let name := String.ofList (body.map lowerAscii)
  if name = "inf" ∨ name = "infinity" then some (.infinite negative)
  else if name = "nan" then some .nan
  else decimal? negative body

/-- An integer literal that fills the whole text. -/
def int? (cs : List Char) : Option Int :=
  let (negative, body) := sign cs
  match spanDigits body with
  | ([], _) => none
  | (ds, []) => some (if negative then -(ofDigits ds : Int) else ofDigits ds)
  | _ => none

/-- Removes underscores that stand singly between digits; refuses any other underscore. -/
def ungroupDigits (previous : Char) : List Char → Option (List Char)
  | [] => some []
  | c :: rest =>
    if c = '_' then
      match rest with
      | d :: _ => if isAsciiDigit previous ∧ isAsciiDigit d then ungroupDigits c rest else none
      | [] => none
    else (ungroupDigits c rest).map (c :: ·)

/-- Removes underscores; refuses them in a row and at the two ends. -/
def ungroup (cs : List Char) : Option (List Char) :=
  let rec doubled : List Char → Bool
    | '_' :: '_' :: _ => true
    | _ :: rest => doubled rest
    | [] => false
  if cs.head? = some '_' ∨ cs.getLast? = some '_' ∨ doubled cs then none
  else some (cs.filter (· ≠ '_'))

/-- A text without the white space around it and with the digits of all scripts as ASCII
digits. -/
def plain (text : String) : List Char :=
  Text.plainDigits (Text.trimBy Text.isWhiteSpace text.toList)

/-- The characters of a literal in free text, single underscores between digits left out. -/
def literal? (text : String) : Option (List Char) := ungroupDigits ' ' (plain text)

/-- The largest number of digits of an integer literal. -/
def longestInteger : Nat := 4300

/-- The message about an integer literal that has too many digits. -/
def longIntegerMessage (digits : Nat) : String :=
  "Exceeds the limit (" ++ toString longestInteger ++
    " digits) for integer string conversion: value has " ++ toString digits ++
    " digits; use sys.set_int_max_str_digits() to increase the limit"

/-- The number of digits at the start of an integer literal, if there are too many. Digits with
misplaced underscores among them are not counted. -/
def surplusDigits? (text : String) : Option Nat :=
  let run := (sign (plain text)).2.takeWhile fun c => isAsciiDigit c || c == '_'
  match ungroup run with
  | some ds => if longestInteger < ds.length then some ds.length else none
  | none => none

end SceneMarkup.Number
