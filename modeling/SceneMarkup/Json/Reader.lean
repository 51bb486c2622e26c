import SceneMarkup.Json.Basic
import SceneMarkup.Json.Encoding
import SceneMarkup.Number.Literal
import SceneMarkup.Text.Hex

/-!
# Reading JSON

A text is read from left to right; each step returns what it read and the rest of the text, or
the first flaw that it meets. A number without fraction and exponent is an integer, of which the
digits are limited. The names of infinity and not-a-number are read too. Half a surrogate pair on
its own is read as the character that stands in for it.
-/

namespace SceneMarkup.Json

/-- What keeps a text from being read. -/
inductive Flaw
  /-- The text is not JSON. -/
  | malformed
  /-- Its bytes are no text. -/
  | undecodable
  /-- An integer has too many digits. -/
  | longInteger (digits : Nat)
  /-- Lists and objects are nested too deeply. -/
  | tooDeep
  deriving DecidableEq

namespace Reader

open Text

/-- What a step reads and the rest of the text. -/
abbrev Step (α : Type) : Type := Except Flaw (α × List Char)

/-- The rest of a text behind blanks. -/
def skipBlanks (cs : List Char) : List Char :=
  cs.dropWhile fun c => c == ' ' || c == '\n' || c == '\t' || c == '\r'

/-- The number of four hexadecimal digits. -/
def unit16? (a b c d : Char) : Option Nat := Hex.ofDigits? [a, b, c, d]

/-- The character of a simple escape. -/
def simpleEscape? (c : Char) : Option Char :=
  if c = '"' ∨ c = '\\' ∨ c = '/' then some c
  else if c = 'n' then some '\n'
  else if c = 't' then some '\t'
  else if c = 'r' then some '\r'
  else if c = 'b' then some (Char.ofNat 8)
  else if c = 'f' then some (Char.ofNat 12)
  else none

/-- The second half of a surrogate pair at the start of a text. -/
def lowSurrogate? : List Char → Option (Nat × List Char)
  | '\\' :: 'u' :: a :: b :: c :: d :: rest =>
    match unit16? a b c d with
    | some n => if Surrogate.isLow n then some (n, rest) else none
    | none => none
  | _ => none

/-- An escape behind its backslash. -/
def escape? : List Char → Option (Char × List Char)
  | 'u' :: a :: b :: c :: d :: rest =>
    match unit16? a b c d with
    | none => none
    | some n =>
      if Surrogate.isHigh n then
        match lowSurrogate? rest with
        | some (m, rest) => some (Surrogate.join n m, rest)
        | none => some (Surrogate.standIn n, rest)
      else some (Surrogate.ofCode n, rest)
  | c :: rest => (simpleEscape? c).map fun e => (e, rest)
  | [] => none

/-- The body of a string up to its closing quote; the fuel bounds the number of characters. -/
def string : Nat → List Char → Step (List Char)
  | 0, _ => .error .malformed
  | _, [] => .error .malformed
  | fuel + 1, c :: rest =>
    if c = '"' then .ok ([], rest)
    else if c = '\\' then
      match escape? rest with
      | some (e, rest) => (string fuel rest).map fun (s, rest) => (e :: s, rest)
      | none => .error .malformed
    else if c.toNat < 32 then .error .malformed
    else (string fuel rest).map fun (s, rest) => (c :: s, rest)

/-- A fraction in front: its digits and the rest. -/
def fraction : List Char → List Char × List Char
  | '.' :: rest =>
    match Number.spanDigits rest with
    | ([], _) => ([], '.' :: rest)
    | (ds, rest) => (ds, rest)
  | cs => ([], cs)

/-- A number in front. -/
def number (cs : List Char) : Step Json :=
  let (negative, body) := match cs with
    | '-' :: rest => (true, rest)
    | rest => (false, rest)
  let (whole, rest) := match body with
    | '0' :: rest => (['0'], rest)
    | body => Number.spanDigits body
  if whole = [] then .error .malformed
  else
    let (digits, rest) := fraction rest
    let scaled := match rest with
      | c :: _ => if c = 'e' ∨ c = 'E' then Number.exponent rest else none
      | [] => none
    match digits, scaled with
    | [], none =>
      if Number.longestInteger < whole.length then .error (.longInteger whole.length)
      else
        let n : Int := Number.ofDigits whole
        .ok (.int (if negative then -n else n), rest)
    | ds, none =>
      .ok (.float (.ofDecimal negative (Number.ofDigits (whole ++ ds)) (-ds.length)), rest)
    | ds, some (e, rest) =>
      .ok (.float (.ofDecimal negative (Number.ofDigits (whole ++ ds)) (e - ds.length)), rest)

/-- The rest of a text behind a name. -/
def name? : List Char → List Char → Option (List Char)
  | [], cs => some cs
  | _ :: _, [] => none
  | e :: es, c :: cs => if e = c then name? es cs else none

/-- A value that is written as a name. -/
def named? (cs : List Char) : Option (Json × List Char) :=
  let names : List (String × Json) :=
    [("null", .null), ("true", .bool true), ("false", .bool false), ("NaN", .float .nan),
      ("Infinity", .float (.infinite false)), ("-Infinity", .float (.infinite true))]
  names.findSome? fun (text, value) => (name? text.toList cs).map fun rest => (value, rest)

mutual

/-- A value in front. The fuel bounds the number of values and separators, `room` the number of
lists and objects that may still be entered. -/
def value : Nat → Nat → List Char → Step Json
  | 0, _, _ => .error .malformed
  | fuel + 1, room, cs =>
    match cs with
    | '"' :: rest => (string (rest.length + 1) rest).map fun (s, rest) =>
        (.str (String.ofList s), rest)
    | '[' :: rest =>
      match room with
      | 0 => .error .tooDeep
      | room + 1 =>
        match skipBlanks rest with
        | ']' :: rest => .ok (.arr [], rest)
        | rest => (items fuel room rest).map fun (vs, rest) => (.arr vs, rest)
    | '\x7b' :: rest =>
      match room with
      | 0 => .error .tooDeep
      | room + 1 =>
        match skipBlanks rest with
        | '\x7d' :: rest => .ok (.obj [], rest)
        | rest => (pairs fuel room rest).map fun (ms, rest) => (.obj (ofPairs ms), rest)
    | cs =>
      match named? cs with
      | some found => .ok found
      | none => number cs

/-- The items of a list up to its closing bracket. -/
def items : Nat → Nat → List Char → Step (List Json)
  | 0, _, _ => .error .malformed
  | fuel + 1, room, cs =>
    match value fuel room cs with
    | .error f => .error f
    | .ok (v, rest) =>
      match skipBlanks rest with
      | ']' :: rest => .ok ([v], rest)
      | ',' :: rest => (items fuel room (skipBlanks rest)).map fun (vs, rest) => (v :: vs, rest)
      | _ => .error .malformed

/-- The members of an object up to its closing brace. -/
def pairs : Nat → Nat → List Char → Step Members
  | 0, _, _ => .error .malformed
  | fuel + 1, room, cs =>
    match cs with
    | '"' :: rest =>
      match string (rest.length + 1) rest with
      | .error f => .error f
      | .ok (key, rest) =>
        match skipBlanks rest with
        | ':' :: rest =>
          match value fuel room (skipBlanks rest) with
          | .error f => .error f
          | .ok (v, rest) =>
            match skipBlanks rest with
            | '\x7d' :: rest => .ok ([(String.ofList key, v)], rest)
            | ',' :: rest => (pairs fuel room (skipBlanks rest)).map fun (ms, rest) =>
                ((String.ofList key, v) :: ms, rest)
            | _ => .error .malformed
        | _ => .error .malformed
    | _ => .error .malformed

end

end Reader

/-- The number of lists and objects that may be nested. It is the one bound on depth that there is:
a scene that was read is taken to be walked and written to its end, as deep as it may be. -/
def deepest : Nat := 975

/-- Reads a text. Blanks may surround the value. -/
def readChars (text : List Char) : Except Flaw Json :=
  let cs := Reader.skipBlanks text
  match Reader.value (cs.length + 1) deepest cs with
  | .error f => .error f
  | .ok (v, rest) => if Reader.skipBlanks rest = [] then .ok v else .error .malformed

/-- Reads the body of a response. -/
def readBody (body : String) : Except Flaw Json :=
  match decodeBody body with
  | some text => readChars text
  | none => .error .undecodable

/-- The value that a text is the JSON of. -/
def read? (text : String) : Option Json := (readChars text.toList).toOption

end SceneMarkup.Json
