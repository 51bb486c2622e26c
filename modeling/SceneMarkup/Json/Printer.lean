import SceneMarkup.Json.Basic
import SceneMarkup.Number.Numeral
import SceneMarkup.Text.Hex
import SceneMarkup.Text.Shown

/-!
# Writing JSON

`Json.compact` is the JSON text without blanks, with every character beyond the ASCII set
standing for itself. `Json.shown` is the text of a value in messages.
-/

namespace SceneMarkup.Json

open Text

/-- A character of a JSON string. -/
def escapeChar (c : Char) : List Char :=
  if c = '"' then ['\\', '"']
  else if c = '\\' then ['\\', '\\']
  else if c = '\n' then ['\\', 'n']
  else if c = '\r' then ['\\', 'r']
  else if c = '\t' then ['\\', 't']
  else if c.toNat = 8 then ['\\', 'b']
  else if c.toNat = 12 then ['\\', 'f']
  else if c.toNat < 32 then ['\\', 'u'] ++ Hex.padded 4 c.toNat
  else [c]

/-- A JSON string. -/
def quote (s : String) : String :=
  String.ofList ('"' :: s.toList.flatMap escapeChar ++ ['"'])

/-- A binary number as JSON. -/
def floatText : Binary64 → String
  | .nan => "NaN"
  | .infinite s => if s then "-Infinity" else "Infinity"
  | x => x.text

mutual

/-- The JSON text of a value, without blanks. -/
def compact : Json → String
  | null => "null"
  | bool b => if b then "true" else "false"
  | int n => toString n
  | float x => floatText x
  | str s => quote s
  | arr items => "[" ++ compactItems items ++ "]"
  | obj members => "\x7b" ++ compactMembers members ++ "\x7d"

/-- Values with commas between them. -/
def compactItems : List Json → String
  | [] => ""
  | [v] => compact v
  | v :: rest => compact v ++ "," ++ compactItems rest

/-- Members with commas between them. -/
def compactMembers : List (String × Json) → String
  | [] => ""
  | [(k, v)] => quote k ++ ":" ++ compact v
  | (k, v) :: rest => quote k ++ ":" ++ compact v ++ "," ++ compactMembers rest

end

mutual

/-- A value inside a message: texts are quoted. -/
def shownInside : Json → String
  | null => "None"
  | bool b => if b then "True" else "False"
  | int n => toString n
  | float x => x.text
  | str s => Text.shownWith Text.showUnit s
  | arr items => "[" ++ shownItems items ++ "]"
  | obj members => "\x7b" ++ shownMembers members ++ "\x7d"

/-- Values with commas and blanks between them. -/
def shownItems : List Json → String
  | [] => ""
  | [v] => shownInside v
  | v :: rest => shownInside v ++ ", " ++ shownItems rest

/-- Members with commas and blanks between them. -/
def shownMembers : List (String × Json) → String
  | [] => ""
  | [(k, v)] => Text.shownWith Text.showUnit k ++ ": " ++ shownInside v
  | (k, v) :: rest =>
    Text.shownWith Text.showUnit k ++ ": " ++ shownInside v ++ ", " ++ shownMembers rest

end

/-- A value as a message: a text stands for itself. -/
def shown : Json → String
  | str s => s
  | v => shownInside v

end SceneMarkup.Json
