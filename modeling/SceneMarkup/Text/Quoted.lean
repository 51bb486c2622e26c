/-!
# String literals of the markup language

A literal stands between double quotes. A backslash, a double quote and a line feed are written
as escapes of two characters, and every other character stands for itself. Reading the body of
a literal back gives the text.
-/

namespace SceneMarkup.Text.Quoted

/-- The written form of a character. -/
def escape (c : Char) : List Char :=
  if c = '\\' then ['\\', '\\']
  else if c = '"' then ['\\', '"']
  else if c = '\n' then ['\\', 'n']
  else [c]

/-- The body of a literal. -/
def encode (cs : List Char) : List Char := cs.flatMap escape

/-- Reads the body of a literal. An unknown escape, a bare quote and a bare line feed are
refused. -/
def decode : List Char → Option (List Char)
  | [] => some []
  | '\\' :: c :: rest =>
    if c = '\\' then (decode rest).map ('\\' :: ·)
    else if c = '"' then (decode rest).map ('"' :: ·)
    else if c = 'n' then (decode rest).map ('\n' :: ·)
    else none
  | c :: rest =>
    if c = '\\' ∨ c = '"' ∨ c = '\n' then none else (decode rest).map (c :: ·)

/-- The literal of a text. -/
def literal (s : String) : String :=
  String.ofList ('"' :: encode s.toList ++ ['"'])

end SceneMarkup.Text.Quoted
