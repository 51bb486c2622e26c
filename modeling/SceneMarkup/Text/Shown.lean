import SceneMarkup.Text.Hex
import SceneMarkup.Text.Printable
import SceneMarkup.Text.Surrogate

/-!
# Texts shown in messages

A message shows a text between single quotes, or between double quotes when it holds single
ones and no double ones. What is not printable is written as an escape, and so is half a
surrogate pair in texts that can hold one.
-/

namespace SceneMarkup.Text

/-- The quote that a shown text stands between. -/
def quoteFor (cs : List Char) : Char :=
  if cs.contains '\'' && !cs.contains '"' then '"' else '\''

/-- A character of a shown text. -/
def showChar (quote c : Char) : List Char :=
  if c = '\\' then ['\\', '\\']
  else if c = quote then ['\\', c]
  else if c = '\n' then ['\\', 'n']
  else if c = '\r' then ['\\', 'r']
  else if c = '\t' then ['\\', 't']
  else if isPrintable c then [c]
  else if c.toNat < 0x100 then ['\\', 'x'] ++ Hex.padded 2 c.toNat
  else if c.toNat < 0x10000 then ['\\', 'u'] ++ Hex.padded 4 c.toNat
  else ['\\', 'U'] ++ Hex.padded 8 c.toNat

/-- A character of a shown text in which halves of surrogate pairs may stand alone. -/
def showUnit (quote c : Char) : List Char :=
  match Surrogate.half? c with
  | some n => ['\\', 'u'] ++ Hex.padded 4 n
  | none => showChar quote c

/-- A text between quotes, given how its characters are shown between a quote. -/
def shownWith (form : Char → Char → List Char) (s : String) : String :=
  let cs := s.toList
  let q := quoteFor cs
  String.ofList (q :: cs.flatMap (form q) ++ [q])

/-- A text between quotes. -/
def shown (s : String) : String := shownWith showChar s

end SceneMarkup.Text
