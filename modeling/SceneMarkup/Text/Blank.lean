/-!
# Blanks and words

Two sets of blank characters are in use. `isWhiteSpace` is the property of that name of the
character standard and surrounds number literals; `isBlank` adds the four information
separators and divides text into words.
-/

namespace SceneMarkup.Text

/-- The white space of the character standard. -/
def isWhiteSpace (c : Char) : Bool :=
  let n := c.toNat
  (9 ≤ n && n ≤ 13) || n == 32 || n == 0x85 || n == 0xA0 || n == 0x1680 ||
    (0x2000 ≤ n && n ≤ 0x200A) || n == 0x2028 || n == 0x2029 || n == 0x202F ||
    n == 0x205F || n == 0x3000

/-- The characters that separate words: white space and the information separators. -/
def isBlank (c : Char) : Bool :=
  let n := c.toNat
  (0x1C ≤ n && n ≤ 0x1F) || isWhiteSpace c

/-- A text without the characters of a class at its two ends. -/
def trimBy (p : Char → Bool) (cs : List Char) : List Char :=
  ((cs.dropWhile p).reverse.dropWhile p).reverse

/-- A text without blanks at its two ends. -/
def trim (cs : List Char) : List Char := trimBy isBlank cs

/-- The pieces of a text between the separators of a class, empty ones included. -/
def splitBy (p : Char → Bool) : List Char → List (List Char)
  | [] => [[]]
  | c :: rest =>
    if p c then [] :: splitBy p rest
    else
      match splitBy p rest with
      | [] => [[c]]
      | piece :: pieces => (c :: piece) :: pieces

/-- The words of a text. -/
def words (cs : List Char) : List (List Char) :=
  (splitBy isBlank cs).filter (· ≠ [])

/-- Words set apart by single spaces. -/
def unwords : List (List Char) → List Char
  | [] => []
  | [w] => w
  | w :: ws => w ++ ' ' :: unwords ws

/-- A text on one line: its words with single spaces between them. -/
def singleLine (s : String) : String :=
  String.ofList (unwords (words s.toList))

end SceneMarkup.Text
