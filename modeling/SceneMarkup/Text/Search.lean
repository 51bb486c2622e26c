/-!
# Searching texts

A search looks at the places of a text from left to right, and a continuation decides whether
what stands behind a place is what is looked for.
-/

namespace SceneMarkup.Text

variable {β : Type}

/-- The text behind an expected beginning. -/
def after? : List Char → List Char → Option (List Char)
  | [], cs => some cs
  | _ :: _, [] => none
  | e :: es, c :: cs => if e = c then after? es cs else none

/-- The first place, from left to right, behind which `k` succeeds after the opening. -/
def search (opening : List Char) (k : List Char → Option β) : List Char → Option β
  | [] => (after? opening []).bind k
  | c :: cs =>
    match (after? opening (c :: cs)).bind k with
    | some b => some b
    | none => search opening k cs

end SceneMarkup.Text
