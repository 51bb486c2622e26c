import SceneMarkup.Number.Binary64

/-!
# JSON values

Integers and binary floating-point numbers are kept apart, since integers are exact at any
size. The members of an object are listed in the order in which they were written, each key
once.
-/

namespace SceneMarkup

/-- A JSON value. -/
inductive Json
  | null
  | bool (b : Bool)
  | int (n : Int)
  | float (x : Binary64)
  | str (s : String)
  | arr (items : List Json)
  | obj (members : List (String × Json))

namespace Json

instance : Inhabited Json := ⟨.null⟩

/-- The members of an object, in order. -/
abbrev Members := List (String × Json)

/-- The value under a key. -/
def find? (key : String) : Members → Option Json
  | [] => none
  | (k, v) :: rest => if k = key then some v else find? key rest

/-- Whether a key is present. -/
def hasKey (key : String) (ms : Members) : Bool := (find? key ms).isSome

/-- The members with a value put under a key. A new key comes last, an old one keeps its
place. -/
def insert (key : String) (value : Json) : Members → Members
  | [] => [(key, value)]
  | (k, v) :: rest => if k = key then (key, value) :: rest else (k, v) :: insert key value rest

/-- The members with a value put under a key unless the key is present. -/
def setDefault (key : String) (value : Json) (ms : Members) : Members :=
  if hasKey key ms then ms else insert key value ms

/-- The members without a key. -/
def erase (key : String) (ms : Members) : Members := ms.filter (·.1 ≠ key)

/-- Members of which a later one replaces an earlier one with the same key. -/
def ofPairs (ms : Members) : Members :=
  ms.foldl (fun acc m => insert m.1 m.2 acc) []

/-- The values that count as nothing: null, false, zero, and empty texts, lists and objects. -/
def isVacant : Json → Bool
  | null => true
  | bool b => !b
  | int n => n == 0
  | float x => x.isZero
  | str s => s == ""
  | arr items => items.isEmpty
  | obj members => members.isEmpty

/-- The exact value of a number as a ratio, if it has one. Truth values count as one and zero. -/
def ratio? : Json → Option (Int × Nat)
  | bool b => some (if b then 1 else 0, 1)
  | int n => some (n, 1)
  | float x => if x.isFinite then some x.ratio else none
  | _ => none

/-- Equality of plain values. Numbers are equal if their exact values are, and not-a-number is the
same as itself. -/
def samePlain (v w : Json) : Bool :=
  match v, w with
  | null, null => true
  | str s, str t => s == t
  | float .nan, float .nan => true
  | float (.infinite s), float (.infinite t) => s == t
  | v, w =>
    match v.ratio?, w.ratio? with
    | some (p, q), some (u, d) => p * (d : Int) == u * (q : Int)
    | _, _ => false

mutual

/-- Equality of values. The order of members does not count. -/
def same (v w : Json) : Bool :=
  match v, w with
  | arr vs, arr ws => sameItems vs ws
  | obj ms, obj ns => ms.length == ns.length && sameMembers ms ns
  | v, w => samePlain v w

/-- Equality of lists, item by item. -/
def sameItems : List Json → List Json → Bool
  | [], [] => true
  | v :: vs, w :: ws => same v w && sameItems vs ws
  | _, _ => false

/-- Whether members are among those of another object. -/
def sameMembers : List (String × Json) → Members → Bool
  | [], _ => true
  | (k, v) :: rest, ns =>
    (match find? k ns with
      | some w => same v w
      | none => false) && sameMembers rest ns

end

/-- Equality as a comparison finds it: like `same`, but not-a-number equals nothing. -/
def equal (v w : Json) : Bool :=
  match v with
  | float .nan => false
  | _ => same v w

/-- A list of texts. -/
def texts (ts : List String) : Json := .arr (ts.map .str)

/-- The members of an object; nothing of other values. -/
def members? : Json → Option Members
  | obj ms => some ms
  | _ => none

end Json
end SceneMarkup
