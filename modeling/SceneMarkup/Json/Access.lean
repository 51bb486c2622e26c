import SceneMarkup.Json.Basic

/-!
# Access to values of unknown shape

Data from outside need not have the shape that is looked for. Each access says what it finds or
names the defect of the value that stands in its way.
-/

namespace SceneMarkup.Json

/-- What is wrong with a value for an access. -/
inductive Defect
  /-- Members were asked of a value that has none. -/
  | notObject
  /-- The value's kind does not admit the operation. -/
  | unsuited
  /-- An object lacks a key. -/
  | missingKey
  /-- A list is too short. -/
  | missingItem
  /-- An element that should be a pair has another size. -/
  | unpaired (position size : Nat)
  /-- An integer is out of the range of binary floating-point numbers. -/
  | tooLarge
  deriving DecidableEq

/-- The message of a defect; only some defects have one. -/
def Defect.message : Defect → String
  | unpaired position size =>
    "dictionary update sequence element #" ++ toString position ++ " has length " ++
      toString size ++ "; 2 is required"
  | tooLarge => "int too large to convert to float"
  | _ => ""

/-- The value under a key of an object, if any. -/
def member? (key : String) : Json → Except Defect (Option Json)
  | obj ms => .ok (find? key ms)
  | _ => .error .notObject

/-- The value under a key of an object, or a default. -/
def memberD (v : Json) (key : String) (default : Json) : Except Defect Json :=
  match v.member? key with
  | .ok found => .ok (found.getD default)
  | .error d => .error d

/-- The value under a key of an object, where an absent or vacant one is an empty object. -/
def memberOrEmpty (key : String) (v : Json) : Except Defect Json :=
  match v.memberD key .null with
  | .ok found => .ok (if found.isVacant then .obj [] else found)
  | .error d => .error d

/-- The value under a key that has to be present. -/
def required (key : String) : Json → Except Defect Json
  | obj ms =>
    match find? key ms with
    | some v => .ok v
    | none => .error .missingKey
  | _ => .error .unsuited

/-- A text of one character. -/
def character (c : Char) : Json := .str (String.ofList [c])

/-- The item at a position of a list or a text. -/
def item (i : Nat) : Json → Except Defect Json
  | arr items =>
    match items[i]? with
    | some v => .ok v
    | none => .error .missingItem
  | str s =>
    match s.toList[i]? with
    | some c => .ok (character c)
    | none => .error .missingItem
  | obj _ => .error .missingKey
  | _ => .error .unsuited

/-- The item of a list under an index that itself comes from outside. A negative one counts from
the end. -/
def itemAt (items : List Json) (index : Json) : Except Defect Json :=
  let position (n : Int) : Except Defect Json :=
    let i := if n < 0 then items.length + n else n
    if i < 0 then .error .missingItem
    else
      match items[i.toNat]? with
      | some v => .ok v
      | none => .error .missingItem
  match index with
  | int n => position n
  | bool b => position (if b then 1 else 0)
  | _ => .error .unsuited

/-- What a loop over the value meets: items, characters or keys. -/
def elements : Json → Except Defect (List Json)
  | arr items => .ok items
  | str s => .ok (s.toList.map character)
  | obj ms => .ok (ms.map fun m => .str m.1)
  | _ => .error .unsuited

/-- The number of elements. -/
def size (v : Json) : Except Defect Nat :=
  match v.elements with
  | .ok es => .ok es.length
  | .error d => .error d

/-- The members of an object. -/
def entries : Json → Except Defect Members
  | obj ms => .ok ms
  | _ => .error .notObject

/-- A beginning of a text. -/
def beginsWith : List Char → List Char → Bool
  | [], _ => true
  | _ :: _, [] => false
  | e :: es, c :: cs => e == c && beginsWith es cs

/-- A part of a text. -/
def occursIn (part : List Char) : List Char → Bool
  | [] => part.isEmpty
  | c :: cs => beginsWith part (c :: cs) || occursIn part cs

/-- Whether a text is among the keys, the items or, of a text, the parts of a value. -/
def mentions (text : String) : Json → Except Defect Bool
  | obj ms => .ok (hasKey text ms)
  | arr items => .ok (items.any fun v => match v with
    | .str s => s == text
    | _ => false)
  | str s => .ok (occursIn text.toList s.toList)
  | _ => .error .unsuited

/-- Checks one element of a list of pairs. -/
def checkPair (position : Nat) (v : Json) : Except Defect Unit :=
  match v.elements with
  | .error d => .error d
  | .ok [.arr _, _] => .error .unsuited
  | .ok [.obj _, _] => .error .unsuited
  | .ok [_, _] => .ok ()
  | .ok es => .error (.unpaired position es.length)

/-- Checks that a value is an object or a list of pairs. -/
def checkTable (v : Json) : Except Defect Unit :=
  match v with
  | obj _ => .ok ()
  | _ =>
    match v.elements with
    | .error d => .error d
    | .ok es => go 0 es
where
  /-- The elements from a position on. -/
  go (position : Nat) : List Json → Except Defect Unit
    | [] => .ok ()
    | e :: es =>
      match checkPair position e with
      | .error d => .error d
      | .ok () => go (position + 1) es

/-- The number nearest to an integer, if it is in range. -/
def ofInteger (n : Int) : Except Defect Binary64 :=
  let x := Binary64.ofInt n
  if x.isFinite then .ok x else .error .tooLarge

/-- An integer or a binary number. -/
inductive Numeric
  | exact (n : Int)
  | rounded (x : Binary64)

/-- The number that a value stands for. Truth values count as one and zero. -/
def numeric : Json → Except Defect Numeric
  | bool b => .ok (.exact (if b then 1 else 0))
  | int n => .ok (.exact n)
  | float x => .ok (.rounded x)
  | _ => .error .unsuited

/-- The difference of two numbers; exact when both are integers. -/
def sub (v w : Json) : Except Defect Json :=
  match v.numeric, w.numeric with
  | .error d, _ => .error d
  | _, .error d => .error d
  | .ok (.exact m), .ok (.exact n) => .ok (.int (m - n))
  | .ok (.rounded x), .ok (.rounded y) => .ok (.float (x.sub y))
  | .ok (.exact m), .ok (.rounded y) =>
    match ofInteger m with
    | .ok x => .ok (.float (x.sub y))
    | .error d => .error d
  | .ok (.rounded x), .ok (.exact n) =>
    match ofInteger n with
    | .ok y => .ok (.float (x.sub y))
    | .error d => .error d

/-- A number with its sign turned around. -/
def negate (v : Json) : Except Defect Json :=
  match v.numeric with
  | .ok (.exact n) => .ok (.int (-n))
  | .ok (.rounded x) => .ok (.float x.neg)
  | .error d => .error d

end SceneMarkup.Json
