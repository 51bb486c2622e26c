import SceneMarkup.Json.Access
import SceneMarkup.Number.Literal
import SceneMarkup.Text.Surrogate

/-!
# Reading values with located issues

A reading collects the issues of all its parts, in order, instead of stopping at the first. A
defect of the data that no issue describes stops it at once and hides the issues. Every field
has one name, written with underscores, and two spellings; the one in camel case comes first.
-/

namespace SceneMarkup

/-- A step from a value to a part of it. -/
inductive Step
  | key (name : String)
  | index (i : Nat)
  deriving DecidableEq

/-- What is wrong with a value. -/
inductive Reason
  | missing | notText | brokenText | notNumber | badNumber | notTruth | badTruth | notList
  | notModel | otherLiteral
  deriving DecidableEq

/-- An issue and the place of the value that has it. -/
structure Issue where
  place : List Step
  reason : Reason
  deriving DecidableEq

/-- The same issue seen from a value that holds the former one. -/
def Issue.within (step : Step) (i : Issue) : Issue := { i with place := step :: i.place }

/-- What reading a value comes to. -/
inductive Reading (α : Type)
  | value (a : α)
  | invalid (issues : List Issue)
  | defect (d : Json.Defect)

namespace Reading

variable {α β : Type}

/-- Both readings; issues of the first come first, and a defect of either prevails. -/
def both (f : Reading (α → β)) (x : Reading α) : Reading β :=
  match f, x with
  | defect d, _ => defect d
  | _, defect d => defect d
  | invalid i, invalid j => invalid (i ++ j)
  | invalid i, value _ => invalid i
  | value _, invalid j => invalid j
  | value g, value a => value (g a)

/-- A function of what is read. -/
def map (g : α → β) : Reading α → Reading β
  | value a => value (g a)
  | invalid i => invalid i
  | defect d => defect d

instance : Applicative Reading where
  pure := value
  map := map
  seq f x := both f (x ())

/-- A single issue at the value itself. -/
def issue (r : Reason) : Reading α := invalid [⟨[], r⟩]

/-- The reading seen from a value that holds the former one. -/
def within (step : Step) : Reading α → Reading α
  | invalid i => invalid (i.map (Issue.within step))
  | r => r

/-- What a reading leads to. Issues and defects stop it. -/
def andThen (r : Reading α) (k : α → Reading β) : Reading β :=
  match r with
  | value a => k a
  | invalid i => invalid i
  | defect d => defect d

/-- The readings of a list, in order. -/
def each (read : Json → Reading α) (position : Nat) : List Json → Reading (List α)
  | [] => value []
  | v :: vs =>
    both (map List.cons ((read v).within (.index position))) (each read (position + 1) vs)

end Reading

namespace FieldName

/-- A word with a capital first letter. -/
def capital : List Char → List Char
  | [] => []
  | c :: cs => Text.upperAscii c :: cs

/-- The spelling of a field in camel case. -/
def camel (name : String) : String :=
  match Text.splitBy (· == '_') name.toList with
  | [] => ""
  | w :: ws => String.ofList (w ++ (ws.map capital).flatten)

/-- The value of a field and the spelling under which it is found. -/
def find? (name : String) (ms : Json.Members) : Option (String × Json) :=
  match Json.find? (camel name) ms with
  | some v => some (camel name, v)
  | none => (Json.find? name ms).map fun v => (name, v)

end FieldName

namespace Reading

variable {α β : Type}

/-- A field that has to be present. -/
def required (name : String) (read : Json → Reading α) (ms : Json.Members) : Reading α :=
  match FieldName.find? name ms with
  | some (key, v) => (read v).within (.key key)
  | none => (issue .missing).within (.key (FieldName.camel name))

/-- A field with a default. -/
def withDefault (name : String) (default : α) (read : Json → Reading α) (ms : Json.Members) :
    Reading α :=
  match FieldName.find? name ms with
  | some (key, v) => (read v).within (.key key)
  | none => value default

/-- A value or null. -/
def nullable (read : Json → Reading α) : Json → Reading (Option α)
  | .null => value none
  | v => (read v).map some

/-- A field that may be absent or null. -/
def optional (name : String) (read : Json → Reading α) (ms : Json.Members) :
    Reading (Option α) :=
  withDefault name none (nullable read) ms

/-- A text. -/
def text : Json → Reading String
  | .str s => value s
  | _ => issue .notText

/-- A text that is no literal of the kind that is read. Half a surrogate pair keeps it from being
looked at. -/
def illegible (s : String) (r : Reason) : Reading α :=
  if Text.Surrogate.isWhole s then issue r else issue .brokenText

/-- A number: an integer in range, a binary number, a truth value, or a literal, which either has
white space around it or single underscores inside. -/
def number : Json → Reading Binary64
  | .int n =>
    match Json.ofInteger n with
    | .ok x => value x
    | .error _ => issue .notNumber
  | .float x => value x
  | .bool b => value (Binary64.ofInt (if b then 1 else 0))
  | .str s =>
    let body := Text.trimBy Text.isWhiteSpace s.toList
    match (Number.float? body).orElse fun _ => (Number.ungroup s.toList).bind Number.float? with
    | some x => value x
    | none => illegible s .badNumber
  | _ => issue .notNumber

/-- The bound of integers of 64 bits. -/
def wordBound : Int := 9223372036854775808

/-- The truth value that an integer of 64 bits stands for. -/
def truthOfInteger (n : Int) : Reading Bool :=
  if n = 0 then value false else if n = 1 then value true else issue .badTruth

/-- A truth value: itself, one or zero, or one of their names in any case. A number is looked at
if it is an integer of 64 bits, which the least one counts as only when written as an integer. -/
def truth : Json → Reading Bool
  | .bool b => value b
  | .int n => if -wordBound ≤ n ∧ n < wordBound then truthOfInteger n else issue .notTruth
  | .float x =>
    if x.isFinite && x.numEq (Binary64.ofInt x.floor) && -wordBound < x.floor &&
        x.floor < wordBound then truthOfInteger x.floor
    else issue .notTruth
  | .str s =>
    let name := String.ofList (s.toList.map Text.lowerAscii)
    if ["0", "off", "f", "false", "n", "no"].contains name then value false
    else if ["1", "on", "t", "true", "y", "yes"].contains name then value true
    else illegible s .badTruth
  | _ => issue .notTruth

/-- One certain text. -/
def literal (expected : String) : Json → Reading String
  | .str s => if s = expected then value s else issue .otherLiteral
  | _ => issue .otherLiteral

/-- A list. -/
def list (read : Json → Reading α) : Json → Reading (List α)
  | .arr items => each read 0 items
  | _ => issue .notList

/-- An object. -/
def object (read : Json.Members → Reading α) : Json → Reading α
  | .obj ms => read ms
  | _ => issue .notModel

end Reading
end SceneMarkup
