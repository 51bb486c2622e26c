/-!
# The hierarchy of loggers

Loggers are known by dotted names, and each has a logger above it, in the end the root. The
logger above a new one is the next logger whose name is a beginning of its name up to a point.
Beginnings that are no loggers yet are places where the new one waits: a logger that comes to
stand there later takes the waiting ones under itself, unless the logger above one of them has
a name that begins with the name of the place.
-/

namespace SceneMarkup.Log

/-- What stands under a name. -/
inductive Standing
  /-- A logger and the name of the one above it. -/
  | logger (above : String)
  /-- A place where loggers wait. -/
  | place (waiting : List String)

/-- The names that are known, without the root. -/
structure Hierarchy where
  standings : List (String × Standing)

namespace Hierarchy

/-- The hierarchy of the root alone. -/
def empty : Hierarchy := ⟨[]⟩

/-- The name of the logger above all others. -/
def rootName : String := "root"

/-- What stands under a name. -/
def standing? (name : String) (h : Hierarchy) : Option Standing :=
  (h.standings.find? (·.1 = name)).map (·.2)

/-- The hierarchy with a standing put under a name. -/
def put (name : String) (s : Standing) (h : Hierarchy) : Hierarchy :=
  if h.standings.any (·.1 = name) then
    ⟨h.standings.map fun e => if e.1 = name then (name, s) else e⟩
  else ⟨h.standings ++ [(name, s)]⟩

/-- The logger above a logger; nothing above the root. -/
def above? (name : String) (h : Hierarchy) : Option String :=
  match h.standing? name with
  | some (.logger above) => some above
  | _ => none

/-- The part of a name before its last point. -/
def beforePoint (cs : List Char) : List Char :=
  ((cs.reverse.dropWhile (· ≠ '.')).drop 1).reverse

theorem length_beforePoint_le (cs : List Char) : (beforePoint cs).length ≤ cs.length := by
  have h := (List.dropWhile_suffix (fun c : Char => decide (c ≠ '.')) (l := cs.reverse)).length_le
  simp only [beforePoint, List.length_reverse, List.length_drop]
  simp only [List.length_reverse] at h
  omega

/-- The beginnings of a name up to its points, the longest first. The search for the next point
leaves the character before a point out, and an empty beginning ends it. -/
def beginnings (cs : List Char) : List (List Char) :=
  match beforePoint cs, length_beforePoint_le cs with
  | [], _ => []
  | c :: rest, shorter =>
    have : (c :: rest).dropLast.length < cs.length := by
      simp only [List.length_dropLast, List.length_cons] at shorter ⊢
      omega
    (c :: rest) :: beginnings (c :: rest).dropLast
termination_by cs.length

/-- Finds the logger above a new one among beginnings of its name, and lets the new one wait at
those that are no loggers. -/
def attach (name : String) : List String → Hierarchy → String × Hierarchy
  | [], h => (rootName, h)
  | b :: bs, h =>
    match h.standing? b with
    | some (.logger _) => (b, h)
    | some (.place waiting) =>
      attach name bs
        (h.put b (.place (if waiting.contains name then waiting else waiting ++ [name])))
    | none => attach name bs (h.put b (.place [name]))

/-- Puts a waiting logger under a new one, unless the name of the logger above it begins with
that of the new one. -/
def adopt (name : String) (h : Hierarchy) (child : String) : Hierarchy :=
  match h.above? child with
  | some above =>
    if name.toList.isPrefixOf above.toList then h else h.put child (.logger name)
  | none => h

/-- The hierarchy in which a name stands for a logger. -/
def enter (name : String) (h : Hierarchy) : Hierarchy :=
  let settle (waiting : List String) : Hierarchy :=
    let adopted := waiting.foldl (adopt name) h
    let (above, h) := attach name ((beginnings name.toList).map String.ofList) adopted
    h.put name (.logger above)
  if name = rootName then h
  else
    match h.standing? name with
    | some (.logger _) => h
    | some (.place waiting) => settle waiting
    | none => settle []

/-- A logger and those above it, up to the root; the fuel bounds their number. -/
def lineageWithin (h : Hierarchy) : Nat → String → List String
  | 0, name => [name]
  | fuel + 1, name =>
    match h.above? name with
    | some above => name :: lineageWithin h fuel above
    | none => [name]

/-- A logger and those above it, up to the root. -/
def lineage (name : String) (h : Hierarchy) : List String :=
  lineageWithin h h.standings.length name

end Hierarchy
end SceneMarkup.Log
