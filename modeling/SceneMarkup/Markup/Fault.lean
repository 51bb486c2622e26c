import SceneMarkup.Lookup.Query
import SceneMarkup.Number.Rounding

/-!
# Faults of generation

What can stop a property: a number that has no written form, a matrix without the entry that is
needed, an attribute that the nodes of a class do not have, or a design host that does not
answer.
-/

namespace SceneMarkup

/-- Why a step of generation stops. -/
inductive Fault
  | number (f : NumberFault)
  | missingEntry
  | lacking (owner : NodeClass) (field : String)
  | host (f : HostFault)
  deriving DecidableEq

/-- The message of a fault. -/
def Fault.message : Fault → String
  | number f => f.message
  | missingEntry => "list index out of range"
  | lacking owner field =>
    "'" ++ owner.label ++ "' object has no attribute '" ++ field ++ "'"
  | host f => f.message

end SceneMarkup
