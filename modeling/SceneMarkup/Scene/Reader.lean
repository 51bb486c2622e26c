import SceneMarkup.Scene.Binding
import SceneMarkup.Scene.Library
import SceneMarkup.Scene.Reading

/-!
# Reading paints, bindings and library entries

Each reader names the fields of an object once, in the order in which their issues are
reported. Unknown fields are left alone.
-/

namespace SceneMarkup

open Reading

namespace Color

/-- A color; channels default to black and alpha to one. -/
def ofMembers (ms : Json.Members) : Reading Color :=
  Color.mk
    <$> withDefault "r" (.zero false) number ms
    <*> withDefault "g" (.zero false) number ms
    <*> withDefault "b" (.zero false) number ms
    <*> withDefault "a" .one number ms

/-- Reads a color. -/
def read : Json → Reading Color := object ofMembers

end Color

namespace ColorStop

/-- A stop of a gradient. -/
def ofMembers (ms : Json.Members) : Reading ColorStop :=
  ColorStop.mk
    <$> required "color" Color.read ms
    <*> required "position" number ms

/-- Reads a stop of a gradient. -/
def read : Json → Reading ColorStop := object ofMembers

end ColorStop

namespace VariableRef

/-- A reference to a variable. -/
def ofMembers (ms : Json.Members) : Reading VariableRef :=
  VariableRef.mk
    <$> required "id" text ms
    <*> withDefault "type" "VARIABLE_ALIAS" text ms

/-- Reads a reference to a variable. -/
def read : Json → Reading VariableRef := object ofMembers

end VariableRef

namespace Paint

/-- Reads the binding of a paint's color. -/
def readBinding : Json → Reading (Option VariableRef) :=
  object (optional "color" VariableRef.read)

/-- A fill or a stroke; visible and opaque unless it says otherwise. -/
def ofMembers (ms : Json.Members) : Reading Paint :=
  Paint.mk
    <$> required "type" text ms
    <*> withDefault "visible" true truth ms
    <*> withDefault "opacity" .one number ms
    <*> optional "color" Color.read ms
    <*> optional "gradient_stops" (list ColorStop.read) ms
    <*> optional "gradient_transform" (list (list number)) ms
    <*> withDefault "bound_variables" none readBinding ms

/-- Reads a fill or a stroke. -/
def read : Json → Reading Paint := object ofMembers

end Paint

namespace Bindings

/-- The first reference of a list, since a text can be bound range by range; null for an empty
list. Other values stand for themselves. -/
def firstOf : Json → Json
  | .arr [] => .null
  | .arr (v :: _) => v
  | v => v

/-- The bound ones of a row of attributes. -/
def entriesOf (ms : Json.Members) : List Bindable → Reading (List (Bindable × VariableRef))
  | [] => value []
  | b :: bs =>
    (fun found rest => match found with
      | some ref => (b, ref) :: rest
      | none => rest)
    <$> withDefault b.key none (fun v => nullable VariableRef.read (firstOf v)) ms
    <*> entriesOf ms bs

/-- Reads the bindings of a node. -/
def read : Json → Reading Bindings :=
  object fun ms => Bindings.mk <$> entriesOf ms Bindable.all

end Bindings

namespace Variable

/-- A variable. -/
def ofMembers (ms : Json.Members) : Reading Variable :=
  Variable.mk
    <$> required "id" text ms
    <*> required "name" text ms
    <*> required "variable_collection_id" text ms

/-- Reads a variable. -/
def read : Json → Reading Variable := object ofMembers

end Variable

namespace VariableMode

/-- A mode. -/
def ofMembers (ms : Json.Members) : Reading VariableMode :=
  VariableMode.mk
    <$> required "mode_id" text ms
    <*> withDefault "name" "" text ms

/-- Reads a mode. -/
def read : Json → Reading VariableMode := object ofMembers

end VariableMode

namespace VariableCollection

/-- A collection of variables. -/
def ofMembers (ms : Json.Members) : Reading VariableCollection :=
  VariableCollection.mk
    <$> required "id" text ms
    <*> required "name" text ms
    <*> withDefault "modes" [] (list VariableMode.read) ms

/-- Reads a collection of variables. -/
def read : Json → Reading VariableCollection := object ofMembers

end VariableCollection

namespace MainComponent

/-- A component. -/
def ofMembers (ms : Json.Members) : Reading MainComponent :=
  MainComponent.mk
    <$> required "id" text ms
    <*> required "name" text ms
    <*> optional "component_set_name" text ms

/-- Reads a component. -/
def read : Json → Reading MainComponent := object ofMembers

end MainComponent
end SceneMarkup
