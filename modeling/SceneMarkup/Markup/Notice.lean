import SceneMarkup.Log.Record
import SceneMarkup.Markup.Brush
import SceneMarkup.Markup.Property

/-!
# Notices of generation

Generation goes on past everything that it cannot express, and leaves a notice of it.
-/

namespace SceneMarkup

/-- Something that generation leaves a notice of. -/
inductive Notice
  /-- A paint lacks what its kind of brush needs. -/
  | lack (l : Lack)
  /-- A paint is of a kind without a brush. -/
  | noBrush (type : String)
  /-- A variable belongs to no known collection. -/
  | noCollection (variableId : String)
  /-- A property of a node is not written. -/
  | propertyFailed (p : Property) (name id : String) (f : Fault)
  /-- The drawing of a node is not available. -/
  | drawingFailed (name id : String) (f : HostFault)
  /-- The drawing of a node has no path. -/
  | noCommands (name id : String)
  /-- The component of an instance is not available. -/
  | componentFailed (name id : String) (f : HostFault)
  /-- Radii of single corners give way to bound ones. -/
  | cornersDropped (name id : String) (corners : List Corner)

namespace Notice

/-- A node in a message. -/
def nodeText (name id : String) : String := "\"" ++ name ++ "\" (" ++ id ++ ")"

/-- The record of a notice. -/
def toRecord : Notice → Log.Record
  | lack .color =>
    ⟨.warning, "figma_inspector.snippet.colors", "Missing fill colors for solid color value"⟩
  | lack .linearStops =>
    ⟨.warning, "figma_inspector.snippet.colors", "Missing gradient stops for linear gradient"⟩
  | lack .radialStops =>
    ⟨.warning, "figma_inspector.snippet.colors", "Missing gradient stops for radial gradient"⟩
  | noBrush type =>
    ⟨.warning, "figma_inspector.snippet.colors", "Unknown fill type: " ++ type⟩
  | noCollection id =>
    ⟨.warning, "figma_inspector.snippet.variables",
      "Collection not found for variable ID: " ++ id⟩
  | propertyFailed p name id f =>
    ⟨.error, "figma_inspector.snippet.properties",
      "Error processing property \"" ++ p.name ++ "\" on node " ++ nodeText name id ++ ": " ++
        f.message⟩
  | drawingFailed name id f =>
    ⟨.error, "figma_inspector.snippet.properties",
      "Error exporting SVG for node " ++ nodeText name id ++ ": " ++ f.message⟩
  | noCommands name id =>
    ⟨.warning, "figma_inspector.snippet.properties",
      "Could not extract path commands from SVG for node " ++ nodeText name id⟩
  | componentFailed name id f =>
    ⟨.error, "figma_inspector.snippet.generator",
      "Error looking up main component for instance " ++ nodeText name id ++ ": " ++ f.message⟩
  | cornersDropped name id corners =>
    ⟨.warning, "figma_inspector.snippet.properties",
      "Node " ++ nodeText name id ++ ": only some corners are bound to variables; " ++
        "literal radii not emitted for " ++
        ", ".intercalate (corners.map fun c => c.bindable.key)⟩

end Notice
end SceneMarkup
