/-!
# Markup blocks

A block declares one element, `identifier := Keyword { … }`, with its properties and the blocks
inside it. Its text is a list of lines, each indented by the depth at which it stands. A block
without a keyword is a comment and nothing else.
-/

namespace SceneMarkup

/-- A block of markup. Property lines carry no indentation. -/
inductive Block
  | mk (keyword identifier comment : Option String) (properties : List String)
      (children : List Block)

namespace Block

instance : Inhabited Block := ⟨.mk none none none [] []⟩

/-- The name of an element or a component. -/
def keyword : Block → Option String
  | mk k _ _ _ _ => k

/-- The name by which other elements refer to this one. -/
def identifier : Block → Option String
  | mk _ i _ _ _ => i

/-- A remark above the block. -/
def comment : Block → Option String
  | mk _ _ c _ _ => c

/-- The lines of the properties, remarks on them included. -/
def properties : Block → List String
  | mk _ _ _ p _ => p

/-- The blocks inside this one. -/
def children : Block → List Block
  | mk _ _ _ _ cs => cs

/-- The blanks in front of a line, four for each level and none above the outermost one. -/
def indentation (depth : Int) : String :=
  String.ofList (List.replicate (4 * depth.toNat) ' ')

/-- A line at a depth. -/
def indent (depth : Int) (line : String) : String := indentation depth ++ line

/-- Why no line can stand at a depth. -/
inductive DepthFault
  | beyondWords | tooWide
  deriving DecidableEq

/-- The message of a depth fault. -/
def DepthFault.message : DepthFault → String
  | .beyondWords => "cannot fit 'int' into an index-sized integer"
  | .tooWide => "repeated string is too long"

/-- Checks that lines can stand at a depth: it and their indentation are integers of 64 bits. -/
def checkDepth (depth : Int) : Except DepthFault Unit :=
  if depth < -9223372036854775808 ∨ 9223372036854775807 < depth then .error .beyondWords
  else if 9223372036854775807 < 4 * depth then .error .tooWide
  else .ok ()

/-- A remark; an empty one is none. -/
def remark (comment : Option String) : List String :=
  match comment with
  | some c => if c = "" then [] else ["// " ++ c]
  | none => []

/-- The keyword, behind the identifier unless that is missing or empty. -/
def header (keyword : String) (identifier : Option String) : String :=
  match identifier with
  | some i => if i = "" then keyword else i ++ " := " ++ keyword
  | none => keyword

mutual

/-- The lines of a block that stands at a depth. -/
def lines (depth : Int) : Block → List String
  | mk none _ comment _ _ => (remark comment).map (indent depth)
  | mk (some keyword) identifier comment properties children =>
    (remark comment).map (indent depth) ++
      (if properties.isEmpty && children.isEmpty then
        [indent depth (header keyword identifier ++ " \x7b\x7d")]
      else
        indent depth (header keyword identifier ++ " \x7b") ::
          (properties.map (indent (depth + 1)) ++ linesOfAll (depth + 1) children ++
            [indent depth "\x7d"]))

/-- The lines of a row of blocks. -/
def linesOfAll (depth : Int) : List Block → List String
  | [] => []
  | b :: bs => lines depth b ++ linesOfAll depth bs

end

/-- The lines of a block at a depth, if any line can stand there. -/
def linesAt (depth : Int) (b : Block) : Except DepthFault (List String) := do
  checkDepth depth
  return b.lines depth

/-- The text of a block: its lines, with line breaks between them. -/
def render (b : Block) : String := "\n".intercalate (b.lines 0)

end Block
end SceneMarkup
