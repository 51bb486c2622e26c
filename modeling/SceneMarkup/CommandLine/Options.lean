import SceneMarkup.Text.DecimalDigit
import SceneMarkup.Text.Search

/-!
# Options of the command line

A word of the command line is a link, an option, or the value of the option before it. Long
options may be shortened as long as one option only fits, and take a value behind an equals
sign or in the next word; short ones take it also in the same word. Behind a word of two hyphens
all words are plain.
-/

namespace SceneMarkup.CommandLine

/-- What an invocation asks for. -/
structure Options where
  link : String
  followVariables : Bool
  output : Option String
  token : Option String
  deriving DecidableEq

/-- The options by what they do. -/
inductive Switch
  | help | noVariables | output | token
  deriving DecidableEq

/-- The spellings of the options. -/
def spellings : List (String × Switch) :=
  [("-h", .help), ("--help", .help), ("--no-variables", .noVariables), ("--output", .output),
    ("-o", .output), ("--token", .token)]

/-- A word by its role. -/
inductive Word
  /-- A value or a link. -/
  | plain (text : String)
  /-- The two hyphens behind which all words are plain. -/
  | separator
  /-- An option, perhaps with a value in the same word. -/
  | option (s : Switch) (attached : Option String)
  /-- Something that looks like an option but is none. -/
  | unknown
  deriving DecidableEq

/-- What a command line comes to. -/
inductive Parsed
  | run (o : Options)
  | help
  | misuse
  deriving DecidableEq

/-- The part of a word before its first equals sign and the part behind it. -/
def splitAtEquals (cs : List Char) : Option (List Char × List Char) :=
  match cs.dropWhile (· ≠ '=') with
  | [] => none
  | _ :: value => some (cs.takeWhile (· ≠ '='), value)

/-- An option by its full spelling. -/
def spelled? (cs : List Char) : Option Switch :=
  (spellings.find? (·.1 = String.ofList cs)).map (·.2)

/-- The options whose spelling begins with a text. -/
def completions (cs : List Char) : List Switch :=
  (spellings.filter fun s => (Text.after? cs s.1.toList).isSome).map (·.2)

/-- The options that a word with two hyphens in front may stand for. -/
def longMatches (cs : List Char) : List (Switch × Option String) :=
  match splitAtEquals cs with
  | some (name, value) => (completions name).map fun s => (s, some (String.ofList value))
  | none => (completions cs).map fun s => (s, none)

/-- The options that a word with one hyphen in front may stand for: a short one with its value
behind it, or the beginning of a spelling. -/
def shortMatches (cs : List Char) : List (Switch × Option String) :=
  ((spelled? (cs.take 2)).map fun s => (s, some (String.ofList (cs.drop 2)))).toList ++
    (completions cs).map fun s => (s, none)

/-- A negative number in plain decimal notation. -/
def isNegativeNumber (cs : List Char) : Bool :=
  let isDigit (c : Char) : Bool := (Text.decimalDigit? c).isSome
  match cs with
  | '-' :: rest =>
    match rest.dropWhile isDigit with
    | [] => !rest.isEmpty
    | '.' :: fraction => !fraction.isEmpty && fraction.all isDigit
    | _ => false
  | _ => false

/-- The role of a word that is no full spelling of an option; none when several options fit. -/
def guess? (cs : List Char) : Option Word :=
  let found := match cs with
    | '-' :: '-' :: _ => longMatches cs
    | _ => shortMatches cs
  match found with
  | [(s, value)] => some (.option s value)
  | _ :: _ :: _ => none
  | [] =>
    if isNegativeNumber cs || cs.contains ' ' then some (.plain (String.ofList cs))
    else some .unknown

/-- An option by its full spelling, with a value behind an equals sign. -/
def exactWithValue? (cs : List Char) : Option Word :=
  match splitAtEquals cs with
  | some (name, value) => (spelled? name).map fun s => .option s (some (String.ofList value))
  | none => none

/-- The role of a word; none when several options fit. -/
def role? (text : String) : Option Word :=
  match text.toList with
  | '-' :: c :: rest =>
    let cs := '-' :: c :: rest
    match spelled? cs with
    | some s => some (.option s none)
    | none =>
      match exactWithValue? cs with
      | some w => some w
      | none => guess? cs
  | _ => some (.plain text)

/-- The roles of all words; none when several options fit one of them. -/
def roles? : List String → Option (List Word)
  | [] => some []
  | w :: ws =>
    if w = "--" then some (.separator :: ws.map .plain)
    else
      match role? w, roles? ws with
      | some r, some rs => some (r :: rs)
      | _, _ => none

/-- What has been read so far. -/
structure Progress where
  link : Option String
  followVariables : Bool
  output : Option String
  token : Option String
  /-- Whether a word was left over. -/
  surplus : Bool

/-- The options of a command line that is read to its end. -/
def Progress.finish (p : Progress) : Parsed :=
  match p.link with
  | some link =>
    if p.surplus then .misuse else .run ⟨link, p.followVariables, p.output, p.token⟩
  | none => .misuse

/-- The progress after an option with its value. -/
def Progress.give (p : Progress) (s : Switch) (value : String) : Progress :=
  match s with
  | .output => { p with output := some value }
  | .token => { p with token := some value }
  | _ => p

/-- Reads the words in order. A separator belongs to the link next to it. -/
def interpret (p : Progress) : List Word → Parsed
  | [] => p.finish
  | .plain text :: .separator :: rest =>
    match p.link with
    | none => interpret { p with link := some text } rest
    | some _ => interpret { p with surplus := true } rest
  | .plain text :: rest =>
    match p.link with
    | none => interpret { p with link := some text } rest
    | some _ => interpret { p with surplus := true } rest
  | .separator :: rest =>
    match p.link with
    | none => interpret p rest
    | some _ => interpret { p with surplus := true } rest
  | .unknown :: rest => interpret { p with surplus := true } rest
  | .option .help none :: _ => .help
  | .option .help (some _) :: _ => .misuse
  | .option .noVariables none :: rest => interpret { p with followVariables := false } rest
  | .option .noVariables (some _) :: _ => .misuse
  | .option s (some value) :: rest => interpret (p.give s value) rest
  | .option s none :: .plain value :: rest => interpret (p.give s value) rest
  | .option _ none :: _ => .misuse

/-- Reads a command line. -/
def parse (followVariables : Bool) (words : List String) : Parsed :=
  match roles? words with
  | some ws => interpret ⟨none, followVariables, none, none, false⟩ ws
  | none => .misuse

end SceneMarkup.CommandLine
