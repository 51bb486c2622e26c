import SceneMarkup.Number.Literal
import SceneMarkup.Number.Numeral
import SceneMarkup.Text.Shown

/-!
# Settings

Every setting comes from a variable of the environment and has a default. A variable that is
set but does not read as a value of its setting is a defect; the first one is reported.
-/

namespace SceneMarkup

/-- The settings of the program. -/
structure Settings where
  token : String
  apiBase : String
  timeout : Binary64
  maxConnections : Int
  maxKeepalive : Int
  downloadTimeout : Binary64
  followVariables : Bool

namespace Settings

/-- Sixty seconds. -/
def minute : Binary64 := .ofInt 60

/-- The settings of an empty environment. -/
def default : Settings where
  token := ""
  apiBase := "https://api.figma.com"
  timeout := minute
  maxConnections := 5
  maxKeepalive := 3
  downloadTimeout := minute
  followVariables := true

/-- A text that is no value of its setting. -/
inductive Defect
  | noNumber (text : String)
  | noInteger (text : String)
  /-- An integer with too many digits. -/
  | longInteger (digits : Nat)
  deriving DecidableEq

/-- The part of a shown text that a message has room for. -/
def clipped (s : String) : String := String.ofList (s.toList.take 200)

/-- The message of a defect. -/
def Defect.message : Defect → String
  | noNumber text => "could not convert string to float: " ++ Text.shown text
  | noInteger text =>
    "invalid literal for int() with base 10: " ++ clipped (Text.shown text)
  | longInteger digits => Number.longIntegerMessage digits

/-- The variables of an environment. -/
abbrev Environment := List (String × String)

/-- The value of a variable. -/
def lookup? (name : String) (env : Environment) : Option String :=
  (env.find? (·.1 = name)).map (·.2)

/-- A setting that is a text. -/
def text (name default : String) (env : Environment) : String :=
  (lookup? name env).getD default

/-- A setting that is a number. -/
def number (name : String) (default : Binary64) (env : Environment) : Except Defect Binary64 :=
  match lookup? name env with
  | none => .ok default
  | some t =>
    match (Number.literal? t).bind Number.float? with
    | some x => .ok x
    | none => .error (.noNumber t)

/-- A setting that is an integer. -/
def integer (name : String) (default : Int) (env : Environment) : Except Defect Int :=
  match lookup? name env with
  | none => .ok default
  | some t =>
    match Number.surplusDigits? t, (Number.literal? t).bind Number.int? with
    | some digits, _ => .error (.longInteger digits)
    | none, some n => .ok n
    | none, none => .error (.noInteger t)

/-- A setting that is on or off. Every text that does not say on says off. -/
def flag (name : String) (default : Bool) (env : Environment) : Bool :=
  match lookup? name env with
  | none => default
  | some t => ["true", "1", "yes"].contains (String.ofList (t.toList.map Text.lowerAscii))

/-- The settings of an environment. -/
def read (env : Environment) : Except Defect Settings := do
  let timeout ← number "FIGMA_HTTP_TIMEOUT" default.timeout env
  let maxConnections ← integer "FIGMA_HTTP_MAX_CONNECTIONS" default.maxConnections env
  let maxKeepalive ← integer "FIGMA_HTTP_MAX_KEEPALIVE" default.maxKeepalive env
  let downloadTimeout ← number "FIGMA_SVG_DOWNLOAD_TIMEOUT" default.downloadTimeout env
  return {
    token := text "FIGMA_TOKEN" default.token env
    apiBase := text "FIGMA_API_BASE" default.apiBase env
    timeout, maxConnections, maxKeepalive, downloadTimeout
    followVariables := flag "SNIPPET_USE_VARIABLES" default.followVariables env }

end Settings
end SceneMarkup
