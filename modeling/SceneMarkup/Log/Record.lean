/-!
# Log records

A record has a level, the name of the part of the program that wrote it, and a message.
-/

namespace SceneMarkup.Log

/-- How grave a record is. -/
inductive Level
  | debug | info | warning | error | critical
  deriving DecidableEq

namespace Level

/-- The rank of a level; graver levels rank higher. -/
def rank : Level → Nat
  | debug => 10
  | info => 20
  | warning => 30
  | error => 40
  | critical => 50

/-- The name of a level. -/
def name : Level → String
  | debug => "DEBUG"
  | info => "INFO"
  | warning => "WARNING"
  | error => "ERROR"
  | critical => "CRITICAL"

/-- The names under which levels are known. -/
def names : List (String × Level) :=
  [("DEBUG", debug), ("INFO", info), ("WARNING", warning), ("WARN", warning), ("ERROR", error),
    ("CRITICAL", critical), ("FATAL", critical)]

/-- The level with a name. -/
def ofName? (name : String) : Option Level := (names.find? (·.1 = name)).map (·.2)

end Level

/-- A record of something that happened. -/
structure Record where
  level : Level
  source : String
  message : String
  deriving DecidableEq

end SceneMarkup.Log
