import SceneMarkup.Text.Blank

/-!
# Paths of log files

The path of a log file is taken from the directory of the logs. Empty parts and single points
say nothing, and two points lead to the directory above. No directory is made on the way, so
that only files that lie in known directories can be written.
-/

namespace SceneMarkup.Log

/-- Why a file cannot be written. -/
inductive FileFault
  | missingDirectory | isDirectory | notDirectory | nameTooLong | nullByte
  deriving DecidableEq

/-- Where a file lies. -/
inductive Target
  /-- In the directory of the logs. -/
  | file (name : String)
  /-- In another directory. -/
  | elsewhere
  /-- The standard error. -/
  | console
  deriving DecidableEq

namespace FilePath

/-- The parts of a path that say something. -/
def parts (path : List Char) : List (List Char) :=
  (Text.splitBy (· == '/') path).filter fun p => p ≠ [] ∧ p ≠ ['.']

/-- The number of directories that a path goes up from where it starts, and the parts, in
reverse, that it goes down from there. -/
def walk : Nat × List (List Char) → List (List Char) → Nat × List (List Char)
  | place, [] => place
  | (ups, down), p :: ps =>
    if p = ['.', '.'] then
      match down with
      | [] => walk (ups + 1, []) ps
      | _ :: above => walk (ups, above) ps
    else walk (ups, p :: down) ps

/-- The directories of the system that take files. -/
def openDirectories : List (List (List Char)) := [["tmp".toList], ["dev".toList]]

/-- A path from the root of the file system. -/
def ofRoot (down : List (List Char)) : Except FileFault Target :=
  match down with
  | [] => .error .isDirectory
  | [name] => if openDirectories.contains [name] then .error .isDirectory else .ok .elsewhere
  | _ :: directory =>
    if openDirectories.contains directory then .ok .elsewhere else .error .missingDirectory

/-- A path from the directory of the logs, given the files that are there. -/
def ofLogs (files : List String) (ups : Nat) (down : List (List Char)) :
    Except FileFault Target :=
  match down.reverse, ups with
  | [], _ => .error .isDirectory
  | [name], 0 => .ok (.file (String.ofList name))
  | [_], _ => .ok .elsewhere
  | name :: _, 0 =>
    if files.contains (String.ofList name) then .error .notDirectory
    else .error .missingDirectory
  | _, _ => .error .missingDirectory

/-- The largest size of a part in bytes. -/
def longestPart : Nat := 255

/-- Where the file with a path lies, given the files in the directory of the logs. -/
def locate (files : List String) (path : String) : Except FileFault Target :=
  let found := parts path.toList
  if path.toList.contains (Char.ofNat 0) then .error .nullByte
  else if found.any fun p => longestPart < (String.ofList p).utf8ByteSize then
    .error .nameTooLong
  else
    match path.toList with
    | '/' :: _ => ofRoot (walk (0, []) found).2
    | _ =>
      let (ups, down) := walk (0, []) found
      ofLogs files ups down

end FilePath
end SceneMarkup.Log
