import SceneMarkup.Number.Literal
import SceneMarkup.Service.Host
import SceneMarkup.Text.Surrogate

/-!
# Addresses

An address has a scheme, an authority, a path, a query and a fragment, of which all but the path
may be missing. `Address.read` brings every part into its normal form: the scheme and the host in
lower case, the port left out where the scheme implies it, single and double points resolved in
the path, and characters escaped that a part does not admit. `Address.text` writes the parts
again.

`Destination` is where a request goes: the service itself is named by paths alone, everything
else by whole addresses.
-/

namespace SceneMarkup

/-- An address in normal form. -/
structure Address where
  scheme : String
  userinfo : String
  host : String
  port : Option Int
  path : String
  query : Option String
  fragment : Option String
  deriving DecidableEq

namespace Address

open Text

/-- Why a text is no address. -/
inductive Defect
  | invalid
  /-- Half a surrogate pair has no bytes. -/
  | unencodable
  deriving DecidableEq

/-- The largest number of characters of an address or of one of its parts. -/
def longest : Nat := 65536

/-- The parts of an address as they stand in a text. -/
structure Parts where
  scheme : List Char
  authority : Option (List Char)
  path : List Char
  query : Option (List Char)
  fragment : Option (List Char)

/-- A character of a scheme. -/
def isSchemeChar (c : Char) : Bool := isAsciiAlphanum c || c == '+' || c == '.' || c == '-'

/-- The scheme in front and the rest. A colon in front follows an empty scheme. -/
def splitScheme (cs : List Char) : List Char × List Char :=
  match cs with
  | [] => ([], [])
  | c :: rest =>
    if c = ':' then ([], rest)
    else if isAsciiAlphanum c && !isAsciiDigit c then
      match cs.dropWhile isSchemeChar with
      | ':' :: rest => (cs.takeWhile isSchemeChar, rest)
      | _ => ([], cs)
    else ([], cs)

/-- A part behind its mark, if the mark is there. -/
def behind (mark : Char) (cs : List Char) : Option (List Char) :=
  match cs with
  | c :: rest => if c = mark then some rest else none
  | [] => none

/-- Divides a text into parts. -/
def Parts.ofText (cs : List Char) : Parts :=
  let (scheme, rest) := splitScheme cs
  let (authority, rest) := match rest with
    | '/' :: '/' :: rest =>
      let isIn (c : Char) : Bool := c ≠ '/' ∧ c ≠ '?' ∧ c ≠ '#'
      (some (rest.takeWhile isIn), rest.dropWhile isIn)
    | rest => (none, rest)
  let isInPath (c : Char) : Bool := c ≠ '?' ∧ c ≠ '#'
  let path := rest.takeWhile isInPath
  let rest := rest.dropWhile isInPath
  { scheme, authority, path
    query := (behind '?' rest).map fun cs => cs.takeWhile (· ≠ '#')
    fragment := behind '#' (rest.dropWhile (· ≠ '#')) }

/-- The parts of an authority: what is before the last at sign, the host, and the port. -/
def splitAuthority (cs : List Char) : List Char × List Char × List Char :=
  let back := cs.reverse
  let (userinfo, rest) :=
    if cs.contains '@' then
      (((back.dropWhile (· ≠ '@')).drop 1).reverse, (back.takeWhile (· ≠ '@')).reverse)
    else ([], cs)
  let bracketed := (rest.reverse.dropWhile (· ≠ ']')).reverse
  let host := if rest.head? = some '[' ∧ bracketed ≠ [] then bracketed
    else rest.takeWhile (· ≠ ':')
  let tail := rest.drop host.length
  (userinfo, host, (behind ':' tail).getD tail)

/-- A visible character of the ASCII set beside some. -/
def isVisibleExcept (excluded : String) (c : Char) : Bool :=
  0x20 < c.toNat && c.toNat < 0x7F && !excluded.toList.contains c

/-- The characters of a path that need no escape. -/
def isPathSafe : Char → Bool := isVisibleExcept "\"#<>?`\x7b\x7d"

/-- The characters of a query that need no escape. -/
def isQuerySafe : Char → Bool := isVisibleExcept "\"#<>"

/-- The characters of a fragment that need no escape. -/
def isFragmentSafe : Char → Bool := isVisibleExcept "\"<>`"

/-- The characters in front of an at sign that need no escape. -/
def isUserSafe : Char → Bool := isVisibleExcept "\"#<>?`\x7b\x7d/;=@[\\]^|"

/-- The parts of a path without single points, and with double points taking the part before
them away. -/
def resolve (before : List (List Char)) : List (List Char) → List (List Char)
  | [] => before.reverse
  | p :: ps =>
    if p = ['.'] then resolve before ps
    else if p = ['.', '.'] then
      resolve (if before = [[]] then before else before.drop 1) ps
    else resolve (p :: before) ps

/-- Parts with slashes between them. -/
def joinParts : List (List Char) → List Char
  | [] => []
  | [p] => p
  | p :: ps => p ++ '/' :: joinParts ps

/-- A path without single and double points. -/
def normalPath (cs : List Char) : List Char := joinParts (resolve [] (splitBy (· == '/') cs))

/-- The port that a scheme implies. -/
def impliedPort (scheme : String) : Option Int :=
  if scheme = "ftp" then some 21
  else if scheme = "http" ∨ scheme = "ws" then some 80
  else if scheme = "https" ∨ scheme = "wss" then some 443
  else none

/-- The port of an authority; none when it is empty or implied by the scheme. -/
def port? (scheme port : List Char) : Except Defect (Option Int) :=
  if port = [] then .ok none
  else
    let text := String.ofList port
    match Number.surplusDigits? text, (Number.literal? text).bind Number.int? with
    | none, some n => .ok (if impliedPort (String.ofList scheme) = some n then none else some n)
    | _, _ => .error .invalid

/-- A text without control characters of the ASCII set and not too long. -/
def isAdmissible (cs : List Char) : Bool :=
  cs.length ≤ longest && cs.all fun c => 0x20 ≤ c.toNat && c.toNat ≠ 0x7F

/-- A part with characters escaped that are not safe. -/
def escaped (safe : Char → Bool) (cs : List Char) : Except Defect String :=
  if cs.all fun c => (Surrogate.half? c).isNone then
    .ok (String.ofList (Percent.encode safe cs))
  else .error .unencodable

/-- A part that may be missing. -/
def escaped? (safe : Char → Bool) : Option (List Char) → Except Defect (Option String)
  | some cs => (escaped safe cs).map some
  | none => .ok none

/-- Whether a path can follow the parts before it. Behind an authority it starts with a slash;
on its own it does not start with two slashes or a colon. -/
def isPlaced (hasScheme hasAuthority : Bool) (path : List Char) : Bool :=
  if hasAuthority then path = [] || path.head? = some '/'
  else hasScheme || !(path.take 2 = ['/', '/'] || path.head? = some ':')

/-- The address of parts. -/
def ofParts (p : Parts) : Except Defect Address := do
  let (user, host, port) := splitAuthority (p.authority.getD [])
  let userinfo ← escaped isUserSafe user
  let host ← match Host.read? host with
    | some h => .ok (String.ofList h)
    | none => .error .invalid
  let port ← port? p.scheme port
  let hasScheme := p.scheme ≠ []
  let hasAuthority := userinfo ≠ "" || host ≠ "" || port.isSome
  if isPlaced hasScheme hasAuthority p.path then
    let path ← escaped isPathSafe
      (if hasScheme || hasAuthority then normalPath p.path else p.path)
    let query ← escaped? isQuerySafe p.query
    let fragment ← escaped? isFragmentSafe p.fragment
    return {
      scheme := String.ofList (p.scheme.map lowerAscii)
      userinfo, host, port, path, query, fragment }
  else .error .invalid

/-- Reads an address. -/
def read (text : String) : Except Defect Address :=
  if isAdmissible text.toList then ofParts (Parts.ofText text.toList) else .error .invalid

/-- The text of an authority. A host with colons stands in brackets. -/
def authority (a : Address) : String :=
  (if a.userinfo = "" then "" else a.userinfo ++ "@") ++
    (if a.host.toList.contains ':' then "[" ++ a.host ++ "]" else a.host) ++
    match a.port with
    | some n => ":" ++ toString n
    | none => ""

/-- A part behind its mark; nothing when the part is missing. -/
def marked (mark : String) : Option String → String
  | some part => mark ++ part
  | none => ""

/-- The text of an address. -/
def text (a : Address) : String :=
  (if a.scheme = "" then "" else a.scheme ++ ":") ++
    (if a.authority = "" then "" else "//" ++ a.authority) ++
    a.path ++ marked "?" a.query ++ marked "#" a.fragment

/-- An address that is complete without another one. -/
def isAbsolute (a : Address) : Bool := a.scheme ≠ "" && a.host ≠ ""

/-- What follows the authority, with exactly one slash in front. -/
def tail (a : Address) : String :=
  String.ofList ('/' :: a.path.toList.dropWhile (· == '/'))

/-- What a path says with its escapes read; an empty one is a single slash. -/
def plainPath (path : String) : String :=
  if path = "" then "/" else String.ofList (Percent.decode path.toList)

/-- A text of a query with its escapes read, in which a plus sign stands for a blank. -/
def queryText (cs : List Char) : String :=
  String.ofList (Percent.decode (cs.map fun c => if c = '+' then ' ' else c))

/-- The parameters of a query. -/
def parameters (query : String) : List (String × String) :=
  ((splitBy (· == '&') query.toList).filter (· ≠ [])).map fun cs =>
    (queryText (cs.takeWhile (· ≠ '=')), queryText ((cs.dropWhile (· ≠ '=')).drop 1))

/-- The number of characters of a text in a query. -/
def queryLength (s : String) : Nat :=
  (s.toList.map fun c =>
    if c = ' ' ∨ Percent.isUnreserved c then 1 else 3 * (Utf8.encode c).length).foldr (· + ·) 0

/-- Checks parameters: they have bytes and make a query that is not too long. -/
def checkParameters (ps : List (String × String)) : Except Defect Unit :=
  if ps.all fun p => Surrogate.isWhole p.1 && Surrogate.isWhole p.2 then
    let lengths := ps.map fun p => queryLength p.1 + queryLength p.2 + 2
    if lengths.foldr (· + ·) 0 ≤ longest + 1 then .ok ()
    else .error .invalid
  else .error .unencodable

end Address

/-- Where a request goes, with the parameters that it carries. -/
structure Destination where
  address : String
  parameters : List (String × String)
  /-- Whether the address says how it is to be reached. -/
  isReachable : Bool
  deriving DecidableEq

namespace Destination

open Address

/-- The scheme and the host of the service. -/
def service : String × String := ("https", "api.figma.com")

/-- The destination under a path of the service. Parameters that are given replace those of the
path. -/
def ofPath (path : String) (given : List (String × String)) : Except Defect Destination := do
  let a ← Address.read path
  let query := a.query.getD ""
  if a.tail.length ≤ longest ∧ query.length ≤ longest then
    checkParameters given
    let found := if given = [] then Address.parameters query else given
    let path := String.ofList (normalPath a.tail.toList)
    return ⟨plainPath path, found, true⟩
  else .error .invalid

/-- The destination of a download. An address without a scheme or a host keeps its path and its
query only. -/
def ofAddress (text : String) : Except Defect Destination := do
  let a ← Address.read text
  if a.isAbsolute then
    if (a.scheme, a.host) = service ∧ a.port = none then
      return ⟨plainPath a.path, Address.parameters (a.query.getD ""), true⟩
    else return ⟨a.text, [], true⟩
  else if a.tail.length ≤ longest ∧ (a.query.getD "").length ≤ longest then
    return ⟨a.tail ++ marked "?" a.query, [], false⟩
  else .error .invalid

end Destination
end SceneMarkup
