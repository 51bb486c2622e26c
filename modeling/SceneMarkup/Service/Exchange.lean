import SceneMarkup.Json.Reader
import SceneMarkup.Log.Record
import SceneMarkup.Scene.Reading
import SceneMarkup.Service.Address
import SceneMarkup.Service.Link
import SceneMarkup.Settings

/-!
# Exchanges with the design service

An exchange sends requests over a line and keeps an account of what happens on it: which pools
of connections are opened and closed, which requests are sent, and which notices are left. The
server behind the line is any function of a state, so that a statement about an exchange holds
for every behavior of a server.
-/

namespace SceneMarkup

/-- A request. Only requests to the service itself carry the token. -/
structure Request where
  address : String
  parameters : List (String × String)
  token : Option String
  deriving DecidableEq

/-- A response of a server. -/
structure Response where
  status : Nat
  body : String
  deriving DecidableEq

/-- Why a request gets no response. -/
inductive TransportFault
  | timedOut (message : String)
  | notConnected (message : String)
  | readFailed (message : String)
  | protocolBroken (message : String)
  deriving DecidableEq

/-- The message of a transport fault. -/
def TransportFault.message : TransportFault → String
  | timedOut m => m
  | notConnected m => m
  | readFailed m => m
  | protocolBroken m => m

/-- What comes back on a request. -/
abbrev WireReply := Except TransportFault Response

/-- A server with a state. -/
def Server (σ : Type) : Type := Request → σ → WireReply × σ

/-- Why the program gives up on the service. -/
inductive Refusal
  | badLink (d : Link.Defect)
  | noToken
  | timedOut (address : String)
  | notConnected (address : String)
  | forbidden
  | notFound (address : String)
  | tooMany
  | badStatus (status : Nat) (body : String)
  | renderFailed (reason : Json)
  | noDrawing (node : String)
  | noNode (node file : String)

/-- What ends an exchange. -/
inductive Failure
  | refused (r : Refusal)
  | transport (f : TransportFault)
  /-- The body of a response cannot be read. -/
  | unreadable (f : Json.Flaw)
  /-- A request cannot be addressed. -/
  | unaddressed (d : Address.Defect)
  /-- A download has been asked for without a scheme. -/
  | noScheme (address : String)
  | defect (d : Json.Defect)
  | invalid (issues : List Issue)

/-- The two pools of connections: to the service, and to where it puts drawings. -/
inductive Pool
  | service | downloads
  deriving DecidableEq

/-- Something that happens on a line. -/
inductive Event (ν : Type)
  | opened (p : Pool)
  | closed (p : Pool)
  | sent (r : Request)
  | noted (n : ν)

/-- A line: the state of the server, whether the pool to the service is open, and what has
happened so far. -/
structure Line (σ ν : Type) where
  server : σ
  isOpen : Bool
  events : List (Event ν)

/-- A line on which nothing has happened yet. -/
def Line.fresh {σ ν : Type} (server : σ) : Line σ ν := ⟨server, false, []⟩

/-- The line after another event. -/
def Line.log {σ ν : Type} (e : Event ν) (l : Line σ ν) : Line σ ν :=
  { l with events := l.events ++ [e] }

/-- A computation on a line. -/
def Exchange (σ ν α : Type) : Type := Line σ ν → Except Failure α × Line σ ν

namespace Exchange

variable {σ ν α β : Type}

/-- The exchange that does nothing. -/
def done (a : α) : Exchange σ ν α := fun l => (.ok a, l)

/-- The exchange that ends in a failure. -/
def fail (f : Failure) : Exchange σ ν α := fun l => (.error f, l)

/-- One exchange after the other. -/
def bind (x : Exchange σ ν α) (k : α → Exchange σ ν β) : Exchange σ ν β := fun l =>
  match x l with
  | (.ok a, l) => k a l
  | (.error f, l) => (.error f, l)

instance : Monad (Exchange σ ν) where
  pure := done
  bind := bind

/-- The exchange that gives up. -/
def refuse (r : Refusal) : Exchange σ ν α := fail (.refused r)

/-- An exchange whose refusal leads to another one. Other failures stay. -/
def orElse (x : Exchange σ ν α) (handler : Refusal → Exchange σ ν α) : Exchange σ ν α :=
  fun l =>
    match x l with
    | (.error (.refused r), l) => handler r l
    | result => result

/-- An exchange after which something is done in any case. -/
def ensuring (x : Exchange σ ν α) (last : Line σ ν → Line σ ν) : Exchange σ ν α := fun l =>
  match x l with
  | (result, l) => (result, last l)

/-- What an access finds, or its defect. -/
def access : Except Json.Defect α → Exchange σ ν α
  | .ok a => done a
  | .error d => fail (.defect d)

/-- What a reading finds, or its issues. -/
def reading : Reading α → Exchange σ ν α
  | .value a => done a
  | .invalid issues => fail (.invalid issues)
  | .defect d => fail (.defect d)

/-- Leaves a notice. -/
def note (n : ν) : Exchange σ ν Unit := fun l => (.ok (), l.log (.noted n))

/-- Sends a request. -/
def send (server : Server σ) (r : Request) : Exchange σ ν WireReply := fun l =>
  let (reply, s) := server r l.server
  (.ok reply, { l.log (.sent r) with server := s })

/-- Opens the pool to the service unless it is open. A token beyond the ASCII set cannot be put
into requests, and the pool does not stay open. -/
def connect (token : String) : Exchange σ ν Unit := fun l =>
  if l.isOpen then (.ok (), l)
  else if token.toList.all (·.toNat < 128) then
    (.ok (), { l.log (.opened .service) with isOpen := true })
  else (.error (.unaddressed .unencodable), l.log (.opened .service))

/-- The line with the pool to the service closed. -/
def hangUp (l : Line σ ν) : Line σ ν :=
  if l.isOpen then { l.log (.closed .service) with isOpen := false } else l

/-- Closes the pool to the service if it is open. -/
def close : Exchange σ ν Unit := fun l => (.ok (), hangUp l)

/-- An exchange with a pool for downloads of its own. -/
def withDownloads (x : Exchange σ ν α) : Exchange σ ν α := fun l =>
  (ensuring x (Line.log (.closed .downloads))) (l.log (.opened .downloads))

end Exchange
end SceneMarkup
