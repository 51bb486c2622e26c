import SceneMarkup.Json.Printer
import SceneMarkup.Service.Exchange

/-!
# Recorded responses

A table of routes answers requests from a record: each address has a row of replies that are
used up in order, the last one again and again. What is not on record is not found.
-/

namespace SceneMarkup

/-- The replies under each address. -/
structure Routes where
  rows : List (String × List WireReply)

namespace Routes

/-- The reply to a request that is not on record. -/
def unknown : WireReply := .ok ⟨404, "no route"⟩

/-- The replies that remain after the first one. -/
def remaining : List WireReply → List WireReply
  | _ :: r :: rest => r :: rest
  | rs => rs

/-- The reply under an address, and the rows after it. -/
def take (address : String) : List (String × List WireReply) →
    WireReply × List (String × List WireReply)
  | [] => (unknown, [])
  | (a, replies) :: rest =>
    if a = address then (replies.head?.getD unknown, (a, remaining replies) :: rest)
    else
      let (reply, rest) := take address rest
      (reply, (a, replies) :: rest)

/-- The routes as a server. -/
def server : Server Routes := fun request routes =>
  let (reply, rows) := take request.address routes.rows
  (reply, ⟨rows⟩)

/-- Transport faults by the names that a record gives them. -/
abbrev FaultNames := List (String × (String → TransportFault))

/-- The names of faults in a record of the program's own. -/
def faultNames : FaultNames :=
  [("timeout", .timedOut), ("connection", .notConnected), ("read", .readFailed),
    ("protocol", .protocolBroken)]

/-- A text under a key, empty when there is none. -/
def textUnder (key : String) (ms : Json.Members) : String :=
  match Json.find? key ms with
  | some (.str s) => s
  | _ => ""

/-- The status of a response, success unless it says otherwise. -/
def statusOf (ms : Json.Members) : Nat :=
  match Json.find? "status" ms with
  | some (.int n) => n.toNat
  | _ => 200

/-- The body of a response. Null stands for an empty one. -/
def bodyOf (ms : Json.Members) : String :=
  match Json.find? "json" ms with
  | none => textUnder "text" ms
  | some .null => ""
  | some v => v.compact

/-- The fault that a record has in the place of a response. -/
def fault? (names : FaultNames) (ms : Json.Members) : Option TransportFault :=
  (names.find? (·.1 = textUnder "fault" ms)).map fun f => f.2 (textUnder "message" ms)

/-- Reads a reply. -/
def reply (names : FaultNames) : Json → WireReply
  | .obj ms =>
    match fault? names ms with
    | some f => .error f
    | none => .ok ⟨statusOf ms, bodyOf ms⟩
  | _ => unknown

/-- Reads the replies under an address: one or several. -/
def replies (names : FaultNames) : Json → List WireReply
  | .arr items => items.map (reply names)
  | v => [reply names v]

/-- Reads routes. -/
def read (names : FaultNames) : Json → Routes
  | .obj ms => ⟨ms.map fun m => (m.1, replies names m.2)⟩
  | _ => ⟨[]⟩

end Routes
end SceneMarkup
