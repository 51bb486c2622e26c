import SceneMarkup.Service.Client

/-!
# Where exchanges go

What an exchange comes to depends on the state of the server, and on the line only in whether
requests can be sent at all. `Exchange.Goes` says that an exchange goes from one state of the server
to another one with a result or a failure, whatever has happened on the line before. It has one rule
for each way to put exchanges together.

Requests to the service are the steps of all this. What comes back either shows that the service is
out (`Out`) or carries a value (`Carries`), and `get_goes_out`, `get_goes_value` say what a request
makes of it.
-/

namespace SceneMarkup

namespace Exchange

variable {σ ν α β : Type} {token : String}

/-- Behind a part that succeeds the rest goes on from where it left the line. -/
theorem bind_ok
    {x : Exchange σ ν α} {l m : Line σ ν} {a : α} (h : x l = (.ok a, m))
    (k : α → Exchange σ ν β) :
    (x >>= k) l = k a m := by
  show Exchange.bind x k l = _
  rw [Exchange.bind, h]

/-- A part that fails ends the whole where it left the line. -/
theorem bind_error
    {x : Exchange σ ν α} {l m : Line σ ν} {f : Failure} (h : x l = (.error f, m))
    (k : α → Exchange σ ν β) :
    (x >>= k) l = (.error f, m) := by
  show Exchange.bind x k l = _
  rw [Exchange.bind, h]

/-- Downloads are framed by the events of their pool. -/
theorem withDownloads_eq
    {x : Exchange σ ν α} {l m : Line σ ν} {r : Except Failure α}
    (h : x (l.log (.opened .downloads)) = (r, m)) :
    withDownloads x l = (r, m.log (.closed .downloads)) := by
  simp only [withDownloads, ensuring, h]

/-- Requests can be sent on a line: it is open, or it can be opened with the token. -/
def Ready (token : String) (l : Line σ ν) : Prop :=
  l.isOpen = true ∨ token.toList.all (·.toNat < 128) = true

/-- On every line that is ready, an exchange goes from one state of the server to another one and
ends in `r`. -/
def Goes (token : String) (x : Exchange σ ν α) (s : σ) (r : Except Failure α) (s' : σ) : Prop :=
  ∀ l : Line σ ν, Ready token l → l.server = s →
    ∃ l', x l = (r, l') ∧ Ready token l' ∧ l'.server = s'

variable {s s' s'' : σ}

theorem goes_done (a : α) : Goes token (done a : Exchange σ ν α) s (.ok a) s :=
  fun l hready hs => ⟨l, rfl, hready, hs⟩

theorem goes_fail (f : Failure) : Goes token (fail f : Exchange σ ν α) s (.error f) s :=
  fun l hready hs => ⟨l, rfl, hready, hs⟩

theorem goes_note (n : ν) : Goes token (note n : Exchange σ ν Unit) s (.ok ()) s :=
  fun l hready hs => ⟨l.log (.noted n), rfl, hready, hs⟩

/-- Two parts go one after the other, and the server is passed on. -/
theorem Goes.bind
    {x : Exchange σ ν α} {k : α → Exchange σ ν β} {a : α} {r : Except Failure β}
    (hx : Goes token x s (.ok a) s') (hk : Goes token (k a) s' r s'') :
    Goes token (x >>= k) s r s'' := by
  intro l hready hs
  obtain ⟨m, hm, hmready, hms⟩ := hx l hready hs
  obtain ⟨m', hm', hmready', hms'⟩ := hk m hmready hms
  exact ⟨m', (bind_ok hm k).trans hm', hmready', hms'⟩

theorem Goes.bind_error
    {x : Exchange σ ν α} {f : Failure} (hx : Goes token x s (.error f) s')
    (k : α → Exchange σ ν β) :
    Goes token (x >>= k) s (.error f) s' := by
  intro l hready hs
  obtain ⟨m, hm, hmready, hms⟩ := hx l hready hs
  exact ⟨m, Exchange.bind_error hm k, hmready, hms⟩

/-- A choice between two exchanges, made before what follows on both of them. -/
theorem Goes.branch
    {c : Prop} [Decidable c] {x y : Exchange σ ν α} {k : α → Exchange σ ν β} {a : α}
    {r : Except Failure β}
    (h : Goes token (if c then x else y) s (.ok a) s') (hk : Goes token (k a) s' r s'') :
    Goes token (if c then x >>= k else y >>= k) s r s'' := by
  by_cases hc : c
  · rw [if_pos hc] at h ⊢
    exact h.bind hk
  · rw [if_neg hc] at h ⊢
    exact h.bind hk

/-- A result passes a handler of refusals. -/
theorem Goes.orElse
    {x : Exchange σ ν α} {a : α} (hx : Goes token x s (.ok a) s')
    (handler : Refusal → Exchange σ ν α) :
    Goes token (x.orElse handler) s (.ok a) s' := by
  intro l hready hs
  obtain ⟨m, hm, hmready, hms⟩ := hx l hready hs
  refine ⟨m, ?_, hmready, hms⟩
  rw [Exchange.orElse, hm]

/-- A refusal is handled, and the handler goes on with the server as it is. -/
theorem Goes.orElse_refused
    {x : Exchange σ ν α} {handler : Refusal → Exchange σ ν α} {refusal : Refusal}
    {r : Except Failure α}
    (hx : Goes token x s (.error (.refused refusal)) s')
    (hhandler : Goes token (handler refusal) s' r s'') :
    Goes token (x.orElse handler) s r s'' := by
  intro l hready hs
  obtain ⟨m, hm, hmready, hms⟩ := hx l hready hs
  obtain ⟨m', hm', hmready', hms'⟩ := hhandler m hmready hms
  refine ⟨m', ?_, hmready', hms'⟩
  rw [Exchange.orElse, hm]
  exact hm'

/-- A failure that is no refusal passes a handler of refusals. -/
theorem Goes.orElse_failure
    {x : Exchange σ ν α} {f : Failure} (hx : Goes token x s (.error f) s')
    (hf : ∀ refusal, f ≠ .refused refusal) (handler : Refusal → Exchange σ ν α) :
    Goes token (x.orElse handler) s (.error f) s' := by
  intro l hready hs
  obtain ⟨m, hm, hmready, hms⟩ := hx l hready hs
  refine ⟨m, ?_, hmready, hms⟩
  rw [Exchange.orElse, hm]
  cases f with
  | refused refusal => exact absurd rfl (hf refusal)
  | _ => rfl

theorem Goes.withDownloads
    {x : Exchange σ ν α} {r : Except Failure α} (hx : Goes token x s r s') :
    Goes token (withDownloads x) s r s' := by
  intro l hready hs
  obtain ⟨m, hm, hmready, hms⟩ := hx (l.log (.opened .downloads)) hready hs
  exact ⟨m.log (.closed .downloads), withDownloads_eq hm, hmready, hms⟩

theorem goes_send
    {server : Server σ} {q : Request} {reply : WireReply} (h : server q s = (reply, s')) :
    Goes token (send server q : Exchange σ ν WireReply) s (.ok reply) s' := by
  intro l hready hs
  subst hs
  refine ⟨{ l.log (.sent q) with server := s' }, ?_, hready, rfl⟩
  simp only [send, h]

theorem goes_connect : Goes token (connect token : Exchange σ ν Unit) s (.ok ()) s := by
  intro l hready hs
  by_cases hopen : l.isOpen = true
  · exact ⟨l, by simp [connect, hopen], hready, hs⟩
  · have htoken : token.toList.all (·.toNat < 128) = true := hready.resolve_left hopen
    refine ⟨{ l.log (.opened .service) with isOpen := true }, ?_, .inl rfl, hs⟩
    rw [connect, if_neg hopen, if_pos htoken]

end Exchange

namespace Client

open Exchange

/-- What a client asks of the service: a path and parameters. -/
structure Inquiry where
  path : String
  parameters : List (String × String)

variable {σ : Type} {server : Server σ} {client : Client} {q : Inquiry}
variable {s s' : σ} {reply : WireReply}

/-- The server at `s` answers an inquiry with a reply. -/
def Answers
    (server : Server σ) (client : Client) (q : Inquiry) (s : σ) (reply : WireReply) (s' : σ) :
    Prop :=
  ∃ d, Destination.ofPath q.path q.parameters = .ok d ∧
    server ⟨d.address, d.parameters, some client.token⟩ s = (reply, s')

/-- The service is out: it is too slow, cannot be reached, or its response has another status than
success. -/
inductive Out : WireReply → Prop
  | timedOut {message : String} : Out (.error (.timedOut message))
  | notConnected {message : String} : Out (.error (.notConnected message))
  | refused {r : Response} : r.status ≠ 200 → Out (.ok r)

/-- A response of success with a body that reads as a value. -/
inductive Carries : WireReply → Json → Prop
  | mk {body : String} {v : Json} : Json.readBody body = .ok v → Carries (.ok ⟨200, body⟩) v

/-- While the service is out, whatever comes back is refused. -/
theorem Out.outcome_refused (h : Out reply) (path : String) :
    ∃ refusal, outcome path reply = .error (.refused refusal) := by
  cases h with
  | timedOut => exact ⟨_, rfl⟩
  | notConnected => exact ⟨_, rfl⟩
  | @refused r hstatus =>
      simp only [outcome, content]
      -- Every status but one is refused, some of them with a message of their own.
      split
      · exact ⟨_, rfl⟩
      · split
        · exact ⟨_, rfl⟩
        · split
          · exact ⟨_, rfl⟩
          · exact ⟨_, rfl⟩

/-- What an answer carries is what is made of it. -/
theorem Carries.outcome_eq {v : Json} (h : Carries reply v) (path : String) :
    outcome path reply = .ok v := by
  cases h with
  | mk hbody => simp [outcome, content, hbody]

/-- A request that is answered comes to what is made of the answer. -/
theorem get_goes (h : Answers server client q s reply s') :
    Goes client.token (get server client q.path q.parameters) s (outcome q.path reply) s' := by
  obtain ⟨d, hd, hreply⟩ := h
  refine goes_connect.bind ?_
  simp only [hd]
  refine (goes_send hreply).bind ?_
  cases outcome q.path reply with
  | ok v => exact goes_done v
  | error f => exact goes_fail f

theorem get_goes_out
    (h : Answers server client q s reply s') (hout : Out reply) :
    ∃ refusal,
      Goes client.token (get server client q.path q.parameters) s
        (.error (.refused refusal)) s' := by
  obtain ⟨refusal, hrefusal⟩ := hout.outcome_refused q.path
  exact ⟨refusal, hrefusal ▸ get_goes h⟩

theorem get_goes_value
    (h : Answers server client q s reply s') {v : Json} (hv : Carries reply v) :
    Goes client.token (get server client q.path q.parameters) s (.ok v) s' :=
  hv.outcome_eq q.path ▸ get_goes h

end Client
end SceneMarkup
