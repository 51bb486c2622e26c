import SceneMarkup.Proofs.Pools

/-!
# Requests on a line

A line keeps every request that is sent on it, in order. Two things are said about the requests of
an exchange, with one rule for each way to put exchanges together:

* `Exchange.Sends`: the row of requests that an exchange sends when it ends in a result. It does not
  depend on the replies;
* `Exchange.Preserves`: what holds of the requests and of the state of the server, and still holds
  however the exchange ends.
-/

namespace SceneMarkup

variable {σ ν α β : Type}

/-- The request of an event that sends one. -/
def Event.request? : Event ν → Option Request
  | .sent q => some q
  | _ => none

/-- The requests sent on a line, in order. -/
def Line.requests (l : Line σ ν) : List Request := l.events.filterMap Event.request?

namespace Line

/-- An event adds the request that it is, if it is one. -/
theorem requests_log (e : Event ν) (l : Line σ ν) :
    (l.log e).requests = l.requests ++ e.request?.toList := by
  rw [requests, log, List.filterMap_append]
  cases h : e.request? <;> simp [h, requests]

/-- A request that is sent is the last one. -/
theorem requests_sent (q : Request) (l : Line σ ν) :
    (l.log (.sent q)).requests = l.requests ++ [q] :=
  requests_log _ l

theorem requests_noted (n : ν) (l : Line σ ν) : (l.log (.noted n)).requests = l.requests :=
  (requests_log _ l).trans (List.append_nil _)

theorem requests_opened (p : Pool) (l : Line σ ν) : (l.log (.opened p)).requests = l.requests :=
  (requests_log _ l).trans (List.append_nil _)

theorem requests_closed (p : Pool) (l : Line σ ν) : (l.log (.closed p)).requests = l.requests :=
  (requests_log _ l).trans (List.append_nil _)

end Line

namespace Exchange

theorem requests_hangUp (l : Line σ ν) : (hangUp l).requests = l.requests := by
  unfold hangUp
  split
  · exact Line.requests_closed .service l
  · rfl

/-- Whenever an exchange ends in a result, it has sent this row of requests and no other one. -/
def Sends (x : Exchange σ ν α) (sent : List Request) : Prop :=
  ∀ l m a, x l = (.ok a, m) → m.requests = l.requests ++ sent

theorem sends_done (a : α) : Sends (done a : Exchange σ ν α) [] := by
  intro l m b h
  cases h
  exact (List.append_nil _).symm

/-- What ends in a failure meets every expectation of what it sends before a result. -/
theorem sends_fail (f : Failure) (sent : List Request) :
    Sends (fail f : Exchange σ ν α) sent := by
  intro l m a h
  cases h

theorem sends_send (server : Server σ) (q : Request) :
    Sends (send server q : Exchange σ ν WireReply) [q] := by
  intro l m a h
  cases h
  exact Line.requests_sent q l

theorem sends_connect (token : String) : Sends (connect token : Exchange σ ν Unit) [] := by
  intro l m a h
  unfold connect at h
  split at h
  · cases h
    exact (List.append_nil _).symm
  · split at h
    · cases h
      exact (Line.requests_opened .service l).trans (List.append_nil _).symm
    · cases h

/-- Two parts send what they send one after the other. -/
theorem Sends.bind
    {x : Exchange σ ν α} {k : α → Exchange σ ν β} {sent sent' : List Request}
    (hx : Sends x sent) (hk : ∀ a, Sends (k a) sent') :
    Sends (x >>= k) (sent ++ sent') := by
  intro l m b h
  rcases hrun : x l with ⟨f | a, l'⟩
  · rw [bind_error hrun k] at h
    cases h
  · rw [bind_ok hrun k] at h
    rw [hk a _ _ _ h, hx _ _ _ hrun, List.append_assoc]

theorem Sends.then_nothing
    {x : Exchange σ ν α} {k : α → Exchange σ ν β} {sent : List Request}
    (hx : Sends x sent) (hk : ∀ a, Sends (k a) []) :
    Sends (x >>= k) sent :=
  List.append_nil sent ▸ hx.bind hk

theorem Sends.after_nothing
    {x : Exchange σ ν α} {k : α → Exchange σ ν β} {sent : List Request}
    (hx : Sends x []) (hk : ∀ a, Sends (k a) sent) :
    Sends (x >>= k) sent :=
  hx.bind hk

/-- The pool for downloads takes no request of its own. -/
theorem Sends.withDownloads {x : Exchange σ ν α} {sent : List Request} (hx : Sends x sent) :
    Sends (withDownloads x) sent := by
  intro l m a h
  rcases hrun : x (l.log (.opened .downloads)) with ⟨r, m'⟩
  rw [withDownloads_eq hrun] at h
  cases h
  rw [Line.requests_closed, hx _ _ _ hrun, Line.requests_opened]

/-- What holds of the requests on a line and of the state of the server still holds after an
exchange. -/
def Preserves (J : List Request → σ → Prop) (x : Exchange σ ν α) : Prop :=
  ∀ l, J l.requests l.server → J (x l).2.requests (x l).2.server

variable {J : List Request → σ → Prop}

theorem preserves_done (a : α) : Preserves J (done a : Exchange σ ν α) := fun _ hl => hl

theorem preserves_fail (f : Failure) : Preserves J (fail f : Exchange σ ν α) := fun _ hl => hl

theorem preserves_access (found : Except Json.Defect α) :
    Preserves J (access found : Exchange σ ν α) := by
  cases found with
  | ok a => exact preserves_done a
  | error d => exact preserves_fail (.defect d)

theorem preserves_reading (found : Reading α) : Preserves J (reading found : Exchange σ ν α) := by
  cases found with
  | value a => exact preserves_done a
  | invalid issues => exact preserves_fail (.invalid issues)
  | defect d => exact preserves_fail (.defect d)

/-- A notice is no request. -/
theorem preserves_note (n : ν) : Preserves J (note n : Exchange σ ν Unit) := by
  intro l hl
  rw [← Line.requests_noted n l] at hl
  exact hl

/-- Opening the pool to the service sends nothing, whether it succeeds or not. -/
theorem preserves_connect (token : String) :
    Preserves J (connect token : Exchange σ ν Unit) := by
  intro l hl
  unfold connect
  split
  · exact hl
  · rw [← Line.requests_opened .service l] at hl
    split
    · exact hl
    · exact hl

/-- A request joins those before it, and the server moves on. -/
theorem preserves_send
    {server : Server σ} {q : Request}
    (hq : ∀ sent s, J sent s → J (sent ++ [q]) (server q s).2) :
    Preserves J (send server q : Exchange σ ν WireReply) := by
  intro l hl
  have hsent := hq _ _ hl
  rw [← Line.requests_sent q l] at hsent
  exact hsent

/-- Two parts preserve an invariant if both do. -/
theorem Preserves.bind
    {x : Exchange σ ν α} {k : α → Exchange σ ν β} (hx : Preserves J x)
    (hk : ∀ a, Preserves J (k a)) :
    Preserves J (x >>= k) := by
  intro l hl
  have hm := hx l hl
  rcases hrun : x l with ⟨f | a, m⟩
  · rw [hrun] at hm
    rw [bind_error hrun k]
    exact hm
  · rw [hrun] at hm
    rw [bind_ok hrun k]
    exact hk a m hm

/-- After a refusal the handler goes on from what there is. -/
theorem Preserves.orElse
    {x : Exchange σ ν α} {handler : Refusal → Exchange σ ν α} (hx : Preserves J x)
    (hhandler : ∀ r, Preserves J (handler r)) :
    Preserves J (x.orElse handler) := by
  intro l hl
  have hm := hx l hl
  rcases hrun : x l with ⟨r, m⟩
  rw [hrun] at hm
  rw [Exchange.orElse, hrun]
  rcases r with f | a
  · cases f with
    | refused refusal => exact hhandler refusal m hm
    | transport | unreadable | unaddressed | noScheme | defect | invalid => exact hm
  · exact hm

/-- A choice between two exchanges, made before what follows on both of them. -/
theorem Preserves.branch
    {c : Prop} [Decidable c] {x y : Exchange σ ν α} {k : α → Exchange σ ν β}
    (hx : c → Preserves J x) (hy : Preserves J y) (hk : ∀ a, Preserves J (k a)) :
    Preserves J (if c then x >>= k else y >>= k) := by
  split
  next hc => exact (hx hc).bind hk
  next => exact hy.bind hk

/-- The pool for downloads is no request either. -/
theorem Preserves.withDownloads {x : Exchange σ ν α} (hx : Preserves J x) :
    Preserves J (withDownloads x) := by
  intro l hl
  rw [← Line.requests_opened .downloads l] at hl
  have hm := hx _ hl
  rcases hrun : x (l.log (.opened .downloads)) with ⟨r, m⟩
  rw [hrun] at hm
  rw [withDownloads_eq hrun]
  show J (m.log (.closed .downloads)).requests m.server
  rwa [Line.requests_closed]

end Exchange

namespace Client

open Exchange

/-- The request that a client makes at a destination of the service. -/
def asking (client : Client) (d : Destination) : Request :=
  ⟨d.address, d.parameters, some client.token⟩

variable {σ : Type} (server : Server σ) (client : Client)

/-- What is asked under a path takes one request. -/
theorem get_sends
    {path : String} {parameters : List (String × String)} {d : Destination}
    (hd : Destination.ofPath path parameters = .ok d) :
    Sends (get server client path parameters) [client.asking d] := by
  refine (sends_connect _).after_nothing ?_
  intro _
  rw [hd]
  refine (sends_send server _).then_nothing ?_
  intro reply
  split
  · exact sends_done _
  · exact sends_fail _ _

/-- A client sends one request at most for what it gets. -/
theorem get_preserves
    {J : List Request → σ → Prop} {path : String} {parameters : List (String × String)}
    (hask : ∀ d, Destination.ofPath path parameters = .ok d → ∀ sent s, J sent s →
      J (sent ++ [client.asking d]) (server (client.asking d) s).2) :
    Preserves J (get server client path parameters) := by
  refine (preserves_connect _).bind ?_
  intro _
  split
  next => exact preserves_fail _
  next d hd =>
    refine (preserves_send (hask d hd)).bind ?_
    intro reply
    split
    · exact preserves_done _
    · exact preserves_fail _

/-- Opening the pool does not touch the server. -/
theorem connect_server {token : String} {l m : Line σ ServiceNotice} {r : Except Failure Unit}
    (h : connect token l = (r, m)) : m.server = l.server := by
  unfold connect at h
  split at h
  · cases h
    rfl
  · split at h
    · cases h
      rfl
    · cases h
      rfl

/-- What a client gets is the value in the reply to the one request that it sends. -/
theorem get_ok
    {path : String} {parameters : List (String × String)} {l m : Line σ ServiceNotice} {v : Json}
    (h : get server client path parameters l = (.ok v, m)) :
    ∃ d, Destination.ofPath path parameters = .ok d ∧
      m.requests = l.requests ++ [client.asking d] ∧
      outcome path (server (client.asking d) l.server).1 = .ok v := by
  have hrun := h
  rcases hconnect : connect client.token l with ⟨f | _, l'⟩
  · rw [Client.get, bind_error hconnect] at hrun
    cases hrun
  · rw [Client.get, bind_ok hconnect] at hrun
    cases hd : Destination.ofPath path parameters with
    | error defect =>
        rw [hd] at hrun
        cases hrun
    | ok d =>
        refine ⟨d, rfl, get_sends server client hd l m v h, ?_⟩
        have hsend : send server (client.asking d) l' =
            (.ok (server (client.asking d) l'.server).1,
              { l'.log (.sent (client.asking d)) with
                server := (server (client.asking d) l'.server).2 }) :=
          rfl
        rw [hd] at hrun
        dsimp only at hrun
        rw [show (⟨d.address, d.parameters, some client.token⟩ : Request) = client.asking d
            from rfl, bind_ok hsend, connect_server hconnect] at hrun
        cases houtcome : outcome path (server (client.asking d) l.server).1 with
        | error f =>
            rw [houtcome] at hrun
            cases hrun
        | ok w =>
            rw [houtcome] at hrun
            cases hrun
            rfl

end Client
end SceneMarkup
