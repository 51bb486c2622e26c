import SceneMarkup.Proofs.Pools

/-!
# The life cycle of a client

Whatever is done with a client, in whatever order and in whatever blocks, and whatever the server
replies: at most one pool to the service is open, it is the one that was built last, and no pool for
downloads outlives its call.

* `Client.Operation`: what can be done with a client. A block is the operations of its body and then
  its end, which the body may reach by a failure.
* `Client.Step`: an operation with the line before and after it. Of a block, the step is its end;
  the operations of its body have steps of their own.
* `Client.Step.Lawful`: what the life cycle demands of a step.
* `Client.historyAll_lawful`: every step is lawful.
-/

namespace SceneMarkup

namespace Client

open Exchange

/-- What can be done with a client. -/
inductive Operation
  | call (c : Call)
  | snapshot (file node : String) (followed : Bool)
  | close
  /-- A block with a client of which nothing is open after it. A failure in the body is either
  dealt with there or the `escape` with which the body ends. -/
  | block (body : List Operation) (escape : Option Failure)

/-- An operation that may ask the service. -/
def Operation.IsRequest : Operation → Prop
  | .call _ => True
  | .snapshot .. => True
  | .close => False
  | .block .. => False

/-- An operation, or the end of a block, with the line before and after it. -/
structure Step (σ : Type) where
  operation : Operation
  before : Line σ ServiceNotice
  result : Except Failure Unit
  after : Line σ ServiceNotice

section

variable {σ : Type} (server : Server σ) (client : Client)

mutual

/-- The exchange that an operation leads to. -/
def Operation.exchange : Operation → Exchange σ ServiceNotice Unit
  | .call c => c.exchange server client >>= fun _ => Exchange.done ()
  | .snapshot file node followed =>
    Snapshot.load server client file node followed >>= fun _ => Exchange.done ()
  | .close => Exchange.close
  | .block body escape => Client.during (exchangeAll body escape)

/-- A row of operations, each done whatever came of the ones before, and the failure after them. -/
def exchangeAll : List Operation → Option Failure → Exchange σ ServiceNotice Unit
  | [], none => Exchange.done ()
  | [], some f => Exchange.fail f
  | o :: rest, escape => fun l => exchangeAll rest escape (o.exchange l).2

end

/-- The step of an operation on a line. -/
def Step.of (o : Operation) (l : Line σ ServiceNotice) : Step σ :=
  ⟨o, l, (o.exchange server client l).1, (o.exchange server client l).2⟩

mutual

/-- The steps of an operation. -/
def history : Operation → Line σ ServiceNotice → List (Step σ)
  | .block body escape, l =>
    historyAll body l ++
      [{ Step.of server client (.block body escape) l with
          before := (exchangeAll server client body escape l).2 }]
  | o, l => [Step.of server client o l]

/-- The steps of a row of operations. -/
def historyAll : List Operation → Line σ ServiceNotice → List (Step σ)
  | [], _ => []
  | o :: rest, l => history o l ++ historyAll rest (o.exchange server client l).2

end

end

namespace Step

variable {σ : Type}

/-- A step has attempted a request to the service. -/
def Attempts (t : Step σ) : Prop :=
  t.operation.IsRequest ∧ Attempted (t.after.events.drop t.before.events.length) t.result

/-- What the life cycle demands of a step. -/
structure Lawful (token : String) (t : Step σ) : Prop where
  /-- What has happened stays on the account. -/
  grows : t.before.events <+: t.after.events
  /-- At most one pool to the service is open, and it is the one that was built last. -/
  atMostOne :
    (t.after.service token).standing = [] ∨
      (t.after.service token).standing = [(t.after.service token).built]
  /-- No pool for downloads is left open. -/
  downloads : t.after.downloads.standing = []
  /-- A pool is built, and no second one, if the service is needed and none is open. -/
  builds : t.Attempts → (t.before.service token).standing = [] →
    (t.after.service token).built = (t.before.service token).built + 1
  /-- Nothing else builds a pool. -/
  buildsOnly : ¬ (t.Attempts ∧ (t.before.service token).standing = []) →
    (t.after.service token).built = (t.before.service token).built
  /-- Whatever comes of a request, a pool that is open stays. -/
  reuse : t.operation.IsRequest → (t.before.service token).standing ≠ [] →
    (t.after.service token).standing = (t.before.service token).standing
  /-- Closing, and the end of a block, leave none open. -/
  closes : ¬ t.operation.IsRequest → (t.after.service token).standing = []
  /-- They change nothing when none is open. -/
  idle : ¬ t.operation.IsRequest → (t.before.service token).standing = [] → t.after = t.before

end Step

/-- The accounts fit a line: the pool that was built last is open if the line is, and no other. -/
structure Sound {σ : Type} (token : String) (l : Line σ ServiceNotice) : Prop where
  service : (l.service token).standing = if l.isOpen then [(l.service token).built] else []
  downloads : l.downloads.standing = []

variable {σ : Type} {token : String} {l l' : Line σ ServiceNotice}

theorem sound_fresh (s : σ) : Sound token (Line.fresh s) :=
  ⟨rfl, rfl⟩

theorem Sound.standing_eq_nil_iff (h : Sound token l) :
    (l.service token).standing = [] ↔ l.isOpen = false := by
  rw [h.service]
  cases l.isOpen with
  | false => simp
  | true => simp

theorem Sound.atMostOne (h : Sound token l) :
    (l.service token).standing = [] ∨
      (l.service token).standing = [(l.service token).built] := by
  rw [h.service]
  cases l.isOpen with
  | false => exact .inl rfl
  | true => exact .inr rfl

/-- The accounts after a part of an operation. -/
theorem Sound.adds
    {α : Type} {asked : Bool} {es : List (Event ServiceNotice)} {r : Except Failure α}
    (h : Sound token l) (hadds : Adds token asked l es r l') :
    Sound token l' ∧
      l'.service token =
        if asked && !l.isOpen then (l.service token).build (isUsable token)
        else l.service token := by
  have hservice : l'.service token =
      if asked && !l.isOpen then (l.service token).build (isUsable token)
      else l.service token := by
    rw [Line.service, hadds.events, Account.afterAll_append]
    exact hadds.service _
  refine ⟨⟨?_, ?_⟩, hservice⟩
  · rw [hservice, hadds.isOpen]
    cases hopen : l.isOpen with
    | true => simpa [hopen] using h.service
    | false =>
        have hnone : (l.service token).standing = [] := h.standing_eq_nil_iff.2 hopen
        cases asked with
        | false => simpa using hnone
        | true => simp [Account.build, hnone]
  · rw [Line.downloads, hadds.events, Account.afterAll_append, hadds.downloads]
    exact h.downloads

/-- The accounts after the pool was closed. -/
theorem Sound.hangUp (h : Sound token l) :
    Sound token (Exchange.hangUp l) ∧
      ((Exchange.hangUp l).service token).standing = [] ∧
      ((Exchange.hangUp l).service token).built = (l.service token).built := by
  cases hopen : l.isOpen with
  | false =>
      have hsame : Exchange.hangUp l = l := by simp [Exchange.hangUp, hopen]
      rw [hsame]
      exact ⟨h, h.standing_eq_nil_iff.2 hopen, rfl⟩
  | true =>
      have hline : Exchange.hangUp l = { l.log (.closed .service) with isOpen := false } := by
        simp [Exchange.hangUp, hopen]
      have hservice : (Exchange.hangUp l).service token = (l.service token).close := by
        rw [hline, Line.service, Line.log, Account.afterAll_append]
        rfl
      have hdownloads : (Exchange.hangUp l).downloads = l.downloads := by
        rw [hline, Line.downloads, Line.log, Account.afterAll_append]
        rfl
      have hnone : ((Exchange.hangUp l).service token).standing = [] := by
        rw [hservice, Account.close, h.service, hopen]
        simp
      refine ⟨⟨?_, ?_⟩, hnone, ?_⟩
      · rw [hnone, hline]
        rfl
      · rw [hdownloads]
        exact h.downloads
      · rw [hservice]
        rfl

variable (server : Server σ) (client : Client)

theorem Call.exchange_keeps (c : Call) :
    (∃ file, c = .drawings file []) ∨ Keeps client.token true (c.exchange server client) := by
  cases c with
  | documents file nodes => exact .inr (documents_keeps server client file nodes)
  | library file => exact .inr (library_keeps server client file)
  | renders file nodes r => exact .inr (renders_keeps server client file nodes r)
  | drawings file nodes =>
      cases nodes with
      | nil => exact .inl ⟨file, rfl⟩
      | cons node rest => exact .inr (drawings_keeps server client file (node :: rest))
  | drawing file node => exact .inr (drawing_keeps server client file node)
  | parentType file node => exact .inr (parentType_keeps server client file (.str node))

theorem Operation.exchange_adds
    {o : Operation} (ho : o.IsRequest) (l : Line σ ServiceNotice) :
    ∃ asked es,
      Adds client.token asked l es (o.exchange server client l).1 (o.exchange server client l).2 ∧
        (Attempted es (o.exchange server client l).1 → asked = true) := by
  have hasks : Keeps client.token true (o.exchange server client) →
      ∃ asked es,
        Adds client.token asked l es (o.exchange server client l).1
            (o.exchange server client l).2 ∧
          (Attempted es (o.exchange server client l).1 → asked = true) := by
    intro hkeeps
    obtain ⟨asked, es, hasked, hadds⟩ := hkeeps l
    exact ⟨asked, es, hadds, fun _ => hasked rfl⟩
  cases o with
  | call c =>
      rcases c.exchange_keeps server client with ⟨file, rfl⟩ | hkeeps
      · -- Without nodes to draw, nothing is done at all.
        refine ⟨false, [], adds_plain _ (List.append_nil _).symm rfl nofun, ?_⟩
        rintro (⟨e, he, -⟩ | ⟨d, hd⟩)
        · cases he
        · cases hd
      · exact hasks (hkeeps.bind fun _ => (quiet_done ()).keeps)
  | snapshot file node followed =>
      exact hasks ((Snapshot.load_keeps server client file node followed).bind fun _ =>
        (quiet_done ()).keeps)
  | close => exact ho.elim
  | block => exact ho.elim

/-- A request has asked the service exactly if its step attempts a request. -/
theorem Step.request_adds
    {o : Operation} (ho : o.IsRequest) (l : Line σ ServiceNotice) :
    ∃ asked es,
      Adds client.token asked l es (o.exchange server client l).1 (o.exchange server client l).2 ∧
        ((Step.of server client o l).Attempts ↔ asked = true) := by
  obtain ⟨asked, es, hadds, hasked⟩ :=
    Operation.exchange_adds server client ho l
  have hadded : (o.exchange server client l).2.events.drop l.events.length = es := by
    rw [hadds.events, List.drop_left]
  have hattempts : (Step.of server client o l).Attempts ↔
      o.IsRequest ∧ Attempted es (o.exchange server client l).1 := by
    rw [← hadded]
    exact Iff.rfl
  exact ⟨asked, es, hadds, hattempts.trans
    ⟨fun hattempt => hasked hattempt.2, fun h => ⟨ho, hadds.attempted h⟩⟩⟩

theorem request_lawful
    {o : Operation} (ho : o.IsRequest) (h : Sound client.token l) :
    (Step.of server client o l).Lawful client.token ∧
      Sound client.token (o.exchange server client l).2 := by
  obtain ⟨asked, es, hadds, hattempts⟩ :=
    Step.request_adds server client ho l
  obtain ⟨hsound, hservice⟩ := h.adds hadds
  refine ⟨?_, hsound⟩
  refine
    { grows := ⟨es, hadds.events.symm⟩
      atMostOne := hsound.atMostOne
      downloads := hsound.downloads
      builds := ?_
      buildsOnly := ?_
      reuse := ?_
      closes := absurd ho
      idle := absurd ho }
  · intro hattempt hnone
    rw [hattempts] at hattempt
    show (Line.service _ (o.exchange server client l).2).built = _
    rw [hservice, hattempt, h.standing_eq_nil_iff.1 hnone]
    rfl
  · intro hnot
    have hquiet : ¬ (asked && !l.isOpen) = true := by
      rw [hattempts] at hnot
      simpa [Step.of, h.standing_eq_nil_iff] using hnot
    show (Line.service _ (o.exchange server client l).2).built = _
    rw [hservice, if_neg hquiet]
    rfl
  · intro _ hsome
    have hopen : l.isOpen = true := by
      simpa [Step.of, h.standing_eq_nil_iff] using hsome
    show (Line.service _ (o.exchange server client l).2).standing = _
    rw [hservice, hopen]
    simp [Step.of]

theorem hangUp_grows (l : Line σ ServiceNotice) : l.events <+: (Exchange.hangUp l).events := by
  rw [Exchange.hangUp]
  split
  · exact List.prefix_append _ _
  · exact List.prefix_rfl

/-- The step of closing the pool, be it asked for or the end of a block. -/
theorem closing_lawful
    {o : Operation} (ho : ¬ o.IsRequest) (r : Except Failure Unit) (h : Sound token l) :
    Step.Lawful token ⟨o, l, r, Exchange.hangUp l⟩ ∧ Sound token (Exchange.hangUp l) := by
  obtain ⟨hsound, hnone, hbuilt⟩ := h.hangUp
  refine ⟨?_, hsound⟩
  refine
    { grows := hangUp_grows l
      atMostOne := .inl hnone
      downloads := hsound.downloads
      builds := fun hattempt => absurd hattempt.1 ho
      buildsOnly := fun _ => hbuilt
      reuse := fun hrequest => absurd hrequest ho
      closes := fun _ => hnone
      idle := ?_ }
  intro _ hnone
  have hopen : l.isOpen = false := h.standing_eq_nil_iff.1 hnone
  simp [Exchange.hangUp, hopen]

/-- The failure in which a row of operations ends does not matter to the line. -/
theorem exchangeAll_line
    (ops : List Operation) (escape : Option Failure) (l : Line σ ServiceNotice) :
    (exchangeAll server client ops escape l).2 = (exchangeAll server client ops none l).2 := by
  induction ops generalizing l with
  | nil =>
      cases escape with
      | none => rfl
      | some f => rfl
  | cons o rest ih => exact ih _

mutual

theorem history_lawful :
    ∀ (o : Operation) (l : Line σ ServiceNotice), Sound client.token l →
      (∀ t ∈ history server client o l, t.Lawful client.token) ∧
        Sound client.token (o.exchange server client l).2
  | .call c, l, h => by
      obtain ⟨hlawful, hsound⟩ :=
        request_lawful server client (o := .call c) trivial h
      exact ⟨List.forall_mem_singleton.2 hlawful, hsound⟩
  | .snapshot file node followed, l, h => by
      obtain ⟨hlawful, hsound⟩ := request_lawful server client
        (o := .snapshot file node followed) trivial h
      exact ⟨List.forall_mem_singleton.2 hlawful, hsound⟩
  | .close, l, h => by
      obtain ⟨hlawful, hsound⟩ := closing_lawful (o := .close) not_false (.ok ()) h
      exact ⟨List.forall_mem_singleton.2 hlawful, hsound⟩
  | .block body escape, l, h => by
      obtain ⟨hbody, hafter⟩ := historyAll_lawful body l h
      rw [← exchangeAll_line server client body escape] at hafter
      obtain ⟨hlawful, hsound⟩ := closing_lawful (o := .block body escape) not_false
        ((Operation.block body escape).exchange server client l).1 hafter
      refine ⟨?_, hsound⟩
      rw [history]
      exact List.forall_mem_append.2 ⟨hbody, List.forall_mem_singleton.2 hlawful⟩

theorem historyAll_lawful :
    ∀ (ops : List Operation) (l : Line σ ServiceNotice), Sound client.token l →
      (∀ t ∈ historyAll server client ops l, t.Lawful client.token) ∧
        Sound client.token (exchangeAll server client ops none l).2
  | [], l, h => ⟨nofun, h⟩
  | o :: rest, l, h => by
      obtain ⟨hfirst, hbetween⟩ := history_lawful o l h
      obtain ⟨hrest, hsound⟩ := historyAll_lawful rest _ hbetween
      exact ⟨List.forall_mem_append.2 ⟨hfirst, hrest⟩, hsound⟩

end

theorem history_request
    {o : Operation} (ho : o.IsRequest) (l : Line σ ServiceNotice) :
    history server client o l = [Step.of server client o l] := by
  cases o with
  | call => rfl
  | snapshot => rfl
  | close => exact ho.elim
  | block => exact ho.elim

/-- While a pool is open, requests build none. -/
theorem requests_reuse
    {ops : List Operation} (hops : ∀ o ∈ ops, o.IsRequest)
    (h : Sound client.token l) (hopen : l.isOpen = true) :
    ((exchangeAll server client ops none l).2.service client.token).built =
      (l.service client.token).built := by
  induction ops generalizing l with
  | nil => rfl
  | cons o rest ih =>
      obtain ⟨ho, hrest⟩ := List.forall_mem_cons.1 hops
      obtain ⟨asked, es, hadds, -⟩ :=
        Step.request_adds server client ho l
      obtain ⟨hsound, hservice⟩ := h.adds hadds
      have hnext : (o.exchange server client l).2.isOpen = true := by
        rw [hadds.isOpen, hopen, Bool.true_or]
      rw [exchangeAll, ih hrest hsound hnext, hservice, hopen]
      simp

/-- While none is open, the first of a row of requests that needs the service builds a pool, and the
others use it. -/
theorem requests_build
    (husable : isUsable client.token = true)
    {ops : List Operation} (hops : ∀ o ∈ ops, o.IsRequest)
    (h : Sound client.token l) (hclosed : l.isOpen = false) :
    ∃ asked,
      (asked = true ↔ ∃ t ∈ historyAll server client ops l, t.Attempts) ∧
      ((exchangeAll server client ops none l).2.service client.token).built =
        (l.service client.token).built + if asked then 1 else 0 := by
  induction ops generalizing l with
  | nil => exact ⟨false, by simp [historyAll], rfl⟩
  | cons o rest ih =>
      obtain ⟨ho, hrest⟩ := List.forall_mem_cons.1 hops
      obtain ⟨asked, es, hadds, hattempts⟩ :=
        Step.request_adds server client ho l
      obtain ⟨hsound, hservice⟩ := h.adds hadds
      have hnext : (o.exchange server client l).2.isOpen = asked := by
        rw [hadds.isOpen, hclosed, husable, Bool.false_or, Bool.and_true]
      have hfirst : (∃ t ∈ historyAll server client (o :: rest) l, t.Attempts) ↔
          asked = true ∨
            ∃ t ∈ historyAll server client rest (o.exchange server client l).2, t.Attempts := by
        rw [historyAll, history_request server client ho]
        simp [hattempts]
      cases asked with
      | true =>
          refine ⟨true, by simp [hfirst], ?_⟩
          rw [exchangeAll, requests_reuse server client hrest hsound hnext, hservice, hclosed]
          rfl
      | false =>
          obtain ⟨asked', hasked', hbuilt⟩ := ih hrest hsound hnext
          refine ⟨asked', by simp [hfirst, hasked'], ?_⟩
          rw [exchangeAll, hbuilt, hservice]
          rfl

/-- **The life cycle of a client.** Every step of every row of operations is lawful, whatever the
server replies. A block of requests is like a single one as a whole: it builds a pool, and no second
one, if it needs the service and none is open. -/
theorem life_cycle (server : Server σ) (client : Client) (ops : List Operation) (s : σ) :
    (∀ t ∈ historyAll server client ops (Line.fresh s), t.Lawful client.token) ∧
      ∀ body escape, (∀ o ∈ body, o.IsRequest) → isUsable client.token = true →
        let l := (exchangeAll server client ops none (Line.fresh s)).2
        let l' := ((Operation.block body escape).exchange server client l).2
        let needed := (∃ t ∈ historyAll server client body l, t.Attempts) ∧
          (l.service client.token).standing = []
        (needed → (l'.service client.token).built = (l.service client.token).built + 1) ∧
          (¬ needed → (l'.service client.token).built = (l.service client.token).built) := by
  obtain ⟨hlawful, hsound⟩ :=
    historyAll_lawful server client ops (Line.fresh s) (sound_fresh s)
  refine ⟨hlawful, ?_⟩
  intro body escape hbody husable l l' needed
  have hend : (l'.service client.token).built =
      ((exchangeAll server client body none l).2.service client.token).built := by
    have hbodySound := (historyAll_lawful server client body l hsound).2
    show ((Exchange.hangUp (exchangeAll server client body escape l).2).service _).built = _
    rw [exchangeAll_line]
    exact hbodySound.hangUp.2.2
  cases hopen : l.isOpen with
  | true =>
      have hbuilt := requests_reuse server client hbody hsound hopen
      have hnot : ¬ needed := by
        rintro ⟨-, hnone⟩
        rw [hsound.standing_eq_nil_iff.1 hnone] at hopen
        cases hopen
      exact ⟨fun h => absurd h hnot, fun _ => hend.trans hbuilt⟩
  | false =>
      obtain ⟨asked, hasked, hbuilt⟩ :=
        requests_build server client husable hbody hsound hopen
      have hneeded : needed ↔ asked = true := by
        rw [hasked]
        exact and_iff_left (hsound.standing_eq_nil_iff.2 hopen)
      rw [hneeded, hend, hbuilt]
      cases asked with
      | true => exact ⟨fun _ => rfl, fun h => absurd rfl h⟩
      | false => exact ⟨nofun, fun _ => rfl⟩

/-- A service that is always too slow. -/
def tooSlow : Server Unit := fun _ s => (.error (.timedOut "slow"), s)

/-- A client that asks in vain and is closed. -/
def inVain : List Operation := [.call (.library "abc"), .close]

/-- Requests for a document, alone and with all that belongs to it. -/
def retries : List Operation := [.call (.documents "abc" ["1:2"]), .snapshot "abc" "1:2" true]

/-- After a request in vain one pool was built, and after two more requests in one block a second
one. -/
theorem life_cycle_tooSlow :
    (Step.of tooSlow ⟨"token", .one⟩ (.call (.library "abc")) (Line.fresh ())).Lawful "token" ∧
      ((exchangeAll tooSlow ⟨"token", .one⟩ inVain none (Line.fresh ())).2.service
        "token").built = 1 ∧
      (((Operation.block retries (some (.noScheme "img"))).exchange tooSlow ⟨"token", .one⟩
        (exchangeAll tooSlow ⟨"token", .one⟩ inVain none (Line.fresh ())).2).2.service
          "token").built = 2 := by
  obtain ⟨hlawful, hblock⟩ := life_cycle tooSlow ⟨"token", .one⟩ inVain ()
  have hretries : ∀ o ∈ retries, o.IsRequest :=
    List.forall_mem_cons.2 ⟨trivial, List.forall_mem_cons.2 ⟨trivial, nofun⟩⟩
  have hbuilt :
      ((exchangeAll tooSlow ⟨"token", .one⟩ inVain none (Line.fresh ())).2.service "token").built =
        1 := by
    decide +kernel
  have hclosed :
      ((exchangeAll tooSlow ⟨"token", .one⟩ inVain none (Line.fresh ())).2.service
        "token").standing = [] := by
    decide +kernel
  have hattempts :
      (Step.of tooSlow ⟨"token", .one⟩ (.call (.documents "abc" ["1:2"]))
        (exchangeAll tooSlow ⟨"token", .one⟩ inVain none (Line.fresh ())).2).Attempts :=
    ⟨trivial, .inl (List.any_eq_true.1 (by decide +kernel))⟩
  have hsecond := (hblock retries (some (.noScheme "img")) hretries (by decide)).1
    ⟨⟨_, List.mem_cons_self, hattempts⟩, hclosed⟩
  refine ⟨hlawful _ List.mem_cons_self, hbuilt, ?_⟩
  rw [hsecond, hbuilt]

end Client
end SceneMarkup
