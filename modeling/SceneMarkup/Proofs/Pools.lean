import SceneMarkup.Proofs.Refusals
import SceneMarkup.Service.Snapshot

/-!
# Pools of connections

A client builds a pool of connections to the service when it first needs one and keeps it for later
requests. The pool for downloads is there for one call.

A line says only whether a pool to the service is open. `Account` is read off the events instead:
how many pools were built and which of them are still open, so that a pool which is forgotten stays
in the account.

* `Exchange.Adds`: what a part of an operation does to the accounts. Whether it has asked the
  service is what decides.
* `Exchange.Keeps`: a part that does so on every line, with one rule for each way to put exchanges
  together.
* `Client.get_keeps` and what follows from it, up to `Snapshot.load_keeps`: all that is ever asked
  of the service keeps the accounts.
-/

namespace SceneMarkup

/-- The pools of one kind: how many were built, and the numbers of those that are open. -/
structure Account where
  built : Nat
  standing : List Nat
  deriving DecidableEq

namespace Account

variable {ν : Type}

/-- The account before anything was built. -/
def empty : Account := ⟨0, []⟩

/-- Another pool is built. One that does not last is gone at once. -/
def build (lasts : Bool) (a : Account) : Account :=
  ⟨a.built + 1, if lasts then (a.built + 1) :: a.standing else a.standing⟩

/-- The pool that was built last is closed. -/
def close (a : Account) : Account := { a with standing := a.standing.erase a.built }

/-- The account of a kind of pools after an event. -/
def after (p : Pool) (lasts : Bool) (a : Account) : Event ν → Account
  | .opened q => if q = p then a.build lasts else a
  | .closed q => if q = p then a.close else a
  | .sent _ => a
  | .noted _ => a

/-- The account after a row of events. -/
def afterAll (p : Pool) (lasts : Bool) (a : Account) (es : List (Event ν)) : Account :=
  es.foldl (after p lasts) a

/-- An account goes through events one after the other. -/
theorem afterAll_append
    (p : Pool) (lasts : Bool) (a : Account) (es es' : List (Event ν)) :
    a.afterAll p lasts (es ++ es') = (a.afterAll p lasts es).afterAll p lasts es' :=
  List.foldl_append

end Account

/-- A token that can be put into requests. -/
def isUsable (token : String) : Bool := token.toList.all (·.toNat < 128)

namespace Line

variable {σ ν : Type}

/-- The account of the pools to the service. A pool lasts if the token can be put into requests. -/
def service (token : String) (l : Line σ ν) : Account :=
  Account.empty.afterAll .service (isUsable token) l.events

/-- The account of the pools for downloads. -/
def downloads (l : Line σ ν) : Account := Account.empty.afterAll .downloads true l.events

end Line

namespace Event

variable {ν : Type}

/-- A request to the service. -/
def isAsking : Event ν → Bool
  | .sent q => q.token.isSome
  | _ => false

/-- A notice, or a request to elsewhere. -/
def isPlain : Event ν → Bool
  | .sent q => q.token.isNone
  | .noted _ => true
  | _ => false

/-- Events without a trace leave an account as it is. -/
theorem afterAll_plain
    {es : List (Event ν)} (h : ∀ e ∈ es, e.isPlain = true)
    (p : Pool) (lasts : Bool) (a : Account) :
    a.afterAll p lasts es = a := by
  induction es with
  | nil => rfl
  | cons e es ih =>
      obtain ⟨he, hes⟩ := List.forall_mem_cons.1 h
      cases e with
      | opened | closed => cases he
      | sent | noted => exact ih hes

theorem not_isAsking_of_isPlain {e : Event ν} (h : e.isPlain = true) :
    e.isAsking = false := by
  cases e with
  | opened | closed => cases h
  | sent q => simpa [isPlain, isAsking] using h
  | noted => rfl

end Event

namespace Exchange

variable {σ ν α β : Type} {token : String}

/-- A request to the service was attempted: it was sent, or it could not be addressed. -/
def Attempted (es : List (Event ν)) (r : Except Failure α) : Prop :=
  (∃ e ∈ es, e.isAsking = true) ∨ ∃ d, r = .error (.unaddressed d)

/-- A part of an operation that goes from one line to another and comes to `r`. Whether it has
`asked` the service decides what happens to the pools. -/
structure Adds
    (token : String) (asked : Bool) (l : Line σ ν) (es : List (Event ν)) (r : Except Failure α)
    (l' : Line σ ν) : Prop where
  events : l'.events = l.events ++ es
  isOpen : l'.isOpen = (l.isOpen || (asked && isUsable token))
  service : ∀ a : Account, a.afterAll .service (isUsable token) es =
    if asked && !l.isOpen then a.build (isUsable token) else a
  downloads : ∀ a : Account, (a.afterAll .downloads true es).standing = a.standing
  attempted : asked = true → Attempted es r
  silent : asked = false → ∀ e ∈ es, e.isAsking = false
  unusable : asked = true → l.isOpen = false → isUsable token = false →
    ∃ d, r = .error (.unaddressed d)

/-- What adds plain events has not asked the service. -/
theorem adds_plain
    {l l' : Line σ ν} {es : List (Event ν)} (r : Except Failure α)
    (hevents : l'.events = l.events ++ es) (hopen : l'.isOpen = l.isOpen)
    (hplain : ∀ e ∈ es, e.isPlain = true) :
    Adds token false l es r l' where
  events := hevents
  isOpen := by simp [hopen]
  service a := Event.afterAll_plain hplain _ _ a
  downloads a := by rw [Event.afterAll_plain hplain]
  attempted h := absurd h Bool.false_ne_true
  silent _ e he := Event.not_isAsking_of_isPlain (hplain e he)
  unusable h := absurd h Bool.false_ne_true

/-- One part after the other. Nothing follows a request that could not be addressed. -/
theorem Adds.append
    {asked asked' : Bool} {l m l' : Line σ ν} {es es' : List (Event ν)}
    {r : Except Failure α} {r' : Except Failure β}
    (h : Adds token asked l es r m) (hr : ∀ d, r ≠ .error (.unaddressed d))
    (h' : Adds token asked' m es' r' l') :
    Adds token (asked || asked') l (es ++ es') r' l' := by
  have husable : asked = true → l.isOpen = false → isUsable token = true := by
    intro hasked hopen
    by_contra husable
    obtain ⟨d, hd⟩ := h.unusable hasked hopen (Bool.eq_false_of_not_eq_true husable)
    exact hr d hd
  refine
    { events := by rw [h'.events, h.events, List.append_assoc]
      isOpen := by
        rw [h'.isOpen, h.isOpen]
        cases l.isOpen <;> cases asked <;> cases asked' <;> simp
      service := ?_
      downloads := fun a => by rw [Account.afterAll_append, h'.downloads, h.downloads]
      attempted := ?_
      silent := ?_
      unusable := ?_ }
  · intro a
    rw [Account.afterAll_append, h.service, h'.service, h.isOpen]
    cases hasked : asked with
    | false => simp
    | true =>
        cases hopen : l.isOpen with
        | true => simp
        | false => simp [husable hasked hopen]
  · intro hor
    cases hasked : asked with
    | true =>
        obtain ⟨e, he, hasking⟩ := (h.attempted hasked).resolve_right fun ⟨d, hd⟩ => hr d hd
        exact .inl ⟨e, List.mem_append_left _ he, hasking⟩
    | false =>
        rw [hasked] at hor
        rcases h'.attempted hor with ⟨e, he, hasking⟩ | hd
        · exact .inl ⟨e, List.mem_append_right _ he, hasking⟩
        · exact .inr hd
  · intro hor
    obtain ⟨hasked, hasked'⟩ := Bool.or_eq_false_iff.1 hor
    exact List.forall_mem_append.2 ⟨h.silent hasked, h'.silent hasked'⟩
  · intro hor hopen hunusable
    cases hasked : asked with
    | true =>
        rw [husable hasked hopen] at hunusable
        cases hunusable
    | false =>
        rw [hasked] at hor
        refine h'.unusable hor ?_ hunusable
        rw [h.isOpen, hopen, hasked]
        rfl

/-- A failure ends what would have followed. -/
theorem Adds.failed
    {asked : Bool} {l l' : Line σ ν} {es : List (Event ν)} {f : Failure}
    (h : Adds token asked l es (.error f : Except Failure α) l') :
    Adds token asked l es (.error f : Except Failure β) l' where
  events := h.events
  isOpen := h.isOpen
  service := h.service
  downloads := h.downloads
  attempted hasked := (h.attempted hasked).imp id fun ⟨d, hd⟩ => ⟨d, by cases hd; rfl⟩
  silent := h.silent
  unusable hasked hopen hunusable := by
    obtain ⟨d, hd⟩ := h.unusable hasked hopen hunusable
    exact ⟨d, by cases hd; rfl⟩

/-- On every line an exchange keeps the account of the pools, and if it `must`, it asks the
service. -/
def Keeps (token : String) (must : Bool) (x : Exchange σ ν α) : Prop :=
  ∀ l, ∃ asked es, (must = true → asked = true) ∧ Adds token asked l es (x l).1 (x l).2

/-- On every line an exchange leaves plain events only. -/
def Quiet (x : Exchange σ ν α) : Prop :=
  ∀ l, ∃ es, (x l).2.events = l.events ++ es ∧ (x l).2.isOpen = l.isOpen ∧
    ∀ e ∈ es, e.isPlain = true

theorem quiet_done (a : α) : Quiet (done a : Exchange σ ν α) :=
  fun _ => ⟨[], (List.append_nil _).symm, rfl, nofun⟩

theorem quiet_fail (f : Failure) : Quiet (fail f : Exchange σ ν α) :=
  fun _ => ⟨[], (List.append_nil _).symm, rfl, nofun⟩

theorem quiet_note (n : ν) : Quiet (note n : Exchange σ ν Unit) :=
  fun _ => ⟨[.noted n], rfl, rfl, by simp [Event.isPlain]⟩

theorem quiet_access (found : Except Json.Defect α) : Quiet (access found : Exchange σ ν α) := by
  cases found with
  | ok a => exact quiet_done a
  | error d => exact quiet_fail (.defect d)

theorem quiet_reading (found : Reading α) : Quiet (reading found : Exchange σ ν α) := by
  cases found with
  | value a => exact quiet_done a
  | invalid issues => exact quiet_fail (.invalid issues)
  | defect d => exact quiet_fail (.defect d)

/-- A request without a token is quiet. -/
theorem quiet_send
    (server : Server σ) {q : Request} (hq : q.token = none) :
    Quiet (send server q : Exchange σ ν WireReply) :=
  fun _ => ⟨[.sent q], rfl, rfl, by simp [Event.isPlain, hq]⟩

theorem Quiet.bind
    {x : Exchange σ ν α} {k : α → Exchange σ ν β} (hx : Quiet x) (hk : ∀ a, Quiet (k a)) :
    Quiet (x >>= k) := by
  intro l
  obtain ⟨es, hevents, hopen, hplain⟩ := hx l
  rcases hrun : x l with ⟨f | a, m⟩
  · rw [hrun] at hevents hopen
    rw [bind_error hrun k]
    exact ⟨es, hevents, hopen, hplain⟩
  · rw [hrun] at hevents hopen
    rw [bind_ok hrun k]
    obtain ⟨es', hevents', hopen', hplain'⟩ := hk a m
    refine ⟨es ++ es', ?_, hopen'.trans hopen, List.forall_mem_append.2 ⟨hplain, hplain'⟩⟩
    rw [hevents', hevents, List.append_assoc]

/-- What is quiet keeps the account. -/
theorem Quiet.keeps {x : Exchange σ ν α} (hx : Quiet x) : Keeps token false x := by
  intro l
  obtain ⟨es, hevents, hopen, hplain⟩ := hx l
  exact ⟨false, es, id, adds_plain _ hevents hopen hplain⟩

/-- The pool for downloads is the one that was built last when it is closed, since no other was
built in between. -/
theorem Quiet.withDownloads {x : Exchange σ ν α} (hx : Quiet x) :
    Keeps token false (withDownloads x) := by
  intro l
  obtain ⟨es, hevents, hopen, hplain⟩ := hx (l.log (.opened .downloads))
  rcases hrun : x (l.log (.opened .downloads)) with ⟨r, m⟩
  rw [hrun] at hevents hopen
  refine ⟨false, .opened .downloads :: (es ++ [.closed .downloads]), id, ?_⟩
  rw [withDownloads_eq hrun]
  refine
    { events := ?_
      isOpen := ?_
      service := fun a => ?_
      downloads := fun a => ?_
      attempted := fun h => absurd h Bool.false_ne_true
      silent := fun _ => ?_
      unusable := fun h => absurd h Bool.false_ne_true }
  · show m.events ++ _ = _
    rw [hevents, Line.log, List.append_assoc, List.append_assoc]
    rfl
  · show m.isOpen = _
    rw [hopen, Bool.false_and, Bool.or_false]
    rfl
  · show (a.afterAll .service _ (es ++ [.closed .downloads])) = a
    rw [Account.afterAll_append, Event.afterAll_plain hplain]
    rfl
  · show ((a.build true).afterAll .downloads _ (es ++ [.closed .downloads])).standing = a.standing
    rw [Account.afterAll_append, Event.afterAll_plain hplain]
    show ((a.built + 1) :: a.standing).erase (a.built + 1) = a.standing
    exact List.erase_cons_head _ _
  · simp only [List.mem_cons, List.mem_append, List.not_mem_nil, or_false]
    rintro e (rfl | he | rfl)
    · rfl
    · exact Event.not_isAsking_of_isPlain (hplain e he)
    · rfl

/-- If the first part has to ask, the whole has; the second part need not. -/
theorem Keeps.bind
    {must : Bool} {x : Exchange σ ν α} {k : α → Exchange σ ν β}
    (hx : Keeps token must x) (hk : ∀ a, Keeps token false (k a)) :
    Keeps token must (x >>= k) := by
  intro l
  obtain ⟨asked, es, hmust, hadds⟩ := hx l
  rcases hrun : x l with ⟨f | a, m⟩
  · rw [hrun] at hadds
    rw [bind_error hrun k]
    exact ⟨asked, es, hmust, hadds.failed⟩
  · rw [hrun] at hadds
    rw [bind_ok hrun k]
    obtain ⟨asked', es', -, hadds'⟩ := hk a m
    have hr : ∀ d, (.ok a : Except Failure α) ≠ .error (.unaddressed d) := by
      intro d h
      cases h
    refine ⟨asked || asked', es ++ es', ?_, hadds.append hr hadds'⟩
    intro h
    rw [hmust h, Bool.true_or]

/-- A handler need not ask where the first part had to. -/
theorem Keeps.orElse
    {must : Bool} {x : Exchange σ ν α} {handler : Refusal → Exchange σ ν α}
    (hx : Keeps token must x) (hhandler : ∀ r, Keeps token false (handler r)) :
    Keeps token must (x.orElse handler) := by
  intro l
  obtain ⟨asked, es, hmust, hadds⟩ := hx l
  rcases hrun : x l with ⟨r, m⟩
  rw [hrun] at hadds
  rw [Exchange.orElse, hrun]
  rcases r with f | a
  · cases f with
    | refused refusal =>
        obtain ⟨asked', es', -, hadds'⟩ := hhandler refusal m
        have hr : ∀ d, (.error (.refused refusal) : Except Failure α) ≠
            .error (.unaddressed d) := by
          intro d h
          cases h
        refine ⟨asked || asked', es ++ es', ?_, hadds.append hr hadds'⟩
        intro h
        rw [hmust h, Bool.true_or]
    | transport | unreadable | unaddressed | noScheme | defect | invalid =>
        exact ⟨asked, es, hmust, hadds⟩
  · exact ⟨asked, es, hmust, hadds⟩

/-- A choice between two exchanges, made before what follows on both of them. -/
theorem Keeps.branch
    {c : Prop} [Decidable c] {x y : Exchange σ ν α} {k : α → Exchange σ ν β}
    (hx : Keeps token false x) (hy : Keeps token false y) (hk : ∀ a, Keeps token false (k a)) :
    Keeps token false (if c then x >>= k else y >>= k) := by
  split
  · exact hx.bind hk
  · exact hy.bind hk

/-- What has to ask may ask. -/
theorem Keeps.weaken
    {must : Bool} {x : Exchange σ ν α} (hx : Keeps token must x) : Keeps token false x := by
  intro l
  obtain ⟨asked, es, -, hadds⟩ := hx l
  exact ⟨asked, es, fun h => absurd h Bool.false_ne_true, hadds⟩

end Exchange

namespace Client

open Exchange

variable {σ : Type} (server : Server σ) (client : Client)

/-- Once the pool is open, a request is attempted, and the pools stay as they are. -/
theorem get_attempts
    (path : String) (parameters : List (String × String)) {l m : Line σ ServiceNotice}
    (h : connect client.token l = (.ok (), m)) :
    ∃ es r l', get server client path parameters l = (r, l') ∧
      l'.events = m.events ++ es ∧ l'.isOpen = m.isOpen ∧ Attempted es r ∧
      ∀ p lasts, ∀ a : Account, a.afterAll p lasts es = a := by
  rw [Client.get, bind_ok h]
  cases Destination.ofPath path parameters with
  | error d =>
      exact ⟨[], _, m, rfl, (List.append_nil _).symm, rfl, .inr ⟨d, rfl⟩, fun _ _ _ => rfl⟩
  | ok d =>
      let q : Request := ⟨d.address, d.parameters, some client.token⟩
      let m' : Line σ ServiceNotice := { m.log (.sent q) with server := (server q m.server).2 }
      have hsend : send server q m = (.ok (server q m.server).1, m') := rfl
      have hattempted : ∀ r : Except Failure Json,
          Attempted [(.sent q : Event ServiceNotice)] r :=
        fun r => .inl ⟨.sent q, List.mem_singleton_self _, rfl⟩
      dsimp only
      rw [bind_ok hsend]
      cases outcome path (server q m.server).1 with
      | ok v => exact ⟨[.sent q], .ok v, m', rfl, rfl, rfl, hattempted _, fun _ _ _ => rfl⟩
      | error f => exact ⟨[.sent q], .error f, m', rfl, rfl, rfl, hattempted _, fun _ _ _ => rfl⟩

/-- Every request to the service builds the pool first, unless it is open. -/
theorem get_keeps (path : String) (parameters : List (String × String)) :
    Keeps client.token true (get server client path parameters) := by
  intro l
  by_cases hopen : l.isOpen = true
  · have hconnect : connect client.token l = (.ok (), l) := if_pos hopen
    obtain ⟨es, r, l', hget, hevents, hopen', hattempted, hsame⟩ :=
      get_attempts server client path parameters hconnect
    rw [hget]
    refine ⟨true, es, id, ?_⟩
    exact
      { events := hevents
        isOpen := by simp [hopen', hopen]
        service := fun a => by simp [hsame, hopen]
        downloads := fun a => by rw [hsame]
        attempted := fun _ => hattempted
        silent := fun h => absurd h.symm Bool.false_ne_true
        unusable := fun _ hclosed => by simp [hopen] at hclosed }
  · have hclosed : l.isOpen = false := Bool.eq_false_of_not_eq_true hopen
    by_cases husable : isUsable client.token = true
    · have hconnect : connect client.token l =
          (.ok (), { l.log (.opened .service) with isOpen := true }) :=
        (if_neg hopen).trans (if_pos husable)
      obtain ⟨es, r, l', hget, hevents, hopen', hattempted, hsame⟩ :=
        get_attempts server client path parameters hconnect
      rw [hget]
      refine ⟨true, .opened .service :: es, id, ?_⟩
      exact
        { events := by rw [hevents, Line.log, List.append_assoc]; rfl
          isOpen := by simp [hopen', husable]
          service := fun a => by
            simp only [hclosed, husable]
            exact hsame _ _ (a.build true)
          downloads := fun a => congrArg Account.standing (hsame _ _ a)
          attempted := fun _ => hattempted.imp
            (fun ⟨e, he, hasking⟩ => ⟨e, List.mem_cons_of_mem _ he, hasking⟩) id
          silent := fun h => absurd h.symm Bool.false_ne_true
          unusable := fun _ _ hunusable => by simp [husable] at hunusable }
    · have hconnect : connect client.token l =
          (.error (.unaddressed .unencodable), l.log (.opened .service)) :=
        (if_neg hopen).trans (if_neg husable)
      have hget : get server client path parameters l =
          (.error (.unaddressed .unencodable), l.log (.opened .service)) :=
        bind_error hconnect _
      rw [hget]
      refine ⟨true, [.opened .service], id, ?_⟩
      exact
        { events := rfl
          isOpen := by simp [Line.log, husable]
          service := fun a => by simp [hclosed, Account.afterAll, Account.after]
          downloads := fun a => rfl
          attempted := fun _ => .inr ⟨_, rfl⟩
          silent := fun h => absurd h.symm Bool.false_ne_true
          unusable := fun _ _ _ => ⟨_, rfl⟩ }

/-- A part of an operation that makes one inquiry, and sends nothing to the service after it. -/
def AsksOnce {α : Type} (i : Inquiry) (x : Exchange σ ServiceNotice α) : Prop :=
  ∃ k, x = get server client i.path i.parameters >>= k ∧ ∀ data, Quiet (k data)

/-- A single request keeps the account and asks. -/
theorem AsksOnce.keeps
    {α : Type} {i : Inquiry} {x : Exchange σ ServiceNotice α} (h : AsksOnce server client i x) :
    Keeps client.token true x := by
  obtain ⟨k, rfl, hk⟩ := h
  exact (get_keeps server client _ _).bind fun data => (hk data).keeps

theorem documents_asksOnce (file : String) (nodes : List String) :
    AsksOnce server client (documentsInquiry file nodes) (documents server client file nodes) :=
  ⟨_, rfl, fun data => (quiet_access (sizeUnder "nodes" data)).bind fun _ =>
    (quiet_note _).bind fun _ => quiet_done data⟩

theorem library_asksOnce (file : String) :
    AsksOnce server client (libraryInquiry file) (library server client file) :=
  ⟨_, rfl, fun data => (quiet_access (data.memberD "meta" (.obj []))).bind fun about =>
    (quiet_access (sizeUnder "variables" about)).bind fun _ =>
      (quiet_access (sizeUnder "variableCollections" about)).bind fun _ =>
        (quiet_note _).bind fun _ => quiet_done data⟩

theorem renders_asksOnce (file : String) (nodes : List String) (r : Rendering) :
    AsksOnce server client (rendersInquiry file nodes r) (renders server client file nodes r) := by
  refine ⟨_, rfl, ?_⟩
  intro data
  dsimp only
  split
  · exact quiet_fail _
  · exact (quiet_note _).bind fun _ => quiet_done _

theorem documents_keeps (file : String) (nodes : List String) :
    Keeps client.token true (documents server client file nodes) :=
  (documents_asksOnce server client file nodes).keeps

theorem library_keeps (file : String) :
    Keeps client.token true (library server client file) :=
  (library_asksOnce server client file).keeps

theorem renders_keeps (file : String) (nodes : List String) (r : Rendering) :
    Keeps client.token true (renders server client file nodes r) :=
  (renders_asksOnce server client file nodes r).keeps

theorem drawingIn_quiet (node : String) (r : Response) :
    Quiet (drawingIn node r : Exchange σ ServiceNotice (Option String)) := by
  unfold drawingIn
  split
  · exact quiet_done _
  · exact (quiet_note _).bind fun _ => quiet_done _

/-- A download carries no token. -/
theorem download_quiet (node address : String) :
    Quiet (download server node address) := by
  unfold download
  split
  · exact quiet_fail _
  · refine (quiet_send server rfl).bind ?_
    intro reply
    split
    · exact (quiet_note _).bind fun _ => quiet_done _
    · split
      · exact drawingIn_quiet node _
      · exact quiet_fail _

theorem drawing?_quiet (images : Json.Members) (node : String) :
    Quiet (drawing? server images node) := by
  unfold drawing?
  split
  · split
    · exact (quiet_note _).bind fun _ => quiet_done _
    · exact download_quiet server node _
  · split
    · exact (quiet_note _).bind fun _ => quiet_done _
    · exact quiet_fail _

theorem downloads_quiet (images : Json.Members) (nodes : List String)
    (found : List (String × String)) :
    Quiet (downloads server images nodes found) := by
  induction nodes generalizing found with
  | nil => exact quiet_done found
  | cons node rest ih =>
      refine (drawing?_quiet server images node).bind ?_
      intro svg
      cases svg with
      | some svg => exact ih (Tables.put node svg found)
      | none => exact ih found

/-- Drawings ask if there are nodes to draw. -/
theorem drawings_keeps (file : String) (nodes : List String) :
    Keeps client.token (!nodes.isEmpty) (drawings server client file nodes) := by
  cases nodes with
  | nil => exact (quiet_done []).keeps
  | cons node rest =>
      exact (renders_keeps server client file (node :: rest) Rendering.svg).bind fun images =>
        (downloads_quiet server images (node :: rest) []).withDownloads

theorem drawing_keeps (file node : String) :
    Keeps client.token true (drawing server client file node) := by
  refine (drawings_keeps server client file [node]).bind ?_
  intro found
  refine Quiet.keeps ?_
  split
  · exact quiet_done _
  · exact quiet_fail _

/-- A parent type asks once, and is content without an answer. -/
theorem parentType_keeps (file : String) (node : Json) :
    Keeps client.token true (parentType server client file node) := by
  have houtline : Keeps client.token true (outline server client file) := by
    refine Keeps.orElse ?_ ?_
    · exact (get_keeps server client _ _).bind fun data => (quiet_done (some data)).keeps
    · intro r
      exact ((quiet_note _).bind fun _ => quiet_done none).keeps
  refine houtline.bind ?_
  intro found
  cases found with
  | some data => exact (quiet_access _).keeps
  | none => exact (quiet_done _).keeps

end Client

namespace Snapshot

open Exchange

variable {σ : Type} (server : Server σ) (client : Client)

theorem library_keeps (file : String) :
    Keeps client.token false (library server client file) := by
  refine Keeps.bind ?_ ?_
  · refine Keeps.orElse ?_ ?_
    · exact (client.library_keeps server file).weaken.bind fun data =>
        (quiet_done (some data)).keeps
    · intro r
      exact ((quiet_note _).bind fun _ => quiet_done none).keeps
  · intro answer
    refine Quiet.keeps ?_
    cases answer with
    | none => exact quiet_done _
    | some data =>
        exact (quiet_reading _).bind fun found =>
          (quiet_note _).bind fun _ => quiet_done found

theorem drawings_keeps (file : String) (nodes : List String) :
    Keeps client.token false (drawings server client file nodes) :=
  (client.drawings_keeps server file nodes).weaken.orElse fun _ =>
    ((quiet_note _).bind fun _ => quiet_done []).keeps

/-- A snapshot asks, whatever follows on its documents. -/
theorem load_keeps (file node : String) (followed : Bool) :
    Keeps client.token true (load server client file node followed) := by
  refine (client.documents_keeps server file [node]).bind ?_
  intro data
  dsimp only
  split
  · exact (quiet_fail _).keeps
  · refine (client.parentType_keeps server file _).weaken.bind ?_
    intro parentType
    refine (quiet_reading _).keeps.bind ?_
    intro scene
    refine (quiet_reading _).keeps.bind ?_
    intro components
    refine Keeps.branch (library_keeps server client file) (quiet_done _).keeps ?_
    intro found
    refine Keeps.branch (quiet_done _).keeps (drawings_keeps server client file _) ?_
    intro svgs
    exact ((quiet_note _).bind fun _ => quiet_done _).keeps

end Snapshot
end SceneMarkup
