import Mathlib.Data.List.Forall2
import SceneMarkup.Markup.Script

/-!
# Conversations with a host

A run of a script is a conversation: the script asks, the host replies, and the next question may
depend on the reply. This file keeps the questions together with their replies (`turns`) and says
how a run is put together from the runs of its parts. A script goes on after another one from its
result (`bind`) or from its fault (`recover`); both are cases of `resume`, and so each law is shown
for `resume` once.

Most facts about scripts hold whatever the host replies. `Script.Always` states such a fact on the
tree of the script itself, so that no host and no state occurs in its proof:

* `always_resume` follows the ways to combine scripts;
* `Always.run` carries the fact over to every run against every host.

Two such facts have rules of their own: which questions a script asks (`Asks`, `Settles`), and what
it ends in, given what the host says when it fails (`Ends`).
-/

namespace SceneMarkup

namespace Script

/-- A turn of a conversation: a question with the reply that it got. -/
structure Turn where
  query : Query
  reply : query.Reply

variable {α β γ σ : Type}

@[simp] theorem pure_eq_done (a : α) :
    (pure a : Script α) = done a :=
  rfl

@[simp] theorem bind_eq_bind (s : Script α) (k : α → Script β) :
    (s >>= k) = s.bind k :=
  rfl

@[simp] theorem done_bind (a : α) (k : α → Script β) :
    (done a).bind k = k a :=
  rfl

@[simp] theorem fail_bind (f : Fault) (k : α → Script β) :
    (fail f).bind k = fail f :=
  rfl

@[simp] theorem bind_done (s : Script α) :
    s.bind done = s := by
  induction s with
  | done a => rfl
  | fail f => rfl
  | note x rest ih => simp [bind, ih]
  | ask q next ih => simp [bind, ih]

/-- Three parts in sequence may be grouped either way. -/
theorem bind_assoc
    (s : Script α) (k : α → Script β) (l : β → Script γ) :
    (s.bind k).bind l = s.bind fun a => (k a).bind l := by
  induction s with
  | done a => rfl
  | fail f => rfl
  | note x rest ih => simp [bind, ih]
  | ask q next ih => simp [bind, ih]

/-- Goes on from the end of a script, be it a result or a fault. -/
def resume (s : Script α) (next : Except Fault α → Script β) : Script β :=
  match s with
  | done a => next (.ok a)
  | fail f => next (.error f)
  | note x rest => note x (resume rest next)
  | ask q k => ask q fun r => resume (k r) next

/-- Goes on from a result, and stops at a fault. -/
def onResult (k : α → Script β) : Except Fault α → Script β
  | .ok a => k a
  | .error f => fail f

/-- Goes on from a fault, and stops at a result. -/
def onFault (handler : Fault → Script α) : Except Fault α → Script α
  | .ok a => done a
  | .error f => handler f

/-- A sequence resumes with the result of its first part, and passes its fault on. -/
theorem bind_eq_resume (s : Script α) (k : α → Script β) :
    s.bind k = s.resume (onResult k) := by
  induction s with
  | done a => rfl
  | fail f => rfl
  | note x rest ih => simp only [bind, resume, ih]
  | ask q next ih => simp only [bind, resume, ih]

/-- A handler resumes with the fault, and passes a result on. -/
theorem recover_eq_resume (s : Script α) (handler : Fault → Script α) :
    s.recover handler = s.resume (onFault handler) := by
  induction s with
  | done a => rfl
  | fail f => rfl
  | note x rest ih => simp only [recover, resume, ih]
  | ask q next ih => simp only [recover, resume, ih]

/-- The questions of a run with their replies, in order. -/
def turns (host : Host σ) : Script α → σ → List Turn
  | done _, _ => []
  | fail _, _ => []
  | note _ rest, state => turns host rest state
  | ask q next, state =>
    ⟨q, (host q state).1⟩ ::
      turns host (next (host q state).1) (host q state).2

/-- The replies of a run are those of the host. -/
theorem forall_mem_turns
    {host : Host σ} {P : Turn → Prop} (hhost : ∀ q state, P ⟨q, (host q state).1⟩)
    (s : Script α) (state : σ) :
    ∀ t ∈ s.turns host state, P t := by
  induction s generalizing state with
  | done a => simp [turns]
  | fail f => simp [turns]
  | note x rest ih => exact ih state
  | ask q next ih => exact List.forall_mem_cons.2 ⟨hhost q state, ih _ _⟩

/-- The calls of a run are the questions of its turns. -/
theorem calls_eq_map_turns
    (host : Host σ) (s : Script α) (state : σ) :
    (s.run host state).calls = (s.turns host state).map (·.query) := by
  induction s generalizing state with
  | done a => rfl
  | fail f => rfl
  | note x rest ih => exact ih state
  | ask q next ih => simp [run, turns, ih]

/-- What a run comes to when another one goes on from its end. -/
def Transcript.andThen
    (t : Transcript σ α) (next : Except Fault α → σ → Transcript σ β) : Transcript σ β :=
  let u := next t.outcome t.state
  { u with calls := t.calls ++ u.calls, notices := t.notices ++ u.notices }

/-- A run that is resumed goes on from the state that the first part left. -/
theorem run_resume
    (host : Host σ) (s : Script α) (next : Except Fault α → Script β) (state : σ) :
    (s.resume next).run host state =
      (s.run host state).andThen fun o => (next o).run host := by
  induction s generalizing state with
  | done a => rfl
  | fail f => rfl
  | note x rest ih => simp only [resume, run, ih, Transcript.andThen, List.cons_append]
  | ask q k ih => simp only [resume, run, ih, Transcript.andThen, List.cons_append]

/-- Whatever the replies, the turns of a script and its outcome satisfy `post`. -/
def Always :
    Script α → (List Turn → Except Fault α → Prop) → Prop
  | done a, post => post [] (.ok a)
  | fail f, post => post [] (.error f)
  | note _ rest, post => Always rest post
  | ask q next, post =>
    ∀ r : q.Reply, Always (next r) fun log => post (⟨q, r⟩ :: log)

/-- A fact of all conversations is a fact of every run. -/
theorem Always.run
    {s : Script α} {post : List Turn → Except Fault α → Prop}
    (h : s.Always post) (host : Host σ) (state : σ) :
    post (s.turns host state) (s.run host state).outcome := by
  induction s generalizing post state with
  | done a => exact h
  | fail f => exact h
  | note x rest ih => exact ih h state
  | ask q next ih =>
      exact ih (host q state).1 (h (host q state).1) (host q state).2

theorem Always.imp
    {s : Script α} {post post' : List Turn → Except Fault α → Prop}
    (h : s.Always post) (himp : ∀ log r, post log r → post' log r) :
    s.Always post' := by
  induction s generalizing post post' with
  | done a => exact himp [] (.ok a) h
  | fail f => exact himp [] (.error f) h
  | note x rest ih => exact ih h himp
  | ask q next ih =>
      intro r
      exact ih r (h r) fun log => himp (⟨q, r⟩ :: log)

theorem Always.and
    {s : Script α} {post post' : List Turn → Except Fault α → Prop}
    (h : s.Always post) (h' : s.Always post') :
    s.Always fun log r => post log r ∧ post' log r := by
  induction s generalizing post post' with
  | done a => exact ⟨h, h'⟩
  | fail f => exact ⟨h, h'⟩
  | note x rest ih => exact ih h h'
  | ask q next ih =>
      intro r
      exact ih r (h r) (h' r)

/-- What holds of every log holds of every run. -/
theorem always_of_forall
    (s : Script α) {post : List Turn → Except Fault α → Prop} (h : ∀ log r, post log r) :
    s.Always post := by
  induction s generalizing post with
  | done a => exact h [] (.ok a)
  | fail f => exact h [] (.error f)
  | note x rest ih => exact ih h
  | ask q next ih =>
      intro r
      exact ih r fun log => h (⟨q, r⟩ :: log)

/-- The replies to the first script stand before those to the second one. -/
theorem always_resume
    (s : Script α) (next : Except Fault α → Script β)
    (post : List Turn → Except Fault β → Prop) :
    (s.resume next).Always post ↔
      s.Always fun log o => (next o).Always fun rest => post (log ++ rest) := by
  induction s generalizing post with
  | done a => exact Iff.rfl
  | fail f => exact Iff.rfl
  | note x rest ih => exact ih post
  | ask q k ih =>
      -- The turn of the question stands before the turns of both scripts.
      exact forall_congr' fun r => ih r fun log => post (⟨q, r⟩ :: log)

/-- A sequence is judged part by part, with the logs put together. -/
theorem always_bind
    (s : Script α) (k : α → Script β)
    (post : List Turn → Except Fault β → Prop) :
    (s.bind k).Always post ↔
      s.Always fun log o => (onResult k o).Always fun rest => post (log ++ rest) := by
  rw [bind_eq_resume, always_resume]

/-- All questions of a script are of a sort. -/
def Asks (sort : Query → Prop) (s : Script α) : Prop :=
  s.Always fun log _ => ∀ t ∈ log, sort t.query

/-- A script ends without a fault, and all its questions are of a sort. -/
def Settles (sort : Query → Prop) (s : Script α) : Prop :=
  s.Always fun log r => (∃ a, r = .ok a) ∧ ∀ t ∈ log, sort t.query

variable {sort : Query → Prop}

theorem asks_done (a : α) : (done a).Asks sort :=
  nofun

theorem asks_fail (f : Fault) : (fail f : Script α).Asks sort :=
  nofun

theorem asks_ask
    {q : Query} {next : q.Reply → Script α}
    (hq : sort q) (hnext : ∀ r, (next r).Asks sort) :
    (ask q next).Asks sort := by
  intro r
  refine (hnext r).imp ?_
  intro log _ hlog
  exact List.forall_mem_cons.2 ⟨hq, hlog⟩

theorem settles_done (a : α) : (done a).Settles sort :=
  ⟨⟨a, rfl⟩, asks_done a⟩

/-- A script settles when it goes on to one that does, from whatever end it comes to. -/
theorem settles_resume
    {s : Script α} {next : Except Fault α → Script β}
    (h : s.Always fun log o => (∀ t ∈ log, sort t.query) ∧ (next o).Settles sort) :
    (s.resume next).Settles sort := by
  refine (always_resume s next _).2 (h.imp ?_)
  rintro log o ⟨hlog, hnext⟩
  refine hnext.imp ?_
  rintro rest r ⟨hr, hrest⟩
  exact ⟨hr, List.forall_mem_append.2 ⟨hlog, hrest⟩⟩

theorem Settles.bind
    {s : Script α} {k : α → Script β}
    (hs : s.Settles sort) (hk : ∀ a, (k a).Settles sort) :
    (s.bind k).Settles sort := by
  rw [bind_eq_resume]
  refine settles_resume (hs.imp ?_)
  rintro log _ ⟨⟨a, rfl⟩, hlog⟩
  exact ⟨hlog, hk a⟩

/-- A script that may fault settles when the fault leads to a script that does. -/
theorem Asks.recover
    {s : Script α} {handler : Fault → Script α}
    (hs : s.Asks sort) (hh : ∀ f, (handler f).Settles sort) :
    (s.recover handler).Settles sort := by
  rw [recover_eq_resume]
  refine settles_resume (hs.imp ?_)
  intro log o hlog
  refine ⟨hlog, ?_⟩
  cases o with
  | ok a => exact settles_done a
  | error f => exact hh f

theorem Settles.collect
    {f : α → Script (List β)} (hf : ∀ a, (f a).Settles sort) :
    ∀ l : List α, (collect f l).Settles sort
  | [] => settles_done []
  | a :: rest =>
      (hf a).bind fun _ => (Settles.collect hf rest).bind fun _ => settles_done _

/-- If the host failed at a turn, then with a message of a class. Why a component is not available
is told in no script, and so it does not count. -/
def Turn.FaultsIn (Q : String → Prop) (t : Turn) : Prop :=
  (∀ n, t.query ≠ .componentOf n) → ∀ f, t.reply = .error f → Q f.message

theorem Turn.FaultsIn.imp
    {Q Q' : String → Prop} {t : Turn} (h : t.FaultsIn Q) (himp : ∀ m, Q m → Q' m) :
    t.FaultsIn Q' :=
  fun hquery f hf => himp f.message (h hquery f hf)

/-- As long as the messages of the host are of a class, a script ends in a result with a
property, or in a fault with a message of the class. -/
def Ends (Q : String → Prop) (s : Script α) (post : α → Prop) : Prop :=
  s.Always fun log r =>
    (∀ t ∈ log, t.FaultsIn Q) →
      (∀ a, r = .ok a → post a) ∧ ∀ f, r = .error f → Q f.message

section

variable {Q : String → Prop} {mid : α → Prop} {post : β → Prop}

theorem ends_done {b : β} (h : post b) : (done b).Ends Q post := by
  intro _
  refine ⟨?_, nofun⟩
  rintro _ ⟨⟩
  exact h

theorem ends_fail {f : Fault} (h : Q f.message) : (fail f : Script β).Ends Q post := by
  intro _
  refine ⟨nofun, ?_⟩
  rintro _ ⟨⟩
  exact h

/-- Nothing is said of a conversation in which a fault is not of the class. -/
theorem ends_ask
    {q : Query} {next : q.Reply → Script β}
    (h : ∀ r, Turn.FaultsIn Q ⟨q, r⟩ → (next r).Ends Q post) :
    (ask q next).Ends Q post := by
  intro r
  by_cases hr : Turn.FaultsIn Q ⟨q, r⟩
  · refine Always.imp (h r hr) ?_
    intro log o hend hlog
    exact hend fun t ht => hlog t (List.mem_cons_of_mem _ ht)
  · refine always_of_forall _ ?_
    intro log o hlog
    exact absurd (hlog _ List.mem_cons_self) hr

theorem Ends.imp
    {s : Script α} {mid' : α → Prop} (hs : s.Ends Q mid) (h : ∀ a, mid a → mid' a) :
    s.Ends Q mid' := by
  refine Always.imp hs ?_
  intro log r hend hlog
  obtain ⟨hok, herror⟩ := hend hlog
  exact ⟨fun a ha => h a (hok a ha), herror⟩

/-- What a script ends in is what the script after it starts from. -/
theorem ends_resume
    {s : Script α} {next : Except Fault α → Script β}
    (hs : s.Ends Q mid)
    (hok : ∀ a, mid a → (next (.ok a)).Ends Q post)
    (herror : ∀ f, Q f.message → (next (.error f)).Ends Q post) :
    (s.resume next).Ends Q post := by
  refine (always_resume s next _).2 (Always.imp hs ?_)
  intro log o hend
  by_cases hlog : ∀ t ∈ log, t.FaultsIn Q
  · obtain ⟨hresult, hfault⟩ := hend hlog
    have hnext : (next o).Ends Q post := by
      cases o with
      | ok a => exact hok a (hresult a rfl)
      | error f => exact herror f (hfault f rfl)
    refine Always.imp hnext ?_
    intro rest r h hall
    exact h fun t ht => hall t (List.mem_append_right _ ht)
  · refine always_of_forall _ ?_
    intro rest r hall
    exact absurd (fun t ht => hall t (List.mem_append_left _ ht)) hlog

theorem Ends.bind
    {s : Script α} {k : α → Script β}
    (hs : s.Ends Q mid) (hk : ∀ a, mid a → (k a).Ends Q post) :
    (s.bind k).Ends Q post := by
  rw [bind_eq_resume]
  exact ends_resume hs hk fun f hf => ends_fail hf

/-- A handler that ends well makes the whole end well. -/
theorem Ends.recover
    {s : Script β} {handler : Fault → Script β}
    (hs : s.Ends Q post) (hh : ∀ f, Q f.message → (handler f).Ends Q post) :
    (s.recover handler).Ends Q post := by
  rw [recover_eq_resume]
  exact ends_resume hs (fun b hb => ends_done hb) hh

/-- What scripts collect consists of one part for each of them. -/
theorem Ends.collect
    {f : α → Script (List β)} {rel : α → List β → Prop}
    (hf : ∀ a, (f a).Ends Q (rel a)) :
    ∀ l : List α, (collect f l).Ends Q fun bs =>
      ∃ parts, List.Forall₂ rel l parts ∧ bs = parts.flatten
  | [] => ends_done ⟨[], .nil, rfl⟩
  | a :: rest => by
      refine (hf a).bind ?_
      intro bs hbs
      refine (Ends.collect hf rest).bind ?_
      rintro _ ⟨parts, hparts, rfl⟩
      exact ends_done ⟨bs :: parts, .cons hbs hparts, rfl⟩

/-- Against a host whose faults are of the class, a run ends as its script does. -/
theorem Ends.run
    {s : Script α} (hs : s.Ends Q mid) (host : Host σ) (state : σ)
    (hhost : ∀ t ∈ s.turns host state, t.FaultsIn Q)
    {a : α} (ha : (s.run host state).outcome = .ok a) :
    mid a :=
  (Always.run hs host state hhost).1 a ha

end

end Script
end SceneMarkup
