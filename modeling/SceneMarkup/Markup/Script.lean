import SceneMarkup.Markup.Notice

/-!
# Scripts

A script is a computation that asks a design host and leaves notices. It is a tree: at a
question it branches over the replies, so that a statement about a script holds for every host.
`Script.run` plays a script against one host and keeps a transcript.
-/

namespace SceneMarkup

/-- A computation that asks a design host. -/
inductive Script (α : Type) : Type
  | done (a : α)
  | fail (f : Fault)
  | note (n : Notice) (rest : Script α)
  | ask (q : Query) (next : q.Reply → Script α)

namespace Script

variable {α β : Type}

/-- One script after the other. -/
def bind (s : Script α) (k : α → Script β) : Script β :=
  match s with
  | done a => k a
  | fail f => fail f
  | note n rest => note n (bind rest k)
  | ask q next => ask q fun r => bind (next r) k

instance : Monad Script where
  pure := done
  bind := bind

/-- A script of which a fault leads to another script. -/
def recover (s : Script α) (handler : Fault → Script α) : Script α :=
  match s with
  | done a => done a
  | fail f => handler f
  | note n rest => note n (recover rest handler)
  | ask q next => ask q fun r => recover (next r) handler

/-- A question whose fault stops the script. -/
def query (q : Query) : Script q.Answer :=
  ask q fun
    | .ok a => done a
    | .error f => fail (.host f)

/-- A question whose fault is a value. -/
def attempt (q : Query) : Script q.Reply :=
  ask q done

/-- A notice. -/
def notify (n : Notice) : Script Unit := note n (done ())

/-- A result or a fault. -/
def ofExcept : Except Fault α → Script α
  | .ok a => done a
  | .error f => fail f

/-- A number's written form or a fault. -/
def ofNumber : Except NumberFault α → Script α
  | .ok a => done a
  | .error f => fail (.number f)

/-- The results of scripts that are played one after the other. -/
def collect (f : α → Script (List β)) : List α → Script (List β)
  | [] => done []
  | a :: rest => bind (f a) fun bs => bind (collect f rest) fun cs => done (bs ++ cs)

/-- What a run of a script comes to. -/
structure Transcript (σ α : Type) where
  outcome : Except Fault α
  state : σ
  calls : List Query
  notices : List Notice

/-- Plays a script against a host. -/
def run {σ : Type} (host : Host σ) (s : Script α) (state : σ) : Transcript σ α :=
  match s with
  | done a => ⟨.ok a, state, [], []⟩
  | fail f => ⟨.error f, state, [], []⟩
  | note n rest =>
    let t := run host rest state
    { t with notices := n :: t.notices }
  | ask q next =>
    let answer := host q state
    let t := run host (next answer.1) answer.2
    { t with calls := q :: t.calls }

end Script
end SceneMarkup
