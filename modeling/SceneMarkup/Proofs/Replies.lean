import SceneMarkup.Proofs.Mirroring

/-!
# Hosts that give one reply to each question

Against a host whose reply depends on the question only, a script has one outcome and one list of
questions, and its outcome is put together from those of its parts (`answer_bind`,
`answer_recover`, `answer_collect`). What compares two designs, or two ways to generate from one
design, is a statement about `Script.answer`.

* `Property.contribution_eq`: a property contributes its lines, or a remark on its fault.
* `answer_instance`, `answer_element`, `answer_cons`: the block of a node from those of its
  children.
-/

namespace SceneMarkup
namespace Script

variable {α β : Type} (reply : (q : Query) → q.Reply)

/-- The outcome of a script when each question has one reply. -/
def answer (s : Script α) : Except Fault α :=
  (s.run (Host.constant reply) ()).outcome

/-- The questions of a script when each of them has one reply. -/
def asked (s : Script α) : List Query :=
  (s.run (Host.constant reply) ()).calls

@[simp] theorem answer_done (a : α) :
    (done a).answer reply = .ok a :=
  rfl

@[simp] theorem answer_fail (f : Fault) :
    (fail f : Script α).answer reply = .error f :=
  rfl

@[simp] theorem answer_note (x : Notice) (s : Script α) :
    (note x s).answer reply = s.answer reply :=
  rfl

@[simp] theorem answer_ask (q : Query) (next : q.Reply → Script α) :
    (ask q next).answer reply = (next (reply q)).answer reply :=
  rfl

@[simp] theorem asked_done (a : α) :
    (done a).asked reply = [] :=
  rfl

@[simp] theorem asked_fail (f : Fault) :
    (fail f : Script α).asked reply = [] :=
  rfl

@[simp] theorem asked_note (x : Notice) (s : Script α) :
    (note x s).asked reply = s.asked reply :=
  rfl

@[simp] theorem asked_ask (q : Query) (next : q.Reply → Script α) :
    (ask q next).asked reply = q :: (next (reply q)).asked reply :=
  rfl

/-- What resumes a script is told how it ended. -/
theorem answer_resume (s : Script α) (next : Except Fault α → Script β) :
    (s.resume next).answer reply = (next (s.answer reply)).answer reply := by
  rw [answer, run_resume]
  rfl

/-- A script in sequence goes on with the result of the first part, or ends with its fault. -/
theorem answer_bind (s : Script α) (k : α → Script β) :
    (s.bind k).answer reply = (onResult k (s.answer reply)).answer reply := by
  rw [bind_eq_resume, answer_resume]

/-- A handler sees the fault of a script, and its result passes by. -/
theorem answer_recover (s : Script α) (handler : Fault → Script α) :
    (s.recover handler).answer reply = (onFault handler (s.answer reply)).answer reply := by
  rw [recover_eq_resume, answer_resume]

variable {reply}

/-- Behind a part that answers, the rest decides. -/
theorem answer_bind_of_ok
    {s : Script α} {a : α}
    (hs : s.answer reply = .ok a) (k : α → Script β) :
    (s.bind k).answer reply = (k a).answer reply := by
  rw [answer_bind, hs]
  rfl

/-- If every item has its list, the lists come one after the other. -/
theorem answer_collect
    {f : α → Script (List β)} {g : α → List β} {l : List α}
    (hf : ∀ a ∈ l, (f a).answer reply = .ok (g a)) :
    (collect f l).answer reply = .ok (l.flatMap g) := by
  induction l with
  | nil => rfl
  | cons a rest ih =>
      obtain ⟨hhead, hrest⟩ := List.forall_mem_cons.1 hf
      show ((f a).bind _).answer reply = _
      rw [answer_bind_of_ok hhead, answer_bind_of_ok (ih hrest)]
      rfl

end Script

namespace Property

/-- The lines that a property contributes to the block of a node. -/
def contribution
    (reply : (q : Query) → q.Reply) (followed : Bool) (n : Node) (p : Property) : List String :=
  match (p.contained followed n).answer reply with
  | .ok lines => lines
  | .error _ => []

/-- A property that is contained contributes its lines or a remark on its fault, and never
faults. -/
theorem contained_answer
    (reply : (q : Query) → q.Reply) (followed : Bool) (n : Node) (p : Property) :
    (p.contained followed n).answer reply = .ok (contribution reply followed n p) := by
  obtain ⟨⟨lines, hlines⟩, -⟩ := (contained_settles followed n p).run (Host.constant reply) ()
  have hanswer : (p.contained followed n).answer reply = .ok lines := hlines
  rw [contribution, hanswer]

/-- The contributions of properties come one after the other. -/
theorem allLines_answer
    (reply : (q : Query) → q.Reply) (followed : Bool) (n : Node) (ps : List Property) :
    (allLines followed n ps).answer reply = .ok (ps.flatMap (contribution reply followed n)) :=
  Script.answer_collect fun p _ => contained_answer reply followed n p

/-- A property contributes its lines, or else a remark on what has stopped it. -/
theorem contribution_eq
    (reply : (q : Query) → q.Reply) (followed : Bool) (n : Node) (p : Property) :
    contribution reply followed n p =
      match (p.lines followed n).answer reply with
      | .ok lines => lines
      | .error f => [p.faultRemark f] := by
  rw [contribution, contained, Script.answer_recover]
  cases (p.lines followed n).answer reply with
  | ok lines => rfl
  | error f => rfl

end Property

namespace Snippet

variable {reply : (q : Query) → q.Reply}

/-- An instance is a block of the component that the host names for it. -/
theorem answer_instance
    (reply : (q : Query) → q.Reply) (followed : Bool)
    (a : Attributes) (c : Option String) (children : List Node) :
    (block followed (.mk a (.instanceOf c) children)).answer reply =
      .ok (blockOfComponent a.name
        (reply (.componentOf (.mk a (.instanceOf c) children))).toOption.join) := by
  rw [block_instance]
  show (afterComponent _ (reply _)).answer reply = _
  rcases reply (.componentOf (.mk a (.instanceOf c) children)) with g | _ | found <;> rfl

/-- Any other node is a block of its properties and of the blocks of its children. -/
theorem answer_element
    (followed : Bool) (a : Attributes) {k : Kind} {children : List Node} {bs : List Block}
    (hk : ∀ c, k ≠ .instanceOf c)
    (hbs : (blocks followed children).answer reply = .ok bs) :
    (block followed (.mk a k children)).answer reply =
      .ok (.mk (some (keyword k)) (some (Text.kebab a.name)) (remark k)
        ((properties k.nodeClass).flatMap
          (Property.contribution reply followed (.mk a k children))) bs) := by
  rw [block_element followed a children hk]
  rw [Script.answer_bind_of_ok (Property.allLines_answer reply followed _ _)]
  rw [Script.answer_bind_of_ok hbs]
  rfl

theorem answer_cons
    {followed : Bool} {n : Node} {rest : List Node} {b : Block} {bs : List Block}
    (hb : (block followed n).answer reply = .ok b)
    (hbs : (blocks followed rest).answer reply = .ok bs) :
    (blocks followed (n :: rest)).answer reply = .ok (b :: bs) := by
  rw [blocks_cons, Script.answer_bind_of_ok hb, Script.answer_bind_of_ok hbs]
  rfl

end Snippet
end SceneMarkup
