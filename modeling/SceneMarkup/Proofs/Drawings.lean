import SceneMarkup.Proofs.LineBreaks

/-!
# Drawings of paths

Generation asks for the drawing of every path that it shows, one after the other and parents first,
and for no other drawings (`Snippet.block_draws`). What is inside an instance is not shown.

Against tables, the drawing of a path is there or it is not, and the lines of the path say which of
the two: a path without a drawing has a remark on it, and no other line of a path can be taken for
this remark, unless the drawing itself is quoted and reads like it
(`Property.missingRemark_mem_iff`).

* `Script.Draws`: the drawings that a script asks for, whatever the replies.
* `Snippet.Throughout`: a relation between nodes and the lines of their properties that holds in a
  whole scene, down to instances.
-/

namespace SceneMarkup

open Script (Turn)

variable {α β : Type} {followed : Bool} {n : Node}

/-- The identifier of the node whose drawing is asked for. -/
def Query.drawingId? : Query → Option String
  | drawingOf n => some n.id
  | _ => none

namespace Script

/-- The identifiers of the nodes whose drawings a conversation asks for, in order. -/
def drawn (log : List Turn) : List String := log.filterMap fun t => t.query.drawingId?

/-- Whatever the replies, a script ends without a fault and asks for the drawings of these nodes. -/
def Draws (ids : List String) (s : Script α) : Prop :=
  s.Always fun log r => (∃ a, r = .ok a) ∧ drawn log = ids

variable {ids ids' : List String}

theorem draws_done (a : α) : (done a).Draws [] :=
  ⟨⟨a, rfl⟩, rfl⟩

theorem Draws.bind
    {s : Script α} {k : α → Script β} (hs : s.Draws ids) (hk : ∀ a, (k a).Draws ids') :
    (s.bind k).Draws (ids ++ ids') := by
  refine (always_bind s k _).2 (hs.imp ?_)
  rintro log _ ⟨⟨a, rfl⟩, hlog⟩
  refine (hk a).imp ?_
  rintro rest r ⟨hr, hrest⟩
  refine ⟨hr, ?_⟩
  rw [drawn, List.filterMap_append]
  exact congrArg₂ _ hlog hrest

/-- A handler that is not needed asks for no drawing. -/
theorem Draws.recover
    {s : Script α} (hs : s.Draws ids) (handler : Fault → Script α) :
    (s.recover handler).Draws ids := by
  rw [recover_eq_resume]
  refine (always_resume s _ _).2 (hs.imp ?_)
  -- There is no fault that the handler could get.
  rintro log _ ⟨⟨a, rfl⟩, hlog⟩
  exact ⟨⟨a, rfl⟩, by rw [List.append_nil, hlog]⟩

theorem Draws.collect
    {f : α → Script (List β)} {g : α → List String} (hf : ∀ a, (f a).Draws (g a)) :
    ∀ l : List α, (collect f l).Draws (l.flatMap g)
  | [] => draws_done []
  | a :: rest => by
      rw [List.flatMap_cons, ← List.append_nil (rest.flatMap g)]
      exact (hf a).bind fun _ => (Draws.collect hf rest).bind fun _ => draws_done _

/-- A run asks for the drawings that its script names, whatever the host. -/
theorem Draws.run
    {s : Script α} (hs : s.Draws ids) {σ : Type} (host : Host σ) (state : σ) :
    (∃ a, (s.run host state).outcome = .ok a) ∧
      (s.run host state).calls.filterMap Query.drawingId? = ids := by
  obtain ⟨hok, hdrawn⟩ := Always.run hs host state
  refine ⟨hok, ?_⟩
  rw [calls_eq_map_turns, List.filterMap_map]
  exact hdrawn

end Script

namespace Node

mutual

/-- The identifiers of the paths that are shown, parents first. -/
def shownPaths : Node → List String
  | .mk _ (.instanceOf _) _ => []
  | .mk a (.path ..) children => a.id :: shownPathsAll children
  | .mk _ _ children => shownPathsAll children

/-- The identifiers of the paths that are shown of a row of nodes. -/
def shownPathsAll : List Node → List String
  | [] => []
  | n :: rest => shownPaths n ++ shownPathsAll rest

end

end Node

namespace Property

/-- The commands of a path ask for its drawing, whatever comes of it. -/
theorem commandLines_draws (n : Node) : (commandLines n).Draws [n.id] := by
  rw [commandLines_eq]
  rintro (f | svg)
  · exact ⟨⟨_, rfl⟩, rfl⟩
  · simp only [afterDrawing]
    split
    · exact ⟨⟨_, rfl⟩, rfl⟩
    · exact ⟨⟨_, rfl⟩, rfl⟩

/-- Only the commands of a path ask for a drawing, that of their own node. -/
theorem contained_draws (followed : Bool) (n : Node) (p : Property) :
    (p.contained followed n).Draws (if p = commands then [n.id] else []) := by
  by_cases hp : p = commands
  · subst hp
    exact (commandLines_draws n).recover _
  · rw [if_neg hp]
    have hsettles : (p.contained followed n).Settles fun q => ∀ m, q ≠ .drawingOf m :=
      (lines_ask_noDrawing hp followed n).recover fun f =>
        @Script.settles_done _ (fun q => ∀ m, q ≠ .drawingOf m) [p.faultRemark f]
    refine hsettles.imp ?_
    rintro log r ⟨hr, hlog⟩
    refine ⟨hr, List.filterMap_eq_nil_iff.2 ?_⟩
    intro t ht
    cases hquery : t.query with
    | drawingOf m => exact absurd hquery (hlog t ht m)
    | variableById | collectionById | componentOf => rfl

end Property

namespace Snippet

/-- Of all classes only paths ask for a drawing, and once. -/
theorem properties_draw (followed : Bool) (n : Node) (c : NodeClass) :
    (Property.allLines followed n (properties c)).Draws
      (match c with
        | .path _ => [n.id]
        | _ => []) := by
  have hcollect := Script.Draws.collect (Property.contained_draws followed n) (properties c)
  cases c <;> exact hcollect

mutual

/-- **Generation asks for the drawings of the paths that it shows**, in order. -/
theorem block_draws (followed : Bool) :
    ∀ n : Node, (block followed n).Draws n.shownPaths
  | .mk a k children => by
      have helement : (∀ c, k ≠ .instanceOf c) → (block followed (.mk a k children)).Draws
          ((match k.nodeClass with
            | .path _ => [a.id]
            | _ => []) ++ Node.shownPathsAll children) := by
        intro hk
        rw [block_element followed a children hk, ← List.append_nil (Node.shownPathsAll children)]
        exact (properties_draw followed _ k.nodeClass).bind fun _ =>
          (blocks_draw followed children).bind fun _ => Script.draws_done _
      cases k with
      | instanceOf c =>
          rw [block_instance]
          rintro (f | found)
          · exact ⟨⟨_, rfl⟩, rfl⟩
          · exact ⟨⟨_, rfl⟩, rfl⟩
      | frame | shape | text | path | other => exact helement nofun

theorem blocks_draw (followed : Bool) :
    ∀ ns : List Node, (blocks followed ns).Draws (Node.shownPathsAll ns)
  | [] => Script.draws_done []
  | n :: rest => by
      rw [blocks_cons, Node.shownPathsAll, ← List.append_nil (Node.shownPathsAll rest)]
      exact (block_draws followed n).bind fun _ =>
        (blocks_draw followed rest).bind fun _ => Script.draws_done _

end

end Snippet

/-- The remark on a path of which there is no drawing. -/
def missingRemark (id : String) : String :=
  "// Error exporting SVG: " ++ ("No SVG export available for node " ++ id)

namespace Property

theorem toList_prefix_append (s t : String) : s.toList <+: (s ++ t).toList := by
  rw [String.toList_append]
  exact List.prefix_append _ _

/-- Only the commands of a path write a remark on a drawing that fails. -/
theorem Writes.ne_exportRemark
    {p : Property} {part : List String} (h : Writes (fun _ => True) p part) (hp : p ≠ commands) :
    ∀ line ∈ part, ∀ message, line ≠ "// Error exporting SVG: " ++ message := by
  have hremark : ∀ message, isRemark ("// Error exporting SVG: " ++ message) = true :=
    fun message => isRemark_append (by decide) message
  -- Declarations are no remarks, and the other remark has another beginning.
  have hdeclared : ∀ line, isRemark line = false →
      ∀ message, line ≠ "// Error exporting SVG: " ++ message := by
    rintro line hline message rfl
    rw [hremark] at hline
    cases hline
  cases h with
  | nothing => exact nofun
  | declared =>
      intro line hline
      obtain rfl := List.mem_singleton.1 hline
      obtain ⟨c, cs, hname, hc⟩ := name_head p
      exact hdeclared _ (isRemark_declaration hname hc _)
  | corners =>
      intro line hline
      obtain ⟨row, -, rfl⟩ := List.mem_map.1 hline
      obtain ⟨c, cs, hname, hc⟩ := corner_name_head row.1
      exact hdeclared _ (isRemark_declaration hname hc _)
  | justified =>
      intro line hline
      obtain rfl := List.mem_singleton.1 hline
      exact hdeclared _ (by decide)
  | notDrawn | noCommands => exact absurd rfl hp
  | @stopped _ f =>
      intro line hline message hsame
      obtain rfl := List.mem_singleton.1 hline
      have hprocessing : "// Error processing ".toList <+: (p.faultRemark f).toList :=
        ((toList_prefix_append _ _).trans (toList_prefix_append _ _)).trans
          (toList_prefix_append _ _)
      have hexporting : "// Error exporting SVG: ".toList <+: (p.faultRemark f).toList :=
        hsame ▸ toList_prefix_append _ _
      exact absurd (List.prefix_or_prefix_of_prefix hprocessing hexporting) (by decide +kernel)

variable {t : Tables}

/-- The commands are a remark, a declaration, or a remark with a quotation of the drawing. -/
theorem contribution_commands (t : Tables) (followed : Bool) (n : Node) :
    contribution t.reply followed n commands =
      match Tables.lookup? n.id t.drawings with
      | none => [missingRemark n.id]
      | some svg =>
        match commandsIn (drawnForm n.kind) svg with
        | some found => [declaration commands.name (Text.Quoted.literal found)]
        | none =>
          ["// Could not extract path commands from SVG", "// " ++ Text.singleLine svg] := by
  have hanswer : (commands.lines followed n).answer t.reply =
      (afterDrawing n (t.reply (.drawingOf n))).answer t.reply :=
    rfl
  rw [contribution_eq, hanswer, Tables.reply]
  cases Tables.lookup? n.id t.drawings with
  | none => rfl
  | some svg =>
      simp only [afterDrawing]
      cases commandsIn (drawnForm n.kind) svg with
      | none => rfl
      | some found => rfl

/-- A drawing of a node that has no commands and that, on one line, reads as the remark on a missing
drawing. -/
def ReadsMissing (n : Node) (svg : String) : Prop :=
  commandsIn (drawnForm n.kind) svg = none ∧ "// " ++ Text.singleLine svg = missingRemark n.id

/-- The remark on a missing drawing stands where the drawing is missing, or where one reads like
it. -/
theorem missingRemark_mem_commands (t : Tables) (followed : Bool) (n : Node) :
    missingRemark n.id ∈ contribution t.reply followed n commands ↔
      Tables.lookup? n.id t.drawings = none ∨
        ∃ svg, Tables.lookup? n.id t.drawings = some svg ∧ ReadsMissing n svg := by
  rw [contribution_commands]
  cases Tables.lookup? n.id t.drawings with
  | none => simp
  | some svg =>
      simp only [reduceCtorEq, false_or, Option.some.injEq, exists_eq_left']
      rw [ReadsMissing]
      cases commandsIn (drawnForm n.kind) svg with
      | some found =>
          have hne : missingRemark n.id ≠
              declaration commands.name (Text.Quoted.literal found) := by
            intro hsame
            have hremark : isRemark (missingRemark n.id) = true := isRemark_append (by decide) _
            rw [hsame, isRemark_declaration rfl (by decide)] at hremark
            cases hremark
          simp [hne]
      | none =>
          have hne : missingRemark n.id ≠ "// Could not extract path commands from SVG" := by
            intro hsame
            have hprefix : "// Error exporting SVG: ".toList <+: (missingRemark n.id).toList :=
              toList_prefix_append _ _
            rw [hsame] at hprefix
            exact absurd hprefix (by decide +kernel)
          simp [hne, eq_comm]

/-- **A path has the remark on a missing drawing exactly if there is none**, or if the drawing that
there is has no commands and reads like this remark. -/
theorem missingRemark_mem_iff
    (t : Tables) (followed : Bool) (a : Attributes) (form : Stroke) (paints : Paints)
    (children : List Node) :
    missingRemark a.id ∈
        (Snippet.properties (.path form)).flatMap
          (contribution t.reply followed (.mk a (.path form paints) children)) ↔
      Tables.lookup? a.id t.drawings = none ∨
        ∃ svg, Tables.lookup? a.id t.drawings = some svg ∧
          ReadsMissing (.mk a (.path form paints) children) svg := by
  refine Iff.trans ?_ (missingRemark_mem_commands t followed (.mk a (.path form paints) children))
  constructor
  · intro h
    obtain ⟨p, -, hline⟩ := List.mem_flatMap.1 h
    by_cases hp : p = commands
    · exact hp ▸ hline
    · have hwrites : Writes (fun _ => True) p
          (contribution t.reply followed (.mk a (.path form paints) children) p) :=
        (contained_ends (fun _ _ => True.intro) followed _ p).run (Host.constant t.reply) ()
          (fun _ _ _ _ _ => True.intro) (contained_answer t.reply followed _ p)
      exact absurd rfl (hwrites.ne_exportRemark hp _ hline _)
  · intro h
    refine List.mem_flatMap.2 ⟨commands, ?_, h⟩
    cases form <;> decide

end Property

namespace Snippet

mutual

/-- A block stands for a node, and the lines of its properties are in a relation to the node. So it
is for all nodes below, down to instances. While `Fits` looks at the class of a node only, the
relation here may look at all of it. -/
inductive Throughout (P : Node → List String → Prop) : Node → Block → Prop
  | ofInstance
      {a : Attributes} {c : Option String} {children : List Node}
      {found : Option MainComponent} :
      Throughout P (.mk a (.instanceOf c) children) (blockOfComponent a.name found)
  | element
      {a : Attributes} {k : Kind} {children : List Node}
      {lines : List String} {bs : List Block} :
      (∀ c, k ≠ .instanceOf c) →
      P (.mk a k children) lines →
      ThroughoutAll P children bs →
      Throughout P (.mk a k children)
        (.mk (some (keyword k)) (some (Text.kebab a.name)) (remark k) lines bs)

/-- The blocks of a row stand for the nodes of a row, one for each in order. -/
inductive ThroughoutAll (P : Node → List String → Prop) : List Node → List Block → Prop
  | nil : ThroughoutAll P [] []
  | cons {n : Node} {rest : List Node} {b : Block} {bs : List Block} :
      Throughout P n b → ThroughoutAll P rest bs → ThroughoutAll P (n :: rest) (b :: bs)

end

mutual

/-- What the properties of every node contribute, the block of a scene has throughout. -/
theorem block_throughout
    (reply : (q : Query) → q.Reply) (followed : Bool) :
    ∀ n : Node, ∃ b, (block followed n).answer reply = .ok b ∧
      Throughout (fun m lines =>
        lines = (properties m.kind.nodeClass).flatMap (Property.contribution reply followed m)) n b
  | .mk a k children => by
      rcases instance_or_element k with ⟨c, rfl⟩ | hk
      · exact ⟨_, answer_instance reply followed a c children, .ofInstance⟩
      · obtain ⟨bs, hbs, hall⟩ := blocks_throughout reply followed children
        exact ⟨_, answer_element followed a hk hbs, .element hk rfl hall⟩

theorem blocks_throughout
    (reply : (q : Query) → q.Reply) (followed : Bool) :
    ∀ ns : List Node, ∃ bs, (blocks followed ns).answer reply = .ok bs ∧
      ThroughoutAll (fun m lines =>
        lines = (properties m.kind.nodeClass).flatMap
          (Property.contribution reply followed m)) ns bs
  | [] => ⟨[], rfl, .nil⟩
  | n :: rest => by
      obtain ⟨b, hb, hhead⟩ := block_throughout reply followed n
      obtain ⟨bs, hbs, hrest⟩ := blocks_throughout reply followed rest
      exact ⟨b :: bs, answer_cons hb hbs, .cons hhead hrest⟩

end

end Snippet

end SceneMarkup
