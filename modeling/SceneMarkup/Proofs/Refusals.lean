import SceneMarkup.Proofs.Answers

/-!
# Refusals of the client

Whoever calls the client is prepared for a refusal and for no other failure. A call is `Accounted`
for if it ends in a result or in a refusal, and this file says for which replies of the service it
is.

* `outcome_accounted_iff`: one reply is accounted for exactly if the service is out or the reply
  carries a value. A connection that breaks later than at its start, a breach of the protocol and a
  body that cannot be read are neither.
* `call_accounted`: a call is accounted for if the reply to its one request to the service is out,
  or carries a value of the shape that the call looks for. Downloads may fail in any way.
* `call_escapes`: after any other reply, no call is accounted for.
* `broken_read_escapes`: so a connection that breaks while documents are read ends a call in a
  failure of the transport.
-/

namespace SceneMarkup.Client

open Exchange

/-- A result or a refusal. -/
def Accounted {α : Type} (r : Except Failure α) : Prop :=
  (∃ a, r = .ok a) ∨ ∃ refusal, r = .error (.refused refusal)

/-- **The replies that lead to a result or a refusal.** -/
theorem outcome_accounted_iff (path : String) (reply : WireReply) :
    Accounted (outcome path reply) ↔ Out reply ∨ ∃ v, Carries reply v := by
  constructor
  · intro h
    cases reply with
    | error f =>
        cases f with
        | timedOut m => exact .inl .timedOut
        | notConnected m => exact .inl .notConnected
        | readFailed m | protocolBroken m =>
            rcases h with ⟨a, h⟩ | ⟨refusal, h⟩ <;> cases h
    | ok r =>
        obtain ⟨status, body⟩ := r
        by_cases hstatus : status = 200
        · subst hstatus
          cases hbody : Json.readBody body with
          | ok v => exact .inr ⟨v, .mk hbody⟩
          | error f =>
              have houtcome : outcome path (.ok ⟨200, body⟩) = .error (.unreadable f) := by
                simp [outcome, content, hbody]
              rw [houtcome] at h
              rcases h with ⟨a, h⟩ | ⟨refusal, h⟩ <;> cases h
        · exact .inl (.refused hstatus)
  · rintro (hout | ⟨v, hv⟩)
    · exact .inr (hout.outcome_refused path)
    · exact .inl ⟨v, hv.outcome_eq path⟩

/-- A call of the client. -/
inductive Call
  | documents (file : String) (nodes : List String)
  | library (file : String)
  | renders (file : String) (nodes : List String) (r : Rendering)
  | drawings (file : String) (nodes : List String)
  | drawing (file node : String)
  | parentType (file node : String)

namespace Call

/-- What a call gives back. -/
def Result : Call → Type
  | documents .. => Json
  | library _ => Json
  | renders .. => Json.Members
  | drawings .. => List (String × String)
  | drawing .. => String
  | parentType .. => Json

/-- The exchange that a call leads to. -/
def exchange {σ : Type} (server : Server σ) (client : Client) :
    (c : Call) → Exchange σ ServiceNotice c.Result
  | documents file nodes => Client.documents server client file nodes
  | library file => Client.library server client file
  | renders file nodes r => Client.renders server client file nodes r
  | drawings file nodes => Client.drawings server client file nodes
  | drawing file node => Client.drawing server client file node
  | parentType file node => Client.parentType server client file (.str node)

/-- What a call asks of the service. Without nodes there is nothing to draw. -/
def inquiry? : Call → Option Inquiry
  | documents file nodes => some (documentsInquiry file nodes)
  | library file => some (libraryInquiry file)
  | renders file nodes r => some (rendersInquiry file nodes r)
  | drawings _ [] => none
  | drawings file (node :: rest) => some (rendersInquiry file (node :: rest) .svg)
  | drawing file node => some (rendersInquiry file [node] .svg)
  | parentType file _ => some (outlineInquiry file)

/-- The value under a key has elements to count. So has the one that stands for a missing key. -/
def Countable (key : String) (ms : Json.Members) : Prop :=
  ∃ es, ((Json.find? key ms).getD (.obj [])).elements = .ok es

/-- A value says why nothing was rendered, or it is a table in which the nodes have usable
entries. -/
def SuitsDrawing (nodes : List String) (v : Json) : Prop :=
  FailsToRender v ∨ ∃ images, IsRendered v images ∧ ∀ node ∈ nodes, Usable (rendering images node)

/-- A value has the shape that a call looks for. -/
def Suits : Call → Json → Prop
  | documents .., v => ∃ top, v = .obj top ∧ Countable "nodes" top
  | library _, v =>
    ∃ top about, v = .obj top ∧ (Json.find? "meta" top).getD (.obj []) = .obj about ∧
      Countable "variables" about ∧ Countable "variableCollections" about
  | renders .., v => FailsToRender v ∨ ∃ images, IsRendered v images
  | drawings _ nodes, v => SuitsDrawing nodes v
  | drawing _ node, v => SuitsDrawing [node] v
  | parentType .., v => ∃ pages, IsStructure v pages

theorem sizeUnder_of_countable {key : String} {ms : Json.Members} (h : Countable key ms) :
    ∃ n, sizeUnder key (.obj ms) = .ok n := by
  obtain ⟨es, hes⟩ := h
  refine ⟨es.length, ?_⟩
  show Json.size ((Json.find? key ms).getD (.obj [])) = _
  rw [Json.size, hes]

variable {σ : Type} {server : Server σ} {client : Client} {s s' : σ} {reply : WireReply}

theorem drawings_accounted
    {file : String} {nodes : List String} (hnodes : nodes ≠ [])
    (h : Answers server client (rendersInquiry file nodes .svg) s reply s')
    (hreply : Out reply ∨ ∃ v, Carries reply v ∧ SuitsDrawing nodes v) :
    ∃ r s'', Goes client.token (Client.drawings server client file nodes) s r s'' ∧
      Accounted r := by
  have hrefused : (Out reply ∨ ∃ v, Carries reply v ∧ FailsToRender v) →
      ∃ r s'', Goes client.token (Client.drawings server client file nodes) s r s'' ∧
        Accounted r := by
    intro hfails
    obtain ⟨refusal, hgoes⟩ := drawings_goes_refused hnodes h hfails
    exact ⟨_, _, hgoes, .inr ⟨refusal, rfl⟩⟩
  rcases hreply with hout | ⟨v, hv, hfails | ⟨images, himages, husable⟩⟩
  · exact hrefused (.inl hout)
  · exact hrefused (.inr ⟨v, hv, hfails⟩)
  · exact ⟨_, _, drawings_goes hnodes h hv himages husable, .inl ⟨_, rfl⟩⟩

/-- The replies to an inquiry that a call accounts for. -/
theorem exchange_goes
    {c : Call} {q : Inquiry} (hq : c.inquiry? = some q)
    (h : Answers server client q s reply s')
    (hreply : Out reply ∨ ∃ v, Carries reply v ∧ c.Suits v) :
    ∃ r s'', Goes client.token (c.exchange server client) s r s'' ∧ Accounted r := by
  cases c with
  | documents file nodes =>
      cases hq
      rcases hreply with hout | ⟨_, hv, top, rfl, hnodes⟩
      · obtain ⟨refusal, hgoes⟩ := documents_goes_out h hout
        exact ⟨_, _, hgoes, .inr ⟨refusal, rfl⟩⟩
      · obtain ⟨n, hn⟩ := sizeUnder_of_countable hnodes
        exact ⟨_, _, documents_goes h hv hn, .inl ⟨_, rfl⟩⟩
  | library file =>
      cases hq
      rcases hreply with hout | ⟨_, hv, top, about, rfl, habout, hknown, hcollections⟩
      · obtain ⟨refusal, hgoes⟩ := library_goes_out h hout
        exact ⟨_, _, hgoes, .inr ⟨refusal, rfl⟩⟩
      · obtain ⟨m, hm⟩ := sizeUnder_of_countable hknown
        obtain ⟨n, hn⟩ := sizeUnder_of_countable hcollections
        have hmeta : (Json.obj top).memberD "meta" (.obj []) = .ok (.obj about) := by
          rw [Json.memberD_obj, habout]
        exact ⟨_, _, library_goes h hv hmeta hm hn, .inl ⟨_, rfl⟩⟩
  | renders file nodes r =>
      cases hq
      rcases hreply with hout | ⟨v, hv, hfails | ⟨images, himages⟩⟩
      · obtain ⟨refusal, hgoes⟩ := renders_goes_refused h (.inl hout)
        exact ⟨_, _, hgoes, .inr ⟨refusal, rfl⟩⟩
      · obtain ⟨refusal, hgoes⟩ := renders_goes_refused h (.inr ⟨v, hv, hfails⟩)
        exact ⟨_, _, hgoes, .inr ⟨refusal, rfl⟩⟩
      · exact ⟨_, _, renders_goes h hv himages, .inl ⟨_, rfl⟩⟩
  | drawings file nodes =>
      cases nodes with
      | nil => cases hq
      | cons node rest =>
          cases hq
          exact drawings_accounted (List.cons_ne_nil node rest) h hreply
  | drawing file node =>
      cases hq
      obtain ⟨r, s'', hgoes, hr⟩ := drawings_accounted (List.cons_ne_nil node []) h hreply
      rcases hr with ⟨found, rfl⟩ | ⟨refusal, rfl⟩
      · cases hnode : Tables.lookup? node found with
        | some svg =>
            refine ⟨.ok svg, s'', hgoes.bind ?_, .inl ⟨svg, rfl⟩⟩
            simp only [hnode]
            exact goes_done svg
        | none =>
            refine ⟨.error (.refused (.noDrawing node)), s'', hgoes.bind ?_, .inr ⟨_, rfl⟩⟩
            simp only [hnode]
            exact goes_fail _
      · exact ⟨_, _, hgoes.bind_error _, .inr ⟨refusal, rfl⟩⟩
  | parentType file node =>
      cases hq
      rcases hreply with hout | ⟨v, hv, pages, hpages⟩
      · exact ⟨_, _, parentType_goes_out h hout _, .inl ⟨_, rfl⟩⟩
      · exact ⟨_, _, parentType_goes h hv hpages node, .inl ⟨_, rfl⟩⟩

end Call

/-- **A call ends in a result or a refusal**, if its request can be sent and the reply to it shows
that the service is out or carries a value of the right shape. -/
theorem call_accounted
    {σ : Type} (server : Server σ) (client : Client) (c : Call) (l : Line σ ServiceNotice)
    (h : ∀ q, c.inquiry? = some q →
      Ready client.token l ∧
        ∃ reply s, Answers server client q l.server reply s ∧
          (Out reply ∨ ∃ v, Carries reply v ∧ c.Suits v)) :
    Accounted (c.exchange server client l).1 := by
  cases hq : c.inquiry? with
  | none =>
      cases c with
      | drawings file nodes =>
          cases nodes with
          | nil => exact .inl ⟨[], rfl⟩
          | cons => cases hq
      | documents | library | renders | drawing | parentType => cases hq
  | some q =>
      obtain ⟨hready, reply, s, hanswers, hreply⟩ := h q hq
      obtain ⟨r, s', hgoes, hr⟩ := Call.exchange_goes hq hanswers hreply
      obtain ⟨l', hl', -, -⟩ := hgoes l hready rfl
      rwa [hl']

/-- A service that renders, but loses the connection at every download. -/
def fading : Server Unit := fun r s =>
  (if r.token.isSome then
    .ok ⟨200, "\x7b\"images\": \x7b\"1:2\": \"https://img.example/1.svg\"\x7d\x7d"⟩
  else .error (.readFailed "reset"), s)

/-- The drawing of a node is refused when its download breaks. -/
theorem call_accounted_fading :
    (∀ q, (Call.drawing "abc" "1:2").inquiry? = some q →
      Ready "token" (Line.fresh () : Line Unit ServiceNotice) ∧
        ∃ reply s, Answers fading ⟨"token", .one⟩ q () reply s ∧
          (Out reply ∨ ∃ v, Carries reply v ∧ (Call.drawing "abc" "1:2").Suits v)) ∧
    Accounted ((Call.drawing "abc" "1:2").exchange fading ⟨"token", .one⟩ (Line.fresh ())).1 := by
  have hbody :
      Json.readBody "\x7b\"images\": \x7b\"1:2\": \"https://img.example/1.svg\"\x7d\x7d" =
        .ok (.obj [("images", .obj [("1:2", .str "https://img.example/1.svg")])]) := by
    cbv
  have hsuits :
      (Call.drawing "abc" "1:2").Suits
        (.obj [("images", .obj [("1:2", .str "https://img.example/1.svg")])]) := by
    refine .inr ⟨_, .mk rfl rfl, ?_⟩
    intro node hnode
    obtain rfl := List.mem_singleton.1 hnode
    exact .address rfl rfl
  have h : ∀ q, (Call.drawing "abc" "1:2").inquiry? = some q →
      Ready "token" (Line.fresh () : Line Unit ServiceNotice) ∧
        ∃ reply s, Answers fading ⟨"token", .one⟩ q () reply s ∧
          (Out reply ∨ ∃ v, Carries reply v ∧ (Call.drawing "abc" "1:2").Suits v) := by
    rintro _ ⟨⟩
    exact ⟨.inr (by decide), _, (), ⟨_, rfl, rfl⟩, .inr ⟨_, .mk hbody, hsuits⟩⟩
  exact ⟨h, call_accounted fading ⟨"token", .one⟩ (.drawing "abc" "1:2") (Line.fresh ()) h⟩

theorem exchange_escapes
    {σ : Type} {server : Server σ} {client : Client} {s s' : σ} {reply : WireReply}
    {c : Call} {q : Inquiry} (hq : c.inquiry? = some q)
    (h : Answers server client q s reply s') {f : Failure}
    (hstray : outcome q.path reply = .error f) (hf : ∀ refusal, f ≠ .refused refusal) :
    Goes client.token (c.exchange server client) s (.error f) s' := by
  have hget : Goes client.token (get server client q.path q.parameters) s (.error f) s' :=
    hstray ▸ get_goes h
  -- What a call does with the value never happens.
  have hdrawings :
      ∀ {file : String} {nodes : List String}, nodes ≠ [] →
        q = rendersInquiry file nodes .svg →
          Goes client.token (Client.drawings server client file nodes) s (.error f) s' := by
    rintro file nodes hnodes rfl
    exact drawings_goes_error hnodes (hget.bind_error _)
  cases c with
  | documents | library | renders =>
      cases hq
      exact hget.bind_error _
  | drawings file nodes =>
      cases nodes with
      | nil => cases hq
      | cons node rest => exact hdrawings (List.cons_ne_nil node rest) (Option.some.inj hq).symm
  | drawing file node =>
      exact (hdrawings (List.cons_ne_nil node []) (Option.some.inj hq).symm).bind_error _
  | parentType file node =>
      cases hq
      have houtline : Goes client.token (outline server client file) s (.error f) s' :=
        (hget.bind_error _).orElse_failure hf _
      exact houtline.bind_error _

/-- **After any other reply a call ends in a failure that is no refusal.** -/
theorem call_escapes
    {σ : Type} {server : Server σ} {client : Client} {c : Call} {l : Line σ ServiceNotice}
    {q : Inquiry} {reply : WireReply} {s : σ}
    (hq : c.inquiry? = some q) (hready : Ready client.token l)
    (h : Answers server client q l.server reply s)
    (hstray : ¬ (Out reply ∨ ∃ v, Carries reply v)) :
    ¬ Accounted (c.exchange server client l).1 := by
  rw [← outcome_accounted_iff q.path] at hstray
  cases houtcome : outcome q.path reply with
  | ok v => exact absurd (.inl ⟨v, houtcome⟩) hstray
  | error f =>
      have hf : ∀ refusal, f ≠ .refused refusal := by
        rintro refusal rfl
        exact hstray (.inr ⟨refusal, houtcome⟩)
      obtain ⟨l', hl', -, -⟩ := exchange_escapes hq h houtcome hf l hready rfl
      rw [hl']
      rintro (⟨a, ha⟩ | ⟨refusal, hrefusal⟩)
      · cases ha
      · exact hf refusal (Except.error.inj hrefusal)

/-- The documents of a node from a connection that breaks. -/
theorem broken_read_escapes :
    ¬ Accounted
      ((Call.documents "abc" ["1:2"]).exchange (fun _ s => (.error (.readFailed "reset"), s))
        ⟨"token", .one⟩ (Line.fresh ())).1 := by
  have hend :
      ((Call.documents "abc" ["1:2"]).exchange (fun _ s => (.error (.readFailed "reset"), s))
        ⟨"token", .one⟩ (Line.fresh ())).1 = .error (.transport (.readFailed "reset")) :=
    rfl
  rw [hend]
  rintro (⟨v, hv⟩ | ⟨refusal, hrefusal⟩)
  · cases hv
  · cases hrefusal

end SceneMarkup.Client
