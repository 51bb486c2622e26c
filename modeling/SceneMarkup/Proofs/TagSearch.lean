import SceneMarkup.Svg.Commands

/-!
# What a search for attributes finds

Each step of a search hands the rest of the text to a continuation, and goes on with its other
choices when that fails. So what a step found says two things: how the text falls apart there, and
that the continuation succeeded. Where a step prefers one choice to another, it also says that the
continuation failed for the choices before.

* `Text.search_eq_some`: a search found its opening in the text.
* `untilQuote_eq_some`: a value ends at the first quote behind which the search goes on. It may hold
  quotes of its own kind, and behind each of these the search did not go on.
* `Attribute`: an attribute in the rest of a tag, with all that the search allows.
* `attributeInTag_eq_some`, `attributeInTag_eq_none`: the search for an attribute looks at the
  attributes of the tag and at nothing else.
-/

namespace SceneMarkup

variable {β : Type}

namespace Text

theorem after?_append :
    ∀ lead cs : List Char, after? lead (lead ++ cs) = some cs
  | [], cs => by rw [List.nil_append, after?]
  | c :: lead, cs => by
      rw [List.cons_append, after?, if_pos rfl]
      exact after?_append lead cs

theorem eq_append_of_after?
    {lead cs behind : List Char} (h : after? lead cs = some behind) : cs = lead ++ behind := by
  induction lead, cs using after?.induct with
  | case1 cs => simpa [after?] using h
  | case2 c lead => simp [after?] at h
  | case3 lead c cs ih =>
    rw [after?, if_pos rfl] at h
    rw [ih h, List.cons_append]
  | case4 c lead d cs hne =>
    rw [after?, if_neg hne] at h
    simp at h

/-- A search that succeeds does so behind an opening in the text. -/
theorem search_eq_some
    {opening cs : List Char} {k : List Char → Option β} {b : β} (h : search opening k cs = some b) :
    ∃ before behind, cs = before ++ (opening ++ behind) ∧ k behind = some b := by
  -- here the opening is at the first place of the text
  have here : ∀ {ds}, (after? opening ds).bind k = some b →
      ∃ behind, ds = opening ++ behind ∧ k behind = some b := fun hds => by
    obtain ⟨behind, hafter, hk⟩ := Option.bind_eq_some_iff.1 hds
    exact ⟨behind, eq_append_of_after? hafter, hk⟩
  induction cs with
  | nil =>
    obtain ⟨behind, htext, hk⟩ := here h
    exact ⟨[], behind, htext, hk⟩
  | cons c cs ih =>
    rw [search] at h
    cases hhere : (after? opening (c :: cs)).bind k with
    | some b' =>
      rw [hhere] at h
      obtain ⟨behind, htext, hk⟩ := here (hhere.trans h)
      exact ⟨[], behind, htext, hk⟩
    | none =>
      rw [hhere] at h
      obtain ⟨before, behind, htext, hk⟩ := ih h
      exact ⟨c :: before, behind, by rw [htext, List.cons_append], hk⟩

end Text

namespace Svg

section LastInTag

variable {k : Char → List Char → Option β} {previous : Char} {cs : List Char} {b : β}

/-- What is found in a tag is found before its end. -/
theorem lastInTag_eq_some (h : lastInTag k previous cs = some b) :
    ∃ gap behind, cs = gap ++ behind ∧ '>' ∉ gap ∧ k (gap.getLastD previous) behind = some b := by
  induction cs generalizing previous with
  | nil => exact ⟨[], [], rfl, List.not_mem_nil, h⟩
  | cons c cs ih =>
    rw [lastInTag] at h
    split at h
    · exact ⟨[], c :: cs, rfl, List.not_mem_nil, h⟩
    · next hopen =>
      split at h
      · next hlater =>
        obtain ⟨gap, behind, htext, hgap, hk⟩ := ih (hlater.trans h)
        refine ⟨c :: gap, behind, by rw [htext, List.cons_append], ?_, ?_⟩
        · exact List.not_mem_cons_of_ne_of_not_mem (Ne.symm hopen) hgap
        · rwa [List.getLastD_cons]
      · exact ⟨[], c :: cs, rfl, List.not_mem_nil, h⟩

/-- Where nothing is found in a tag, the continuation fails at every place before its end. -/
theorem lastInTag_eq_none (h : lastInTag k previous cs = none)
    {gap behind : List Char} (htext : cs = gap ++ behind) (hgap : '>' ∉ gap) :
    k (gap.getLastD previous) behind = none := by
  induction gap generalizing cs previous with
  | nil =>
    obtain rfl : cs = behind := htext
    cases cs with
    | nil => exact h
    | cons c cs =>
      rw [lastInTag] at h
      split at h
      · exact h
      · split at h
        · exact absurd h (Option.some_ne_none _)
        · exact h
  | cons c gap ih =>
    obtain ⟨hc, hgap⟩ := List.ne_and_not_mem_of_not_mem_cons hgap
    subst htext
    rw [List.cons_append, lastInTag, if_neg (Ne.symm hc)] at h
    rw [List.getLastD_cons]
    refine ih ?_ rfl hgap
    split at h
    · exact absurd h (Option.some_ne_none _)
    · assumption

end LastInTag

section UntilQuote

variable {quote : Char} {k : List Char → List Char → Option β} {read cs : List Char} {b : β}

/-- A value ends at a quote behind which the search goes on, and at none of the quotes in it does
it. -/
theorem untilQuote_eq_some (h : untilQuote quote k read cs = some b) :
    ∃ value behind, cs = value ++ quote :: behind ∧ k (read.reverse ++ value) behind = some b ∧
      ∀ u w, value = u ++ quote :: w → k (read.reverse ++ u) (w ++ quote :: behind) = none := by
  induction cs generalizing read with
  | nil => simp [untilQuote] at h
  | cons c cs ih =>
    rw [untilQuote] at h
    -- `c` is in the value: what is known of the rest of the value, and what `c` itself adds
    have goes_on (hread : untilQuote quote k (c :: read) cs = some b)
        (hc : c = quote → k read.reverse cs = none) :
        ∃ value behind, c :: cs = value ++ quote :: behind ∧
          k (read.reverse ++ value) behind = some b ∧
          ∀ u w, value = u ++ quote :: w → k (read.reverse ++ u) (w ++ quote :: behind) = none := by
      obtain ⟨value, behind, htext, hk, hbefore⟩ := ih hread
      rw [List.reverse_cons, List.append_assoc] at hk
      refine ⟨c :: value, behind, by rw [htext, List.cons_append], hk, ?_⟩
      rintro (_ | ⟨d, u⟩) w hvalue
      · obtain ⟨hquote, rfl⟩ : c = quote ∧ value = w := by simpa using hvalue
        rw [List.append_nil, ← htext]
        exact hc hquote
      · obtain ⟨rfl, hrest⟩ : c = d ∧ value = u ++ quote :: w := by simpa using hvalue
        simpa using hbefore u w hrest
    split at h
    · next hquote =>
      split at h
      · next hhere =>
        refine ⟨[], cs, by rw [hquote, List.nil_append], ?_, fun u w hvalue => by simp at hvalue⟩
        rw [List.append_nil]
        exact hhere.trans h
      · next hhere => exact goes_on h fun _ => hhere
    · next hquote => exact goes_on h fun he => absurd he hquote

/-- Where no end of a value is found, the search goes on behind none of the quotes. -/
theorem untilQuote_eq_none (h : untilQuote quote k read cs = none)
    {value behind : List Char} (htext : cs = value ++ quote :: behind) :
    k (read.reverse ++ value) behind = none := by
  induction value generalizing cs read with
  | nil =>
    subst htext
    rw [List.nil_append, untilQuote, if_pos rfl] at h
    rw [List.append_nil]
    split at h
    · exact absurd h (Option.some_ne_none _)
    · assumption
  | cons c value ih =>
    subst htext
    have hrest : untilQuote quote k (c :: read) (value ++ quote :: behind) = none := by
      rw [List.cons_append, untilQuote] at h
      split at h
      · split at h
        · exact absurd h (Option.some_ne_none _)
        · exact h
      · exact h
    simpa using ih hrest rfl

end UntilQuote

/-- An attribute in the rest of a tag, as a search reads it. The name is the end of the attribute's
name, and the value goes to some quote of the kind that it began with, which need not be the
first. -/
structure Attribute (name cs : List Char) where
  gap : List Char
  quote : Char
  value : List Char
  behind : List Char
  text_eq : cs = gap ++ (name ++ ['='] ++ quote :: (value ++ quote :: behind))
  gap_open : '>' ∉ gap
  is_quote : quote = '"' ∨ quote = '\''

namespace Attribute

variable {name cs : List Char}

/-- The value ends at the first quote of its kind. -/
def Closed (a : Attribute name cs) : Prop := a.quote ∉ a.value

instance (a : Attribute name cs) : Decidable a.Closed :=
  inferInstanceAs (Decidable (a.quote ∉ a.value))

/-- Behind the first quote of its kind the value goes on, beyond the end of the tag. -/
def Overruns (a : Attribute name cs) : Prop :=
  ∃ u w, a.value = u ++ a.quote :: w ∧ a.quote ∉ u ∧ '>' ∈ w

theorem Overruns.not_closed {a : Attribute name cs} (h : a.Overruns) : ¬ a.Closed := by
  obtain ⟨u, w, hvalue, -, -⟩ := h
  refine Decidable.not_not.2 ?_
  rw [hvalue]
  exact List.mem_append_right u List.mem_cons_self

/-- The same attribute with a value that ends at an earlier quote. -/
def endingAt (a : Attribute name cs) (u w : List Char) (h : a.value = u ++ a.quote :: w) :
    Attribute name cs where
  gap := a.gap
  quote := a.quote
  value := u
  behind := w ++ a.quote :: a.behind
  text_eq := a.text_eq.trans (by simp only [h, List.append_assoc, List.cons_append])
  gap_open := a.gap_open
  is_quote := a.is_quote

/-- Of an attribute that is not closed, the part up to the first quote is one that is. -/
theorem exists_closed_of_not_closed {a : Attribute name cs} (h : ¬ a.Closed) :
    ∃ u w, ∃ hvalue : a.value = u ++ a.quote :: w, (a.endingAt u w hvalue).Closed := by
  obtain ⟨u, w, hvalue, hu⟩ := List.eq_append_cons_of_mem (Decidable.not_not.1 h)
  exact ⟨u, w, hvalue, hu⟩

/-- If behind each quote of its kind in a value there is the end of the tag, the value is closed or
it goes on beyond the tag. -/
theorem not_closed_iff_overruns
    {a : Attribute name cs} (h : ∀ u w, a.value = u ++ a.quote :: w → '>' ∈ w) :
    ¬ a.Closed ↔ a.Overruns := by
  refine ⟨fun hopen => ?_, Overruns.not_closed⟩
  obtain ⟨u, w, hvalue, hclosed⟩ := exists_closed_of_not_closed hopen
  exact ⟨u, w, hvalue, hclosed, h u w hvalue⟩

/-- Every attribute can be read up to the first quote of its kind. -/
theorem exists_closed (a : Attribute name cs) : ∃ b : Attribute name cs, b.Closed := by
  by_cases h : a.Closed
  · exact ⟨a, h⟩
  · obtain ⟨u, w, hvalue, hclosed⟩ := exists_closed_of_not_closed h
    exact ⟨a.endingAt u w hvalue, hclosed⟩

/-- The quote of an attribute does not end its tag. -/
theorem quote_ne (a : Attribute name cs) : '>' ≠ a.quote := by
  rcases a.is_quote with h | h <;> rw [h] <;> decide

/-- A text falls apart in one way only at its first quote. -/
theorem eq_of_first_quote {q : Char} {u v r s : List Char} (h : u ++ q :: r = v ++ q :: s)
    (hu : q ∉ u) (hv : q ∉ v) : u = v ∧ r = s := by
  obtain ⟨between, rfl, hrest⟩ | ⟨between, rfl, hrest⟩ := List.append_eq_append_iff.1 h
  -- What is between the two places starts with a quote, and is a part of `v` or of `u`.
  all_goals
    cases between with
    | nil => simp_all
    | cons c between => simp_all

/-- At each place of a tag there is at most one attribute that is closed. -/
theorem Closed.eq_of_gap
    {a b : Attribute name cs} (ha : a.Closed) (hb : b.Closed) (hgap : a.gap = b.gap) : a = b := by
  obtain ⟨gap, quote, value, behind, htext, _, _⟩ := a
  obtain ⟨gap', quote', value', behind', htext', _, _⟩ := b
  obtain rfl : gap = gap' := hgap
  have h := htext.symm.trans htext'
  rw [List.append_cancel_left_eq, List.append_cancel_left_eq, List.cons.injEq] at h
  obtain ⟨rfl, h⟩ := h
  obtain ⟨rfl, rfl⟩ := eq_of_first_quote h ha hb
  rfl

theorem quote_mem (a : Attribute name cs) : a.quote ∈ cs :=
  (congrArg (a.quote ∈ ·) a.text_eq).mpr (by simp)

theorem mem_of_mem_behind (a : Attribute name cs) {c : Char} (h : c ∈ a.behind) : c ∈ cs :=
  (congrArg (c ∈ ·) a.text_eq).mpr (by simp [h])

/-- An attribute in the text behind a quote is also one in the text from before this quote on, as
long as the tag does not end in between. -/
def seenBefore (a : Attribute name cs) {w : List Char} {q : Char} (hw : '>' ∉ w) (hq : '>' ≠ q) :
    Attribute name (w ++ q :: cs) where
  gap := w ++ q :: a.gap
  quote := a.quote
  value := a.value
  behind := a.behind
  text_eq := by rw [List.append_assoc, List.cons_append, ← a.text_eq]
  gap_open := by simp [hw, hq, a.gap_open]
  is_quote := a.is_quote

end Attribute

section AttributeInTag

variable {name cs : List Char} {k : List Char → List Char → Option β} {b : β}

/-- What the search for an attribute finds is an attribute of the tag. Its value ends at the first
quote behind which the search goes on. -/
theorem attributeInTag_eq_some (h : attributeInTag name k cs = some b) :
    ∃ a : Attribute name cs, k a.value a.behind = some b ∧
      ∀ u w (hvalue : a.value = u ++ a.quote :: w), k u (a.endingAt u w hvalue).behind = none := by
  obtain ⟨gap, rest, htext, hgap, hhere⟩ := lastInTag_eq_some h
  obtain ⟨opened, hafter, hvalue⟩ := Option.bind_eq_some_iff.1 hhere
  obtain rfl := Text.eq_append_of_after? hafter
  cases opened with
  | nil => simp [quotedValue] at hvalue
  | cons q opened =>
    rw [quotedValue] at hvalue
    split at hvalue
    · next hquote =>
      obtain ⟨value, behind, rfl, hk, hbefore⟩ := untilQuote_eq_some hvalue
      exact ⟨⟨gap, q, value, behind, htext, hgap, hquote⟩, hk, hbefore⟩
    · simp at hvalue

/-- Where the search for an attribute fails, the search goes on behind none of the tag's
attributes. -/
theorem attributeInTag_eq_none
    (h : attributeInTag name k cs = none) (a : Attribute name cs) : k a.value a.behind = none := by
  have hhere := lastInTag_eq_none h a.text_eq a.gap_open
  rw [attributeHere, Text.after?_append, Option.bind_some, quotedValue, if_pos a.is_quote] at hhere
  exact untilQuote_eq_none hhere rfl

end AttributeInTag

end Svg

end SceneMarkup
