import Mathlib.Data.List.Basic
import SceneMarkup.Proofs.TagSearch

/-!
# The tag that a line is drawn from

The commands of a line are put together from three attributes of a tag. The search looks for each of
them before the next `>`, but a value may go on behind its closing quote, and then it takes the
search into other tags. That happens where the tag does not have the attribute that is looked for
next.

* `LineTag`: a tag in the text with the three attributes as a search may read them.
* `LineTag.Shortest`: no value could end earlier. So a value that goes on behind its closing quote
  goes on beyond the end of the tag (`LineTag.Shortest.y1_overruns`,
  `LineTag.Shortest.x2_overruns`).
* `Orderly`: the tags have the attributes in the order in which the search looks for them. Then the
  three attributes are those of one tag (`LineTag.Shortest.inOneTag`).
* `WellNamed`: no name goes on where the search takes it to end. Then the tag is that of a line, and
  the three attributes have the names that are looked for (`LineTag.exact`).
* `line_traced`: what the commands of a line come from, in every text.
-/

namespace SceneMarkup.Svg

variable {cs : List Char}

/-- A tag whose name begins with `line`, with its attributes as a search reads them. -/
structure LineTag (cs : List Char) where
  before : List Char
  rest : List Char
  text_eq : cs = before ++ ("<line".toList ++ rest)
  y1 : Attribute ['y', '1'] rest
  x2 : Attribute ['x', '2'] y1.behind
  y2 : Attribute ['y', '2'] x2.behind

namespace LineTag

/-- The commands with the values of the three attributes. -/
def commands (t : LineTag cs) : String :=
  "M0 " ++ String.ofList t.y1.value ++ "L" ++ String.ofList t.x2.value ++ " " ++
    String.ofList t.y2.value

/-- None of the values is empty. -/
def Filled (t : LineTag cs) : Prop := t.y1.value ≠ [] ∧ t.x2.value ≠ [] ∧ t.y2.value ≠ []

/-- The three attributes are those of one tag: each value ends at its closing quote, and up to the
next attribute there is no `>`. -/
def InOneTag (t : LineTag cs) : Prop := t.y1.Closed ∧ t.x2.Closed ∧ t.y2.Closed

/-- No value could end at an earlier quote, with the attributes that are still looked for behind
it. -/
structure Shortest (t : LineTag cs) : Prop where
  y1 : ∀ u w (h : t.y1.value = u ++ t.y1.quote :: w),
    ∀ x2 : Attribute ['x', '2'] (t.y1.endingAt u w h).behind,
      IsEmpty (Attribute ['y', '2'] x2.behind)
  x2 : ∀ u w (h : t.x2.value = u ++ t.x2.quote :: w),
    IsEmpty (Attribute ['y', '2'] (t.x2.endingAt u w h).behind)
  y2 : ∀ u w, t.y2.value ≠ u ++ t.y2.quote :: w

end LineTag

/-- The ends of a line are read from a tag, and no value could end earlier. -/
theorem lineEnds_eq_some {a b c : List Char} (h : lineEnds? cs = some (a, b, c)) :
    ∃ t : LineTag cs, t.y1.value = a ∧ t.x2.value = b ∧ t.y2.value = c ∧ t.Shortest := by
  obtain ⟨before, rest, htext, hrest⟩ := Text.search_eq_some h
  obtain ⟨y1, hy1, first1⟩ := attributeInTag_eq_some hrest
  obtain ⟨x2, hx2, first2⟩ := attributeInTag_eq_some hy1
  obtain ⟨y2, hy2, first3⟩ := attributeInTag_eq_some hx2
  obtain ⟨rfl, rfl, rfl⟩ : y1.value = a ∧ x2.value = b ∧ y2.value = c := by simpa using hy2
  -- Behind an earlier quote the search failed, so there is none of what it looked for.
  refine ⟨⟨before, rest, htext, y1, x2, y2⟩, rfl, rfl, rfl, ?_, ?_, ?_⟩
  · refine fun u w hvalue x2' => ⟨fun y2' => ?_⟩
    exact Option.some_ne_none _
      (attributeInTag_eq_none (attributeInTag_eq_none (first1 u w hvalue) x2') y2')
  · refine fun u w hvalue => ⟨fun y2' => ?_⟩
    exact Option.some_ne_none _ (attributeInTag_eq_none (first2 u w hvalue) y2')
  · exact fun u w hvalue => Option.some_ne_none _ (first3 u w hvalue)

namespace LineTag.Shortest

variable {t : LineTag cs}

theorem y2_closed (h : t.Shortest) : t.y2.Closed := by
  by_contra hopen
  obtain ⟨u, w, hvalue, -⟩ := Attribute.exists_closed_of_not_closed hopen
  exact h.y2 u w hvalue

/-- A value of `y1` that goes on behind its closing quote goes on beyond the end of the tag: within
the tag, the other two attributes would be found from the closing quote on as well. -/
theorem y1_overruns (h : t.Shortest) : ¬ t.y1.Closed ↔ t.y1.Overruns := by
  refine Attribute.not_closed_iff_overruns fun u w hvalue => ?_
  by_contra hw
  exact (h.y1 u w hvalue (t.x2.seenBefore hw t.y1.quote_ne)).false t.y2

/-- A value of `x2` that goes on behind its closing quote goes on beyond the end of the tag. -/
theorem x2_overruns (h : t.Shortest) : ¬ t.x2.Closed ↔ t.x2.Overruns := by
  refine Attribute.not_closed_iff_overruns fun u w hvalue => ?_
  by_contra hw
  exact (h.x2 u w hvalue).false (t.y2.seenBefore hw t.x2.quote_ne)

end LineTag.Shortest

/-- Behind every `y1` of a line tag the tag has an `x2`, and behind every `x2` there it has a
`y2`. -/
def Orderly (cs : List Char) : Prop :=
  ∀ before rest, cs = before ++ ("<line".toList ++ rest) →
    ∀ y1 : Attribute ['y', '1'] rest, y1.Closed →
      Nonempty (Attribute ['x', '2'] y1.behind) ∧
        ∀ x2 : Attribute ['x', '2'] y1.behind, x2.Closed →
          Nonempty (Attribute ['y', '2'] x2.behind)

/-- In an orderly text every value ends at its closing quote: the next attribute is found behind
it. -/
theorem LineTag.Shortest.inOneTag {t : LineTag cs} (h : t.Shortest) (hcs : Orderly cs) :
    t.InOneTag := by
  have hy1 : t.y1.Closed := by
    by_contra hopen
    obtain ⟨u, w, hvalue, hclosed⟩ := Attribute.exists_closed_of_not_closed hopen
    obtain ⟨⟨x2⟩, hx2⟩ := hcs t.before t.rest t.text_eq _ hclosed
    obtain ⟨x2', hx2'⟩ := x2.exists_closed
    obtain ⟨y2⟩ := hx2 x2' hx2'
    exact (h.y1 u w hvalue x2').false y2
  have hx2 : t.x2.Closed := by
    by_contra hopen
    obtain ⟨u, w, hvalue, hclosed⟩ := Attribute.exists_closed_of_not_closed hopen
    obtain ⟨y2⟩ := (hcs t.before t.rest t.text_eq t.y1 hy1).2 _ hclosed
    exact (h.x2 u w hvalue).false y2
  exact ⟨hy1, hx2, h.y2_closed⟩

/-- What keeps the parts of a tag apart. -/
def isGap (c : Char) : Bool := c == ' ' || c == '\t' || c == '\n' || c == '\r'

/-- What ends the name of a tag. -/
def endsName (c : Char) : Bool := isGap c || c == '/' || c == '>'

/-- The name of an attribute has no more in front than what was looked for. -/
def Attribute.Exact {name : List Char} (a : Attribute name cs) : Prop :=
  ∃ c, a.gap.getLast? = some c ∧ isGap c = true

/-- The tag is that of a line, and its attributes are those that were looked for. -/
structure LineTag.Exact (t : LineTag cs) : Prop where
  isLine : ∃ c, t.rest.head? = some c ∧ endsName c = true
  y1 : t.y1.Exact
  x2 : t.x2.Exact
  y2 : t.y2.Exact

/-- A text in which every tag whose name begins with `line` is that of a line, and in which the
three names of attributes are not the ends of longer ones. -/
structure WellNamed (cs : List Char) : Prop where
  tags : ∀ before rest, cs = before ++ ("<line".toList ++ rest) →
    ∃ c, rest.head? = some c ∧ endsName c = true
  attributes : ∀ name ∈ [['y', '1'], ['x', '2'], ['y', '2']], ∀ before quote rest,
    (quote = '"' ∨ quote = '\'') → cs = before ++ (name ++ ['='] ++ quote :: rest) →
    ∃ c, before.getLast? = some c ∧ isGap c = true

/-- In a well-named text an attribute is exact behind a character that keeps nothing apart: the gap
in front of its name is then a part of what was searched. -/
theorem WellNamed.attribute_exact
    (h : WellNamed cs) {name front rest : List Char} {last : Char}
    (hname : name ∈ [['y', '1'], ['x', '2'], ['y', '2']]) (htext : cs = front ++ last :: rest)
    (hlast : isGap last = false) (a : Attribute name rest) : a.Exact := by
  have hsplit : cs = (front ++ last :: a.gap) ++
      (name ++ ['='] ++ a.quote :: (a.value ++ a.quote :: a.behind)) := by
    rw [htext, List.append_assoc, List.cons_append, ← a.text_eq]
  obtain ⟨c, hc, hgap⟩ := h.attributes name hname _ _ _ a.is_quote hsplit
  refine ⟨c, ?_, hgap⟩
  rcases List.eq_nil_or_concat a.gap with hnone | ⟨gap, d, hd⟩
  · rw [hnone, List.getLast?_concat] at hc
    cases hc
    cases hlast.symm.trans hgap
  · rw [hd] at hc ⊢
    simpa [List.getLast?_append, List.getLast?_cons] using hc

theorem Attribute.isGap_quote {name : List Char} (a : Attribute name cs) :
    isGap a.quote = false := by
  rcases a.is_quote with h | h <;> rw [h] <;> decide

/-- What is behind an attribute stands behind its closing quote. -/
theorem Attribute.exists_eq_append_behind {name : List Char} (a : Attribute name cs) :
    ∃ front, cs = front ++ a.quote :: a.behind :=
  ⟨a.gap ++ (name ++ ['='] ++ a.quote :: a.value), a.text_eq.trans (by simp)⟩

/-- In a well-named text every line tag is exact. -/
theorem LineTag.exact (t : LineTag cs) (h : WellNamed cs) : t.Exact := by
  have htext : cs = (t.before ++ "<lin".toList) ++ 'e' :: t.rest := by
    rw [List.append_assoc]
    exact t.text_eq
  obtain ⟨front1, hfront1⟩ := t.y1.exists_eq_append_behind
  obtain ⟨front2, hfront2⟩ := t.x2.exists_eq_append_behind
  have htext1 : cs = (t.before ++ "<line".toList ++ front1) ++ t.y1.quote :: t.y1.behind := by
    rw [List.append_assoc, ← hfront1, List.append_assoc]
    exact t.text_eq
  have htext2 : cs = (t.before ++ "<line".toList ++ front1 ++ t.y1.quote :: front2) ++
      t.x2.quote :: t.x2.behind := by
    rw [List.append_assoc, List.cons_append, ← hfront2]
    exact htext1
  exact ⟨h.tags t.before t.rest t.text_eq,
    h.attribute_exact (by decide) htext (by decide) t.y1,
    h.attribute_exact (by decide) htext1 t.y1.isGap_quote t.x2,
    h.attribute_exact (by decide) htext2 t.x2.isGap_quote t.y2⟩

/-- The commands of a line come from a line tag with three values that are not empty. The last value
ends at its closing quote. Each of the others does so, or it goes on beyond the end of the tag. In
an orderly text the three attributes are those of one tag. In a well-named text the tag is that of a
line, and the attributes have the names that are looked for. -/
theorem line_traced {svg commands : String} (h : lineCommands? svg = some commands) :
    ∃ t : LineTag svg.toList, commands = t.commands ∧ t.Filled ∧ t.y2.Closed ∧
      (¬ t.y1.Closed ↔ t.y1.Overruns) ∧ (¬ t.x2.Closed ↔ t.x2.Overruns) ∧
      (Orderly svg.toList → t.InOneTag) ∧ (WellNamed svg.toList → t.Exact) := by
  rw [lineCommands?] at h
  split at h
  · next a b c hends =>
    obtain ⟨t, rfl, rfl, rfl, hshort⟩ := lineEnds_eq_some hends
    split at h
    · simp at h
    · next hfilled =>
      refine ⟨t, (Option.some_inj.1 h).symm, ?_, hshort.y2_closed, hshort.y1_overruns,
        hshort.x2_overruns, hshort.inOneTag, t.exact⟩
      exact not_or.1 hfilled |>.imp_right not_or.1
  · simp at h

/-- The tag of a line with its three attributes makes an orderly text: there is one place for each
of them. -/
theorem orderly_whole : Orderly "<line y1='1' x2='2' y2='3'/>".toList := by
  intro before rest htext y1 hy1
  obtain ⟨rfl, rfl⟩ : before = [] ∧ rest = " y1='1' x2='2' y2='3'/>".toList := by
    simpa [List.cons_eq_append_iff] using htext
  obtain ⟨hgap1, -⟩ : y1.gap = [' '] ∧ y1.quote = '\'' ∧
      y1.value ++ y1.quote :: y1.behind = "1' x2='2' y2='3'/>".toList := by
    simpa [List.cons_eq_append_iff] using y1.text_eq
  obtain rfl := hy1.eq_of_gap
    (b := ⟨[' '], '\'', ['1'], " x2='2' y2='3'/>".toList, rfl, by decide, .inr rfl⟩)
    (by decide) hgap1
  refine ⟨⟨⟨[' '], '\'', ['2'], " y2='3'/>".toList, rfl, by decide, .inr rfl⟩⟩, fun x2 hx2 => ?_⟩
  obtain ⟨hgap2, -⟩ : x2.gap = [' '] ∧ x2.quote = '\'' ∧
      x2.value ++ x2.quote :: x2.behind = "2' y2='3'/>".toList := by
    simpa [List.cons_eq_append_iff] using x2.text_eq
  obtain rfl := hx2.eq_of_gap
    (b := ⟨[' '], '\'', ['2'], " y2='3'/>".toList, rfl, by decide, .inr rfl⟩) (by decide) hgap2
  exact ⟨⟨[' '], '\'', ['3'], "/>".toList, rfl, by decide, .inr rfl⟩⟩

/-- The same text is well named. -/
theorem wellNamed_whole : WellNamed "<line y1='1' x2='2' y2='3'/>".toList := by
  refine ⟨fun before rest htext => ?_, fun name hname before quote rest hquote htext => ?_⟩
  · obtain ⟨rfl, rfl⟩ : before = [] ∧ rest = " y1='1' x2='2' y2='3'/>".toList := by
      simpa [List.cons_eq_append_iff] using htext
    exact ⟨' ', rfl, rfl⟩
  · simp only [List.mem_cons, List.not_mem_nil, or_false] at hname
    rcases hname with rfl | rfl | rfl
    · obtain ⟨rfl, -⟩ : before = "<line ".toList ∧ quote = '\'' ∧
          rest = "1' x2='2' y2='3'/>".toList := by
        simpa [List.cons_eq_append_iff] using htext
      exact ⟨' ', rfl, rfl⟩
    · obtain ⟨rfl, -⟩ : before = "<line y1='1' ".toList ∧ quote = '\'' ∧
          rest = "2' y2='3'/>".toList := by
        simpa [List.cons_eq_append_iff] using htext
      exact ⟨' ', rfl, rfl⟩
    · obtain ⟨rfl, -⟩ : before = "<line y1='1' x2='2' ".toList ∧ quote = '\'' ∧
          rest = "3'/>".toList := by
        simpa [List.cons_eq_append_iff] using htext
      exact ⟨' ', rfl, rfl⟩

theorem line_traced_whole :
    lineCommands? "<line y1='1' x2='2' y2='3'/>" = some "M0 1L2 3" ∧
      ∃ t : LineTag "<line y1='1' x2='2' y2='3'/>".toList,
        "M0 1L2 3" = t.commands ∧ t.InOneTag ∧ t.Exact := by
  have hcommands : lineCommands? "<line y1='1' x2='2' y2='3'/>" = some "M0 1L2 3" := rfl
  obtain ⟨t, ht, -, -, -, -, horderly, hnamed⟩ := line_traced hcommands
  exact ⟨hcommands, t, ht, horderly orderly_whole, hnamed wellNamed_whole⟩

/-- Where all quotes are double ones, the values of one tag hold none. -/
theorem LineTag.InOneTag.quote_notMem {t : LineTag cs} (ht : t.InOneTag) (hcs : '\'' ∉ cs) :
    '"' ∉ t.commands.toList := by
  have double : ∀ {name ds} (a : Attribute name ds), a.Closed → '\'' ∉ ds →
      '"' ∉ a.value ∧ '\'' ∉ a.behind := fun a ha hds => by
    have hquote : a.quote = '"' := a.is_quote.resolve_right fun h => hds (h ▸ a.quote_mem)
    exact ⟨hquote ▸ ha, fun h => hds (a.mem_of_mem_behind h)⟩
  have hrest : '\'' ∉ t.rest := fun h => hcs (by rw [t.text_eq]; simp [h])
  obtain ⟨hy1, hbehind1⟩ := double t.y1 ht.1 hrest
  obtain ⟨hx2, hbehind2⟩ := double t.x2 ht.2.1 hbehind1
  obtain ⟨hy2, -⟩ := double t.y2 ht.2.2 hbehind2
  simp [commands, hy1, hx2, hy2]

/-- The commands of a line can be put together from different tags: here a line has no `y2`, and a
gradient behind it does. -/
theorem line_across_tags :
    ¬ ∀ svg commands, lineCommands? svg = some commands →
      ∃ t : LineTag svg.toList, commands = t.commands ∧ t.InOneTag := by
  intro h
  obtain ⟨t, hcommands, ht⟩ :=
    h "<svg><line y1=\"1\" x2=\"9\"/><linearGradient id=\"p\" y2=\"5\"/></svg>" _ rfl
  refine ht.quote_notMem (by decide) ?_
  rw [← hcommands]
  decide

end SceneMarkup.Svg
