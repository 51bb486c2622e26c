import SceneMarkup.Markup.Declaration
import SceneMarkup.Proofs.TagSearch

/-!
# The tag that path data is read from

The data of a path is the value of a `d` attribute in the first path tag that has one. The search
looks for the attribute from the end of the tag backwards, and for the end of the value from its
beginning on. So it stays at the first tag, and finds the last attribute of the tag and the first
quote behind it, whatever is written around them.

* `Text.search_append`: a search does not stop in a text without the opening.
* `lastInTag_eq_of_last`: in a tag, the last place at which the search can go on is taken.
* `untilQuote_eq_of_first`: a value ends at its first quote, if the search goes on there.
* `first_path_read`: the data of the first path is found.
-/

namespace SceneMarkup

variable {β : Type}

namespace Text

theorem after?_eq_none {lead cs : List Char} (h : ¬ lead <+: cs) : after? lead cs = none := by
  cases hafter : after? lead cs with
  | none => rfl
  | some behind => exact absurd ⟨behind, (eq_append_of_after? hafter).symm⟩ h

/-- What does not hold a character cannot begin before this character and end behind it. -/
theorem prefix_of_prefix_append_cons {cs us vs : List Char} {c : Char}
    (h : cs <+: us ++ c :: vs) (hc : c ∉ cs) : cs <+: us := by
  induction us generalizing cs with
  | nil =>
    cases cs with
    | nil => exact List.nil_prefix
    | cons d cs =>
      obtain ⟨rfl, -⟩ := List.cons_prefix_cons.1 h
      exact absurd List.mem_cons_self hc
  | cons u us ih =>
    cases cs with
    | nil => exact List.nil_prefix
    | cons d cs =>
      obtain ⟨rfl, hrest⟩ := List.cons_prefix_cons.1 h
      exact List.cons_prefix_cons.2 ⟨rfl, ih hrest fun hmem => hc (List.mem_cons_of_mem d hmem)⟩

/-- A search does not stop before the first opening, if the opening's first character comes only
once in it. -/
theorem search_append
    {c : Char} {lead before : List Char} (hc : c ∉ lead) (h : ¬ c :: lead <:+: before)
    (k : List Char → Option β) (behind : List Char) :
    search (c :: lead) k (before ++ c :: behind) = search (c :: lead) k (c :: behind) := by
  induction before with
  | nil => rfl
  | cons d before ih =>
    have hhere : ¬ c :: lead <+: d :: (before ++ c :: behind) := by
      intro hprefix
      obtain ⟨rfl, hrest⟩ := List.cons_prefix_cons.1 hprefix
      have hwithin := prefix_of_prefix_append_cons hrest hc
      exact h (List.cons_prefix_cons.2 ⟨rfl, hwithin⟩).isInfix
    rw [List.cons_append, search, after?_eq_none hhere, Option.bind_none]
    exact ih fun hinfix => h (List.infix_cons hinfix)

/-- A search stops at an opening behind which it can go on. -/
theorem search_eq_of_here
    {c : Char} {lead behind : List Char} {k : List Char → Option β} {b : β}
    (h : k behind = some b) :
    search (c :: lead) k (c :: lead ++ behind) = some b := by
  rw [List.cons_append, search, ← List.cons_append, after?_append, Option.bind_some, h]

end Text

namespace Svg

/-- In a tag the last place is taken at which the search can go on. -/
theorem lastInTag_eq_of_last
    {k : Char → List Char → Option β} {previous : Char} {gap behind : List Char} {b : β}
    (hopen : '>' ∉ gap) (hk : k (gap.getLastD previous) behind = some b)
    (hlast : ∀ c more rest, behind = c :: more ++ rest → '>' ∉ c :: more →
      k (more.getLastD c) rest = none) :
    lastInTag k previous (gap ++ behind) = some b := by
  induction gap generalizing previous with
  | nil =>
    rw [List.nil_append]
    cases behind with
    | nil => exact hk
    | cons c cs =>
      rw [lastInTag]
      split
      · exact hk
      · next hc =>
        split
        · next b' hlater =>
          obtain ⟨more, rest, htext, hmore, hfound⟩ := lastInTag_eq_some hlater
          have hnone := hlast c more rest (by rw [htext, List.cons_append])
            (List.not_mem_cons_of_ne_of_not_mem (Ne.symm hc) hmore)
          rw [hnone] at hfound
          exact absurd hfound.symm (Option.some_ne_none _)
        · exact hk
  | cons c gap ih =>
    obtain ⟨hc, hgap⟩ := List.ne_and_not_mem_of_not_mem_cons hopen
    rw [List.getLastD_cons] at hk
    rw [List.cons_append, lastInTag, if_neg (Ne.symm hc), ih hgap hk]

/-- A value ends at its first quote, if the search can go on there. -/
theorem untilQuote_eq_of_first
    {quote : Char} {k : List Char → List Char → Option β} {read value behind : List Char} {b : β}
    (hvalue : quote ∉ value) (hk : k (read.reverse ++ value) behind = some b) :
    untilQuote quote k read (value ++ quote :: behind) = some b := by
  induction value generalizing read with
  | nil =>
    rw [List.append_nil] at hk
    rw [List.nil_append, untilQuote, if_pos rfl, hk]
  | cons c value ih =>
    obtain ⟨hc, hrest⟩ := List.ne_and_not_mem_of_not_mem_cons hvalue
    rw [List.cons_append, untilQuote, if_neg (Ne.symm hc)]
    exact ih hrest (by simpa using hk)

/-- At a place where no attribute with a quoted value begins, none is found. -/
theorem attributeHere_eq_none
    {name cs : List Char} {k : List Char → List Char → Option β}
    (h : ∀ q rest, cs = name ++ '=' :: q :: rest → ¬ (q = '"' ∨ q = '\'')) :
    attributeHere name k cs = none := by
  unfold attributeHere
  cases hafter : Text.after? (name ++ ['=']) cs with
  | none => rfl
  | some behind =>
    have hcs : cs = name ++ '=' :: behind := by
      rw [Text.eq_append_of_after? hafter, List.append_assoc]
      rfl
    rw [Option.bind_some]
    cases behind with
    | nil => rfl
    | cons q rest => rw [quotedValue, if_neg (h q rest hcs)]

/-- The data of the first path tag is that of its last data attribute, up to the closing quote. -/
theorem pathData_eq_of_first
    {before lead data behind : List Char} {quote : Char}
    (hfirst : ¬ "<path".toList <:+: before) (hopen : '>' ∉ lead)
    (hword : ∃ c, lead.getLast? = some c ∧ Text.isWordChar c = false)
    (hquote : quote = '"' ∨ quote = '\'') (hclosed : quote ∉ data)
    (hlast : ∀ gap q rest, data ++ quote :: behind = gap ++ 'd' :: '=' :: q :: rest →
      q = '"' ∨ q = '\'' → '>' ∈ gap) :
    pathData?
        (before ++ ("<path".toList ++
          (lead ++ ('d' :: '=' :: quote :: (data ++ quote :: behind))))) =
      some data := by
  have hopening : "<path".toList = '<' :: "path".toList := rfl
  rw [hopening] at hfirst
  rw [pathData?, hopening, List.cons_append, Text.search_append (by decide) hfirst]
  refine Text.search_eq_of_here (lastInTag_eq_of_last hopen ?_ ?_)
  · obtain ⟨c, hc, hbegins⟩ := hword
    have hprevious : lead.getLastD 'h' = c := by
      rw [List.getLastD_eq_getLast?, hc, Option.getD_some]
    rw [hprevious, hbegins, if_neg Bool.false_ne_true, attributeHere]
    show (quotedValue _ (quote :: _)) = _
    rw [quotedValue, if_pos hquote]
    exact untilQuote_eq_of_first hclosed rfl
  · -- A later place in the tag is in the value or behind it: the quote itself begins no attribute.
    intro c more rest htext hmore
    split
    · rfl
    · refine attributeHere_eq_none fun q rest' hrest hq => ?_
      subst hrest
      rcases more with _ | ⟨d, _ | ⟨e, gap⟩⟩
      · simp at htext
      · obtain ⟨-, -, rfl, -⟩ : 'd' = c ∧ '=' = d ∧ quote = 'd' ∧ _ := by simpa using htext
        simp at hquote
      · obtain ⟨-, -, -, hgap⟩ : 'd' = c ∧ '=' = d ∧ quote = e ∧
            data ++ quote :: behind = gap ++ 'd' :: '=' :: q :: rest' := by simpa using htext
        exact hmore (List.mem_cons_of_mem c (List.mem_cons_of_mem d
          (List.mem_cons_of_mem e (hlast gap q rest' hgap hq))))

/-- **The data of the first path is found**, whatever other attributes there are in front of it and
whatever follows. -/
theorem first_path_read
    {svg : String} {before lead data behind : List Char} {quote : Char}
    (hsvg : svg.toList = before ++ ("<path".toList ++ (lead ++
      ("d=".toList ++ quote :: (data ++ quote :: behind)))))
    (hfirst : ¬ "<path".toList <:+: before) (hopen : '>' ∉ lead)
    (hword : ∃ c, lead.getLast? = some c ∧ Text.isWordChar c = false)
    (hquote : quote = '"' ∨ quote = '\'') (hdata : data ≠ []) (hclosed : quote ∉ data)
    (hlast : ∀ gap q rest, data ++ quote :: behind = gap ++ ("d=".toList ++ q :: rest) →
      q = '"' ∨ q = '\'' → '>' ∈ gap) :
    Property.commandsIn .vector svg = some (String.ofList data) := by
  have hfound : pathData? svg.toList = some data := by
    rw [hsvg]
    exact pathData_eq_of_first hfirst hopen hword hquote hclosed hlast
  show pathCommands? svg = _
  rw [pathCommands?, hfound]
  cases data with
  | nil => exact absurd rfl hdata
  | cons c cs => rfl

/-- A drawing whose first path has an identifier that looks like data, and data that goes beyond a
`>`. -/
def tricky : String :=
  "<svg><g d='M8 8'/><path id=\"d='M7 7'\"\nd=\"M0 0>L1 1\" " ++
    "stroke-width='2'/><path d='M9 9'/></svg>"

theorem first_path_read_tricky :
    tricky.toList = "<svg><g d='M8 8'/>".toList ++ ("<path".toList ++
      (" id=\"d='M7 7'\"\n".toList ++ ("d=".toList ++ '"' :: ("M0 0>L1 1".toList ++ '"' ::
        " stroke-width='2'/><path d='M9 9'/></svg>".toList)))) ∧
      Property.commandsIn .vector tricky = some "M0 0>L1 1" := by
  have hsplit : tricky.toList = "<svg><g d='M8 8'/>".toList ++ ("<path".toList ++
      (" id=\"d='M7 7'\"\n".toList ++ ("d=".toList ++ '"' :: ("M0 0>L1 1".toList ++ '"' ::
        " stroke-width='2'/><path d='M9 9'/></svg>".toList)))) := by decide +kernel
  refine ⟨hsplit, first_path_read hsplit (by decide +kernel) (by decide +kernel)
    ⟨'\n', by decide +kernel, by decide⟩ (.inl rfl) (by decide +kernel) (by decide +kernel) ?_⟩
  -- In front of the first `>` of the data there is no `d`.
  intro gap q rest
    (htext : ['M', '0', ' ', '0'] ++ '>' :: (['L', '1', ' ', '1'] ++ _) = gap ++ 'd' :: _) _
  have hnone : 'd' ∉ ['M', '0', ' ', '0'] := by decide
  obtain ⟨more, rfl, hmore⟩ | ⟨more, hfront, hmore⟩ := List.append_eq_append_iff.1 htext
  · rcases List.cons_eq_append_iff.1 hmore with ⟨-, hname⟩ | ⟨more, rfl, -⟩
    · cases hname
    · exact List.mem_append_right _ List.mem_cons_self
  · rcases List.cons_eq_append_iff.1 hmore with ⟨-, hname⟩ | ⟨more, rfl, -⟩
    · cases hname
    · exact absurd (hfront ▸ List.mem_append_right gap List.mem_cons_self) hnone

end Svg
end SceneMarkup
