import Mathlib.Data.Set.Operations
import SceneMarkup.Proofs.Paths

/-!
# Names in kebab case

Free names are spelled in kebab case before they stand in markup. The spelling takes a name through
many changes, and still it is a normal form: what is spelled once is not changed any more.

* `IsKebab`: how a name in kebab case looks.
* `nil_notMem_splitOn_iff`: a text has no empty piece between hyphens if and only if its hyphens
  stand single and inside the text.
* `kebab_canonical`: all names are spelled so, and the names that are kept are those that look so.
-/

namespace SceneMarkup.Text

/-- A name in kebab case. -/
structure IsKebab (s : String) : Prop where
  ne_empty : s ≠ ""
  /-- Letters in lower case, digits, underscores and hyphens. -/
  chars : ∀ c ∈ s.toList, isKebabChar c = true
  head_not_digit : ∀ c, s.toList.head? = some c → isAsciiDigit c = false
  head_not_hyphen : s.toList.head? ≠ some '-'
  last_not_hyphen : s.toList.getLast? ≠ some '-'
  hyphens_single : ¬ ['-', '-'] <:+: s.toList

/-- A text is in kebab case if its characters are, no digit stands in front and no piece between its
hyphens is empty. -/
theorem isKebab_ofList_iff {cs : List Char} :
    IsKebab (String.ofList cs) ↔
      (∀ c ∈ cs, isKebabChar c = true) ∧ (∀ c, cs.head? = some c → isAsciiDigit c = false) ∧
        [] ∉ cs.splitOn '-' := by
  have hempty : String.ofList cs ≠ "" ↔ cs ≠ [] := not_congr String.ofList_eq_empty_iff
  rw [nil_notMem_splitOn_iff]
  constructor
  · intro h
    have hchars := h.chars
    have hdigit := h.head_not_digit
    have hhead := h.head_not_hyphen
    have hlast := h.last_not_hyphen
    have hdouble := h.hyphens_single
    rw [String.toList_ofList] at hchars hdigit hhead hlast hdouble
    exact ⟨hchars, hdigit, hempty.1 h.ne_empty, hhead, hlast, hdouble⟩
  · rintro ⟨hchars, hdigit, hne, hhead, hlast, hdouble⟩
    rw [← String.toList_ofList (l := cs)] at hchars hdigit hhead hlast hdouble
    exact ⟨hempty.2 hne, hchars, hdigit, hhead, hlast, hdouble⟩

/-- A character of kebab case is kept. -/
theorem kebabChar_of_isKebabChar {c : Char} (h : isKebabChar c = true) : kebabChar c = [c] := by
  by_cases hhyphen : c = '-'
  · rw [hhyphen]
    rfl
  · have hampersand : c ≠ '&' := by
      rintro rfl
      revert h
      decide
    simp only [isKebabChar, isAsciiDigit, Bool.or_eq_true, Bool.and_eq_true, decide_eq_true_eq,
      beq_iff_eq, hhyphen, or_false] at h
    have hkept : (isAsciiAlphanum c || c == '_') = true := by
      simp only [isAsciiAlphanum, Bool.or_eq_true, Bool.and_eq_true, decide_eq_true_eq, beq_iff_eq]
      tauto
    have hlower : lowerAscii c = c := by
      refine if_neg ?_
      rcases h with (hletter | hdigit) | rfl
      · omega
      · omega
      · decide
    rw [kebabChar, if_neg hampersand, if_pos hkept, hlower]

/-- The guard keeps what does not start with a digit. -/
theorem guardDigit_of_head {cs : List Char}
    (h : ∀ c, cs.head? = some c → isAsciiDigit c = false) :
    guardDigit cs = cs := by
  cases cs with
  | nil => rfl
  | cons c rest => rw [guardDigit, h c rfl, if_neg Bool.false_ne_true]

/-- Behind the guard no digit stands in front, and hyphens are where they were. -/
theorem guardDigit_spec {cs : List Char} (h : [] ∉ cs.splitOn '-') :
    (∀ c, (guardDigit cs).head? = some c → isAsciiDigit c = false) ∧
      [] ∉ (guardDigit cs).splitOn '-' := by
  by_cases hdigit : ∀ c, cs.head? = some c → isAsciiDigit c = false
  · rw [guardDigit_of_head hdigit]
    exact ⟨hdigit, h⟩
  · obtain ⟨c, rest, hcs, hc⟩ : ∃ c rest, cs = c :: rest ∧ isAsciiDigit c = true := by
      push Not at hdigit
      obtain ⟨c, hhead, hc⟩ := hdigit
      obtain ⟨rest, hcs⟩ := List.head?_eq_some_iff.1 hhead
      exact ⟨c, rest, hcs, by simpa using hc⟩
    have hguarded : guardDigit cs = '_' :: cs := by
      rw [hcs, guardDigit, if_pos hc]
    rw [hguarded]
    refine ⟨?_, ?_⟩
    · rintro d ⟨⟩
      decide
    · rw [splitOn_cons, if_neg (by decide)]
      cases hpieces : cs.splitOn '-' with
      | nil => simp
      | cons piece pieces =>
          rw [hpieces, List.mem_cons, not_or] at h
          simpa using h.2

theorem unnamed_isKebab : IsKebab "unnamed" := by
  have hchars : "unnamed".toList.all isKebabChar = true := by decide
  rw [← String.ofList_toList (s := "unnamed"), isKebab_ofList_iff]
  refine ⟨List.all_eq_true.1 hchars, ?_, by decide⟩
  rintro c ⟨⟩
  decide

theorem kebab_isKebab (name : String) : IsKebab (kebab name) := by
  have hchars := kebab_chars name
  rcases kebab_cases name with hunnamed | ⟨ws, hne, hpieces, hjoined⟩
  · rw [hunnamed]
    exact unnamed_isKebab
  · rw [hjoined, String.toList_ofList] at hchars
    rw [hjoined]
    have hsplit : (hyphenate ws).splitOn '-' = ws := by
      rw [hyphenate_eq_intercalate]
      exact List.splitOn_intercalate '-' (fun w hw => (hpieces w hw).2) hne
    have hfull : [] ∉ (hyphenate ws).splitOn '-' := by
      rw [hsplit]
      exact fun hmem => (hpieces [] hmem).1 rfl
    exact isKebab_ofList_iff.2 ⟨hchars, guardDigit_spec hfull⟩

theorem kebab_of_isKebab {name : String} (h : IsKebab name) : kebab name = name := by
  rw [← String.ofList_toList (s := name), isKebab_ofList_iff] at h
  obtain ⟨hchars, hdigit, hfull⟩ := h
  have hkept : name.toList.flatMap kebabChar = name.toList := by
    conv_rhs => rw [← List.flatMap_singleton' name.toList]
    exact List.flatMap_congr fun c hc => kebabChar_of_isKebabChar (hchars c hc)
  rw [kebab_eq, nameOf, hkept]
  split
  next hnone =>
    have hjoined := hyphenate_pieces (.inr hfull)
    rw [hnone] at hjoined
    rw [← hjoined] at hfull
    exact absurd List.mem_cons_self hfull
  next => rw [hyphenate_pieces (.inr hfull), guardDigit_of_head hdigit, String.ofList_toList]

/-- **Kebab case is a normal form of names.** Whatever a name is, its spelling is in kebab case. The
names that are spelled as they are, those in kebab case and the spellings of names are all the
same. -/
theorem kebab_canonical (name : String) :
    IsKebab (kebab name) ∧ (kebab name = name ↔ IsKebab name) ∧
      kebab (kebab name) = kebab name ∧ (kebab name = name ↔ name ∈ Set.range kebab) := by
  have hfixed : kebab name = name ↔ IsKebab name :=
    ⟨fun h => h ▸ kebab_isKebab name, kebab_of_isKebab⟩
  refine ⟨kebab_isKebab name, hfixed, kebab_of_isKebab (kebab_isKebab name), ?_⟩
  constructor
  · exact fun h => ⟨name, h⟩
  · rintro ⟨other, rfl⟩
    exact kebab_of_isKebab (kebab_isKebab other)

end SceneMarkup.Text
