import Mathlib.Data.Set.Operations
import SceneMarkup.Proofs.Paths

/-!
# Names in Pascal case

The names of components and globals are spelled in Pascal case. A name falls apart into words at the
characters that separate them, and what is left of each word is put together with a capital in
front. Two names whose words are kept apart by different separators are spelled alike.

* `IsPascal`: how a name in Pascal case looks.
* `compound_break`: a run of separators does nothing but divide the words in front of it from those
  behind it.
* `pascal_canonical`: all names are spelled so, the names that are kept are those that look so, and
  what stands between two words does not show.
-/

namespace SceneMarkup.Text

/-- A name in Pascal case, as a list of characters: a capital, or an underscore and a digit, and
behind it letters and digits. -/
inductive IsPascal : List Char → Prop
  | capital {c : Char} {rest : List Char} (hc : c.isUpper = true)
      (hrest : ∀ d ∈ rest, d.isAlphanum = true) : IsPascal (c :: rest)
  | guarded {c : Char} {rest : List Char} (hc : c.isDigit = true)
      (hrest : ∀ d ∈ rest, d.isAlphanum = true) : IsPascal ('_' :: c :: rest)

/-- The blanks of the ASCII set. -/
def asciiBlanks : List Char :=
  [' ', '\t', '\n', '\x0b', '\x0c', '\r', '\x1c', '\x1d', '\x1e', '\x1f']

/-- A character that stands between words: a hyphen, an underscore, a slash, an ASCII blank, or any
character beyond the ASCII set. -/
def IsBreakChar (c : Char) : Prop :=
  c ∈ ['-', '_', '/'] ∨ c ∈ asciiBlanks ∨ 128 ≤ c.toNat

instance : DecidablePred IsBreakChar := fun c =>
  inferInstanceAs (Decidable (c ∈ ['-', '_', '/'] ∨ c ∈ asciiBlanks ∨ 128 ≤ c.toNat))

/-- What keeps two words apart. -/
def IsBreak (s : String) : Prop := s ≠ "" ∧ ∀ c ∈ s.toList, IsBreakChar c

instance (s : String) : Decidable (IsBreak s) :=
  have : Decidable (∀ c ∈ s.toList, IsBreakChar c) := List.decidableBAll _ _
  inferInstanceAs (Decidable (s ≠ "" ∧ ∀ c ∈ s.toList, IsBreakChar c))

theorem isUpper_iff {c : Char} : c.isUpper = true ↔ 65 ≤ c.toNat ∧ c.toNat ≤ 90 :=
  decide_eq_true_iff

theorem isLower_iff {c : Char} : c.isLower = true ↔ 97 ≤ c.toNat ∧ c.toNat ≤ 122 :=
  Bool.and_eq_true_iff.trans (and_congr decide_eq_true_iff decide_eq_true_iff)

theorem isDigit_iff {c : Char} : c.isDigit = true ↔ 48 ≤ c.toNat ∧ c.toNat ≤ 57 :=
  Bool.and_eq_true_iff.trans (and_congr decide_eq_true_iff decide_eq_true_iff)

theorem isAlphanum_iff {c : Char} :
    c.isAlphanum = true ↔
      (48 ≤ c.toNat ∧ c.toNat ≤ 57) ∨ (65 ≤ c.toNat ∧ c.toNat ≤ 90) ∨
          (97 ≤ c.toNat ∧ c.toNat ≤ 122) := by
  have hkinds : c.isAlphanum = true ↔ (c.isUpper = true ∨ c.isLower = true) ∨ c.isDigit = true := by
    rw [← Bool.or_eq_true, ← Bool.or_eq_true]
    rfl
  rw [hkinds, isUpper_iff, isLower_iff, isDigit_iff]
  omega

theorem isAsciiAlphanum_eq (c : Char) : isAsciiAlphanum c = c.isAlphanum := by
  rw [Bool.eq_iff_iff, isAlphanum_iff]
  simp only [isAsciiAlphanum, Bool.or_eq_true, Bool.and_eq_true, decide_eq_true_eq]
  omega

theorem isAsciiDigit_eq (c : Char) : isAsciiDigit c = c.isDigit := by
  rw [Bool.eq_iff_iff, isDigit_iff]
  simp only [isAsciiDigit, Bool.and_eq_true, decide_eq_true_eq]

/-- A break ends a word. -/
theorem isNameSeparator_of_isBreakChar {c : Char} (h : IsBreakChar c) :
    isNameSeparator c = true := by
  have hmarks : ∀ d ∈ ['-', '_', '/'], isNameSeparator d = true := List.all_eq_true.1 (by decide)
  have hblanks : ∀ d ∈ asciiBlanks, isNameSeparator d = true := List.all_eq_true.1 (by decide)
  rcases h with hmark | hblank | hbeyond
  · exact hmarks c hmark
  · exact hblanks c hblank
  · simp [isNameSeparator, hbeyond]

/-- Letters and digits stand inside words. -/
theorem isNameSeparator_of_isAlphanum {c : Char} (h : c.isAlphanum = true) :
    isNameSeparator c = false := by
  have hmarks : c ≠ '-' ∧ c ≠ '_' ∧ c ≠ '/' := by
    refine ⟨?_, ?_, ?_⟩ <;> rintro rfl <;> revert h <;> decide
  rw [isAlphanum_iff] at h
  have hblank : isBlank c = false := by
    simp only [isBlank, isWhiteSpace, Bool.or_eq_false_iff, Bool.and_eq_false_iff,
      decide_eq_false_iff_not, beq_eq_false_iff_ne]
    omega
  simp only [isNameSeparator, Bool.or_eq_false_iff, beq_eq_false_iff_ne, decide_eq_false_iff_not,
    hblank]
  exact ⟨⟨⟨⟨hmarks.1, hmarks.2.1⟩, hmarks.2.2⟩, trivial⟩, by omega⟩

theorem spellAnd_of_ne {c : Char} (h : c ≠ '&') : spellAnd ' ' c = [c] := if_neg h

theorem isNameSeparator_ampersand : isNameSeparator '&' = false := by decide

/-- A letter or digit is a capital or a digit once it stands in front of a word. -/
theorem upperAscii_leads {c : Char} (h : c.isAlphanum = true) :
    (upperAscii c).isUpper = true ∨ (upperAscii c).isDigit = true := by
  have hraised : ∀ k < 26, (Char.ofNat (97 + k - 32)).isUpper = true := by decide
  rw [isAlphanum_iff] at h
  unfold upperAscii
  dsimp only
  split
  next hlower =>
    left
    have hletter := hraised (c.toNat - 97) (by omega)
    rwa [show 97 + (c.toNat - 97) = c.toNat by omega] at hletter
  next hother =>
    rw [isUpper_iff, isDigit_iff]
    omega

/-- A capital or a digit stays what it is at the beginning of a word. -/
theorem upperAscii_of_leads {c : Char} (h : c.isUpper = true ∨ c.isDigit = true) :
    upperAscii c = c := by
  refine if_neg ?_
  rw [isUpper_iff, isDigit_iff] at h
  omega

theorem isAlphanum_of_leads {c : Char} (h : c.isUpper = true ∨ c.isDigit = true) :
    c.isAlphanum = true := by
  rw [isUpper_iff, isDigit_iff] at h
  rw [isAlphanum_iff]
  omega

/-- What is left of a word, with a capital in front. -/
def titled (w : List Char) : List Char := capitalize (w.filter isAsciiAlphanum)

/-- The words of a name, put together. -/
def compound (cs : List Char) : List Char :=
  ((cs.flatMap (spellAnd ' ')).splitOnP isNameSeparator).flatMap titled

/-- Pascal case is the compound of the words behind the guard of a digit. -/
theorem pascal_eq (name : String) :
    pascal name =
      if compound name.toList = [] then "Unnamed"
      else String.ofList (guardDigit (compound name.toList)) := by
  have hwords :
      ((splitBy isNameSeparator (name.toList.flatMap (spellAnd ' '))).map titled).flatten =
      compound name.toList := by
    rw [compound, splitBy_eq_splitOnP, ← List.flatMap_def]
  unfold titled at hwords
  unfold pascal
  dsimp only
  rw [hwords]
  cases compound name.toList with
  | nil => rfl
  | cons c rest => rfl

theorem compound_nil : compound [] = [] := rfl

/-- A separator between two texts leaves two compounds side by side. -/
theorem compound_append_cons (cs : List Char) {c : Char} (hc : isNameSeparator c = true)
    (ds : List Char) :
    compound (cs ++ c :: ds) = compound cs ++ compound ds := by
  have hne : c ≠ '&' := by
    rintro rfl
    rw [isNameSeparator_ampersand] at hc
    cases hc
  simp only [compound, List.flatMap_append, List.flatMap_cons, spellAnd_of_ne hne,
    List.singleton_append, List.splitOnP_append_cons _ _ hc]

/-- A run of separators divides the words in front of it from those behind it. -/
theorem compound_break (before : List Char) {run : List Char} (hne : run ≠ [])
    (hrun : ∀ c ∈ run, isNameSeparator c = true) (after : List Char) :
    compound (before ++ run ++ after) = compound before ++ compound after := by
  induction run generalizing before with
  | nil => exact absurd rfl hne
  | cons c rest ih =>
      obtain ⟨hc, hrest⟩ := List.forall_mem_cons.1 hrun
      rw [List.append_assoc, List.cons_append, compound_append_cons before hc]
      by_cases hlast : rest = []
      · rw [hlast, List.nil_append]
      · have hbehind := ih [] hlast hrest
        rw [List.nil_append, compound_nil, List.nil_append] at hbehind
        rw [hbehind]

/-- Letters and digits are one word. -/
theorem compound_of_alphanum {cs : List Char} (h : ∀ c ∈ cs, c.isAlphanum = true) :
    compound cs = capitalize cs := by
  have hspelled : cs.flatMap (spellAnd ' ') = cs := by
    conv_rhs => rw [← List.flatMap_singleton' cs]
    refine List.flatMap_congr fun c hc => spellAnd_of_ne ?_
    rintro rfl
    have hampersand := h '&' hc
    revert hampersand
    decide
  have hkept : cs.filter isAsciiAlphanum = cs :=
    List.filter_eq_self.2 fun c hc => (isAsciiAlphanum_eq c).trans (h c hc)
  have hword : cs.splitOnP isNameSeparator = [cs] :=
    List.splitOnP_eq_singleton fun c hc => isNameSeparator_of_isAlphanum (h c hc)
  rw [compound, hspelled, hword, List.flatMap_singleton, titled, hkept]

/-- Words put together: letters and digits, with a capital or a digit in front. -/
structure IsCompound (cs : List Char) : Prop where
  chars : ∀ c ∈ cs, c.isAlphanum = true
  leads : ∀ c, cs.head? = some c → c.isUpper = true ∨ c.isDigit = true

theorem IsCompound.nil : IsCompound [] := ⟨nofun, nofun⟩

/-- Compounds side by side are a compound. -/
theorem IsCompound.append {cs ds : List Char} (hcs : IsCompound cs) (hds : IsCompound ds) :
    IsCompound (cs ++ ds) := by
  refine ⟨List.forall_mem_append.2 ⟨hcs.chars, hds.chars⟩, fun c hc => ?_⟩
  rw [List.head?_append] at hc
  cases hhead : cs.head? with
  | none => exact hds.leads c (by simpa [hhead] using hc)
  | some d => exact hcs.leads c (by simpa [hhead] using hc)

/-- A titled word is a compound. -/
theorem titled_isCompound (w : List Char) : IsCompound (titled w) := by
  have hkept : ∀ c ∈ w.filter isAsciiAlphanum, c.isAlphanum = true :=
    fun c hc => (isAsciiAlphanum_eq c).symm.trans (List.mem_filter.1 hc).2
  unfold titled
  cases hw : w.filter isAsciiAlphanum with
  | nil => exact .nil
  | cons c rest =>
      rw [hw] at hkept
      obtain ⟨hc, hrest⟩ := List.forall_mem_cons.1 hkept
      have hleads := upperAscii_leads hc
      refine ⟨List.forall_mem_cons.2 ⟨isAlphanum_of_leads hleads, hrest⟩, ?_⟩
      rintro d ⟨⟩
      exact hleads

/-- The words of every text make a compound. -/
theorem compound_isCompound (cs : List Char) : IsCompound (compound cs) := by
  unfold compound
  induction (cs.flatMap (spellAnd ' ')).splitOnP isNameSeparator with
  | nil => exact .nil
  | cons w ws ih => exact (titled_isCompound w).append ih

/-- A compound behind the guard of a digit is in Pascal case. -/
theorem IsCompound.guardDigit_isPascal {cs : List Char} (h : IsCompound cs) (hne : cs ≠ []) :
    IsPascal (guardDigit cs) := by
  cases cs with
  | nil => exact absurd rfl hne
  | cons c rest =>
      have hrest : ∀ d ∈ rest, d.isAlphanum = true := (List.forall_mem_cons.1 h.chars).2
      rw [guardDigit, isAsciiDigit_eq]
      split
      next hdigit => exact .guarded hdigit hrest
      next hdigit => exact .capital ((h.leads c rfl).resolve_right hdigit) hrest

theorem unnamed_isPascal : IsPascal "Unnamed".toList :=
  .capital (by decide) (List.all_eq_true.1 (by decide))

/-- Every name is spelled in Pascal case. -/
theorem pascal_isPascal (name : String) : IsPascal (pascal name).toList := by
  rw [pascal_eq]
  split
  · exact unnamed_isPascal
  next hne =>
    rw [String.toList_ofList]
    exact (compound_isCompound name.toList).guardDigit_isPascal hne

/-- A name in Pascal case is made of one word. The underscore that guards a digit separates it from
nothing. -/
theorem IsPascal.guardDigit_compound {cs : List Char} (h : IsPascal cs) :
    compound cs ≠ [] ∧ guardDigit (compound cs) = cs := by
  cases h with
  | @capital c rest hc hrest =>
      have hword : compound (c :: rest) = c :: rest := by
        rw [compound_of_alphanum (List.forall_mem_cons.2 ⟨isAlphanum_of_leads (.inl hc), hrest⟩),
          capitalize, upperAscii_of_leads (.inl hc)]
      have hdigit : ¬ isAsciiDigit c = true := by
        rw [isUpper_iff] at hc
        rw [isAsciiDigit_eq, isDigit_iff]
        omega
      rw [hword, guardDigit, if_neg hdigit]
      exact ⟨List.cons_ne_nil _ _, rfl⟩
  | @guarded c rest hc hrest =>
      have hunderscore : isNameSeparator '_' = true := by decide
      have hword : compound ('_' :: c :: rest) = c :: rest := by
        rw [← List.nil_append ('_' :: _), compound_append_cons [] hunderscore, compound_nil,
          List.nil_append,
          compound_of_alphanum (List.forall_mem_cons.2 ⟨isAlphanum_of_leads (.inr hc), hrest⟩),
          capitalize, upperAscii_of_leads (.inr hc)]
      rw [hword, guardDigit, isAsciiDigit_eq, if_pos hc]
      exact ⟨List.cons_ne_nil _ _, rfl⟩

/-- A name in Pascal case is spelled as it is. -/
theorem pascal_of_isPascal {name : String} (h : IsPascal name.toList) : pascal name = name := by
  obtain ⟨hne, hguarded⟩ := h.guardDigit_compound
  rw [pascal_eq, if_neg hne, hguarded, String.ofList_toList]

/-- All that a break does is to end a word. -/
theorem IsBreak.compound_eq {run : String} (h : IsBreak run) (before after : String) :
    compound (before ++ run ++ after).toList = compound before.toList ++ compound after.toList := by
  have hne : run.toList ≠ [] := by simpa using h.1
  rw [String.toList_append, String.toList_append]
  exact compound_break _ hne (fun c hc => isNameSeparator_of_isBreakChar (h.2 c hc)) _

/-- **Pascal case is a normal form of names.** Whatever a name is, its spelling is in Pascal case.
The names that are spelled as they are, those in Pascal case and the spellings of names are all the
same. Words may be kept apart by any separators: the spelling stays the same when others take their
place. -/
theorem pascal_canonical (name : String) :
    IsPascal (pascal name).toList ∧ (pascal name = name ↔ IsPascal name.toList) ∧
      pascal (pascal name) = pascal name ∧ (pascal name = name ↔ name ∈ Set.range pascal) ∧
      ∀ before run after other, name = before ++ run ++ after → IsBreak run → IsBreak other →
        pascal (before ++ other ++ after) = pascal name := by
  have hidempotent : ∀ other, pascal (pascal other) = pascal other :=
    fun other => pascal_of_isPascal (pascal_isPascal other)
  have hfixed : pascal name = name ↔ IsPascal name.toList :=
    ⟨fun h => h ▸ pascal_isPascal name, pascal_of_isPascal⟩
  refine ⟨pascal_isPascal name, hfixed, hidempotent name, ⟨fun h => ⟨name, h⟩, ?_⟩, ?_⟩
  · rintro ⟨other, rfl⟩
    exact hidempotent other
  · rintro before run after other rfl hrun hother
    rw [pascal_eq, pascal_eq, hrun.compound_eq, hother.compound_eq]

/-- A hyphen may take the place of two blanks, a slash and a character beyond the ASCII set. -/
theorem pascal_canonical_brandColors :
    IsBreak " / 色" ∧ IsBreak "-" ∧ pascal "brand / 色colors" = "BrandColors" ∧
      pascal "brand-colors" = pascal "brand / 色colors" := by
  have hmixed : IsBreak " / 色" := by decide
  have hhyphen : IsBreak "-" := by decide
  exact ⟨hmixed, hhyphen, by decide,
    (pascal_canonical "brand / 色colors").2.2.2.2 "brand" " / 色" "colors" "-" rfl hmixed hhyphen⟩

end SceneMarkup.Text
