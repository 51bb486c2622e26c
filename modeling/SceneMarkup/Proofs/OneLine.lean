import SceneMarkup.Proofs.Paths

/-!
# Texts on one line

A text is put on one line by writing its words with single spaces between them. What separates words
includes whatever breaks lines, so nothing that breaks a line is left, and the words themselves stay
as they are.

* `SingleSpaced`: the blanks of a text are single spaces between other characters.
* `words_unwords`: words are found again when they are set apart by spaces.
* `singleLine_flat`: a text on one line is single spaced, has the words of the text, and is not
  changed by being put on one line again.
-/

namespace SceneMarkup.Text

/-- A word: it is not empty and has no blanks. -/
def IsWord (w : List Char) : Prop := w ≠ [] ∧ ∀ c ∈ w, isBlank c = false

/-- Every blank of a text is a space, and stands between two characters that are not blank. -/
def SingleSpaced (cs : List Char) : Prop :=
  ∀ front c back, cs = front ++ c :: back → isBlank c = true →
    c = ' ' ∧ (∃ a ∈ front.getLast?, isBlank a = false) ∧ ∃ b ∈ back.head?, isBlank b = false

/-- The characters that end a line or a paragraph. -/
def isLineBreak (c : Char) : Bool :=
  let n := c.toNat
  (10 ≤ n && n ≤ 13) || (0x1C ≤ n && n ≤ 0x1E) || n == 0x85 || n == 0x2028 || n == 0x2029

/-- A line break of any kind is a blank. -/
theorem isBlank_of_isLineBreak {c : Char} (h : isLineBreak c = true) : isBlank c = true := by
  simp only [isLineBreak, isBlank, isWhiteSpace, Bool.or_eq_true, Bool.and_eq_true,
    decide_eq_true_eq, beq_iff_eq] at h ⊢
  omega

theorem isWord_of_mem_words {cs w : List Char} (h : w ∈ words cs) : IsWord w :=
  mem_pieces h

theorem words_append_cons (cs : List Char) {c : Char} (hc : isBlank c = true) (ds : List Char) :
    words (cs ++ c :: ds) = words cs ++ words ds :=
  pieces_append_cons cs hc ds

theorem words_of_isWord {w : List Char} (h : IsWord w) : words w = [w] := by
  have hsplit : splitBy isBlank w = [w] := by
    rw [splitBy_eq_splitOnP]
    exact List.splitOnP_eq_singleton fun c hc => by simp [h.2 c hc]
  rw [words, hsplit]
  simp [h.1]

theorem unwords_cons (w : List Char) {ws : List (List Char)} (h : ws ≠ []) :
    unwords (w :: ws) = w ++ ' ' :: unwords ws := by
  obtain ⟨v, rest, rfl⟩ := List.exists_cons_of_ne_nil h
  rfl

/-- **Words are found again** in the text that they make. -/
theorem words_unwords {ws : List (List Char)} (h : ∀ w ∈ ws, IsWord w) :
    words (unwords ws) = ws := by
  induction ws with
  | nil => rfl
  | cons w ws ih =>
      obtain ⟨hw, hws⟩ := List.forall_mem_cons.1 h
      by_cases hlast : ws = []
      · rw [hlast]
        exact words_of_isWord hw
      · have hspace : isBlank ' ' = true := by decide
        rw [unwords_cons w hlast, words_append_cons w hspace, words_of_isWord hw, ih hws]
        rfl

/-- Pieces side by side are the text without its separators. -/
theorem flatten_splitBy (p : Char → Bool) (cs : List Char) :
    (splitBy p cs).flatten = cs.filter fun c => !p c := by
  induction cs with
  | nil => rfl
  | cons c rest ih =>
      by_cases hc : p c = true
      · rw [splitBy, if_pos hc, List.flatten_cons, ih]
        simp [hc]
      · have hne : splitBy p rest ≠ [] := splitBy_eq_splitOnP p rest ▸ List.splitOnP_ne_nil p rest
        obtain ⟨piece, pieces, hsplit⟩ := List.exists_cons_of_ne_nil hne
        rw [hsplit] at ih
        rw [splitBy, if_neg hc, hsplit, List.flatten_cons, List.cons_append, ← List.flatten_cons,
          ih]
        simp [hc]

/-- The words of a text are made of its characters that are not blank, in order. -/
theorem flatten_words (cs : List Char) : (words cs).flatten = cs.filter fun c => !isBlank c := by
  rw [words, List.flatten_filter_ne_nil, flatten_splitBy]

theorem IsWord.head? {w : List Char} (h : IsWord w) (rest : List Char) :
    ∃ b ∈ (w ++ rest).head?, isBlank b = false := by
  obtain ⟨c, cs, rfl⟩ := List.exists_cons_of_ne_nil h.1
  exact ⟨c, rfl, h.2 c List.mem_cons_self⟩

theorem IsWord.getLast? {w : List Char} (h : IsWord w) : ∃ a ∈ w.getLast?, isBlank a = false :=
  ⟨w.getLast h.1, List.getLast?_eq_some_getLast h.1, h.2 _ (List.getLast_mem h.1)⟩

/-- A word is spaced as it has to be, since it has no blank. -/
theorem singleSpaced_of_isWord {w : List Char} (h : IsWord w) : SingleSpaced w := by
  rintro front c back rfl hc
  have hword := h.2 c (List.mem_append_right front List.mem_cons_self)
  rw [hc] at hword
  cases hword

/-- A text stays single spaced when a word and a space are put in front of it. -/
theorem SingleSpaced.cons
    {w cs : List Char} (hw : IsWord w) (hcs : SingleSpaced cs)
    (hhead : ∃ b ∈ cs.head?, isBlank b = false) :
    SingleSpaced (w ++ ' ' :: cs) := by
  intro front c back htext hc
  -- The blank is the space itself, or it is on one side of it.
  obtain ⟨between, rfl, hrest⟩ | ⟨between, rfl, hrest⟩ := List.append_eq_append_iff.1 htext
  · cases between with
    | nil =>
        obtain ⟨rfl, rfl⟩ := List.cons.inj hrest
        exact ⟨rfl, by simpa using hw.getLast?, hhead⟩
    | cons d between =>
        obtain ⟨rfl, rfl⟩ := List.cons.inj hrest
        obtain ⟨hspace, ⟨a, ha, hblank⟩, hback⟩ := hcs between c back rfl hc
        refine ⟨hspace, ⟨a, ?_, hblank⟩, hback⟩
        rw [Option.mem_def] at ha ⊢
        simp [List.getLast?_append, List.getLast?_cons, ha]
  · cases between with
    | nil =>
        obtain ⟨rfl, rfl⟩ := List.cons.inj hrest
        exact ⟨rfl, by simpa using hw.getLast?, hhead⟩
    | cons d between =>
        obtain ⟨rfl, -⟩ := List.cons.inj hrest
        have hword := hw.2 c (List.mem_append_right front List.mem_cons_self)
        rw [hc] at hword
        cases hword

/-- A line of words starts with a word. -/
theorem head?_unwords {ws : List (List Char)} (h : ∀ w ∈ ws, IsWord w) (hne : ws ≠ []) :
    ∃ b ∈ (unwords ws).head?, isBlank b = false := by
  obtain ⟨w, ws, rfl⟩ := List.exists_cons_of_ne_nil hne
  have hw := h w List.mem_cons_self
  by_cases hlast : ws = []
  · rw [hlast]
    simpa [unwords] using hw.head? []
  · rw [unwords_cons w hlast]
    exact hw.head? _

/-- A line of words has single blanks between them. -/
theorem unwords_singleSpaced {ws : List (List Char)} (h : ∀ w ∈ ws, IsWord w) :
    SingleSpaced (unwords ws) := by
  induction ws with
  | nil =>
      intro front c back htext
      simp [unwords] at htext
  | cons w ws ih =>
      obtain ⟨hw, hws⟩ := List.forall_mem_cons.1 h
      by_cases hlast : ws = []
      · rw [hlast]
        exact singleSpaced_of_isWord hw
      · rw [unwords_cons w hlast]
        exact .cons hw (ih hws) (head?_unwords hws hlast)

/-- Nothing in a text that is single spaced ends a line. -/
theorem SingleSpaced.unbroken {cs : List Char} (h : SingleSpaced cs) {c : Char} (hc : c ∈ cs) :
    isLineBreak c = false := by
  by_contra hbreak
  rw [Bool.not_eq_false] at hbreak
  obtain ⟨front, back, rfl⟩ := List.append_of_mem hc
  obtain ⟨rfl, -⟩ := h front c back rfl (isBlank_of_isLineBreak hbreak)
  revert hbreak
  decide

/-- A text in one line has the words that it had. -/
theorem words_singleLine (s : String) : words (singleLine s).toList = words s.toList := by
  rw [singleLine, String.toList_ofList]
  exact words_unwords fun w hw => isWord_of_mem_words hw

/-- **A text on one line.** Its blanks are single spaces between words, nothing in it ends a line,
and it has the words of the text, with all characters that are not blank. Putting it on one line
again changes nothing. -/
theorem singleLine_flat (s : String) :
    SingleSpaced (singleLine s).toList ∧
      (∀ c ∈ (singleLine s).toList, isLineBreak c = false) ∧
      words (singleLine s).toList = words s.toList ∧
      ((singleLine s).toList.filter fun c => !isBlank c) = (s.toList.filter fun c => !isBlank c) ∧
      singleLine (singleLine s) = singleLine s := by
  have hspaced : SingleSpaced (singleLine s).toList := by
    rw [singleLine, String.toList_ofList]
    exact unwords_singleSpaced fun w hw => isWord_of_mem_words hw
  refine ⟨hspaced, fun c hc => hspaced.unbroken hc, words_singleLine s, ?_, ?_⟩
  · rw [← flatten_words, ← flatten_words, words_singleLine]
  · rw [singleLine, words_singleLine, ← singleLine]

end SceneMarkup.Text
