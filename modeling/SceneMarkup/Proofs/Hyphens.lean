import Mathlib.Data.List.Basic
import Mathlib.Data.List.TakeWhile
import SceneMarkup.Text.Identifier

/-!
# Pieces between hyphens

Kebab case is reached in stages: an ampersand is spelled out, what is not admitted becomes a hyphen,
runs of hyphens become single ones, and those at the two ends go. All that the stages do to a name
shows in its pieces between hyphens, and none of them but the first one changes the pieces that are
not empty.

* `pieces`: the pieces of a text between separators, without the empty ones.
* `pieces_fuseRuns`: making one hyphen of each run changes no piece.
* `nil_notMem_splitOn_iff`: a text has no empty piece between hyphens if and only if its hyphens
  stand single and inside the text.
* `kebab_eq`: the stages come to the pieces of the name, character by character, with single hyphens
  between them.
-/

namespace SceneMarkup.Text

/-- The pieces of a text between separators, without the empty ones. -/
def pieces (p : Char → Bool) (cs : List Char) : List (List Char) :=
  (splitBy p cs).filter (· ≠ [])

/-- A character of a name in kebab case; what an identifier does not admit is a hyphen. -/
def kebabChar (c : Char) : List Char :=
  if c = '&' then ['-', 'a', 'n', 'd', '-']
  else if isAsciiAlphanum c || c == '_' then [lowerAscii c]
  else ['-']

/-- Pieces with single hyphens between them. -/
def hyphenate : List (List Char) → List Char
  | [] => []
  | [w] => w
  | w :: ws => w ++ '-' :: hyphenate ws

/-- The name that is made of pieces, `unnamed` when there are none. -/
def nameOf (ws : List (List Char)) : String :=
  if ws = [] then "unnamed" else String.ofList (guardDigit (hyphenate ws))

theorem splitBy_eq_splitOnP (p : Char → Bool) (cs : List Char) :
    splitBy p cs = cs.splitOnP p := by
  induction cs with
  | nil => rfl
  | cons c rest ih =>
      obtain ⟨piece, rest', hrest⟩ := List.exists_cons_of_ne_nil (List.splitOnP_ne_nil p rest)
      rw [splitBy, List.splitOnP_cons_eq_if_modifyHead, ih, hrest]
      rfl

/-- A piece between separators holds characters of the text, and none of them separates. -/
theorem mem_splitBy
    {p : Char → Bool} :
    ∀ {cs w : List Char} {c : Char}, w ∈ splitBy p cs → c ∈ w → c ∈ cs ∧ p c = false
  | [], w, c, hw, hc => by
      simp only [splitBy, List.mem_singleton] at hw
      simp [hw] at hc
  | d :: rest, w, c, hw, hc => by
      have hrest : ∀ {v}, v ∈ splitBy p rest → c ∈ v → c ∈ d :: rest ∧ p c = false := by
        intro v hv hcv
        obtain ⟨hmem, hp⟩ := mem_splitBy hv hcv
        exact ⟨List.mem_cons_of_mem d hmem, hp⟩
      simp only [splitBy] at hw
      split at hw
      · rcases List.mem_cons.1 hw with rfl | hw
        · cases hc
        · exact hrest hw hc
      · rename_i hd
        have hself : d ∈ d :: rest ∧ p d = false := by simpa using hd
        split at hw
        · obtain rfl := List.mem_singleton.1 hw
          obtain rfl := List.mem_singleton.1 hc
          exact hself
        · rename_i piece pieces hsplit
          rcases List.mem_cons.1 hw with rfl | hw
          · rcases List.mem_cons.1 hc with rfl | hc
            · exact hself
            · exact hrest (hsplit ▸ List.mem_cons_self) hc
          · exact hrest (hsplit ▸ List.mem_cons_of_mem piece hw) hc

/-- A piece is not empty and holds no separator. -/
theorem mem_pieces {p : Char → Bool} {cs w : List Char} (hw : w ∈ pieces p cs) :
    w ≠ [] ∧ ∀ c ∈ w, p c = false := by
  obtain ⟨hmem, hne⟩ := List.mem_filter.1 hw
  exact ⟨by simpa using hne, fun c hc => (mem_splitBy hmem hc).2⟩

/-- Pieces end at every separator. -/
theorem pieces_append_cons
    {p : Char → Bool} (cs : List Char) {c : Char} (hc : p c = true) (ds : List Char) :
    pieces p (cs ++ c :: ds) = pieces p cs ++ pieces p ds := by
  simp only [pieces, splitBy_eq_splitOnP, List.splitOnP_append_cons cs ds hc, List.filter_append]

/-- Separators at the two ends of a text leave no pieces. -/
theorem pieces_between_separators
    {p : Char → Bool} {front : List Char} (hfront : ∀ c ∈ front, p c = true)
    (cs : List Char) {back : List Char} (hback : ∀ c ∈ back, p c = true) :
    pieces p (front ++ cs ++ back) = pieces p cs := by
  induction front with
  | cons c rest ih =>
      rw [List.forall_mem_cons] at hfront
      rw [List.cons_append, List.cons_append, ← List.nil_append (c :: _),
        pieces_append_cons [] hfront.1, ih hfront.2]
      rfl
  | nil =>
      rw [List.nil_append]
      induction back generalizing cs with
      | nil => rw [List.append_nil]
      | cons c rest ih =>
          rw [List.forall_mem_cons] at hback
          rw [pieces_append_cons cs hback.1, ← List.nil_append rest, ih [] hback.2]
          exact List.append_nil _

/-- What trimming takes away are characters of the class. -/
theorem trimBy_spec (p : Char → Bool) (cs : List Char) :
    ∃ front back, cs = front ++ trimBy p cs ++ back ∧
      (∀ c ∈ front, p c = true) ∧ ∀ c ∈ back, p c = true := by
  have hclass : ∀ ds : List Char, ∀ c ∈ ds.takeWhile p, p c = true :=
    fun ds c hc => List.mem_takeWhile_imp hc
  refine ⟨cs.takeWhile p, ((cs.dropWhile p).reverse.takeWhile p).reverse, ?_, hclass cs, ?_⟩
  · rw [trimBy, List.append_assoc, ← List.reverse_append, List.takeWhile_append_dropWhile,
      List.reverse_reverse, List.takeWhile_append_dropWhile]
  · intro c hc
    exact hclass _ c (List.mem_reverse.1 hc)

theorem kebabChar_of_isBlank {c : Char} (h : isBlank c = true) : kebabChar c = ['-'] := by
  have hother : c ≠ '&' ∧ isAsciiAlphanum c = false ∧ c ≠ '_' := by
    refine ⟨?_, ?_, ?_⟩
    · rintro rfl
      revert h
      decide
    · simp only [isBlank, isWhiteSpace, Bool.or_eq_true, Bool.and_eq_true, decide_eq_true_eq,
        beq_iff_eq] at h
      simp only [isAsciiAlphanum, Bool.or_eq_false_iff, Bool.and_eq_false_iff,
        decide_eq_false_iff_not]
      omega
    · rintro rfl
      revert h
      decide
  simp [kebabChar, hother]

theorem splitOn_cons (c : Char) (cs : List Char) :
    (c :: cs).splitOn '-' =
      if c = '-' then [] :: cs.splitOn '-' else (cs.splitOn '-').modifyHead (c :: ·) := by
  simp only [List.splitOn_cons_eq_if_modifyHead, beq_iff_eq]

theorem splitOn_append_hyphen (cs ds : List Char) :
    (cs ++ '-' :: ds).splitOn '-' = cs.splitOn '-' ++ ds.splitOn '-' :=
  List.splitOnP_append_cons cs ds rfl

/-- The first piece is empty only if the text is, or if it starts with a hyphen. -/
theorem nil_mem_splitOn {cs : List Char} (h : [] ∈ cs.splitOn '-') :
    cs = [] ∨ cs.head? = some '-' ∨ [] ∈ (cs.splitOn '-').tail := by
  cases cs with
  | nil => exact .inl rfl
  | cons c rest =>
      by_cases hc : c = '-'
      · exact .inr (.inl (by rw [hc]; rfl))
      · rw [splitOn_cons, if_neg hc] at h ⊢
        right
        right
        cases hpieces : rest.splitOn '-' with
        | nil => simp [hpieces] at h
        | cons piece pieces => simpa [hpieces] using h

/-- A later piece is empty only at a hyphen that ends the text, or between two hyphens. -/
theorem nil_mem_tail_splitOn {cs : List Char} (h : [] ∈ (cs.splitOn '-').tail) :
    cs.getLast? = some '-' ∨ ['-', '-'] <:+: cs := by
  induction cs with
  | nil => cases h
  | cons c rest ih =>
      have hlater : [] ∈ (rest.splitOn '-').tail →
          (c :: rest).getLast? = some '-' ∨ ['-', '-'] <:+: c :: rest := by
        intro hrest
        rcases ih hrest with hlast | hdouble
        · exact .inl (by rw [List.getLast?_cons, hlast]; rfl)
        · exact .inr (hdouble.trans (List.suffix_cons c rest).isInfix)
      rw [splitOn_cons] at h
      split at h
      next hc =>
        subst hc
        rcases nil_mem_splitOn h with rfl | hhead | hrest
        · exact .inl rfl
        · obtain ⟨ds, rfl⟩ := List.head?_eq_some_iff.1 hhead
          exact .inr ⟨[], ds, rfl⟩
        · exact hlater hrest
      next => exact hlater (by simpa [List.tail_modifyHead] using h)

/-- No piece is empty if and only if the hyphens stand single and inside the text. -/
theorem nil_notMem_splitOn_iff {cs : List Char} :
    [] ∉ cs.splitOn '-' ↔
      cs ≠ [] ∧ cs.head? ≠ some '-' ∧ cs.getLast? ≠ some '-' ∧ ¬ ['-', '-'] <:+: cs := by
  constructor
  · intro h
    refine ⟨?_, ?_, ?_, ?_⟩
    · rintro rfl
      exact h List.mem_cons_self
    · intro hhead
      obtain ⟨ds, rfl⟩ := List.head?_eq_some_iff.1 hhead
      exact h List.mem_cons_self
    · intro hlast
      obtain ⟨ds, rfl⟩ := List.getLast?_eq_some_iff.1 hlast
      rw [splitOn_append_hyphen] at h
      exact h (List.mem_append_right _ List.mem_cons_self)
    · rintro ⟨ds, es, rfl⟩
      rw [List.append_assoc, List.cons_append, splitOn_append_hyphen] at h
      exact h (List.mem_append_right _ List.mem_cons_self)
  · rintro ⟨hne, hhead, hlast, hdouble⟩ hmem
    rcases nil_mem_splitOn hmem with hnil | hhyphen | htail
    · exact hne hnil
    · exact hhead hhyphen
    · exact (nil_mem_tail_splitOn htail).elim hlast hdouble

theorem hyphenate_eq_intercalate (ws : List (List Char)) : hyphenate ws = ['-'].intercalate ws := by
  induction ws with
  | nil => rfl
  | cons w rest ih =>
      cases rest with
      | nil => exact List.intercalate_singleton.symm
      | cons v rest =>
          rw [List.intercalate_cons_cons, List.append_assoc, ← ih]
          rfl

/-- Pieces that are not empty make a text that is not empty. -/
theorem hyphenate_ne_nil {ws : List (List Char)} (hne : ws ≠ []) (h : ∀ w ∈ ws, w ≠ []) :
    hyphenate ws ≠ [] := by
  match ws with
  | [] => exact absurd rfl hne
  | [w] => exact h w (List.mem_singleton_self w)
  | w :: v :: rest => simp [hyphenate]

/-- Hyphens stay what they are when letters are written in lower case. -/
theorem lowerAscii_eq_hyphen_iff (c : Char) : lowerAscii c = '-' ↔ c = '-' := by
  have hlower : ∀ k < 26, Char.ofNat (65 + k + 32) ≠ '-' := by decide
  unfold lowerAscii
  dsimp only
  split
  next hupper =>
    have hne := hlower (c.toNat - 65) (by omega)
    rw [show 65 + (c.toNat - 65) = c.toNat by omega] at hne
    refine iff_of_false hne ?_
    rintro rfl
    revert hupper
    decide
  next => exact Iff.rfl

/-- Characters that keep hyphens apart from all others keep the pieces apart. -/
theorem splitBy_map {f : Char → Char} (hf : ∀ c, f c = '-' ↔ c = '-') (cs : List Char) :
    splitBy (· == '-') (cs.map f) = (splitBy (· == '-') cs).map (List.map f) := by
  induction cs with
  | nil => rfl
  | cons c cs ih =>
      rw [List.map_cons, splitBy, splitBy, ih]
      by_cases hc : c = '-'
      · rw [if_pos (by simpa using (hf c).2 hc), if_pos (by simpa using hc)]
        rfl
      · rw [if_neg (by simpa using mt (hf c).1 hc), if_neg (by simpa using hc)]
        cases splitBy (· == '-') cs with
        | nil => rfl
        | cons piece pieces => rfl

theorem pieces_map {f : Char → Char} (hf : ∀ c, f c = '-' ↔ c = '-') (cs : List Char) :
    pieces (· == '-') (cs.map f) = (pieces (· == '-') cs).map (List.map f) := by
  rw [pieces, splitBy_map hf, List.filter_map]
  congr 1
  refine List.filter_congr fun w _ => ?_
  simp

theorem hyphenate_map {f : Char → Char} (hf : f '-' = '-') (ws : List (List Char)) :
    hyphenate (ws.map (List.map f)) = (hyphenate ws).map f := by
  induction ws with
  | nil => rfl
  | cons w rest ih =>
      cases rest with
      | nil => rfl
      | cons v rest =>
          show w.map f ++ '-' :: hyphenate ((v :: rest).map (List.map f)) =
            (w ++ '-' :: hyphenate (v :: rest)).map f
          rw [ih, List.map_append, List.map_cons, hf]

/-- A text in which the characters of a class are hyphens. -/
def hyphened (p : Char → Bool) (cs : List Char) : List Char :=
  cs.map fun c => if p c then '-' else c

/-- A text before a hyphen or the end, and the pieces behind it. -/
def firstPiece (cs : List Char) : List Char × List (List Char) :=
  ((splitBy (· == '-') cs).headD [], (splitBy (· == '-') cs).tail.filter (· ≠ []))

theorem firstPiece_cons_hyphen (cs : List Char) :
    firstPiece ('-' :: cs) = ([], pieces (· == '-') cs) := rfl

theorem firstPiece_cons {c : Char} (hc : c ≠ '-') (cs : List Char) :
    firstPiece (c :: cs) = (c :: (firstPiece cs).1, (firstPiece cs).2) := by
  rw [firstPiece, splitBy, if_neg (by simpa using hc), firstPiece]
  cases splitBy (· == '-') cs with
  | nil => rfl
  | cons piece pieces => rfl

/-- The first piece and those behind it are all pieces. -/
theorem pieces_eq_of_firstPiece {cs ds : List Char} (h : firstPiece cs = firstPiece ds) :
    pieces (· == '-') cs = pieces (· == '-') ds := by
  have hcons : ∀ es, pieces (· == '-') es =
      ((firstPiece es).1 :: (firstPiece es).2).filter (· ≠ []) := by
    intro es
    have hne : splitBy (· == '-') es ≠ [] := by
      rw [splitBy_eq_splitOnP]
      exact List.splitOnP_ne_nil _ es
    obtain ⟨piece, pieces', hsplit⟩ := List.exists_cons_of_ne_nil hne
    rw [pieces, firstPiece, hsplit, List.headD_cons, List.tail_cons, List.filter_cons,
      List.filter_cons, List.filter_filter]
    simp only [Bool.and_self]
  rw [hcons, hcons, h]

/-- One hyphen for each run of a class leaves the pieces that the class leaves. Behind a hyphen,
where a run goes on, this holds of all pieces; elsewhere the first one may go on as well. -/
theorem pieces_fuseRuns (p : Char → Bool) (cs : List Char) :
    firstPiece (fuseRuns p '-' false cs) = firstPiece (hyphened p cs) ∧
      pieces (· == '-') (fuseRuns p '-' true cs) = pieces (· == '-') (hyphened p cs) := by
  induction cs with
  | nil => exact ⟨rfl, rfl⟩
  | cons c cs ih =>
      obtain ⟨hfirst, hpieces⟩ := ih
      by_cases hc : p c = true
      · have hhyphen : hyphened p (c :: cs) = '-' :: hyphened p cs := by simp [hyphened, hc]
        have hstart : fuseRuns p '-' false (c :: cs) = '-' :: fuseRuns p '-' true cs := by
          simp [fuseRuns, hc]
        have hgoes : fuseRuns p '-' true (c :: cs) = fuseRuns p '-' true cs := by
          simp [fuseRuns, hc]
        rw [hhyphen, hstart, hgoes]
        exact ⟨by rw [firstPiece_cons_hyphen, firstPiece_cons_hyphen, hpieces], hpieces⟩
      · have hkept : hyphened p (c :: cs) = c :: hyphened p cs := by simp [hyphened, hc]
        have hends : ∀ within, fuseRuns p '-' within (c :: cs) = c :: fuseRuns p '-' false cs := by
          intro within
          simp [fuseRuns, hc]
        have hsame : firstPiece (c :: fuseRuns p '-' false cs) =
            firstPiece (c :: hyphened p cs) := by
          by_cases hhyphen : c = '-'
          · subst hhyphen
            rw [firstPiece_cons_hyphen, firstPiece_cons_hyphen, pieces_eq_of_firstPiece hfirst]
          · rw [firstPiece_cons hhyphen, firstPiece_cons hhyphen, hfirst]
        rw [hkept, hends, hends]
        exact ⟨hsame, pieces_eq_of_firstPiece hsame⟩

/-- In a text with fused hyphens no two stand side by side. -/
theorem fuseRuns_single (cs : List Char) :
    ¬ ['-', '-'] <:+: fuseRuns (· == '-') '-' false cs ∧
      ¬ ['-', '-'] <:+: fuseRuns (· == '-') '-' true cs ∧
      (fuseRuns (· == '-') '-' true cs).head? ≠ some '-' := by
  induction cs with
  | nil => exact ⟨by decide, by decide, nofun⟩
  | cons c cs ih =>
      obtain ⟨hfalse, htrue, hhead⟩ := ih
      by_cases hc : c = '-'
      · subst hc
        refine ⟨?_, htrue, hhead⟩
        show ¬ ['-', '-'] <:+: '-' :: fuseRuns (· == '-') '-' true cs
        rw [List.infix_cons_iff, List.cons_prefix_cons]
        rintro (⟨-, hprefix⟩ | hinfix)
        · obtain ⟨rest, hrest⟩ := hprefix
          rw [← hrest] at hhead
          exact hhead rfl
        · exact htrue hinfix
      · have hends : ∀ within,
            fuseRuns (· == '-') '-' within (c :: cs) = c :: fuseRuns (· == '-') '-' false cs := by
          intro within
          simp [fuseRuns, hc]
        have hnone : ¬ ['-', '-'] <:+: c :: fuseRuns (· == '-') '-' false cs := by
          rw [List.infix_cons_iff, List.cons_prefix_cons]
          rintro (⟨rfl, -⟩ | hinfix)
          · exact hc rfl
          · exact hfalse hinfix
        rw [hends, hends]
        exact ⟨hnone, hnone, by simpa using hc⟩

/-- A trimmed text has no character of the class at its two ends. -/
theorem trimBy_ends (p : Char → Bool) (cs : List Char) :
    (∀ c, (trimBy p cs).head? = some c → p c = false) ∧
      ∀ c, (trimBy p cs).getLast? = some c → p c = false := by
  have hdropped : ∀ (ds : List Char) (c : Char), (ds.dropWhile p).head? = some c → p c = false := by
    intro ds c hhead
    have hnot := List.head?_dropWhile_not p ds
    rw [hhead] at hnot
    simpa using hnot
  constructor
  · intro c hhead
    have hprefix : trimBy p cs <+: cs.dropWhile p := by
      rw [trimBy, ← List.reverse_suffix, List.reverse_reverse]
      exact List.dropWhile_suffix p
    obtain ⟨rest, hrest⟩ := hprefix
    refine hdropped cs c ?_
    rw [← hrest, List.head?_append, hhead]
    rfl
  · intro c hlast
    rw [trimBy, List.getLast?_reverse] at hlast
    exact hdropped _ c hlast

/-- Where hyphens are single and inside, the text is made of its pieces again. -/
theorem hyphenate_pieces {cs : List Char} (h : cs = [] ∨ [] ∉ cs.splitOn '-') :
    hyphenate (pieces (· == '-') cs) = cs := by
  rcases h with rfl | hfull
  · rfl
  · have hpieces : pieces (· == '-') cs = cs.splitOn '-' := by
      rw [pieces, splitBy_eq_splitOnP]
      refine List.filter_eq_self.2 fun w hw => ?_
      have hne : w ≠ [] := by
        rintro rfl
        exact hfull hw
      simpa using hne
    rw [hpieces, hyphenate_eq_intercalate]
    exact List.intercalate_splitOn '-'

/-- The stages on hyphens leave the pieces of a text with single ones between them. -/
theorem trimBy_fuseRuns (cs : List Char) :
    trimBy (· == '-') (fuseRuns (· == '-') '-' false cs) = hyphenate (pieces (· == '-') cs) := by
  have hhyphened : hyphened (· == '-') cs = cs := by
    rw [hyphened]
    refine (List.map_congr_left fun c _ => ?_).trans (List.map_id cs)
    split
    next hc => exact (by simpa using hc : c = '-').symm
    next => rfl
  have hfused := pieces_eq_of_firstPiece (pieces_fuseRuns (· == '-') cs).1
  rw [hhyphened] at hfused
  obtain ⟨front, back, hcs, hfront, hback⟩ :=
    trimBy_spec (· == '-') (fuseRuns (· == '-') '-' false cs)
  have hpieces : pieces (· == '-') (trimBy (· == '-') (fuseRuns (· == '-') '-' false cs)) =
      pieces (· == '-') cs := by
    have htrimmed := pieces_between_separators hfront
      (trimBy (· == '-') (fuseRuns (· == '-') '-' false cs)) hback
    rw [← hcs] at htrimmed
    exact htrimmed.symm.trans hfused
  rw [← hpieces]
  refine (hyphenate_pieces ?_).symm
  by_cases hnil : trimBy (· == '-') (fuseRuns (· == '-') '-' false cs) = []
  · exact .inl hnil
  · obtain ⟨hhead, hlast⟩ := trimBy_ends (· == '-') (fuseRuns (· == '-') '-' false cs)
    refine .inr (nil_notMem_splitOn_iff.2 ⟨hnil, ?_, ?_, ?_⟩)
    · exact fun h => by simpa using hhead '-' h
    · exact fun h => by simpa using hlast '-' h
    · intro hdouble
      refine (fuseRuns_single cs).1 (hdouble.trans ?_)
      exact ⟨front, back, hcs.symm⟩

/-- A character goes through the stages by itself, but for what becomes of hyphens. -/
theorem kebabChar_eq (c : Char) :
    kebabChar c = (hyphened (fun c => !isAdmitted c) (spellAnd '-' c)).map lowerAscii := by
  unfold kebabChar spellAnd
  split
  · decide
  · by_cases hhyphen : c = '-'
    · subst hhyphen
      decide
    · cases hc : isAsciiAlphanum c || c == '_' with
      | true =>
          have hadmitted : isAdmitted c = true := by rw [isAdmitted, hc, Bool.true_or]
          simp [hyphened, hadmitted]
      | false =>
          have hadmitted : isAdmitted c = false := by
            rw [isAdmitted, hc, Bool.false_or]
            simpa using hhyphen
          simp [hyphened, hadmitted]
          decide

/-- The characters that go through by themselves make the text that goes through the first
stages. -/
theorem flatMap_kebabChar (cs : List Char) :
    cs.flatMap kebabChar =
      (hyphened (fun c => !isAdmitted c) (cs.flatMap (spellAnd '-'))).map lowerAscii := by
  rw [hyphened, List.map_flatMap, List.map_flatMap]
  exact List.flatMap_congr fun c _ => kebabChar_eq c

/-- Blanks around a name leave no pieces. -/
theorem pieces_trim (cs : List Char) :
    pieces (· == '-') ((trim cs).flatMap kebabChar) = pieces (· == '-') (cs.flatMap kebabChar) := by
  obtain ⟨front, back, hcs, hfront, hback⟩ := trimBy_spec isBlank cs
  have hhyphens : ∀ {ds : List Char}, (∀ c ∈ ds, isBlank c = true) →
      ∀ c ∈ ds.flatMap kebabChar, (c == '-') = true := by
    intro ds hds c hc
    obtain ⟨d, hd, hcd⟩ := List.mem_flatMap.1 hc
    rw [kebabChar_of_isBlank (hds d hd)] at hcd
    simpa using hcd
  have hpieces := pieces_between_separators (hhyphens hfront) ((trim cs).flatMap kebabChar)
    (hhyphens hback)
  have hname : front ++ trim cs ++ back = cs := hcs.symm
  rw [← List.flatMap_append, ← List.flatMap_append, hname] at hpieces
  exact hpieces.symm

/-- **The stages of kebab case come to pieces of characters.** A name is spelled character by
character, and the pieces of this are joined by single hyphens. -/
theorem kebab_eq (name : String) :
    kebab name = nameOf (pieces (· == '-') (name.toList.flatMap kebabChar)) := by
  unfold kebab
  dsimp only
  generalize hadmitted : fuseRuns (fun c => !isAdmitted c) '-' false
    ((trim name.toList).flatMap (spellAnd '-')) = admitted
  have hpieces : pieces (· == '-') (name.toList.flatMap kebabChar) =
      (pieces (· == '-') admitted).map (List.map lowerAscii) := by
    rw [← pieces_trim, flatMap_kebabChar, pieces_map lowerAscii_eq_hyphen_iff, ← hadmitted,
      pieces_eq_of_firstPiece (pieces_fuseRuns _ _).1]
  have hspelled : (trimBy (· == '-') (fuseRuns (· == '-') '-' false admitted)).map lowerAscii =
      hyphenate (pieces (· == '-') (name.toList.flatMap kebabChar)) := by
    rw [hpieces, hyphenate_map ((lowerAscii_eq_hyphen_iff '-').2 rfl), trimBy_fuseRuns]
  rw [hspelled]
  have hfull : ∀ w ∈ pieces (· == '-') (name.toList.flatMap kebabChar), w ≠ [] := by
    intro w hw
    simpa using (List.mem_filter.1 hw).2
  by_cases hws : pieces (· == '-') (name.toList.flatMap kebabChar) = []
  · rw [hws]
    rfl
  · obtain ⟨c, cs, hcs⟩ := List.exists_cons_of_ne_nil (hyphenate_ne_nil hws hfull)
    rw [nameOf, if_neg hws, hcs]

/-- A name in kebab case is `unnamed`, or single hyphens join what it is made of: pieces that are
not empty and hold no hyphen themselves. -/
theorem kebab_cases (name : String) :
    kebab name = "unnamed" ∨
      ∃ ws : List (List Char), ws ≠ [] ∧ (∀ w ∈ ws, w ≠ [] ∧ '-' ∉ w) ∧
        kebab name = String.ofList (guardDigit (hyphenate ws)) := by
  rw [kebab_eq, nameOf]
  split
  · exact .inl rfl
  next hne =>
    refine .inr ⟨_, hne, fun w hw => ?_, rfl⟩
    obtain ⟨hw, hnone⟩ := mem_pieces hw
    exact ⟨hw, fun hmem => by simpa using hnone '-' hmem⟩

end SceneMarkup.Text
