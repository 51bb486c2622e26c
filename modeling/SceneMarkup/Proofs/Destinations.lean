import SceneMarkup.Proofs.Escapes
import SceneMarkup.Proofs.OneLine
import SceneMarkup.Service.Address

/-!
# Plain paths

A path of the service is divided, escaped, brought into normal form and read again on its way to a
destination. For a path of letters, digits and slashes nothing of this changes anything: the
destination is the path itself.
-/

namespace SceneMarkup

open Text

/-- A path of letters, digits and slashes that starts with exactly one slash. -/
def IsPlainPath (cs : List Char) : Prop :=
  ∃ c rest, cs = '/' :: c :: rest ∧ isAsciiAlphanum c = true ∧
    ∀ d ∈ rest, isAsciiAlphanum d = true ∨ d = '/'

theorem IsPlainPath.mem {cs : List Char} (h : IsPlainPath cs) :
    ∀ c ∈ cs, isAsciiAlphanum c = true ∨ c = '/' := by
  obtain ⟨c, rest, rfl, hc, hrest⟩ := h
  exact List.forall_mem_cons.2 ⟨.inr rfl, List.forall_mem_cons.2 ⟨.inl hc, hrest⟩⟩

/-- What is neither a letter nor a digit nor a slash does not stand in a plain path. -/
theorem IsPlainPath.ne {cs : List Char} (h : IsPlainPath cs) {c : Char} (hc : c ∈ cs)
    {d : Char} (hd : isAsciiAlphanum d = false) (hslash : d ≠ '/') : c ≠ d := by
  rintro rfl
  rcases h.mem c hc with halnum | rfl
  · simp [hd] at halnum
  · exact hslash rfl

namespace Text.Percent

theorem encodeChar_of_safe
    {safe : Char → Bool} {c : Char} (h : isUnreserved c = true ∨ safe c = true) :
    encodeChar safe c = [c] := by
  rw [encodeChar, if_pos (by simpa using h)]

theorem encode_of_safe
    {safe : Char → Bool} (cs : List Char)
    (h : ∀ c ∈ cs, isUnreserved c = true ∨ safe c = true) :
    encode safe cs = cs := by
  -- along `encode`, which looks for an escape at three characters at once
  induction cs using encode.induct with
  | case1 => rfl
  | case2 c =>
      rw [encode, encodeChar_of_safe (h c List.mem_cons_self)]
  | case3 c d =>
      simp only [List.forall_mem_cons] at h
      rw [encode, encodeChar_of_safe h.1, encodeChar_of_safe h.2.1, List.singleton_append]
  | case4 c k l rest hescape ih =>
      simp only [List.forall_mem_cons] at h
      rw [encode, if_pos hescape, ih h.2.2.2]
  | case5 c k l rest hescape ih =>
      obtain ⟨hc, hrest⟩ := List.forall_mem_cons.1 h
      rw [encode, if_neg hescape, encodeChar_of_safe hc, ih hrest, List.singleton_append]

theorem decode_of_plain (cs : List Char) (h : ∀ c ∈ cs, c ≠ '%') : decode cs = cs := by
  induction cs with
  | nil => rfl
  | cons c rest ih =>
      obtain ⟨hc, hrest⟩ := List.forall_mem_cons.1 h
      rw [decode_cons hc, ih hrest]

end Text.Percent

namespace Address

/-- A plain path is a path and nothing else: no scheme, authority, query or fragment. -/
theorem ofText_plain {cs : List Char} (h : IsPlainPath cs) :
    Parts.ofText cs = ⟨[], none, cs, none, none⟩ := by
  have hin : ∀ c ∈ cs, (decide (c ≠ '?' ∧ c ≠ '#')) = true := by
    intro c hc
    simpa using ⟨h.ne hc (by decide) (by decide), h.ne hc (by decide) (by decide)⟩
  have htake : (cs.takeWhile fun c => decide (c ≠ '?' ∧ c ≠ '#')) = cs :=
    List.takeWhile_eq_self_iff.2 hin
  have hdrop : (cs.dropWhile fun c => decide (c ≠ '?' ∧ c ≠ '#')) = [] :=
    List.dropWhile_eq_nil_iff.2 hin
  obtain ⟨c, rest, rfl, hc, -⟩ := h
  have hslash : c ≠ '/' := by
    rintro rfl
    exact absurd hc (by decide)
  have hscheme : splitScheme ('/' :: c :: rest) = ([], '/' :: c :: rest) := by
    rw [splitScheme, if_neg (by decide), if_neg (by decide)]
  simp only [Parts.ofText, hscheme]
  split
  next heq => 
    cases heq
    exact absurd rfl hslash
  next => simp only [htake, hdrop, behind]; rfl

/-- Parts without points stay where they are. -/
theorem resolve_plain
    {parts : List (List Char)} (h : ∀ p ∈ parts, '.' ∉ p) (before : List (List Char)) :
    resolve before parts = before.reverse ++ parts := by
  induction parts generalizing before with
  | nil => simp [resolve]
  | cons p parts ih =>
      obtain ⟨hp, hparts⟩ := List.forall_mem_cons.1 h
      have hone : p ≠ ['.'] := by
        rintro rfl
        exact hp (by simp)
      have htwo : p ≠ ['.', '.'] := by
        rintro rfl
        exact hp (by simp)
      rw [resolve, if_neg hone, if_neg htwo, ih hparts]
      simp

/-- Parts between slashes make the text again. -/
theorem joinParts_splitBy (cs : List Char) : joinParts (splitBy (· == '/') cs) = cs := by
  induction cs with
  | nil => rfl
  | cons c rest ih =>
      have hne : splitBy (· == '/') rest ≠ [] :=
        splitBy_eq_splitOnP _ rest ▸ List.splitOnP_ne_nil _ rest
      obtain ⟨part, parts, hsplit⟩ := List.exists_cons_of_ne_nil hne
      rw [hsplit] at ih
      by_cases hc : c = '/'
      · rw [splitBy, if_pos (by simpa using hc), hsplit, hc]
        show '/' :: joinParts (part :: parts) = _
        rw [ih]
      · rw [splitBy, if_neg (by simpa using hc), hsplit]
        cases parts with
        | nil => rw [joinParts] at ih ⊢; rw [ih]
        | cons next parts =>
            show c :: joinParts (part :: next :: parts) = _
            rw [ih]

theorem normalPath_of_no_point {cs : List Char} (h : '.' ∉ cs) : normalPath cs = cs := by
  have hparts : ∀ p ∈ splitBy (· == '/') cs, '.' ∉ p := by
    intro p hp hmem
    have hflat : '.' ∈ (splitBy (· == '/') cs).flatten := List.mem_flatten.2 ⟨p, hp, hmem⟩
    rw [flatten_splitBy] at hflat
    exact h (List.mem_filter.1 hflat).1
  rw [normalPath, resolve_plain hparts, List.reverse_nil, List.nil_append, joinParts_splitBy]

theorem normalPath_of_plain {cs : List Char} (h : IsPlainPath cs) :
    normalPath cs = cs :=
  normalPath_of_no_point fun hmem => h.ne hmem (by decide) (by decide) rfl

/-- A path of safe characters is escaped as it is. -/
theorem path_of_escaped
    {safe : Char → Bool} {cs : List Char} {text : String} (h : escaped safe cs = .ok text)
    (hsafe : ∀ c ∈ cs, Percent.isUnreserved c = true ∨ safe c = true) :
    text.toList = cs := by
  unfold escaped at h
  split at h
  · cases h
    rw [String.toList_ofList, Percent.encode_of_safe cs hsafe]
  · cases h

/-- A plain path is the path of the address that is read from it. -/
theorem path_of_read_plain
    {text : String} {a : Address} (h : IsPlainPath text.toList) (hread : read text = .ok a) :
    a.path.toList = text.toList := by
  have hsafe : ∀ c ∈ text.toList, Percent.isUnreserved c = true ∨ isPathSafe c = true := by
    intro c hc
    rcases h.mem c hc with halnum | rfl
    · exact .inl (by simp [Percent.isUnreserved, halnum])
    · exact .inr (by decide)
  have hauthority : splitAuthority [] = ([], [], []) := rfl
  have huser : escaped isUserSafe [] = .ok "" := rfl
  have hhost : Host.read? [] = some [] := rfl
  have hport : port? [] [] = .ok none := rfl
  unfold read at hread
  split at hread
  · rw [ofText_plain h] at hread
    simp only [ofParts, Option.getD_none, hauthority, huser, hhost, hport, normalPath_of_plain h,
      ite_self, Bind.bind, Except.bind] at hread
    split at hread
    · cases hescaped : escaped isPathSafe text.toList with
      | error e =>
          rw [hescaped] at hread
          cases hread
      | ok path =>
          rw [hescaped] at hread
          cases hread
          exact path_of_escaped hescaped hsafe
    · cases hread
  · cases hread

/-- What follows the authority of a plain path is this path. -/
theorem tail_of_read_plain
    {text : String} {a : Address} (h : IsPlainPath text.toList) (hread : read text = .ok a) :
    a.tail = text := by
  have hself := path_of_read_plain h hread
  obtain ⟨c, rest, htext, hc, -⟩ := h
  have hslash : (c == '/') = false := by
    rw [beq_eq_false_iff_ne]
    rintro rfl
    exact absurd hc (by decide)
  have hdrop : ('/' :: c :: rest).dropWhile (· == '/') = c :: rest := by
    rw [List.dropWhile_cons_of_pos (by decide), List.dropWhile_cons_of_neg (by simp [hslash])]
  rw [tail, hself, htext, hdrop, ← htext, String.ofList_toList]

/-- A plain path has no escapes to read. -/
theorem plainPath_of_plain {text : String} (h : IsPlainPath text.toList) :
    plainPath text = text := by
  have hne : text ≠ "" := by
    rintro rfl
    obtain ⟨c, rest, htext, -⟩ := h
    cases htext
  rw [plainPath, if_neg hne,
    Percent.decode_of_plain _ fun c hc => h.ne hc (by decide) (by decide), String.ofList_toList]

end Address

namespace Destination

open Address

/-- **A plain path is its own destination.** -/
theorem address_of_plain
    {path : String} {given : List (String × String)} {d : Destination}
    (h : IsPlainPath path.toList) (hd : ofPath path given = .ok d) :
    d.address = path := by
  unfold ofPath at hd
  cases hread : Address.read path with
  | error e =>
      rw [hread] at hd
      cases hd
  | ok a =>
      simp only [hread, tail_of_read_plain h hread, normalPath_of_plain h, String.ofList_toList,
        plainPath_of_plain h, Bind.bind, Except.bind] at hd
      split at hd
      · split at hd
        · cases hd
        · cases hd
          rfl
      · cases hd

end Destination
end SceneMarkup
