import SceneMarkup.Markup.Declaration
import SceneMarkup.Proofs.Hyphens

/-!
# Texts without line breaks

What markup is made of comes from many places: numbers, colors, names of a design, free text. A text
that contains a line break would tear its line in two. This file goes through all that a declaration
can be put together from.

* `kebab_chars`, `pascal_chars`: names are spelled with the characters of identifiers only, and so
  the path to a variable is a value (`path_isValue`).
* `newline_notMem_encode`: a literal escapes the line breaks of its text.
* `px_isValue`, `brush_inline`: numbers, colors and gradients are spelled in digits and marks.
* `singleLine_inline`: whatever a drawing contains, the remark that quotes it has one line.

What a fault of the program itself says is inline as well. What the fault of a host says is the
host's affair, and nothing is known of it.
-/

namespace SceneMarkup

/-- A text without a line break. -/
def Inline (s : String) : Prop := '\n' ∉ s.toList

instance (s : String) : Decidable (Inline s) :=
  inferInstanceAs (Decidable ('\n' ∉ s.toList))

@[simp] theorem inline_append {s t : String} :
    Inline (s ++ t) ↔ Inline s ∧ Inline t := by
  simp [Inline]

@[simp] theorem inline_ofList {cs : List Char} :
    Inline (String.ofList cs) ↔ '\n' ∉ cs := by
  simp [Inline]

/-- Joining texts brings no line break in that neither they nor what joins them has. -/
theorem inline_intercalate {separator : String} (hseparator : Inline separator) :
    ∀ {parts : List String}, (∀ s ∈ parts, Inline s) → Inline (separator.intercalate parts)
  | [], _ => by simp [Inline]
  | [s], h => by simpa using h s
  | s :: t :: rest, h => by
      have hrest : Inline (separator.intercalate (t :: rest)) :=
        inline_intercalate hseparator fun u hu => h u (List.mem_cons_of_mem _ hu)
      rw [String.intercalate_cons_cons]
      simp [h s, hseparator, hrest]

/-- A computation that succeeds has parts that do. -/
theorem ok_of_bind
    {ε α β : Type} {x : Except ε α} {k : α → Except ε β} {b : β} (h : x >>= k = .ok b) :
    ∃ a, x = .ok a ∧ k a = .ok b := by
  cases x with
  | ok a => exact ⟨a, rfl, h⟩
  | error e => cases h

/-- What can stand behind the name of a property. -/
structure IsValue (v : String) : Prop where
  ne_empty : v ≠ ""
  inline : Inline v

theorem ne_empty_append {s t : String} (h : s ≠ "" ∨ t ≠ "") : s ++ t ≠ "" := by
  intro hempty
  have hlist : s.toList ++ t.toList = [] := by
    simpa using congrArg String.toList hempty
  rw [List.append_eq_nil_iff] at hlist
  rcases h with h | h
  · exact h (String.toList_inj.1 (by simpa using hlist.1))
  · exact h (String.toList_inj.1 (by simpa using hlist.2))

/-- A value may be followed by any text without a line break. -/
theorem IsValue.append_left {s t : String} (hs : IsValue s) (ht : Inline t) :
    IsValue (s ++ t) :=
  ⟨ne_empty_append (.inl hs.ne_empty), inline_append.2 ⟨hs.inline, ht⟩⟩

theorem digitChar_ne_newline (n : Nat) : Nat.digitChar n ≠ '\n' := by
  by_cases hn : n < 16
  · have hdigit : ∀ m < 16, Nat.digitChar m ≠ '\n' := by decide
    exact hdigit n hn
  · have hstar : Nat.digitChar n = '*' := by
      simp only [Nat.digitChar]
      repeat rw [if_neg (by omega)]
    rw [hstar]
    decide

/-- Digits in any base are written without a line break. -/
theorem newline_notMem_toDigits {b : Nat} (hb : 1 < b) (n : Nat) :
    '\n' ∉ Nat.toDigits b n := by
  induction n using Nat.strongRecOn with
  | _ n ih =>
    rw [Nat.toDigits_eq_if hb]
    split
    · simp [(digitChar_ne_newline n).symm]
    · have hlower : n / b < n := Nat.div_lt_self (by omega) hb
      simp [ih (n / b) hlower, (digitChar_ne_newline (n % b)).symm]

theorem toString_int_inline (n : Int) : Inline (toString n) := by
  cases n with
  | ofNat m =>
      show Inline (String.ofList (Nat.toDigits 10 m))
      simpa using newline_notMem_toDigits (by omega) m
  | negSucc m =>
      show Inline ("-" ++ String.ofList (Nat.toDigits 10 (m + 1)))
      have hsign : Inline "-" := by decide
      simpa [hsign] using newline_notMem_toDigits (by omega) (m + 1)

namespace Decimal

theorem newline_notMem_dropTrailingZeros {ds : List Char} (h : '\n' ∉ ds) :
    '\n' ∉ dropTrailingZeros ds := by
  intro hmem
  have hkept : '\n' ∈ ds.reverse.dropWhile (· == '0') := by
    simpa [dropTrailingZeros] using hmem
  exact h (List.mem_reverse.1 ((List.dropWhile_suffix _).subset hkept))

theorem newline_notMem_padLeft {width : Nat} {ds : List Char} (h : '\n' ∉ ds) :
    '\n' ∉ Numeral.padLeft width ds := by
  simp [Numeral.padLeft, Numeral.zeros, h]

/-- A number with fixed places is digits and a point. -/
theorem newline_notMem_fixedText (units : Nat) (places : Int) :
    '\n' ∉ fixedText units places := by
  have hdigits : ∀ n, '\n' ∉ Numeral.digits n := newline_notMem_toDigits (by omega)
  unfold fixedText
  split
  · exact hdigits _
  · have hpadded :
        '\n' ∉ Numeral.padLeft places.toNat (Numeral.digits (units % pow10 places.toNat)) :=
      newline_notMem_padLeft (hdigits _)
    have hfraction := newline_notMem_dropTrailingZeros hpadded
    dsimp only
    generalize dropTrailingZeros _ = fraction at hfraction ⊢
    cases fraction with
    | nil => exact hdigits _
    | cons c cs =>
        simp only [List.mem_append, List.mem_cons, not_or] at hfraction ⊢
        exact ⟨hdigits _, by decide, hfraction⟩

theorem fixedText_ne_nil (units : Nat) (places : Int) : fixedText units places ≠ [] := by
  unfold fixedText
  split
  · exact Nat.toDigits_ne_nil
  · dsimp only
    split
    · exact Nat.toDigits_ne_nil
    · simp

/-- A decimal that is rounded to places and does not vanish is a value. -/
theorem toPlaces_isValue
    {d : Decimal} {places : Int} {t : String} (h : d.toPlaces places = .ok (some t)) :
    IsValue t := by
  obtain ⟨units, -, h⟩ := ok_of_bind h
  have hinline := newline_notMem_fixedText units places
  have hne := fixedText_ne_nil units places
  split at h
  · cases h
  · cases h
    constructor
    · intro hempty
      have hnil := congrArg String.toList hempty
      split at hnil
      · simp at hnil
      · exact hne (by simpa using hnil)
    · rw [inline_ofList]
      split
      · simpa using hinline
      · exact hinline

end Decimal

namespace Binary64

/-- A float that is rounded to places and does not vanish is a value. -/
theorem toPlaces_isValue
    {x : Binary64} {places : Int} {t : String} (h : x.toPlaces places = .ok (some t)) :
    IsValue t := by
  cases x with
  | nan =>
      cases h
      exact ⟨by decide, by decide⟩
  | infinite s => cases h
  | finite s m e hcanonical => exact Decimal.toPlaces_isValue h

/-- A length that does not vanish is a value. -/
theorem px_isValue {x : Binary64} {t : String} (h : x.px = .ok (some t)) : IsValue t := by
  unfold px at h
  split at h
  · cases h
  next number hnumber =>
    cases h
    exact (toPlaces_isValue hnumber).append_left (by decide)
  · cases h

end Binary64

theorem NumberFault.message_inline (f : NumberFault) : Inline f.message := by
  cases f <;> decide

theorem newline_notMem_padded (width n : Nat) : '\n' ∉ Text.Hex.padded width n := by
  have hdigits : '\n' ∉ Nat.toDigits 16 n := newline_notMem_toDigits (by omega) n
  simp [Text.Hex.padded, hdigits]

namespace Color

theorem newline_notMem_byteText (n : Int) : '\n' ∉ byteText n := by
  unfold byteText
  split
  · simp [newline_notMem_padded]
  · exact newline_notMem_padded _ _

/-- Channels are written in hexadecimal digits behind a hash. -/
theorem newline_notMem_channelText
    {c : Color} {cs : List Char} (h : c.channelText = .ok cs) :
    '\n' ∉ cs := by
  unfold channelText at h
  obtain ⟨r, -, h⟩ := ok_of_bind h
  obtain ⟨g, -, h⟩ := ok_of_bind h
  obtain ⟨b, -, h⟩ := ok_of_bind h
  cases h
  simp [newline_notMem_byteText]

/-- A color is written in hexadecimal digits, with or without its alpha. -/
theorem hex_inline
    {c : Color} {alpha : Binary64} {t : String} (h : c.hex alpha = .ok t) :
    Inline t := by
  unfold hex at h
  obtain ⟨channels, hchannels, h⟩ := ok_of_bind h
  have hinline := newline_notMem_channelText hchannels
  split at h
  · obtain ⟨a, -, h⟩ := ok_of_bind h
    cases h
    simp [hinline, newline_notMem_byteText]
  · cases h
    simpa using hinline

end Color

namespace Gradient

theorem stopText_inline {s : ColorStop} {t : String} (h : stopText s = .ok t) : Inline t := by
  unfold stopText at h
  obtain ⟨color, hcolor, h⟩ := ok_of_bind h
  obtain ⟨percent, -, h⟩ := ok_of_bind h
  cases h
  have hmarks : Inline " " ∧ Inline "%" := by decide
  simp only [inline_append]
  exact ⟨⟨⟨Color.hex_inline hcolor, hmarks.1⟩, toString_int_inline percent⟩, hmarks.2⟩

theorem stopTexts_inline :
    ∀ {stops : List ColorStop} {ts : List String},
      stopTexts stops = .ok ts → ∀ t ∈ ts, Inline t
  | [], ts, h => by
      cases h
      simp
  | s :: rest, ts, h => by
      unfold stopTexts at h
      obtain ⟨t, ht, h⟩ := ok_of_bind h
      obtain ⟨texts, htexts, h⟩ := ok_of_bind h
      cases h
      exact List.forall_mem_cons.2 ⟨stopText_inline ht, stopTexts_inline htexts⟩

theorem text_inline
    {name lead : String} {stops : List String}
    (hname : Inline name) (hlead : Inline lead) (hstops : ∀ t ∈ stops, Inline t) :
    Inline (text name lead stops) := by
  have hmarks : Inline "@" ∧ Inline "-gradient(" ∧ Inline ")" := by decide
  have hparts : Inline (", ".intercalate (lead :: stops)) :=
    inline_intercalate (by decide) (List.forall_mem_cons.2 ⟨hlead, hstops⟩)
  simp [text, hname, hparts, hmarks]

theorem linear_inline
    {stops : List ColorStop} {transform : List (List Binary64)} {t : String}
    (h : linear stops transform = .ok t) :
    Inline t := by
  unfold linear at h
  split at h
  · cases h
    decide
  · split at h
    · cases h
    · split at h
      · cases h
      · cases h
      next degrees texts _ htexts =>
        cases h
        have hdegrees : Inline (toString degrees ++ "deg") :=
          inline_append.2 ⟨toString_int_inline degrees, by decide⟩
        exact text_inline (by decide) hdegrees (stopTexts_inline htexts)

theorem radial_inline
    {stops : List ColorStop} {t : String} (h : radial stops = .ok t) :
    Inline t := by
  unfold radial at h
  split at h
  · cases h
    decide
  · split at h
    · cases h
    · rename_i texts htexts
      cases h
      exact text_inline (by decide) (by decide) (stopTexts_inline htexts)

end Gradient

namespace Paint

theorem drawn_inline
    {r : Except Fault String} {b : Brush} {t : String}
    (hr : ∀ s, r = .ok s → Inline s) (h : r.map Brush.drawn = .ok b) (ht : b.text? = some t) :
    Inline t := by
  cases r with
  | error f => cases h
  | ok s =>
      cases h
      cases ht
      exact hr _ rfl

theorem incomplete_inline
    {lack : Lack} {b : Brush} {t : String}
    (h : (.ok (.incomplete lack) : Except Fault Brush) = .ok b) (ht : b.text? = some t) :
    Inline t := by
  cases h
  cases ht
  decide

/-- Every brush has one line, since it is made of colors, stops and marks. -/
theorem brush_inline
    {p : Paint} {b : Brush} {t : String} (h : p.brush = .ok b) (ht : b.text? = some t) :
    Inline t := by
  unfold brush at h
  split at h
  · split at h
    · exact incomplete_inline h ht
    · split at h
      next hhex =>
        cases h
        cases ht
        exact Color.hex_inline hhex
      · cases h
  · split at h
    · split at h
      · exact incomplete_inline h ht
      · exact drawn_inline (fun _ => Gradient.linear_inline) h ht
    · split at h
      · split at h
        · exact incomplete_inline h ht
        · exact drawn_inline (fun _ => Gradient.radial_inline) h ht
      · cases h
        cases ht

end Paint

namespace Text

/-- The guard of a digit adds an underscore and nothing else. -/
theorem mem_guardDigit {cs : List Char} {c : Char} (h : c ∈ guardDigit cs) :
    c = '_' ∨ c ∈ cs := by
  cases cs with
  | nil => cases h
  | cons d rest =>
      simp only [guardDigit] at h
      split at h
      · simpa using h
      · exact .inr h

/-- The characters of names in kebab case. -/
def isKebabChar (c : Char) : Bool :=
  let n := c.toNat
  (97 ≤ n && n ≤ 122) || isAsciiDigit c || c == '_' || c == '-'

theorem lowerAscii_isKebabChar {c : Char} (h : isAsciiAlphanum c ∨ c = '_') :
    isKebabChar (lowerAscii c) = true := by
  have hlower : ∀ k < 26, isKebabChar (Char.ofNat (65 + k + 32)) = true := by decide
  rcases h with h | rfl
  · simp only [isAsciiAlphanum, Bool.or_eq_true, Bool.and_eq_true, decide_eq_true_eq] at h
    simp only [lowerAscii]
    split
    · rename_i hupper
      have hletter := hlower (c.toNat - 65) (by omega)
      rwa [show 65 + (c.toNat - 65) = c.toNat by omega] at hletter
    · simp only [isKebabChar, isAsciiDigit, Bool.or_eq_true, Bool.and_eq_true,
        decide_eq_true_eq]
      omega
  · decide

/-- What one character is spelled as consists of the characters of kebab case. -/
theorem kebabChar_chars {c d : Char} (h : d ∈ kebabChar c) : isKebabChar d = true := by
  have hand : ['-', 'a', 'n', 'd', '-'].all isKebabChar = true := by decide
  unfold kebabChar at h
  split at h
  · exact List.all_eq_true.1 hand d h
  · split at h
    · rename_i hc
      obtain rfl := List.mem_singleton.1 h
      exact lowerAscii_isKebabChar (by simpa using hc)
    · obtain rfl := List.mem_singleton.1 h
      decide

/-- Pieces and the hyphens between them are all that a joined name has. -/
theorem mem_hyphenate :
    ∀ {ws : List (List Char)} {c : Char}, c ∈ hyphenate ws → c = '-' ∨ ∃ w ∈ ws, c ∈ w
  | [], c, h => by cases h
  | [w], c, h => .inr ⟨w, List.mem_singleton_self w, h⟩
  | w :: v :: rest, c, h => by
      simp only [hyphenate, List.mem_append, List.mem_cons] at h
      rcases h with h | rfl | h
      · exact .inr ⟨w, List.mem_cons_self, h⟩
      · exact .inl rfl
      · rcases mem_hyphenate h with rfl | ⟨u, hu, hc⟩
        · exact .inl rfl
        · exact .inr ⟨u, List.mem_cons_of_mem w hu, hc⟩

/-- A name in kebab case is spelled with letters in lower case, digits, underscores and
hyphens. -/
theorem kebab_chars (name : String) : ∀ c ∈ (kebab name).toList, isKebabChar c = true := by
  intro c hc
  rw [kebab_eq, nameOf] at hc
  split at hc
  · have hunnamed : "unnamed".toList.all isKebabChar = true := by decide
    exact List.all_eq_true.1 hunnamed c hc
  · rw [String.toList_ofList] at hc
    rcases mem_guardDigit hc with rfl | hc
    · decide
    · rcases mem_hyphenate hc with rfl | ⟨w, hw, hcw⟩
      · decide
      · have hpiece := (List.mem_filter.1 hw).1
        obtain ⟨d, -, hd⟩ := List.mem_flatMap.1 (mem_splitBy hpiece hcw).1
        exact kebabChar_chars hd

/-- A name in kebab case has one line, since its characters are none that break lines. -/
theorem kebab_inline (name : String) : Inline (kebab name) := by
  intro h
  have hnewline := kebab_chars name '\n' h
  revert hnewline
  decide

/-- The characters of names in Pascal case. -/
def isPascalChar (c : Char) : Bool := isAsciiAlphanum c || c == '_'

theorem upperAscii_isPascalChar {c : Char} (h : isAsciiAlphanum c = true) :
    isPascalChar (upperAscii c) = true := by
  have hupper : ∀ k < 26, isPascalChar (Char.ofNat (97 + k - 32)) = true := by decide
  simp only [upperAscii]
  split
  · have hletter := hupper (c.toNat - 97) (by omega)
    rwa [show 97 + (c.toNat - 97) = c.toNat by omega] at hletter
  · simp [isPascalChar, h]

theorem capitalize_chars {w : List Char} {c : Char}
    (h : c ∈ capitalize (w.filter isAsciiAlphanum)) :
    isPascalChar c = true := by
  have hall : ∀ d ∈ w.filter isAsciiAlphanum, isAsciiAlphanum d = true :=
    fun d hd => (List.mem_filter.1 hd).2
  generalize w.filter isAsciiAlphanum = kept at h hall
  cases kept with
  | nil => cases h
  | cons d rest =>
      rcases List.mem_cons.1 h with rfl | h
      · exact upperAscii_isPascalChar (hall d List.mem_cons_self)
      · simp [isPascalChar, hall c (List.mem_cons_of_mem d h)]

/-- A name in Pascal case is spelled with letters, digits and underscores. -/
theorem pascal_chars (name : String) : ∀ c ∈ (pascal name).toList, isPascalChar c = true := by
  intro c hc
  unfold pascal at hc
  dsimp only at hc
  split at hc
  · have hunnamed : "Unnamed".toList.all isPascalChar = true := by decide
    exact List.all_eq_true.1 hunnamed c hc
  · rename_i hwords
    rw [String.toList_ofList] at hc
    rcases mem_guardDigit hc with rfl | hc
    · decide
    · obtain ⟨w, hw, hcw⟩ := List.mem_flatten.1 hc
      obtain ⟨v, -, rfl⟩ := List.mem_map.1 hw
      exact capitalize_chars hcw

/-- A name in Pascal case has one line, since its characters are none that break lines. -/
theorem pascal_inline (name : String) : Inline (pascal name) := by
  intro h
  have hnewline := pascal_chars name '\n' h
  revert hnewline
  decide

/-- A literal has no line break: where its text has one, an escape stands for it. -/
theorem newline_notMem_encode (cs : List Char) : '\n' ∉ Quoted.encode cs := by
  intro h
  obtain ⟨c, -, hc⟩ := List.mem_flatMap.1 h
  unfold Quoted.escape at hc
  split at hc
  · revert hc
    decide
  · split at hc
    · revert hc
      decide
    · split at hc
      · revert hc
        decide
      · rename_i hnewline
        exact hnewline (List.mem_singleton.1 hc).symm

/-- A quoted text is a value. Its quotes alone make it not empty. -/
theorem literal_isValue (s : String) : IsValue (Quoted.literal s) := by
  constructor
  · intro hempty
    have hnil := congrArg String.toList hempty
    simp [Quoted.literal] at hnil
  · have hencoded := newline_notMem_encode s.toList
    rw [Quoted.literal, inline_ofList]
    simp [hencoded]

theorem mem_unwords :
    ∀ {ws : List (List Char)} {c : Char}, c ∈ unwords ws → c = ' ' ∨ ∃ w ∈ ws, c ∈ w
  | [], c, h => by cases h
  | [w], c, h => .inr ⟨w, List.mem_singleton_self w, h⟩
  | w :: v :: rest, c, h => by
      simp only [unwords, List.mem_append, List.mem_cons] at h
      rcases h with h | rfl | h
      · exact .inr ⟨w, List.mem_cons_self, h⟩
      · exact .inl rfl
      · rcases mem_unwords h with rfl | ⟨u, hu, hc⟩
        · exact .inl rfl
        · exact .inr ⟨u, List.mem_cons_of_mem w hu, hc⟩

/-- No blank but the single space is left of a text that is put on one line. -/
theorem singleLine_inline (s : String) : Inline (singleLine s) := by
  intro h
  rw [singleLine, String.toList_ofList] at h
  rcases mem_unwords h with h | ⟨w, hw, hc⟩
  · revert h
    decide
  · have hblank := (mem_splitBy (List.mem_filter.1 hw).1 hc).2
    revert hblank
    decide

end Text

namespace Reference

/-- The path to a variable is a value: its parts are names and points. -/
theorem path_isValue (c : VariableCollection) (v : Variable) : IsValue (path c v) := by
  have hscope : Inline (scope c) := by
    have hcurrent : Inline ".current" := by decide
    unfold scope
    split
    · exact inline_append.2 ⟨Text.pascal_inline c.name, hcurrent⟩
    · exact Text.pascal_inline c.name
  have hcomponents : ∀ s ∈ components v, Inline s := by
    intro s hs
    obtain ⟨segment, -, rfl⟩ := List.mem_map.1 hs
    exact Text.kebab_inline segment
  have hpoint : IsValue "." := ⟨by decide, by decide⟩
  constructor
  · exact ne_empty_append (.inl (ne_empty_append (.inr hpoint.ne_empty)))
  · simp [path, hscope, hpoint.inline, inline_intercalate hpoint.inline hcomponents]

end Reference

theorem NodeClass.label_inline (c : NodeClass) : Inline c.label := by
  cases c with
  | shape form => cases form <;> decide
  | path form => cases form <;> decide
  | frame | instanceOf | text | other => decide

/-- A fault that names a missing field has one line if the name of the field has. -/
theorem lacking_message_inline (c : NodeClass) {field : String} (hfield : Inline field) :
    Inline (Fault.lacking c field).message := by
  have hmarks : Inline "'" ∧ Inline "' object has no attribute '" := by decide
  simp [Fault.message, c.label_inline, hfield, hmarks]

theorem missingEntry_message_inline : Inline Fault.missingEntry.message := by
  decide

/-- A linear gradient faults at a number without a written form, or at a matrix without an entry. -/
theorem Gradient.linear_fault_inline
    {stops : List ColorStop} {transform : List (List Binary64)} {f : Fault}
    (h : Gradient.linear stops transform = .error f) :
    Inline f.message := by
  unfold Gradient.linear at h
  split at h
  · cases h
  · split at h
    · cases h
      exact missingEntry_message_inline
    · split at h
      · cases h
        exact NumberFault.message_inline _
      · cases h
        exact NumberFault.message_inline _
      · cases h

/-- A radial gradient faults at a number without a written form. -/
theorem Gradient.radial_fault_inline
    {stops : List ColorStop} {f : Fault} (h : Gradient.radial stops = .error f) :
    Inline f.message := by
  unfold Gradient.radial at h
  split at h
  · cases h
  · split at h
    · cases h
      exact NumberFault.message_inline _
    · cases h

/-- What a brush says when it faults has one line. -/
theorem Paint.brush_fault_inline {p : Paint} {f : Fault} (h : p.brush = .error f) :
    Inline f.message := by
  have hdrawn :
      ∀ {r : Except Fault String},
        (∀ g, r = .error g → Inline g.message) → r.map Brush.drawn = .error f →
          Inline f.message := by
    intro r hr hmap
    cases r with
    | ok s => cases hmap
    | error g =>
        cases hmap
        exact hr _ rfl
  unfold brush at h
  split at h
  · split at h
    · cases h
    · split at h
      · cases h
      · cases h
        exact NumberFault.message_inline _
  · split at h
    · split at h
      · cases h
      · exact hdrawn (fun _ => Gradient.linear_fault_inline) h
    · split at h
      · split at h
        · cases h
        · exact hdrawn (fun _ => Gradient.radial_fault_inline) h
      · cases h

end SceneMarkup
