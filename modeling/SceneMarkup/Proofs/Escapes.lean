import SceneMarkup.Text.Percent

/-!
# Escapes of characters

A character is escaped by writing each byte of it as a percent sign with two hexadecimal digits.
Escapes and plain characters may stand next to each other in any order, and decoding finds the
characters one after the other.

* `Utf8.decode_encode_append`: the bytes of a character, in front of any other bytes, are decoded to
  this character.
* `Percent.Escaped`: bytes as they may be escaped. Digits may be of either case.
* `Percent.decode_escaped_append`, `Percent.decode_cons`: an escaped character and a plain one, in
  front of any other text.
-/

namespace SceneMarkup.Text

namespace Utf8

variable {p : Pending} {b : Nat}

theorem decodeFrom_lead (h : lead b = .pending p) (rest : List Nat) :
    decodeFrom none (b :: rest) = decodeFrom (some p) rest := by
  simp [decodeFrom, step, h]

/-- A byte inside a character adds its bits. -/
theorem decodeFrom_inside (hb : p.low ≤ b ∧ b ≤ p.high) (hmissing : 1 < p.missing)
    (rest : List Nat) :
    decodeFrom (some p) (b :: rest) =
      decodeFrom (some ⟨p.missing - 1, p.bits * 64 + (b - 0x80), 0x80, 0xBF⟩) rest := by
  simp [decodeFrom, step, hb, Nat.not_le.2 hmissing]

/-- The last byte of a character completes it. -/
theorem decodeFrom_last (hb : p.low ≤ b ∧ b ≤ p.high) (hmissing : p.missing ≤ 1) (rest : List Nat) :
    decodeFrom (some p) (b :: rest) =
      Char.ofNat (p.bits * 64 + (b - 0x80)) :: decodeFrom none rest := by
  simp [decodeFrom, step, hb, hmissing]

theorem lead_one (hb : b < 0x80) : lead b = .char (Char.ofNat b) :=
  if_pos hb

theorem lead_two {k : Nat} (hlow : 2 ≤ k) (hhigh : k < 32) :
    lead (0xC0 + k) = .pending ⟨1, k, 0x80, 0xBF⟩ := by
  rw [lead, if_neg (by omega), if_neg (by omega), if_pos (by omega), Nat.add_sub_cancel_left]

/-- Of three bytes the second one is in a smaller range where overlong forms and surrogates would
be. -/
theorem lead_three {k : Nat} (hk : k < 16) :
    lead (0xE0 + k) =
      .pending ⟨2, k, if k = 0 then 0xA0 else 0x80, if k = 13 then 0x9F else 0xBF⟩ := by
  by_cases hzero : k = 0
  · rw [hzero]
    rfl
  · by_cases hsurrogate : k = 13
    · rw [hsurrogate]
      rfl
    · rw [lead, if_neg (by omega), if_neg (by omega), if_neg (by omega), if_neg (by omega),
        if_neg (by omega), if_pos (by omega), if_neg hzero, if_neg hsurrogate,
        Nat.add_sub_cancel_left]

/-- Of four bytes the second one is in a smaller range where overlong forms and values beyond the
last code point would be. -/
theorem lead_four {k : Nat} (hk : k < 5) :
    lead (0xF0 + k) =
      .pending ⟨3, k, if k = 0 then 0x90 else 0x80, if k = 4 then 0x8F else 0xBF⟩ := by
  by_cases hzero : k = 0
  · rw [hzero]
    rfl
  · by_cases hlast : k = 4
    · rw [hlast]
      rfl
    · rw [lead, if_neg (by omega), if_neg (by omega), if_neg (by omega), if_neg (by omega),
        if_neg (by omega), if_neg (by omega), if_neg (by omega), if_neg (by omega),
        if_pos (by omega), if_neg hzero, if_neg hlast, Nat.add_sub_cancel_left]

theorem toNat_bounds (c : Char) :
    c.toNat < 0xD800 ∨ 0xDFFF < c.toNat ∧ c.toNat < 0x110000 :=
  c.valid

/-- The bytes of a character are decoded to it, whatever follows them. -/
theorem decode_encode_append (c : Char) (rest : List Nat) :
    decode (encode c ++ rest) = c :: decode rest := by
  have hvalid := toNat_bounds c
  have hchar : ∀ {n : Nat}, n = c.toNat → Char.ofNat n = c := by
    rintro _ rfl
    exact Char.ofNat_toNat c
  rw [decode, decode, encode]
  split
  · next hone =>
    simp [decodeFrom, step, lead_one hone]
  split
  · next hone htwo =>
    rw [List.cons_append, decodeFrom_lead (lead_two (by omega) (by omega)), List.cons_append,
      decodeFrom_last ⟨by simp, by simp; omega⟩ (by simp), hchar (by simp; omega)]
    rfl
  split
  · next hone htwo hthree =>
    rw [List.cons_append, decodeFrom_lead (lead_three (by omega)), List.cons_append,
      decodeFrom_inside (by dsimp only; split <;> split <;> omega) (by simp), List.cons_append,
      decodeFrom_last ⟨by simp, by simp; omega⟩ (by simp), hchar (by simp; omega)]
    rfl
  · next hone htwo hthree =>
    rw [List.cons_append, decodeFrom_lead (lead_four (by omega)), List.cons_append,
      decodeFrom_inside (by dsimp only; split <;> split <;> omega) (by simp), List.cons_append,
      decodeFrom_inside ⟨by simp, by simp; omega⟩ (by simp), List.cons_append,
      decodeFrom_last ⟨by simp, by simp; omega⟩ (by simp), hchar (by simp; omega)]
    rfl

end Utf8

namespace Percent

/-- Bytes as they may be escaped: each of them is a percent sign with its two digits. -/
inductive Escaped : List Nat → List Char → Prop
  | nil : Escaped [] []
  | cons {b : Nat} {h l : Char} {bs : List Nat} {cs : List Char} :
      Hex.value? h = some (b / 16) → Hex.value? l = some (b % 16) → Escaped bs cs →
      Escaped (b :: bs) ('%' :: h :: l :: cs)

theorem units_escaped_append {bs : List Nat} {cs : List Char} (h : Escaped bs cs)
    (rest : List Char) :
    units (cs ++ rest) = bs.map Unit.byte ++ units rest := by
  induction h with
  | nil => rfl
  | @cons b h l bs cs hhigh hlow _ ih =>
      rw [List.cons_append, List.cons_append, List.cons_append, units, if_pos rfl, hhigh, hlow]
      simp only [ih, List.map_cons, List.cons_append]
      rw [Nat.div_add_mod]

theorem units_cons {c : Char} (hc : c ≠ '%') (rest : List Char) :
    units (c :: rest) = Unit.ofChar c :: units rest := by
  match rest with
  | [] => rfl
  | [d] => rfl
  | h :: l :: rest => rw [units, if_neg hc]

/-- Characters that are complete are decoded apart from the bytes behind them. -/
theorem assemble_append
    {before : List Nat} {cs : List Char}
    (h : ∀ rest, Utf8.decode (before.reverse ++ rest) = cs ++ Utf8.decode rest)
    (run : List Nat) (us : List Unit) :
    assemble (run ++ before) us = cs ++ assemble run us := by
  induction us generalizing run with
  | nil => rw [assemble, assemble, List.reverse_append, h]
  | cons u us ih =>
      cases u with
      | byte b => exact ih (b :: run)
      | char c => rw [assemble, assemble, List.reverse_append, h, List.append_assoc]

theorem assemble_bytes (bs run : List Nat) (us : List Unit) :
    assemble run (bs.map Unit.byte ++ us) = assemble (bs.reverse ++ run) us := by
  induction bs generalizing run with
  | nil => rfl
  | cons b bs ih =>
      rw [List.map_cons, List.cons_append, assemble, ih, List.reverse_cons, List.append_assoc]
      rfl

/-- The bytes of a character are assembled to it. -/
theorem assemble_encode (c : Char) (us : List Unit) :
    assemble [] ((Utf8.encode c).map Unit.byte ++ us) = c :: assemble [] us := by
  have hbytes : ∀ rest, Utf8.decode ((Utf8.encode c).reverse.reverse ++ rest) =
      [c] ++ Utf8.decode rest := by
    intro rest
    rw [List.reverse_reverse, Utf8.decode_encode_append]
    rfl
  rw [assemble_bytes, List.append_nil]
  exact assemble_append hbytes [] us

/-- An escaped character is decoded to itself. -/
theorem decode_escaped_append
    {c : Char} {cs : List Char} (h : Escaped (Utf8.encode c) cs) (rest : List Char) :
    decode (cs ++ rest) = c :: decode rest := by
  rw [decode, units_escaped_append h, assemble_encode, decode]

/-- A plain character stands for itself. -/
theorem decode_cons {c : Char} (hc : c ≠ '%') (rest : List Char) :
    decode (c :: rest) = c :: decode rest := by
  rw [decode, units_cons hc, Unit.ofChar]
  split
  · next hascii =>
    have hbytes : Utf8.encode c = [c.toNat] := by rw [Utf8.encode, if_pos hascii]
    have hdecoded := assemble_encode c (units rest)
    rw [hbytes] at hdecoded
    exact hdecoded
  · rfl

end Percent
end SceneMarkup.Text
