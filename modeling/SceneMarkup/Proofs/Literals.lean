import Mathlib.Data.List.Basic
import Mathlib.Tactic.SplitIfs
import SceneMarkup.Proofs.Inline

/-!
# Literals stand for their texts

A literal is read from left to right: a backslash and the character behind it are an escape, and
every other character stands for itself. What is written for a text is read back as this text, and
nothing in it is taken for the end of the literal.

* `Spells`: what a body stands for when it is read from left to right.
* `Spells.split`: a place in a body lies between two of its characters and escapes, or inside of an
  escape. So every backslash and every quote has its place in an escape.
* `encode_eq_replaced`: the body is what replacing the three characters one after another gives,
  backslashes first.
* `literal_exact`: a literal is an exact encoding, and it is closed where it ends.
-/

namespace SceneMarkup.Text.Quoted

/-- A character behind a backslash, and the one that the escape stands for. -/
inductive Escape : Char → Char → Prop
  | backslash : Escape '\\' '\\'
  | quote : Escape '"' '"'
  | lineFeed : Escape 'n' '\n'

/-- A body and the text that it stands for. -/
inductive Spells : List Char → List Char → Prop
  | nil : Spells [] []
  | plain {c : Char} {body text : List Char} (hplain : c ≠ '\\' ∧ c ≠ '"' ∧ c ≠ '\n')
      (h : Spells body text) : Spells (c :: body) (c :: text)
  | escaped {e c : Char} {body text : List Char} (he : Escape e c)
      (h : Spells body text) : Spells ('\\' :: e :: body) (c :: text)

/-- A body that ends behind a whole character or escape. -/
def Whole (body : List Char) : Prop := ∃ text, Spells body text

/-- A body, read up to the quote that closes it, and what is behind the quote. A character behind a
backslash does not close a body. -/
def closing? : List Char → Option (List Char × List Char)
  | [] => none
  | '"' :: rest => some ([], rest)
  | '\\' :: e :: rest => (closing? rest).map fun (body, behind) => ('\\' :: e :: body, behind)
  | c :: rest => (closing? rest).map fun (body, behind) => (c :: body, behind)

namespace Spells

variable {body text : List Char}

/-- A place in a body lies behind a whole part of it, or between the backslash and the other
character of an escape. -/
theorem split (h : Spells body text) {before after : List Char} (hbody : body = before ++ after) :
    (Whole before ∧ Whole after) ∨
      ∃ whole e c rest,
        Whole whole ∧ before = whole ++ ['\\'] ∧ after = e :: rest ∧ Escape e c := by
  induction h generalizing before with
  | nil =>
      obtain ⟨rfl, rfl⟩ := List.append_eq_nil_iff.1 hbody.symm
      exact .inl ⟨⟨[], .nil⟩, ⟨[], .nil⟩⟩
  | @plain c body text hplain h ih =>
      cases before with
      | nil =>
          obtain rfl : c :: body = after := hbody
          exact .inl ⟨⟨[], .nil⟩, ⟨c :: text, .plain hplain h⟩⟩
      | cons d before =>
          obtain ⟨rfl, hrest⟩ := List.cons.inj hbody
          rcases ih hrest with ⟨⟨read, hread⟩, hafter⟩ |
            ⟨whole, e, d, rest, ⟨read, hread⟩, hbefore, hescape⟩
          · exact .inl ⟨⟨c :: read, .plain hplain hread⟩, hafter⟩
          · exact .inr ⟨c :: whole, e, d, rest, ⟨c :: read, .plain hplain hread⟩,
              by rw [hbefore]; rfl, hescape⟩
  | @escaped e c body text he h ih =>
      match before with
      | [] =>
          obtain rfl : '\\' :: e :: body = after := hbody
          exact .inl ⟨⟨[], .nil⟩, ⟨c :: text, .escaped he h⟩⟩
      | [d] =>
          obtain ⟨rfl, hrest⟩ := List.cons.inj hbody
          exact .inr ⟨[], e, c, body, ⟨[], .nil⟩, rfl, hrest.symm, he⟩
      | d :: d' :: before =>
          obtain ⟨rfl, htail⟩ := List.cons.inj hbody
          obtain ⟨rfl, hrest⟩ := List.cons.inj htail
          rcases ih hrest with ⟨⟨read, hread⟩, hafter⟩ |
            ⟨whole, e', d, rest, ⟨read, hread⟩, hbefore, hescape⟩
          · exact .inl ⟨⟨c :: read, .escaped he hread⟩, hafter⟩
          · exact .inr ⟨'\\' :: e :: whole, e', d, rest, ⟨c :: read, .escaped he hread⟩,
              by rw [hbefore]; rfl, hescape⟩

/-- Every quote in a body stands behind the backslash of an escape. -/
theorem quote_escaped (h : Spells body text) {before after : List Char}
    (hbody : body = before ++ '"' :: after) :
    ∃ whole, before = whole ++ ['\\'] ∧ Whole whole := by
  rcases h.split hbody with ⟨-, _, hafter⟩ | ⟨whole, -, -, -, hwhole, hbefore, -⟩
  · cases hafter with
    | plain hplain _ => exact absurd rfl hplain.2.1
  · exact ⟨whole, hbefore, hwhole⟩

/-- Every backslash in a body starts an escape, or it is what the backslash in front of it
escapes. -/
theorem backslash_escapes (h : Spells body text) {before after : List Char}
    (hbody : body = before ++ '\\' :: after) :
    (Whole before ∧ ∃ e c rest, after = e :: rest ∧ Escape e c) ∨
      ∃ whole, before = whole ++ ['\\'] ∧ Whole whole := by
  rcases h.split hbody with ⟨hbefore, _, hafter⟩ | ⟨whole, -, -, -, hwhole, hbefore, -⟩
  · cases hafter with
    | plain hplain _ => exact absurd rfl hplain.1
    | @escaped e c rest _ he _ => exact .inl ⟨hbefore, e, c, rest, rfl, he⟩
  · exact .inr ⟨whole, hbefore, hwhole⟩

/-- A body is closed by the first quote behind it. -/
theorem closing?_eq (h : Spells body text) (rest : List Char) :
    closing? (body ++ '"' :: rest) = some (body, rest) := by
  induction h with
  | nil => rfl
  | @plain c body text hplain _ ih =>
      obtain ⟨hbackslash, hquote, -⟩ := hplain
      rw [List.cons_append, closing?, ih]
      · rfl
      · exact hquote
      · rintro e rest' rfl
        exact absurd rfl hbackslash
  | @escaped e c body text _ _ ih =>
      rw [List.cons_append, List.cons_append, closing?, ih]
      rfl

theorem decode_eq (h : Spells body text) : decode body = some text := by
  induction h with
  | nil => rfl
  | @plain c body text hplain _ ih =>
      rw [decode, ih, if_neg (not_or.2 ⟨hplain.1, not_or.2 hplain.2⟩)]
      · rfl
      · rintro e rest rfl
        exact absurd rfl hplain.1
  | @escaped e c body text he _ ih =>
      cases he <;> rw [decode, ih] <;> rfl

end Spells

/-- A text in which each occurrence of a character is replaced. -/
def replaced (c : Char) (replacement cs : List Char) : List Char :=
  cs.flatMap fun d => if d = c then replacement else [d]

/-- Replacing the characters one after another writes the body, if backslashes are replaced before
there are any that belong to an escape. -/
theorem encode_eq_replaced (cs : List Char) :
    encode cs = replaced '\n' ['\\', 'n']
      (replaced '"' ['\\', '"'] (replaced '\\' ['\\', '\\'] cs)) := by
  unfold encode replaced
  rw [List.flatMap_assoc, List.flatMap_assoc]
  refine List.flatMap_congr fun c _ => ?_
  unfold escape
  split_ifs with hbackslash hquote hnewline
  · rfl
  · rw [hquote]
    rfl
  · rw [hnewline]
    rfl
  · simp [hquote, hnewline]

/-- In another order the backslashes of escapes are replaced as well. -/
example : replaced '\\' ['\\', '\\'] (replaced '"' ['\\', '"'] ['"']) ≠ encode ['"'] := by decide

/-- The written form of a character is the character or an escape. -/
theorem spells_escape (c : Char) {body text : List Char} (h : Spells body text) :
    Spells (escape c ++ body) (c :: text) := by
  unfold escape
  split_ifs with hbackslash hquote hnewline
  · rw [hbackslash]
    exact .escaped .backslash h
  · rw [hquote]
    exact .escaped .quote h
  · rw [hnewline]
    exact .escaped .lineFeed h
  · exact .plain ⟨hbackslash, hquote, hnewline⟩ h

theorem spells_encode (cs : List Char) : Spells (encode cs) cs := by
  induction cs with
  | nil => exact .nil
  | cons c rest ih => exact spells_escape c ih

/-- A text has no other spelling than the one that is written. -/
theorem Spells.eq_encode {body text : List Char} (h : Spells body text) : body = encode text := by
  induction h with
  | nil => rfl
  | @plain c body text hplain _ ih =>
      have hwritten : escape c = [c] := by
        rw [escape, if_neg hplain.1, if_neg hplain.2.1, if_neg hplain.2.2]
      rw [ih]
      show _ = escape c ++ encode text
      rw [hwritten]
      rfl
  | @escaped e c body text he _ ih =>
      rw [ih]
      cases he <;> rfl

/-- What can be decoded is a body that spells the result. -/
theorem spells_of_decode {body text : List Char} (h : decode body = some text) :
    Spells body text := by
  fun_induction decode body generalizing text with
  | case1 =>
      cases h
      exact .nil
  | case2 rest ih =>
      obtain ⟨read, hread, rfl⟩ := Option.map_eq_some_iff.1 h
      exact .escaped .backslash (ih hread)
  | case3 rest _ ih =>
      obtain ⟨read, hread, rfl⟩ := Option.map_eq_some_iff.1 h
      exact .escaped .quote (ih hread)
  | case4 rest _ _ ih =>
      obtain ⟨read, hread, rfl⟩ := Option.map_eq_some_iff.1 h
      exact .escaped .lineFeed (ih hread)
  | case5 => cases h
  | case6 => cases h
  | case7 c rest _ hplain ih =>
      obtain ⟨read, hread, rfl⟩ := Option.map_eq_some_iff.1 h
      rw [not_or, not_or] at hplain
      exact .plain hplain (ih hread)

theorem decode_eq_some_iff {body text : List Char} :
    decode body = some text ↔ body = encode text := by
  constructor
  · exact fun h => (spells_of_decode h).eq_encode
  · rintro rfl
    exact (spells_encode text).decode_eq

/-- A body without line breaks, in which each quote is escaped and each backslash belongs to an
escape. -/
structure IsBody (body : List Char) : Prop where
  inline : '\n' ∉ body
  quotes : ∀ before after, body = before ++ '"' :: after →
    ∃ whole, before = whole ++ ['\\'] ∧ Whole whole
  /-- It starts an escape, or it is the second character of one. -/
  backslashes : ∀ before after, body = before ++ '\\' :: after →
    (Whole before ∧ ∃ e c rest, after = e :: rest ∧ Escape e c) ∨
      ∃ whole, before = whole ++ ['\\'] ∧ Whole whole

/-- **A literal is an exact encoding.** The literal of a text is a body between two quotes. Decoding
is the inverse of writing the body: the body is the only one that is read as the text, and so two
texts have two literals. Whatever stands behind a literal, its last quote is the one that closes
it. -/
theorem literal_exact (t : String) :
    ∃ body, (literal t).toList = '"' :: body ++ ['"'] ∧
      body = replaced '\n' ['\\', 'n']
        (replaced '"' ['\\', '"'] (replaced '\\' ['\\', '\\'] t.toList)) ∧
      IsBody body ∧
      (∀ other, decode other = some t.toList ↔ other = body) ∧
      (∀ other, literal other = literal t → other = t) ∧
      ∀ rest, closing? (body ++ '"' :: rest) = some (body, rest) := by
  have hspells := spells_encode t.toList
  refine ⟨encode t.toList, ?_, encode_eq_replaced _, ?_, fun other => decode_eq_some_iff, ?_,
    hspells.closing?_eq⟩
  · rw [literal, String.toList_ofList]
  · exact ⟨newline_notMem_encode _, fun _ _ => hspells.quote_escaped,
      fun _ _ => hspells.backslash_escapes⟩
  · intro other hsame
    have hlists : '"' :: encode other.toList ++ ['"'] = '"' :: encode t.toList ++ ['"'] :=
      String.ofList_injective hsame
    have hbodies : encode other.toList = encode t.toList :=
      List.append_cancel_right (List.cons.inj hlists).2
    have htexts : some other.toList = some t.toList := by
      rw [← (spells_encode other.toList).decode_eq, hbodies, hspells.decode_eq]
    exact String.toList_inj.1 (Option.some.inj htexts)

end SceneMarkup.Text.Quoted
