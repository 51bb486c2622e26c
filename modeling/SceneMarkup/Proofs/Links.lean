import Mathlib.Data.Bool.AllAny
import SceneMarkup.Proofs.Escapes
import SceneMarkup.Proofs.PathTags
import SceneMarkup.Service.Link

/-!
# Links as they are written

Much in a link is free: the name behind the key of the file, the parameters around the one with the
identifier of the node, a fragment, and which characters of the identifier are escaped. A link is
read by two searches, for the key and for the parameter, that know nothing of each other. Both stop
at the right place, whatever is written around them.

* `Frame`: a link without the value of the parameter.
* `Spelled`: the values that spell an identifier. `nodeId_of_spelled` reads the identifier from each
  of them.
* `fileKey?_text`, `parameter?_text`: what the two searches find.
* `read_text`: a link is read as the key and the identifier that it was written for.
-/

namespace SceneMarkup.Link

open Text

/-- What a file is opened in. -/
inductive View
  | design | file

/-- The name of a view in links. -/
def View.text : View → List Char
  | design => "design".toList
  | file => "file".toList

/-- A character that starts a query, another parameter or a fragment. -/
def isMark (c : Char) : Bool := c == '?' || c == '&' || c == '#'

/-- The name of a parameter is what stands before its first equals sign. -/
def parameterName (parameter : List Char) : List Char := parameter.takeWhile (· ≠ '=')

/-- A link without the value that spells the identifier of the node. -/
structure Frame where
  view : View
  key : List Char
  name : Option (List Char)
  /-- The parameters in front of the identifier. -/
  before : List (List Char)
  /-- The parameters behind it. -/
  after : List (List Char)
  fragment : Option (List Char)
  key_ne_nil : key ≠ []
  key_plain : ∀ c ∈ key, isAsciiAlphanum c = true
  name_plain : ∀ n ∈ name, ∀ c ∈ n, isMark c = false
  before_plain : ∀ p ∈ before, ∀ c ∈ p, isMark c = false
  before_other : ∀ p ∈ before, parameterName p ≠ "node-id".toList

namespace Frame

/-- The name of the file, if it is written. -/
def slug (f : Frame) : List Char :=
  match f.name with
  | some n => '/' :: n
  | none => []

/-- What follows the identifier of the node. -/
def ending (f : Frame) : List Char :=
  f.after.flatMap ('&' :: ·) ++
    match f.fragment with
    | some text => '#' :: text
    | none => []

/-- The parameters, without the question mark in front of them. -/
def query (f : Frame) (value : List Char) : List Char :=
  f.before.flatMap (· ++ ['&']) ++ ("node-id=".toList ++ (value ++ f.ending))

/-- The link with a value. -/
def text (f : Frame) (value : List Char) : List Char :=
  "https://www.figma.com/".toList ++
    (f.view.text ++ '/' :: (f.key ++ (f.slug ++ '?' :: f.query value)))

end Frame

/-- The values that spell the identifier of a node. A colon may be a hyphen, and each character may
be escaped. A percent sign and what would end the value have to be. -/
inductive Spelled : List Char → List Char → Prop
  | nil : Spelled [] []
  | plain {c : Char} {id value : List Char} :
      c ≠ '%' → c ≠ '&' → c ≠ '#' → Spelled id value → Spelled (c :: id) (c :: value)
  | hyphen {id value : List Char} : Spelled id value → Spelled (':' :: id) ('-' :: value)
  | escaped {c : Char} {cs id value : List Char} :
      Percent.Escaped (Utf8.encode c) cs → Spelled id value → Spelled (c :: id) (cs ++ value)

/-- An escape ends no value. -/
theorem mem_of_escaped {bs : List Nat} {cs : List Char} (h : Percent.Escaped bs cs) :
    ∀ c ∈ cs, c ≠ '&' ∧ c ≠ '#' := by
  have hmarks : Hex.value? '&' = none ∧ Hex.value? '#' = none := by decide
  have hdigit : ∀ {d : Char} {n : Nat}, Hex.value? d = some n → d ≠ '&' ∧ d ≠ '#' := by
    intro d n hd
    constructor
    · rintro rfl
      cases hmarks.1.symm.trans hd
    · rintro rfl
      cases hmarks.2.symm.trans hd
  induction h with
  | nil => nofun
  | cons hhigh hlow _ ih =>
      exact List.forall_mem_cons.2 ⟨by decide,
        List.forall_mem_cons.2 ⟨hdigit hhigh, List.forall_mem_cons.2 ⟨hdigit hlow, ih⟩⟩⟩

theorem encode_ne_nil (c : Char) : Utf8.encode c ≠ [] := by
  rw [Utf8.encode]
  split
  · exact List.cons_ne_nil _ _
  split
  · exact List.cons_ne_nil _ _
  split
  · exact List.cons_ne_nil _ _
  · exact List.cons_ne_nil _ _

theorem escaped_ne_nil {bs : List Nat} {cs : List Char} (h : Percent.Escaped bs cs)
    (hbs : bs ≠ []) :
    cs ≠ [] := by
  cases h with
  | nil => exact absurd rfl hbs
  | cons => exact List.cons_ne_nil _ _

namespace Spelled

variable {id value : List Char}

/-- No character of a value ends it. -/
theorem mem (h : Spelled id value) : ∀ c ∈ value, c ≠ '&' ∧ c ≠ '#' := by
  induction h with
  | nil => nofun
  | plain _ hand hhash _ ih => exact List.forall_mem_cons.2 ⟨⟨hand, hhash⟩, ih⟩
  | hyphen _ ih => exact List.forall_mem_cons.2 ⟨by decide, ih⟩
  | escaped hcs _ ih => exact List.forall_mem_append.2 ⟨mem_of_escaped hcs, ih⟩

theorem ne_nil (h : Spelled id value) (hid : id ≠ []) : value ≠ [] := by
  cases h with
  | nil => exact absurd rfl hid
  | plain => exact List.cons_ne_nil _ _
  | hyphen => exact List.cons_ne_nil _ _
  | @escaped c cs _ _ hcs =>
      exact List.append_ne_nil_of_left_ne_nil (escaped_ne_nil hcs (encode_ne_nil c)) _

/-- **An identifier is read from every value that spells it.** -/
theorem nodeId_eq (h : Spelled id value) (hhyphen : '-' ∉ id) : nodeId value = id := by
  induction h with
  | nil => rfl
  | @plain c id value hpercent _ _ _ ih =>
      obtain ⟨hc, hid⟩ := List.ne_and_not_mem_of_not_mem_cons hhyphen
      rw [nodeId, Percent.decode_cons hpercent, List.map_cons, if_neg (Ne.symm hc), ← nodeId,
        ih hid]
  | @hyphen id value _ ih =>
      have hid := (List.ne_and_not_mem_of_not_mem_cons hhyphen).2
      have hpercent : '-' ≠ '%' := by decide
      rw [nodeId, Percent.decode_cons hpercent, List.map_cons, if_pos rfl, ← nodeId, ih hid]
  | @escaped c cs id value hcs _ ih =>
      obtain ⟨hc, hid⟩ := List.ne_and_not_mem_of_not_mem_cons hhyphen
      rw [nodeId, Percent.decode_escaped_append hcs, List.map_cons, if_neg (Ne.symm hc), ← nodeId,
        ih hid]

end Spelled

theorem leading?_append
    {p : Char → Bool} {cs rest : List Char} (hne : cs ≠ []) (hcs : ∀ c ∈ cs, p c = true)
    (hrest : ∀ c ∈ rest.head?, p c = false) :
    leading? p (cs ++ rest) = some cs := by
  have htake : (cs ++ rest).takeWhile p = cs := by
    rw [List.takeWhile_append_of_pos hcs]
    cases rest with
    | nil => exact List.append_nil cs
    | cons c rest => rw [List.takeWhile_cons_of_neg (by simp [hrest c rfl]), List.append_nil]
  unfold leading?
  rw [htake]
  cases cs with
  | nil => exact absurd rfl hne
  | cons c cs => rfl

/-- Behind the name of the service, the key goes on to the first character that is no letter or
digit. -/
theorem keyHere?_append
    (v : View) {key rest : List Char} (hne : key ≠ []) (hkey : ∀ c ∈ key, isAsciiAlphanum c = true)
    (hrest : ∀ c ∈ rest.head?, isAsciiAlphanum c = false) :
    keyHere? (v.text ++ '/' :: (key ++ rest)) = some key := by
  have hleading := leading?_append hne hkey hrest
  have hafter : ((after? "design/".toList (v.text ++ '/' :: (key ++ rest))).orElse
      fun _ => after? "file/".toList (v.text ++ '/' :: (key ++ rest))) = some (key ++ rest) := by
    cases v with
    | design => exact congrArg (Option.orElse · _) (after?_append "design/".toList (key ++ rest))
    | file => exact after?_append "file/".toList (key ++ rest)
  rw [keyHere?, hafter]
  exact hleading

/-- The search for a key stops at the first place where the service is named, if a key follows. -/
theorem fileKey?_append
    {before rest key : List Char} (hbefore : 'f' ∉ before) (hkey : keyHere? rest = some key) :
    fileKey? (before ++ ("figma.com/".toList ++ rest)) = some key := by
  obtain ⟨lead, hopening, honce⟩ : ∃ lead, "figma.com/".toList = 'f' :: lead ∧ 'f' ∉ lead :=
    ⟨_, rfl, by decide⟩
  have hfirst : ¬ 'f' :: lead <:+: before :=
    fun hwithin => hbefore (hwithin.subset List.mem_cons_self)
  rw [fileKey?, hopening, List.cons_append, search_append honce hfirst]
  exact search_eq_of_here hkey

theorem fileKey?_text (f : Frame) (value : List Char) : fileKey? (f.text value) = some f.key := by
  have hrest : ∀ c ∈ (f.slug ++ '?' :: f.query value).head?, isAsciiAlphanum c = false := by
    intro c hc
    unfold Frame.slug at hc
    split at hc
    · obtain rfl : '/' = c := by simpa using hc
      decide
    · obtain rfl : '?' = c := by simpa using hc
      decide
  have hservice :
      "https://www.figma.com/".toList = "https://www.".toList ++ "figma.com/".toList := by
    decide
  have hbefore : 'f' ∉ "https://www.".toList := by decide
  unfold Frame.text
  rw [hservice, List.append_assoc]
  exact fileKey?_append hbefore (keyHere?_append f.view f.key_ne_nil f.key_plain hrest)

theorem parameter?_cons_of_none {c : Char} {cs : List Char} (h : parameterHere? (c :: cs) = none) :
    parameter? (c :: cs) = parameter? cs := by
  rw [parameter?, search, after?, Option.bind_some, h]
  rfl

theorem parameter?_eq_of_here {c : Char} {cs value : List Char}
    (h : parameterHere? (c :: cs) = some value) :
    parameter? (c :: cs) = some value := by
  rw [parameter?, search, after?, Option.bind_some, h]

/-- No parameter starts where there is no mark. -/
theorem parameter?_append
    {before : List Char} (h : ∀ c ∈ before, isMark c = false) (behind : List Char) :
    parameter? (before ++ behind) = parameter? behind := by
  induction before with
  | nil => rfl
  | cons c before ih =>
      obtain ⟨hc, hbefore⟩ := List.forall_mem_cons.1 h
      have hnone : parameterHere? (c :: (before ++ behind)) = none := by
        refine if_neg ?_
        rintro (rfl | rfl) <;> revert hc <;> decide
      rw [List.cons_append, parameter?_cons_of_none hnone, ih hbefore]

/-- A parameter with another name is passed over. -/
theorem parameterHere?_other
    {p : List Char} (hother : parameterName p ≠ "node-id".toList) (mark : Char)
    (behind : List Char) :
    parameterHere? (mark :: (p ++ '&' :: behind)) = none := by
  have hnone : ¬ "node-id=".toList <+: p ++ '&' :: behind := by
    intro hprefix
    have hand : '&' ∉ "node-id=".toList := by decide
    obtain ⟨rest, rfl⟩ := prefix_of_prefix_append_cons hprefix hand
    exact hother rfl
  rw [parameterHere?, after?_eq_none hnone]
  split <;> rfl

/-- The value of the parameter goes on to the next mark. -/
theorem parameterHere?_value
    {mark : Char} (hmark : mark = '?' ∨ mark = '&') {value rest : List Char} (hne : value ≠ [])
    (hvalue : ∀ c ∈ value, c ≠ '&' ∧ c ≠ '#') (hrest : ∀ c ∈ rest.head?, c = '&' ∨ c = '#') :
    parameterHere? (mark :: ("node-id=".toList ++ (value ++ rest))) = some value := by
  rw [parameterHere?, if_pos hmark, after?_append, Option.bind_some]
  refine leading?_append hne (fun c hc => by simpa using hvalue c hc) ?_
  intro c hc
  rcases hrest c hc with rfl | rfl <;> decide

/-- The parameters in front of the identifier are passed over, and its value is found. -/
theorem parameter?_query
    {before : List (List Char)} (hplain : ∀ p ∈ before, ∀ c ∈ p, isMark c = false)
    (hother : ∀ p ∈ before, parameterName p ≠ "node-id".toList)
    {mark : Char} (hmark : mark = '?' ∨ mark = '&') {value rest : List Char} (hne : value ≠ [])
    (hvalue : ∀ c ∈ value, c ≠ '&' ∧ c ≠ '#') (hrest : ∀ c ∈ rest.head?, c = '&' ∨ c = '#') :
    parameter? (mark :: (before.flatMap (· ++ ['&']) ++ ("node-id=".toList ++ (value ++ rest)))) =
      some value := by
  induction before generalizing mark with
  | nil => exact parameter?_eq_of_here (parameterHere?_value hmark hne hvalue hrest)
  | cons p before ih =>
      obtain ⟨hp, hplain⟩ := List.forall_mem_cons.1 hplain
      obtain ⟨hname, hother⟩ := List.forall_mem_cons.1 hother
      rw [List.flatMap_cons, List.append_assoc, List.append_assoc, List.singleton_append,
        parameter?_cons_of_none (parameterHere?_other hname mark _), parameter?_append hp]
      exact ih hplain hother (.inr rfl)

theorem parameter?_text
    (f : Frame) {value : List Char} (hne : value ≠ []) (hvalue : ∀ c ∈ value, c ≠ '&' ∧ c ≠ '#') :
    parameter? (f.text value) = some value := by
  have hslug : ∀ c ∈ f.slug, isMark c = false := by
    unfold Frame.slug
    split
    · next n hname => exact List.forall_mem_cons.2 ⟨by decide, f.name_plain n hname⟩
    · nofun
  have hkey : ∀ c ∈ f.key, isMark c = false := by
    intro c hc
    have hplain := f.key_plain c hc
    rw [Bool.eq_false_iff]
    intro hmark
    simp only [isMark, Bool.or_eq_true, beq_iff_eq] at hmark
    rcases hmark with (rfl | rfl) | rfl <;> revert hplain <;> decide
  have hview : ∀ c ∈ f.view.text, isMark c = false := by
    refine List.all_iff_forall_prop.1 ?_
    cases f.view <;> decide
  have hservice : ∀ c ∈ "https://www.figma.com/".toList, isMark c = false :=
    List.all_iff_forall_prop.1 (by decide)
  have hslash : ∀ c ∈ ['/'], isMark c = false := List.all_iff_forall_prop.1 (by decide)
  have hending : ∀ c ∈ f.ending.head?, c = '&' ∨ c = '#' := by
    intro c hc
    unfold Frame.ending at hc
    cases hafter : f.after with
    | nil =>
        rw [hafter] at hc
        split at hc
        · exact .inr (by simpa [eq_comm] using hc)
        · cases hc
    | cons p rest =>
        rw [hafter] at hc
        exact .inl (by simpa [eq_comm] using hc)
  unfold Frame.text
  rw [parameter?_append hservice, parameter?_append hview, ← List.singleton_append,
    parameter?_append hslash, parameter?_append hkey, parameter?_append hslug]
  exact parameter?_query f.before_plain f.before_other (.inl rfl) hne hvalue hending

/-- **A link is read as what it was written for**, however it is written. -/
theorem read_text
    (f : Frame) {id value : List Char} (hid : id ≠ []) (hhyphen : '-' ∉ id) (h : Spelled id value) :
    Link.read (String.ofList (f.text value)) = .ok ⟨String.ofList f.key, String.ofList id⟩ := by
  rw [Link.read, String.toList_ofList, fileKey?_text]
  simp only [parameter?_text f (h.ne_nil hid) h.mem, h.nodeId_eq hhyphen]

/-- A link that names other files and other nodes as well. -/
def Frame.crowded : Frame where
  view := .file
  key := "a1B2".toList
  name := some "figma.com/design/other".toList
  before := ["mode=dev".toList, [], "node-id2=9-9".toList]
  after := ["node-id=7-7".toList]
  fragment := some "?node-id=8-8".toList
  key_ne_nil := by decide
  key_plain := List.all_iff_forall_prop.1 (by decide)
  name_plain n hn := by
    obtain rfl := Option.some.inj hn
    exact List.all_iff_forall_prop.1 (by decide)
  before_plain := by
    simp only [List.forall_mem_cons, List.not_mem_nil, false_implies, implies_true, and_true,
      true_and]
    exact ⟨List.all_iff_forall_prop.1 (by decide), List.all_iff_forall_prop.1 (by decide)⟩
  before_other := by decide

/-- The colons of the identifier are a hyphen and an escape, and one of its letters is escaped in
two bytes. -/
theorem read_text_crowded :
    Spelled "1:2:3é☃".toList "1-2%3A3%c3%A9☃".toList ∧
      Link.read
          ("https://www.figma.com/file/a1B2/figma.com/design/other?mode=dev&&node-id2=9-9" ++
            "&node-id=1-2%3A3%c3%A9☃&node-id=7-7#?node-id=8-8") =
        .ok ⟨"a1B2", "1:2:3é☃"⟩ := by
  have hspelled : Spelled "1:2:3é☃".toList "1-2%3A3%c3%A9☃".toList := by
    show Spelled ['1', ':', '2', ':', '3', 'é', '☃']
      ['1', '-', '2', '%', '3', 'A', '3', '%', 'c', '3', '%', 'A', '9', '☃']
    refine .plain (by decide) (by decide) (by decide) (.hyphen ?_)
    refine .plain (by decide) (by decide) (by decide) ?_
    refine @Spelled.escaped ':' ['%', '3', 'A'] _ _ (.cons rfl rfl .nil) ?_
    refine .plain (by decide) (by decide) (by decide) ?_
    refine @Spelled.escaped 'é' ['%', 'c', '3', '%', 'A', '9'] _ _ ?_ ?_
    · exact .cons rfl rfl (.cons rfl rfl .nil)
    · exact .plain (by decide) (by decide) (by decide) .nil
  have htext : String.ofList (Frame.crowded.text "1-2%3A3%c3%A9☃".toList) =
      "https://www.figma.com/file/a1B2/figma.com/design/other?mode=dev&&node-id2=9-9" ++
        "&node-id=1-2%3A3%c3%A9☃&node-id=7-7#?node-id=8-8" := by
    decide +kernel
  refine ⟨hspelled, ?_⟩
  rw [← htext, read_text Frame.crowded (by decide) (by decide) hspelled]
  rfl

end SceneMarkup.Link
