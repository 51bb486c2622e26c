import Mathlib.Data.List.TakeWhile
import SceneMarkup.Proofs.Recovery

/-!
# Paths to variables

A path is put together from free names: that of a collection, and the segments of the name of a
variable. Splitting it at its points gives the parts back, since names in Pascal case and in kebab
case are identifiers and hold no point.

* `pascal_isIdentifier`, `kebab_isIdentifier`: what a name is spelled as is an identifier.
* `segments_map_kebab`: a variable has one part for each segment of its name that is not blank.
  Blanks around a segment do not show in it.
* `Reference.resolved_parts`: the parts of a path, for every host. They are all identifiers if and
  only if the name of the variable has a segment.
-/

namespace SceneMarkup

namespace Text

/-- A letter or an underscore. -/
def isIdentifierStart (c : Char) : Bool := (isAsciiAlphanum c && !isAsciiDigit c) || c == '_'

/-- A letter, a digit, an underscore or a hyphen. -/
def isIdentifierChar (c : Char) : Bool := isAsciiAlphanum c || c == '_' || c == '-'

/-- An identifier of markup. -/
def isIdentifier (s : String) : Bool :=
  match s.toList with
  | [] => false
  | c :: cs => isIdentifierStart c && cs.all isIdentifierChar

theorem isIdentifierChar_of_isPascalChar {c : Char} (h : isPascalChar c = true) :
    isIdentifierChar c = true := by
  simp_all [isPascalChar, isIdentifierChar]

theorem isIdentifierChar_of_isKebabChar {c : Char} (h : isKebabChar c = true) :
    isIdentifierChar c = true := by
  simp only [isKebabChar, isAsciiDigit, isIdentifierChar, isAsciiAlphanum, Bool.or_eq_true,
    Bool.and_eq_true, decide_eq_true_eq] at h ⊢
  tauto

theorem mem_guardDigit_of_mem {cs : List Char} {c : Char} (h : c ∈ cs) : c ∈ guardDigit cs := by
  cases cs with
  | nil => cases h
  | cons d rest =>
      rw [guardDigit]
      split
      · exact List.mem_cons_of_mem '_' h
      · exact h

/-- Behind the guard of a digit an identifier starts, if no hyphen stands in front. -/
theorem guardDigit_isIdentifier
    {cs : List Char} (hne : cs ≠ []) (hhead : cs.head? ≠ some '-')
    (hchars : ∀ c ∈ guardDigit cs, isIdentifierChar c = true) :
    isIdentifier (String.ofList (guardDigit cs)) = true := by
  cases cs with
  | nil => exact absurd rfl hne
  | cons c rest =>
      have hall : (c :: rest).all isIdentifierChar = true :=
        List.all_eq_true.2 fun d hd => hchars d (mem_guardDigit_of_mem hd)
      rw [List.all_cons, Bool.and_eq_true] at hall
      by_cases hdigit : isAsciiDigit c = true
      · have hunderscore : isIdentifierStart '_' = true := by decide
        simp [isIdentifier, guardDigit, hdigit, hunderscore, hall]
      · have hhyphen : c ≠ '-' := by simpa using hhead
        have hstart : isIdentifierStart c = true := by
          simp_all [isIdentifierStart, isIdentifierChar]
        simp [isIdentifier, guardDigit, hdigit, hstart, hall.2]

/-- A name in Pascal case is an identifier. -/
theorem pascal_isIdentifier (name : String) : isIdentifier (pascal name) = true := by
  have hchars := pascal_chars name
  unfold pascal at hchars ⊢
  dsimp only at hchars ⊢
  split at hchars
  · decide
  next hne =>
    rw [String.toList_ofList] at hchars
    refine guardDigit_isIdentifier hne ?_ fun c hc => isIdentifierChar_of_isPascalChar (hchars c hc)
    intro hhead
    have hhyphen := hchars '-' (mem_guardDigit_of_mem (List.mem_of_mem_head? hhead))
    revert hhyphen
    decide

theorem head?_hyphenate {ws : List (List Char)} (h : ∀ w ∈ ws, w ≠ [] ∧ '-' ∉ w) :
    (hyphenate ws).head? ≠ some '-' := by
  have hfirst : ∀ w ∈ ws, ∀ rest, (w ++ rest).head? ≠ some '-' := by
    intro w hw rest
    obtain ⟨hne, hhyphen⟩ := h w hw
    obtain ⟨c, cs, rfl⟩ := List.exists_cons_of_ne_nil hne
    simp only [List.cons_append, List.head?_cons, ne_eq, Option.some.injEq]
    rintro rfl
    exact hhyphen List.mem_cons_self
  match ws with
  | [] => nofun
  | [w] => simpa [hyphenate] using hfirst w List.mem_cons_self []
  | w :: v :: rest => exact hfirst w List.mem_cons_self _

/-- A name in kebab case is an identifier, since it does not start with a hyphen. -/
theorem kebab_isIdentifier (name : String) : isIdentifier (kebab name) = true := by
  have hchars := kebab_chars name
  rcases kebab_cases name with hunnamed | ⟨ws, hne, hpieces, hjoined⟩
  · rw [hunnamed]
    decide
  · rw [hjoined, String.toList_ofList] at hchars
    rw [hjoined]
    exact guardDigit_isIdentifier
      (hyphenate_ne_nil hne fun w hw => (hpieces w hw).1) (head?_hyphenate hpieces)
      fun c hc => isIdentifierChar_of_isKebabChar (hchars c hc)

theorem point_notMem_of_isIdentifier {s : String} (h : isIdentifier s = true) :
    '.' ∉ s.toList := by
  have hpoint : isIdentifierStart '.' = false ∧ isIdentifierChar '.' = false := by decide
  unfold isIdentifier at h
  split at h
  · cases h
  next c cs hlist =>
    rw [Bool.and_eq_true, List.all_eq_true] at h
    rw [hlist, List.mem_cons]
    rintro (rfl | hmem)
    · simp [hpoint] at h
    · simpa [hpoint] using h.2 '.' hmem

/-- Blanks around a name do not show in kebab case. -/
theorem kebab_trim (cs : List Char) :
    kebab (String.ofList (trim cs)) = kebab (String.ofList cs) := by
  rw [kebab_eq, kebab_eq, String.toList_ofList, String.toList_ofList, pieces_trim]

/-- The parts of a text between the occurrences of a separator. -/
def parts (separator : Char) (s : String) : List String :=
  (s.toList.splitOn separator).map String.ofList

/-- The parts of a name between slashes that are not blank. -/
def shownParts (name : String) : List String :=
  (parts '/' name).filter fun part => part.toList.any fun c => !isBlank c

theorem trim_eq_nil_iff (cs : List Char) : trim cs = [] ↔ ∀ c ∈ cs, isBlank c = true := by
  constructor
  · intro h
    obtain ⟨front, back, hcs, hfront, hback⟩ := trimBy_spec isBlank cs
    rw [show trimBy isBlank cs = [] from h, List.append_nil] at hcs
    rw [hcs, List.forall_mem_append]
    exact ⟨hfront, hback⟩
  · intro h
    rw [trim, trimBy, List.dropWhile_eq_nil_iff.2 h]
    rfl

/-- A name has one segment for each part that is not blank, and blanks do not show in kebab case. -/
theorem segments_map_kebab (name : String) :
    (segments name).map kebab = (shownParts name).map kebab := by
  rw [segments, shownParts, parts, splitBy_eq_splitOnP]
  show _ = List.map kebab (List.filter _ (List.map _ (name.toList.splitOnP (· == '/'))))
  induction name.toList.splitOnP (· == '/') with
  | nil => rfl
  | cons part rest ih =>
      by_cases hpart : ∀ c ∈ part, isBlank c = true
      · have htrim := (trim_eq_nil_iff part).2 hpart
        have hshown : (part.any fun c => !isBlank c) = false := by
          simpa using hpart
        simpa [htrim, hshown] using ih
      · have htrim := mt (trim_eq_nil_iff part).1 hpart
        have hshown : (part.any fun c => !isBlank c) = true := by
          simpa using hpart
        simpa [htrim, hshown, kebab_trim] using ih

/-- Parts without points are found again between the points that join them. -/
theorem parts_intercalate
    {ps : List String} (hne : ps ≠ []) (h : ∀ part ∈ ps, '.' ∉ part.toList) :
    parts '.' (".".intercalate ps) = ps := by
  have hpieces : ∀ piece ∈ ps.map String.toList, '.' ∉ piece := by
    intro piece hpiece
    obtain ⟨part, hpart, rfl⟩ := List.mem_map.1 hpiece
    exact h part hpart
  rw [parts, String.toList_intercalate, show ".".toList = ['.'] from rfl,
    List.splitOn_intercalate '.' hpieces (by simpa using hne)]
  simp [Function.comp_def]

end Text

namespace Reference

open Text (isIdentifier kebab pascal parts shownParts)

variable {σ : Type}

/-- The parts of the place of a collection's values. -/
def scopeParts (c : VariableCollection) : List String :=
  pascal c.name :: if 1 < c.modes.length then ["current"] else []

/-- The parts of the place of a variable behind it. Where a name has no segment, nothing stands
behind the last point. -/
def ownParts (v : Variable) : List String :=
  if shownParts v.name = [] then [""] else (shownParts v.name).map kebab

theorem scopeParts_isIdentifier (c : VariableCollection) :
    ∀ part ∈ scopeParts c, isIdentifier part = true := by
  have hcurrent : isIdentifier "current" = true := by decide
  intro part hpart
  rcases List.mem_cons.1 hpart with rfl | hpart
  · exact Text.pascal_isIdentifier c.name
  · split at hpart
    · rwa [List.mem_singleton.1 hpart]
    · cases hpart

/-- The parts of a variable are identifiers if and only if its name has a segment. -/
theorem ownParts_isIdentifier_iff (v : Variable) :
    (∀ part ∈ ownParts v, isIdentifier part = true) ↔ shownParts v.name ≠ [] := by
  have hempty : isIdentifier "" = false := by decide
  unfold ownParts
  by_cases hshown : shownParts v.name = []
  · simp [hshown, hempty]
  · simp [hshown, Text.kebab_isIdentifier]

theorem ownParts_ne_nil (v : Variable) : ownParts v ≠ [] := by
  unfold ownParts
  split
  · simp
  next hshown => simpa using hshown

/-- A path is its parts with points between them. -/
theorem path_eq_intercalate (c : VariableCollection) (v : Variable) :
    path c v = ".".intercalate (scopeParts c ++ ownParts v) := by
  have hscope : scope c = ".".intercalate (scopeParts c) := by
    unfold scope scopeParts
    split
    · rw [String.intercalate_cons_cons, String.intercalate_singleton, String.append_assoc]
      rfl
    · exact String.intercalate_singleton.symm
  have hown : ".".intercalate (components v) = ".".intercalate (ownParts v) := by
    rw [components, Text.segments_map_kebab, ownParts]
    split
    next hshown => simp [hshown]
    next => rfl
  rw [path, hscope, hown,
    String.intercalate_append_of_ne_nil (by simp [scopeParts]) (ownParts_ne_nil v)]

/-- The parts of a path are those that it has been put together from. -/
theorem parts_path (c : VariableCollection) (v : Variable) :
    parts '.' (path c v) = scopeParts c ++ ownParts v := by
  have hown : ∀ part ∈ ownParts v, '.' ∉ part.toList := by
    intro part hpart
    unfold ownParts at hpart
    split at hpart
    · rw [List.mem_singleton.1 hpart]
      decide
    · obtain ⟨name, -, rfl⟩ := List.mem_map.1 hpart
      exact Text.point_notMem_of_isIdentifier (Text.kebab_isIdentifier name)
  rw [path_eq_intercalate]
  refine Text.parts_intercalate (by simp [scopeParts]) ?_
  rw [List.forall_mem_append]
  exact
    ⟨fun part hpart => Text.point_notMem_of_isIdentifier (scopeParts_isIdentifier c part hpart),
      hown⟩

/-- A resolution finds a path only behind a variable and its collection. -/
theorem resolve_eq_some
    {host : Host σ} {state : σ} {id text : String}
    (h : ((resolve id).run host state).outcome = .ok (some text)) :
    ∃ v c,
      (host (.variableById id) state).1 = .ok (some v) ∧
      (host (.collectionById v.collectionId) (host (.variableById id) state).2).1 = .ok (some c) ∧
      text = path c v := by
  rw [← Script.bind_done (resolve id), resolve_bind] at h
  change ((afterVariable id .done (host (.variableById id) state).1).run host _).outcome = _ at h
  rcases hv : (host (.variableById id) state).1 with f | _ | v
  · rw [hv] at h
    cases h
  · rw [hv] at h
    cases h
  · rw [hv] at h
    change ((afterCollection id v .done
      (host (.collectionById v.collectionId) _).1).run host _).outcome
      = _ at h
    rcases hc : (host (.collectionById v.collectionId) (host (.variableById id) state).2).1
      with f | _ | c
    · rw [hc] at h
      cases h
    · rw [hc] at h
      cases h
    · rw [hc] at h
      cases h
      exact ⟨v, c, rfl, hc, rfl⟩

/-- **The parts of a path.** Where a host has a variable and its collection, the path to the
variable falls apart at its points into the name of the collection, `current` if the collection has
several modes, and one part for each segment of the variable's name. All of them are identifiers
if and only if there is such a segment. -/
theorem resolved_parts
    {host : Host σ} {state : σ} {id text : String}
    (h : ((resolve id).run host state).outcome = .ok (some text)) :
    ∃ v c,
      (host (.variableById id) state).1 = .ok (some v) ∧
      (host (.collectionById v.collectionId) (host (.variableById id) state).2).1 = .ok (some c) ∧
      parts '.' text =
        pascal c.name :: (if 1 < c.modes.length then ["current"] else []) ++
          (if shownParts v.name = [] then [""] else (shownParts v.name).map kebab) ∧
      ((∀ part ∈ parts '.' text, isIdentifier part = true) ↔ shownParts v.name ≠ []) := by
  obtain ⟨v, c, hv, hc, rfl⟩ := resolve_eq_some h
  refine ⟨v, c, hv, hc, parts_path c v, ?_⟩
  rw [parts_path, List.forall_mem_append, ownParts_isIdentifier_iff]
  exact and_iff_right (scopeParts_isIdentifier c)

/-- A design with a variable in a collection of two modes, both named freely, and with another
variable that has no name. -/
def freelyNamed : Tables :=
  { Tables.empty with
    known := [
      ("size", ⟨"size", "font.size / 2x Large&Co // größe", "theme"⟩),
      ("nameless", ⟨"nameless", " / ", "theme"⟩)]
    collections := [("theme", ⟨"theme", "3d ui-kit/Thème", [⟨"1", "Light"⟩, ⟨"2", "Dark"⟩]⟩)] }

/-- The points of a name do not show in its path. -/
theorem resolved_parts_freelyNamed :
    ((resolve "size").run freelyNamed.host ()).outcome =
      .ok (some "_3dUiKitThMe.current.font-size._2x-large-and-co.gr-e") ∧
    ∃ v c,
      (freelyNamed.host (.variableById "size") ()).1 = .ok (some v) ∧
      (freelyNamed.host (.collectionById v.collectionId) ()).1 = .ok (some c) ∧
      parts '.' "_3dUiKitThMe.current.font-size._2x-large-and-co.gr-e" =
        pascal c.name :: (if 1 < c.modes.length then ["current"] else []) ++
          (if shownParts v.name = [] then [""] else (shownParts v.name).map kebab) ∧
      ((∀ part ∈ parts '.' "_3dUiKitThMe.current.font-size._2x-large-and-co.gr-e",
          isIdentifier part = true) ↔ shownParts v.name ≠ []) := by
  have hresolves : ((resolve "size").run freelyNamed.host ()).outcome =
      .ok (some "_3dUiKitThMe.current.font-size._2x-large-and-co.gr-e") := by
    decide +kernel
  exact ⟨hresolves, resolved_parts hresolves⟩

/-- The path to a variable without a name ends in a point. -/
theorem nameless_part :
    ∃ text,
      ((resolve "nameless").run freelyNamed.host ()).outcome = .ok (some text) ∧
      "" ∈ parts '.' text := by
  refine ⟨"_3dUiKitThMe.current.", ?_, ?_⟩
  · decide +kernel
  · decide +kernel

end Reference
end SceneMarkup
