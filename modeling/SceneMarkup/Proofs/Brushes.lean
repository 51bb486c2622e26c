import SceneMarkup.Proofs.CornerLiterals
import SceneMarkup.Proofs.Scaling

/-!
# The form of brushes

A paint whose channels, alphas, opacity and positions lie between zero and one has a brush of a
fixed form: a color has two digits for each channel, and a gradient lists its angle or its shape and
then its stops.

* `Color.byte_isScale`: the byte of a channel grows with the channel, from 0 to 255.
* `colorText`, `StopForm`, `GradientForm`: what colors, stops and gradients look like.
* `Paint.Drawn`: when a paint has which brush.
* `Paint.brush_formed`: the brush of a paint is of the form.
-/

namespace SceneMarkup

open Binary64 (InUnit Share Steps)

/-- The channels and alpha lie between zero and one. -/
structure Color.Proper (c : Color) : Prop where
  r : c.r.InUnit
  g : c.g.InUnit
  b : c.b.InUnit
  a : c.a.InUnit

structure ColorStop.Proper (s : ColorStop) : Prop where
  color : s.color.Proper
  position : s.position.InUnit

/-- A transform whose first row starts with two finite numbers. -/
def Directed (transform : List (List Binary64)) : Prop :=
  ∃ a b more rows, transform = (a :: b :: more) :: rows ∧ a.isFinite = true ∧ b.isFinite = true

/-- A paint within its ranges. The transform may be missing or empty. -/
structure Paint.Proper (p : Paint) : Prop where
  opacity : p.opacity.InUnit
  color : ∀ c, p.color = some c → c.Proper
  stops : ∀ stops, p.stops = some stops → ∀ s ∈ stops, s.Proper
  transform : ∀ rows, p.transform = some rows → rows ≠ [] → Directed rows

/-- A byte for each channel, that does not fall when the channel rises. -/
structure IsScale (byte : Binary64 → Fin 256) : Prop where
  mono : ∀ x y : Binary64, x.InUnit → y.InUnit → x.value ≤ y.value → byte x ≤ byte y
  zero : ∀ x : Binary64, x.InUnit → x.value = 0 → byte x = 0
  one : ∀ x : Binary64, x.InUnit → x.value = 1 → byte x = 255

/-- Two hexadecimal digits, in lower case. -/
def byteDigits (b : Fin 256) : String :=
  String.ofList [Nat.digitChar (b / 16), Nat.digitChar (b % 16)]

example : byteDigits 0 = "00" ∧ byteDigits 171 = "ab" ∧ byteDigits 255 = "ff" := by decide

section Forms

variable (byte : Binary64 → Fin 256)

/-- A color: a byte for each channel, and one for alpha where it is below one. -/
def colorText (c : Color) (alpha : Binary64) : String :=
  "#" ++ byteDigits (byte c.r) ++ byteDigits (byte c.g) ++ byteDigits (byte c.b) ++
    if alpha.value < 1 then byteDigits (byte alpha) else ""

/-- A stop: its color and a percentage. -/
inductive StopForm (s : ColorStop) : String → Prop
  | mk {percent : ℕ} (hpercent : percent ≤ 100) :
    StopForm s (colorText byte s.color s.color.a ++ " " ++ toString percent ++ "%")

/-- A gradient: the leading part and one part for each stop, in order. There is no comma but those
between the parts. -/
def GradientForm (stops : List ColorStop) (name lead text : String) : Prop :=
  ∃ parts, List.Forall₂ (StopForm byte) stops parts ∧ (∀ part ∈ lead :: parts, ',' ∉ part.toList) ∧
    text = "@" ++ name ++ "-gradient(" ++ ", ".intercalate (lead :: parts) ++ ")"

/-- The brush of a paint that has all the data for it. -/
inductive BrushForm (p : Paint) : String → Prop
  | solid {c : Color} (htype : p.type = "SOLID") (hcolor : p.color = some c) :
    BrushForm p (colorText byte c p.opacity)
  | linear {stops : List ColorStop} {degrees : ℕ} {text : String}
    (htype : p.type = "GRADIENT_LINEAR")
    (hstops : p.stops = some stops) (hdegrees : degrees < 360)
    (hform : GradientForm byte stops "linear" (toString degrees ++ "deg") text) : BrushForm p text
  | radial {stops : List ColorStop} {text : String} (htype : p.type = "GRADIENT_RADIAL")
    (hstops : p.stops = some stops) (hform : GradientForm byte stops "radial" "circle" text) :
    BrushForm p text

end Forms

/-- The types of paints that have brushes. -/
def brushTypes : List String := ["SOLID", "GRADIENT_LINEAR", "GRADIENT_RADIAL"]

namespace Paint

/-- There are fewer than two stops, or there is no transform. -/
def LacksGradient (p : Paint) : Prop :=
  (p.stops.getD []).length < 2 ∨ p.transform.getD [] = []

/-- The paint lacks the data for its brush. -/
def Lacks (p : Paint) : Prop :=
  p.type = "SOLID" ∧ p.color = none ∨
    (p.type = "GRADIENT_LINEAR" ∨ p.type = "GRADIENT_RADIAL") ∧ p.LacksGradient

/-- The brush of a paint: none, an empty one, or one of the form. -/
inductive Drawn (byte : Binary64 → Fin 256) (p : Paint) : Option String → Prop
  | unsupported (htype : p.type ∉ brushTypes) : Drawn byte p none
  | lacking (hlacks : p.Lacks) : Drawn byte p (some "")
  | formed {t : String} (hcomplete : ¬ p.Lacks) (hform : BrushForm byte p t) : Drawn byte p (some t)

end Paint

namespace Binary64

theorem one_eq : one = finite false 4503599627370496 (-52) (by decide) := by
  decide +kernel

theorem value_one : one.value = 1 := by
  rw [one_eq, value_finite]
  norm_num [signum]

theorem one_inUnit : one.InUnit :=
  ⟨by rw [one_eq]; rfl, value_one ▸ zero_le_one, value_one.le⟩

theorem zero_inUnit : (zero false).InUnit :=
  ⟨rfl, (value_zero false).ge, (value_zero false).trans_le zero_le_one⟩

end Binary64

namespace Color

/-- The byte of a channel between zero and one. -/
def byte (x : Binary64) : Fin 256 := Fin.ofNat 256 (x.mul channelSteps).nearest.toNat

theorem channelSteps_steps : Steps channelSteps 255 := by
  have hsteps : channelSteps = .finite false 8972014882652160 (-45) (by decide) := by decide +kernel
  exact .of_finite hsteps (by norm_num) (by decide) ⟨8989607068696576, -45, by decide, by norm_num⟩

/-- A channel between zero and one has a byte, which is the nearest number of steps. -/
theorem channelByte_eq {x : Binary64} (hx : x.InUnit) :
    channelByte x = .ok (byte x : ℕ) ∧ Share 255 x.value (byte x : ℕ) := by
  obtain ⟨k, hnearest, hshare⟩ := channelSteps_steps.nearestInt_mul hx
  obtain ⟨hlow, hhigh⟩ := channelSteps_steps.share_bounds hx hshare
  have hk : (x.mul channelSteps).nearest = k := by
    cases hproduct : x.mul channelSteps with
    | nan => rw [hproduct] at hnearest; cases hnearest
    | infinite s => rw [hproduct] at hnearest; cases hnearest
    | finite s m e h => rw [hproduct] at hnearest; exact Except.ok.inj hnearest
  have hbyte : ((byte x : ℕ) : ℤ) = k := by
    rw [byte, hk, Fin.val_ofNat, Nat.mod_eq_of_lt (by omega), Int.toNat_of_nonneg hlow]
  rw [hbyte]
  exact ⟨hnearest, hshare⟩

/-- Bytes grow with their channels, from none to all of the steps. -/
theorem byte_isScale : IsScale byte := by
  constructor
  · intro x y hx hy hle
    have hbytes := (channelByte_eq hx).2.mono (channelByte_eq hy).2 hle
    rw [Fin.le_def]
    exact_mod_cast hbytes
  · intro x hx hzero
    have hshare := (channelByte_eq hx).2
    rw [hzero] at hshare
    exact Fin.ext (Int.natCast_eq_zero.1 (hshare.unique (Share.zero 255)))
  · intro x hx hone
    have hshare := (channelByte_eq hx).2
    rw [hone] at hshare
    exact Fin.ext (Int.ofNat_inj.1 (hshare.unique channelSteps_steps.share_one))

/-- A byte is written in two digits. -/
theorem byteText_eq (b : Fin 256) : String.ofList (byteText (b : ℕ)) = byteDigits b := by
  have hpadded : byteText (b : ℕ) = Text.Hex.padded 2 b := by
    rw [byteText, if_neg (by omega), Int.natAbs_natCast]
  rw [hpadded, Text.Hex.padded, byteDigits, Nat.toDigits_eq_if (by decide)]
  by_cases hsmall : b.val < 16
  · rw [if_pos hsmall, Nat.div_eq_of_lt hsmall, Nat.mod_eq_of_lt hsmall]
    rfl
  · rw [if_neg hsmall, Nat.toDigits_eq_if (by decide), if_pos (by omega)]
    rfl

/-- The comparison with one sees the exact value. -/
theorem alpha_lt_one_iff {alpha : Binary64} (h : alpha.InUnit) :
    alpha.lt .one = true ↔ alpha.value < 1 := by
  rw [Binary64.lt_iff h.isFinite Binary64.one_inUnit.isFinite, Binary64.value_one]

/-- A proper color is written in bytes, with alpha where it is below one. -/
theorem hex_eq {c : Color} {alpha : Binary64} (hc : c.Proper) (halpha : alpha.InUnit) :
    c.hex alpha = .ok (colorText byte c alpha) := by
  have hchannels : c.channelText =
      .ok ('#' :: (byteText (byte c.r : ℕ) ++ byteText (byte c.g : ℕ) ++
        byteText (byte c.b : ℕ))) := by
    rw [channelText, (channelByte_eq hc.r).1, (channelByte_eq hc.g).1, (channelByte_eq hc.b).1]
    rfl
  have htext : ∀ rest, String.ofList ('#' :: (byteText (byte c.r : ℕ) ++ byteText (byte c.g : ℕ) ++
      byteText (byte c.b : ℕ)) ++ rest) =
      "#" ++ byteDigits (byte c.r) ++ byteDigits (byte c.g) ++ byteDigits (byte c.b) ++
        String.ofList rest := by
    intro rest
    refine String.toList_inj.1 ?_
    simp [← byteText_eq]
  rw [hex, hchannels]
  show (if alpha.lt .one = true then _ else _) = _
  by_cases hbelow : alpha.value < 1
  · rw [if_pos ((alpha_lt_one_iff halpha).2 hbelow), (channelByte_eq halpha).1, colorText,
      if_pos hbelow, ← byteText_eq (byte alpha), ← htext]
    rfl
  · rw [if_neg (mt (alpha_lt_one_iff halpha).1 hbelow), colorText, if_neg hbelow]
    have hwhole := htext []
    rw [List.append_nil] at hwhole
    exact congrArg Except.ok hwhole

end Color

theorem comma_notMem_toDigits (n : ℕ) : ',' ∉ Nat.toDigits 10 n := by
  intro hmem
  have hdigit := Nat.isDigit_of_mem_toDigits (by decide) (by decide) hmem
  revert hdigit
  decide

theorem comma_notMem_byteDigits (b : Fin 256) : ',' ∉ (byteDigits b).toList := by
  have hdigits : ∀ n < 16, ',' ≠ Nat.digitChar n := by decide
  have hhigh := hdigits (b / 16) (by omega)
  have hlow := hdigits (b % 16) (by omega)
  simp [byteDigits, hhigh, hlow]

theorem comma_notMem_colorText (byte : Binary64 → Fin 256) (c : Color) (alpha : Binary64) :
    ',' ∉ (colorText byte c alpha).toList := by
  unfold colorText
  split <;> simp [comma_notMem_byteDigits]

/-- A written stop has no comma, so that commas keep stops apart. -/
theorem StopForm.comma_notMem {byte : Binary64 → Fin 256} {s : ColorStop} {part : String}
    (h : StopForm byte s part) :
    ',' ∉ part.toList := by
  obtain ⟨-⟩ := h
  simp [comma_notMem_colorText, comma_notMem_toDigits]

theorem comma_notMem_parts {byte : Binary64 → Fin 256} {stops : List ColorStop}
    {parts : List String}
    (h : List.Forall₂ (StopForm byte) stops parts) :
    ∀ part ∈ parts, ',' ∉ part.toList := by
  induction h with
  | nil => nofun
  | cons hpart _ ih => exact List.forall_mem_cons.2 ⟨hpart.comma_notMem, ih⟩

namespace Gradient

open Color (byte)

theorem hundred_steps : Steps hundred 100 := by
  have hsteps : hundred = .finite false 7036874417766400 (-46) (by decide) := by decide +kernel
  exact .of_finite hsteps (by norm_num) (by decide) ⟨7072058789855232, -46, by decide, by norm_num⟩

/-- A proper stop is written, in the form of a stop. -/
theorem stopText_formed {s : ColorStop} (hs : s.Proper) :
    ∃ part, stopText s = .ok part ∧ StopForm byte s part := by
  obtain ⟨k, hnearest, hshare⟩ := hundred_steps.nearestInt_mul hs.position
  obtain ⟨hlow, hhigh⟩ := hundred_steps.share_bounds hs.position hshare
  obtain ⟨percent, rfl⟩ := Int.eq_ofNat_of_zero_le hlow
  have hpercent : percent ≤ 100 := by omega
  refine ⟨_, ?_, .mk hpercent⟩
  rw [stopText, Color.text, Color.hex_eq hs.color hs.color.a, hnearest]
  rfl

theorem stopTexts_formed {stops : List ColorStop} (h : ∀ s ∈ stops, s.Proper) :
    ∃ parts, stopTexts stops = .ok parts ∧ List.Forall₂ (StopForm byte) stops parts := by
  induction stops with
  | nil => exact ⟨[], rfl, .nil⟩
  | cons s rest ih =>
      obtain ⟨hs, hrest⟩ := List.forall_mem_cons.1 h
      obtain ⟨part, hpart, hform⟩ := stopText_formed hs
      obtain ⟨parts, hparts, hforms⟩ := ih hrest
      refine ⟨part :: parts, ?_, .cons hform hforms⟩
      rw [stopTexts, hpart, hparts]
      rfl

/-- The angle is whole, not negative and less than a full turn, whatever the direction is. -/
theorem angle_eq {y x : Binary64} (hy : y.isFinite = true) (hx : x.isFinite = true) :
    ∃ degrees : ℕ, degrees < 360 ∧ angle y x = .ok degrees := by
  obtain ⟨direction, hdirection⟩ : ∃ direction, Angle.wholeDegrees y x = .ok direction := by
    cases y with
    | nan => cases hy
    | infinite s => cases hy
    | finite s m e h =>
        cases x with
        | nan => cases hx
        | infinite t => cases hx
        | finite t n f k => exact ⟨_, rfl⟩
  obtain ⟨degrees, hdegrees⟩ :=
    Int.eq_ofNat_of_zero_le (Int.emod_nonneg (90 + direction) (by decide : (360 : ℤ) ≠ 0))
  have hturn := Int.emod_lt_of_pos (90 + direction) (by decide : (0 : ℤ) < 360)
  refine ⟨degrees, by omega, ?_⟩
  rw [angle, hdirection, ← hdegrees]
  rfl

/-- A gradient of written stops has the form of a gradient. -/
theorem text_formed {stops : List ColorStop} {parts : List String} {name lead : String}
    (hlead : ',' ∉ lead.toList) (hparts : List.Forall₂ (StopForm byte) stops parts) :
    GradientForm byte stops name lead (text name lead parts) :=
  ⟨parts, hparts, List.forall_mem_cons.2 ⟨hlead, comma_notMem_parts hparts⟩, rfl⟩

/-- A linear gradient has an angle below a full turn, whatever its direction. -/
theorem linear_formed {stops : List ColorStop} {transform : List (List Binary64)}
    (htwo : 2 ≤ stops.length)
    (hstops : ∀ s ∈ stops, s.Proper) (htransform : Directed transform) :
    ∃ degrees t, degrees < 360 ∧ linear stops transform = .ok t ∧
      GradientForm byte stops "linear" (toString degrees ++ "deg") t := by
  obtain ⟨a, b, more, rows, rfl, ha, hb⟩ := htransform
  obtain ⟨degrees, hturn, hangle⟩ := angle_eq hb ha
  obtain ⟨parts, hparts, hforms⟩ := stopTexts_formed hstops
  have hlead : ',' ∉ (toString degrees ++ "deg").toList := by
    simp [comma_notMem_toDigits]
  refine ⟨degrees, _, hturn, ?_, text_formed hlead hforms⟩
  rw [linear, if_neg (by omega), direction?]
  dsimp only
  rw [hangle, hparts]
  rfl

/-- A radial gradient has the form of one with a circle in front. -/
theorem radial_formed {stops : List ColorStop} (htwo : 2 ≤ stops.length)
    (hstops : ∀ s ∈ stops, s.Proper) :
    ∃ t, radial stops = .ok t ∧ GradientForm byte stops "radial" "circle" t := by
  obtain ⟨parts, hparts, hforms⟩ := stopTexts_formed hstops
  refine ⟨_, ?_, text_formed (by decide) hforms⟩
  rw [radial, if_neg (by omega), hparts]

end Gradient

namespace Paint

variable {p : Paint}

/-- A gradient is drawn from the stops and the transform, if there are enough of them. -/
theorem gradient?_cases (p : Paint) :
    p.gradient? = none ∧ p.LacksGradient ∨
      ∃ stops transform, p.gradient? = some (stops, transform) ∧ p.stops = some stops ∧
        p.transform = some transform ∧ transform ≠ [] ∧ (p.LacksGradient ↔ stops.length < 2) := by
  unfold gradient? LacksGradient
  cases hstops : p.stops with
  | none => exact .inl ⟨rfl, .inl (by decide)⟩
  | some stops =>
      cases htransform : p.transform with
      | none => exact .inl ⟨by split <;> simp_all, .inr rfl⟩
      | some transform =>
          cases stops with
          | nil => exact .inl ⟨rfl, .inl (by decide)⟩
          | cons s rest =>
              cases transform with
              | nil => exact .inl ⟨rfl, .inr rfl⟩
              | cons row rows => exact .inr ⟨_, _, rfl, rfl, rfl, nofun, by simp⟩

/-- A solid paint lacks its color or nothing. -/
theorem lacks_solid (htype : p.type = "SOLID") : p.Lacks ↔ p.color = none := by
  simp [Lacks, htype]

theorem lacks_gradient (htype : p.type = "GRADIENT_LINEAR" ∨ p.type = "GRADIENT_RADIAL") :
    p.Lacks ↔ p.LacksGradient := by
  rcases htype with htype | htype <;> simp [Lacks, htype]

/-- Only a paint of a type with a brush can lack something. -/
theorem Lacks.type_mem (h : p.Lacks) : p.type ∈ brushTypes := by
  rcases h with ⟨htype, -⟩ | ⟨htype | htype, -⟩ <;> rw [htype] <;> decide

section Formed

variable {byte : Binary64 → Fin 256} {t : String}

theorem type_mem_of_brushForm (h : BrushForm byte p t) : p.type ∈ brushTypes := by
  cases h with
  | solid htype => rw [htype]; decide
  | linear htype => rw [htype]; decide
  | radial htype => rw [htype]; decide

/-- A brush starts with a mark. -/
theorem ne_empty_of_brushForm (h : BrushForm byte p t) : t ≠ "" := by
  cases h with
  | solid => simp [colorText]
  | linear _ _ _ hform =>
      obtain ⟨parts, -, -, rfl⟩ := hform
      simp
  | radial _ _ hform =>
      obtain ⟨parts, -, -, rfl⟩ := hform
      simp

end Formed

theorem solid_drawn (h : p.Proper) (htype : p.type = "SOLID") :
    ∃ b, p.brush = .ok b ∧ p.Drawn Color.byte b.text? := by
  rw [brush, if_pos htype]
  cases hcolor : p.color with
  | none => exact ⟨_, rfl, .lacking ((lacks_solid htype).2 hcolor)⟩
  | some c =>
      have hcomplete : ¬ p.Lacks := by rw [lacks_solid htype, hcolor]; nofun
      dsimp only
      rw [Color.text, Color.hex_eq (h.color c hcolor) h.opacity]
      exact ⟨_, rfl, .formed hcomplete (.solid htype hcolor)⟩

/-- A gradient has a brush of the form, if `draw` gives an empty one for fewer than two stops and
one of the form otherwise. -/
theorem gradient_drawn (lack : Lack)
    (draw : List ColorStop → List (List Binary64) → Except Fault String)
    (htype : p.type = "GRADIENT_LINEAR" ∨ p.type = "GRADIENT_RADIAL")
    (hvacant : p.gradient? = none → p.brush = .ok (.incomplete lack))
    (hgiven : ∀ stops transform, p.gradient? = some (stops, transform) →
      p.brush = (draw stops transform).map .drawn)
    (hfew : ∀ stops transform, stops.length < 2 → draw stops transform = .ok "")
    (hdraw : ∀ stops transform, 2 ≤ stops.length → p.stops = some stops →
      p.transform = some transform →
      transform ≠ [] → ∃ t, draw stops transform = .ok t ∧ BrushForm Color.byte p t) :
    ∃ b, p.brush = .ok b ∧ p.Drawn Color.byte b.text? := by
  have hlacks := lacks_gradient htype
  rcases p.gradient?_cases with ⟨hnone, hlack⟩ |
    ⟨stops, transform, hsome, hstops, htransform, hne, htwo⟩
  · exact ⟨_, hvacant hnone, .lacking (hlacks.2 hlack)⟩
  · rw [hgiven stops transform hsome]
    by_cases hless : stops.length < 2
    · rw [hfew stops transform hless]
      exact ⟨_, rfl, .lacking (hlacks.2 (htwo.2 hless))⟩
    · obtain ⟨t, ht, hform⟩ := hdraw stops transform (not_lt.1 hless) hstops htransform hne
      rw [ht]
      exact ⟨_, rfl, .formed (mt (hlacks.trans htwo).1 hless) hform⟩

theorem linear_drawn (h : p.Proper) (htype : p.type = "GRADIENT_LINEAR") :
    ∃ b, p.brush = .ok b ∧ p.Drawn Color.byte b.text? := by
  have hsolid : p.type ≠ "SOLID" := by rw [htype]; decide
  refine gradient_drawn .linearStops Gradient.linear (.inl htype) ?_ ?_ ?_ ?_
  · intro hnone
    rw [brush, if_neg hsolid, if_pos htype, hnone]
  · intro stops transform hsome
    rw [brush, if_neg hsolid, if_pos htype, hsome]
  · exact fun stops transform hless => if_pos hless
  · intro stops transform htwo hstops htransform hne
    obtain ⟨degrees, t, hturn, ht, hform⟩ :=
      Gradient.linear_formed htwo (h.stops _ hstops) (h.transform _ htransform hne)
    exact ⟨t, ht, .linear htype hstops hturn hform⟩

theorem radial_drawn (h : p.Proper) (htype : p.type = "GRADIENT_RADIAL") :
    ∃ b, p.brush = .ok b ∧ p.Drawn Color.byte b.text? := by
  have hsolid : p.type ≠ "SOLID" := by rw [htype]; decide
  have hlinear : p.type ≠ "GRADIENT_LINEAR" := by rw [htype]; decide
  refine gradient_drawn .radialStops (fun stops _ => Gradient.radial stops) (.inr htype) ?_ ?_ ?_ ?_
  · intro hnone
    rw [brush, if_neg hsolid, if_neg hlinear, if_pos htype, hnone]
  · intro stops transform hsome
    rw [brush, if_neg hsolid, if_neg hlinear, if_pos htype, hsome]
  · exact fun stops _ hless => if_pos hless
  · intro stops _ htwo hstops _ _
    obtain ⟨t, ht, hform⟩ := Gradient.radial_formed htwo (h.stops _ hstops)
    exact ⟨t, ht, .radial htype hstops hform⟩

/-- A proper paint of any type is drawn as it has to be. -/
theorem brush_drawn (h : p.Proper) : ∃ b, p.brush = .ok b ∧ p.Drawn Color.byte b.text? := by
  by_cases htype : p.type ∈ brushTypes
  · simp only [brushTypes, List.mem_cons, List.not_mem_nil, or_false] at htype
    rcases htype with hsolid | hlinear | hradial
    · exact solid_drawn h hsolid
    · exact linear_drawn h hlinear
    · exact radial_drawn h hradial
  · have hother := htype
    simp only [brushTypes, List.mem_cons, List.not_mem_nil, or_false, not_or] at hother
    rw [brush, if_neg hother.1, if_neg hother.2.1, if_neg hother.2.2]
    exact ⟨_, rfl, .unsupported htype⟩

/-- **Brushes are well formed.** There is one scale of bytes for all channels. A paint within its
ranges has no brush if and only if its type has none, and an empty one if and only if it lacks the
data for it. Every other brush is of the form of its type. -/
theorem brush_formed :
    ∃ byte, IsScale byte ∧ ∀ p : Paint, p.Proper →
      ∃ b, p.brush = .ok b ∧
        (b.text? = none ↔ p.type ∉ brushTypes) ∧
        (b.text? = some "" ↔ p.Lacks) ∧
        ∀ t, b.text? = some t → t ≠ "" → BrushForm byte p t := by
  refine ⟨Color.byte, Color.byte_isScale, fun p hp => ?_⟩
  obtain ⟨b, hb, hdrawn⟩ := brush_drawn hp
  refine ⟨b, hb, ?_⟩
  generalize b.text? = text at hdrawn
  cases hdrawn with
  | unsupported htype => exact ⟨by simpa, by simpa using mt Lacks.type_mem htype, nofun⟩
  | lacking hlacks =>
      refine ⟨by simpa using hlacks.type_mem, by simpa, fun t ht hne => ?_⟩
      exact absurd (Option.some.inj ht).symm hne
  | formed hcomplete hform =>
      refine ⟨by simpa using type_mem_of_brushForm hform, ?_, ?_⟩
      · simpa [hcomplete] using ne_empty_of_brushForm hform
      · rintro t ⟨⟩ -
        exact hform

/-- From opaque red on the left to a blue that cannot be seen on the right. -/
def fading : Paint where
  type := "GRADIENT_LINEAR"
  visible := true
  opacity := .one
  color := none
  stops := some
    [⟨⟨.one, .zero false, .zero false, .one⟩, .zero false⟩,
      ⟨⟨.zero false, .zero false, .one, .zero false⟩, .one⟩]
  transform := some [[.one, .zero false, .zero false], [.zero false, .one, .zero false]]
  colorBinding := none

theorem fading_proper : fading.Proper := by
  have hone := Binary64.one_inUnit
  have hzero := Binary64.zero_inUnit
  refine ⟨hone, fun c hc => absurd hc (by simp [fading]), ?_, ?_⟩
  · rintro stops ⟨⟩ s hs
    rcases List.mem_pair.1 hs with rfl | rfl
    · exact ⟨⟨hone, hzero, hzero, hone⟩, hzero⟩
    · exact ⟨⟨hzero, hzero, hone, hzero⟩, hone⟩
  · rintro rows ⟨⟩ -
    exact ⟨_, _, _, _, rfl, hone.isFinite, hzero.isFinite⟩

theorem brush_formed_fading :
    ∃ byte, IsScale byte ∧ fading.Proper ∧
      BrushForm byte fading "@linear-gradient(90deg, #ff0000 0%, #0000ff00 100%)" := by
  obtain ⟨byte, hscale, hformed⟩ := brush_formed
  obtain ⟨b, hb, -, -, hform⟩ := hformed fading fading_proper
  have hcomputed :
      fading.brush = .ok (.drawn "@linear-gradient(90deg, #ff0000 0%, #0000ff00 100%)") := by
    decide +kernel
  rw [hcomputed] at hb
  cases hb
  exact ⟨byte, hscale, fading_proper, hform _ rfl (by decide)⟩

end Paint

end SceneMarkup
