import OpcUaBackend.Catalogue.Entries
import OpcUaBackend.Foundation.Saturation

/-!
# The conversion of values

`RangeCheckingDataConverter` converts between the types of the server and those of the user. For
numbers it calls a converter of another library, which checks the range, rounds with the function
it is given, and casts. An overflow is an exception, for which a bound of the destination is
taken. The bound below is `numeric_limits::min`, which for a floating type is no bound. And the
range is widened by a half for a rounding that takes ties to even, so that the half below it is in
the range, but is rounded out of it.

The converter is a parameter, and so is the function that makes a text of the server from a C
string.

## Main definitions

* `NumericConverter.Documented`: what the converter of the library does
* `RangeCheckingDataConverter.convert`, `toOpcUAString`, `toCTKString`: the conversions
* `Saturates`: what the conversion of a number is meant to be
* `IsConvertible`: the numbers for which it is that

## Main results

* `saturates_iff`: the conversion of a number is right for these numbers and no others
* `conversions_iff`: with the order, and with what is read back of a value that was written
-/

namespace OpcUaBackend

open Foundation

/-! ## The converter of the library -/

/-- The exceptions of a conversion, and the cast of a number that is out of range. -/
inductive NumericFailure
  | positive_overflow
  | negative_overflow
  | undefinedBehaviour
  deriving DecidableEq, Repr

/-- `boost::numeric::converter` of a destination and a source, with the function of its rounding
policy. -/
abbrev NumericConverter :=
  NumericLimits → NumericLimits → (ℚ → ℤ) → ℚ → Except NumericFailure ℚ

/-- A floating source is rounded for an integral destination. -/
def rounds (dst src : NumericLimits) : Bool := dst.is_integer && !src.is_integer

/-- The range check comes first. For a rounding to nearest the range is widened by a half, and the
lower end belongs to it, but not the upper one. Then the number is rounded and cast. -/
structure NumericConverter.Documented (converter : NumericConverter) : Prop where
  below : ∀ {dst src nearbyint x}, src.Holds x → rounds dst src = false → x < dst.lowest →
    converter dst src nearbyint x = .error .negative_overflow
  above : ∀ {dst src nearbyint x}, src.Holds x → rounds dst src = false → dst.max < x →
    converter dst src nearbyint x = .error .positive_overflow
  within : ∀ {dst src nearbyint x}, src.Holds x → rounds dst src = false → dst.lowest ≤ x →
    x ≤ dst.max → converter dst src nearbyint x = .ok x
  halfBelow : ∀ {dst src nearbyint x}, src.Holds x → rounds dst src = true →
    x < dst.lowest - 1 / 2 → converter dst src nearbyint x = .error .negative_overflow
  halfAbove : ∀ {dst src nearbyint x}, src.Holds x → rounds dst src = true →
    dst.max + 1 / 2 ≤ x → converter dst src nearbyint x = .error .positive_overflow
  rounded : ∀ {dst src nearbyint x}, src.Holds x → rounds dst src = true →
    dst.lowest - 1 / 2 ≤ x → x < dst.max + 1 / 2 →
    converter dst src nearbyint x =
      if dst.lowest ≤ nearbyint x ∧ nearbyint x ≤ dst.max then .ok (nearbyint x)
      else .error .undefinedBehaviour

/-! ## The conversions -/

/-- `Round::nearbyint`. -/
def RangeCheckingDataConverter.nearbyint (s : ℚ) : ℤ := roundAway s

/-- `RangeCheckingDataConverter<DestType, SourceType>::convert`; nothing where its behaviour is
undefined. -/
def RangeCheckingDataConverter.convert (converter : NumericConverter) (dst src : NumericLimits)
    (x : ℚ) : Option ℚ :=
  match converter dst src RangeCheckingDataConverter.nearbyint x with
  | .ok y => some y
  | .error .positive_overflow => some dst.max
  | .error .negative_overflow => some dst.min
  | .error .undefinedBehaviour => none

/-- `data`, of the length `length`. -/
structure UA_String where
  data : List Char
  deriving DecidableEq, Repr

/-- `RangeCheckingDataConverter<UA_String, std::string>`, which passes a C string on. -/
def toOpcUAString (UA_String_fromChars : String → UA_String) (x : String) : UA_String :=
  UA_String_fromChars (cString x)

/-- `RangeCheckingDataConverter<std::string, UA_String>`. -/
def toCTKString (x : UA_String) : String := String.ofList x.data

/-! ## What they are meant to be -/

/-- The number that is brought into the range. -/
def Rounded (dst src : NumericLimits) (x y : ℚ) : Prop :=
  if rounds dst src = true then ∃ n : ℤ, y = n ∧ IsNearestAway x n else y = x

/-- The number is converted to itself, rounded where there are only integers, or to the bound that
it is beyond. -/
def Saturates (converter : NumericConverter) (dst src : NumericLimits) (x : ℚ) : Prop :=
  ∃ y, Rounded dst src x y ∧
    RangeCheckingDataConverter.convert converter dst src x = some (dst.clamp y)

/-- Conversions keep the order. -/
def KeepsOrder (converter : NumericConverter) (dst src : NumericLimits) (x y : ℚ) : Prop :=
  x ≤ y → ∀ a ∈ RangeCheckingDataConverter.convert converter dst src x,
    ∀ b ∈ RangeCheckingDataConverter.convert converter dst src y, a ≤ b

/-- A value of the user that is written to a register is read back. -/
def IsReadBack (converter : NumericConverter) (ua ctk : NumericLimits) (u : ℚ) : Prop :=
  (RangeCheckingDataConverter.convert converter ua ctk u).bind
    (RangeCheckingDataConverter.convert converter ctk ua) = some u

/-- The number is not below a floating range, and not the half below an integral one. -/
structure IsConvertible (dst src : NumericLimits) (x : ℚ) : Prop where
  floating : dst.is_integer = false → dst.lowest ≤ x
  half : rounds dst src = true → x ≠ dst.lowest - 1 / 2

section Conversions

variable {converter : NumericConverter} {dst src : NumericLimits} {x y : ℚ}

/-- A rounded number, as a function of the number. -/
def rounded (dst src : NumericLimits) (x : ℚ) : ℚ :=
  if rounds dst src = true then roundAway x else x

theorem rounded_spec (dst src : NumericLimits) (x : ℚ) : Rounded dst src x (rounded dst src x) := by
  rw [Rounded, rounded]
  split
  · exact ⟨roundAway x, rfl, roundAway_isNearestAway x⟩
  · rfl

theorem rounded_mono : Monotone (rounded dst src) := by
  intro x y hxy
  rw [rounded, rounded]
  split
  · exact Int.cast_le.mpr (roundAway_mono hxy)
  · exact hxy

theorem isInteger_of_rounds (h : rounds dst src = true) : dst.is_integer = true :=
  (Bool.and_eq_true_iff.mp h).1

theorem le_roundAway_lowest (h : dst.is_integer = true) :
    dst.lowest ≤ roundAway x ↔ dst.lowest - 1 / 2 < x := by
  obtain ⟨n, hn⟩ := dst.lowest_integer h
  have hnonpos : n ≤ 0 := by
    have := dst.lowest_nonpos
    rw [hn] at this
    exact_mod_cast this
  rw [hn, Int.cast_le]
  exact le_roundAway_iff hnonpos

theorem roundAway_le_max (h : dst.is_integer = true) :
    roundAway x ≤ dst.max ↔ x < dst.max + 1 / 2 := by
  obtain ⟨n, hn⟩ := dst.max_integer h
  have hnonneg : 0 ≤ n := by
    have := dst.max_nonneg
    rw [hn] at this
    exact_mod_cast this
  rw [hn, Int.cast_le]
  exact roundAway_le_iff hnonneg

/-- A conversion that rounds. The range check and the rounding disagree on the half below. -/
theorem convert_of_rounds (hconverter : converter.Documented) (hx : src.Holds x)
    (h : rounds dst src = true) :
    RangeCheckingDataConverter.convert converter dst src x =
      if x = dst.lowest - 1 / 2 then none else some (dst.clamp (roundAway x)) := by
  have hint := isInteger_of_rounds h
  have hlow := le_roundAway_lowest (x := x) hint
  have hhigh := roundAway_le_max (x := x) hint
  rw [RangeCheckingDataConverter.convert]
  rcases lt_trichotomy x (dst.lowest - 1 / 2) with hlt | heq | hgt
  · rw [hconverter.halfBelow hx h hlt, if_neg hlt.ne]
    have hbelow : (roundAway x : ℚ) < dst.lowest := not_le.mp fun hle => (hlow.mp hle).not_gt hlt
    rw [NumericLimits.clamp_of_lt hbelow, ← dst.min_eq hint]
  · have hmax : x < dst.max + 1 / 2 := by
      have := dst.lowest_le_max
      linarith
    have hout : ¬ (dst.lowest ≤ RangeCheckingDataConverter.nearbyint x ∧
        RangeCheckingDataConverter.nearbyint x ≤ dst.max) :=
      fun hand => (hlow.mp hand.1).ne' heq
    rw [hconverter.rounded hx h heq.ge hmax, if_neg hout, if_pos heq]
  · rw [if_neg hgt.ne']
    rcases lt_or_ge x (dst.max + 1 / 2) with hmax | hmax
    · have hin : dst.lowest ≤ RangeCheckingDataConverter.nearbyint x ∧
          RangeCheckingDataConverter.nearbyint x ≤ dst.max := ⟨hlow.mpr hgt, hhigh.mpr hmax⟩
      rw [hconverter.rounded hx h hgt.le hmax, if_pos hin,
        NumericLimits.clamp_of_mem (hlow.mpr hgt) (hhigh.mpr hmax)]
      rfl
    · rw [hconverter.halfAbove hx h hmax]
      have habove : dst.max < (roundAway x : ℚ) := not_le.mp fun hle => (hhigh.mp hle).not_ge hmax
      rw [NumericLimits.clamp_of_gt habove]

/-- A conversion that does not round. What is below the range becomes `min`. -/
theorem convert_of_not_rounds (hconverter : converter.Documented) (hx : src.Holds x)
    (h : rounds dst src = false) :
    RangeCheckingDataConverter.convert converter dst src x =
      if x < dst.lowest then some dst.min else some (dst.clamp x) := by
  rw [RangeCheckingDataConverter.convert]
  rcases lt_or_ge x dst.lowest with hlt | hle
  · rw [hconverter.below hx h hlt, if_pos hlt]
  · rw [if_neg hle.not_gt]
    rcases lt_or_ge dst.max x with hmax | hmax
    · rw [hconverter.above hx h hmax, NumericLimits.clamp_of_gt hmax]
    · rw [hconverter.within hx h hle hmax, NumericLimits.clamp_of_mem hle hmax]

/-- A number is brought into the range where it is convertible. -/
theorem convert_of_isConvertible (hconverter : converter.Documented) (hx : src.Holds x)
    (h : IsConvertible dst src x) :
    RangeCheckingDataConverter.convert converter dst src x
      = some (dst.clamp (rounded dst src x)) := by
  by_cases hrounds : rounds dst src = true
  · rw [convert_of_rounds hconverter hx hrounds, if_neg (h.half hrounds), rounded, if_pos hrounds]
  · rw [convert_of_not_rounds hconverter hx (Bool.eq_false_iff.mpr hrounds), rounded,
      if_neg hrounds]
    rcases lt_or_ge x dst.lowest with hlt | hle
    · -- only an integral type has its bound as `min`
      have hint : dst.is_integer = true := by
        by_contra hfloating
        exact (h.floating (Bool.eq_false_iff.mpr hfloating)).not_gt hlt
      rw [if_pos hlt, NumericLimits.clamp_of_lt hlt, dst.min_eq hint]
    · rw [if_neg hle.not_gt]

/-- **A number is converted as it is meant if and only if it is convertible.** -/
theorem saturates_iff (hconverter : converter.Documented) (hx : src.Holds x) :
    Saturates converter dst src x ↔ IsConvertible dst src x := by
  constructor
  · rintro ⟨y, hy, hresult⟩
    constructor
    · intro hfloating
      have hrounds : rounds dst src = false := by rw [rounds, hfloating, Bool.false_and]
      rw [Rounded, if_neg (by simp [hrounds])] at hy
      subst hy
      by_contra hlt
      -- `min` is positive, and the bound is not
      rw [convert_of_not_rounds hconverter hx hrounds, if_pos (not_le.mp hlt),
        NumericLimits.clamp_of_lt (not_le.mp hlt)] at hresult
      have hmin := Option.some.inj hresult
      have hpos := dst.min_pos hfloating
      have hnonpos := dst.lowest_nonpos
      linarith
    · rintro hrounds heq
      rw [convert_of_rounds hconverter hx hrounds, if_pos heq] at hresult
      cases hresult
  · intro h
    exact ⟨rounded dst src x, rounded_spec dst src x, convert_of_isConvertible hconverter hx h⟩

theorem keepsOrder_of_isConvertible (hconverter : converter.Documented) (hx : src.Holds x)
    (hy : src.Holds y) (hxc : IsConvertible dst src x) (hyc : IsConvertible dst src y) :
    KeepsOrder converter dst src x y := by
  intro hxy a ha b hb
  rw [convert_of_isConvertible hconverter hx hxc] at ha
  rw [convert_of_isConvertible hconverter hy hyc] at hb
  obtain rfl := Option.some.inj ha
  obtain rfl := Option.some.inj hb
  exact NumericLimits.clamp_mono (rounded_mono hxy)

/-- A number that both types hold is the same in both. -/
theorem convert_of_holds (hconverter : converter.Documented) (hsrc : src.Holds x)
    (hdst : dst.Holds x) : RangeCheckingDataConverter.convert converter dst src x = some x := by
  have hconvertible : IsConvertible dst src x := by
    refine ⟨fun _ => hdst.lowest_le, fun _ heq => ?_⟩
    have hle := hdst.lowest_le
    linarith
  have hrounded : rounded dst src x = x := by
    rw [rounded]
    split
    · rename_i hrounds
      obtain ⟨n, rfl⟩ := hdst.integer (isInteger_of_rounds hrounds)
      rw [roundAway_intCast]
    · rfl
  rw [convert_of_isConvertible hconverter hsrc hconvertible, hrounded,
    NumericLimits.clamp_of_mem hdst.lowest_le hdst.le_max]

theorem isReadBack {ua ctk : NumericLimits} {u : ℚ} (hconverter : converter.Documented)
    (hctk : ctk.Holds u) (hua : ua.Holds u) : IsReadBack converter ua ctk u := by
  rw [IsReadBack, convert_of_holds hconverter hctk hua, Option.bind_some,
    convert_of_holds hconverter hua hctk]

end Conversions

/-- A text is read back up to its first null character. -/
theorem toCTKString_toOpcUAString {UA_String_fromChars : String → UA_String}
    (hchars : ∀ s, '\x00' ∉ s.toList → (UA_String_fromChars s).data = s.toList) (s : String) :
    toCTKString (toOpcUAString UA_String_fromChars s) = cString s := by
  have hnull : '\x00' ∉ (cString s).toList := by
    rw [cString, String.toList_ofList]
    intro hmem
    exact absurd (List.mem_takeWhile_imp hmem) (by simp)
  rw [toCTKString, toOpcUAString, hchars _ hnull, String.ofList_toList]

/-- **Numbers are converted as they are meant, in their order, and values of the user are read
back, where the numbers are convertible and the texts have no null character.** -/
theorem conversions_iff {converter : NumericConverter} (hconverter : converter.Documented)
    {UA_String_fromChars : String → UA_String}
    (hchars : ∀ s, '\x00' ∉ s.toList → (UA_String_fromChars s).data = s.toList)
    {dst src ua ctk : NumericLimits} {x y u : ℚ} (hx : src.Holds x) (hy : src.Holds y)
    (hctk : ctk.Holds u) (hua : ua.Holds u) (s : String) :
    (Saturates converter dst src x ∧ Saturates converter dst src y ∧
      KeepsOrder converter dst src x y ∧ IsReadBack converter ua ctk u ∧
      toCTKString (toOpcUAString UA_String_fromChars s) = s) ↔
    (IsConvertible dst src x ∧ IsConvertible dst src y ∧ '\x00' ∉ s.toList) := by
  rw [saturates_iff hconverter hx, saturates_iff hconverter hy, toCTKString_toOpcUAString hchars,
    cString_eq_iff]
  constructor
  · rintro ⟨hxc, hyc, -, -, hnull⟩
    exact ⟨hxc, hyc, hnull⟩
  · rintro ⟨hxc, hyc, hnull⟩
    exact ⟨hxc, hyc, keepsOrder_of_isConvertible hconverter hx hy hxc hyc,
      isReadBack hconverter hctk hua, hnull⟩

/-! ## A converter -/

/-- A converter that does what the documentation says. -/
def checkedConverter : NumericConverter := fun dst src nearbyint x =>
  if rounds dst src then
    if x < dst.lowest - 1 / 2 then .error .negative_overflow
    else if dst.max + 1 / 2 ≤ x then .error .positive_overflow
    else if dst.lowest ≤ nearbyint x ∧ nearbyint x ≤ dst.max then .ok (nearbyint x)
    else .error .undefinedBehaviour
  else if x < dst.lowest then .error .negative_overflow
  else if dst.max < x then .error .positive_overflow
  else .ok x

theorem checkedConverter_documented : checkedConverter.Documented where
  below _ h hlt := by simp [checkedConverter, h, hlt]
  above {dst _ _ x} _ h hlt := by
    have hle : ¬ x < dst.lowest := not_lt.mpr (dst.lowest_le_max.trans hlt.le)
    simp [checkedConverter, h, hle, hlt]
  within _ h hl hm := by simp [checkedConverter, h, not_lt.mpr hl, not_lt.mpr hm]
  halfBelow _ h hlt := by simp only [checkedConverter, h, if_true, if_pos hlt]
  halfAbove {dst _ _ x} _ h hle := by
    have hlow : ¬ x < dst.lowest - 1 / 2 := by
      have := dst.lowest_le_max
      exact not_lt.mpr (by linarith)
    simp only [checkedConverter, h, if_true, if_neg hlow, if_pos hle]
  rounded _ h hl hm := by
    simp only [checkedConverter, h, if_true, if_neg (not_lt.mpr hl), if_neg (not_le.mpr hm)]

/-- The types of the language, by the number of their bits or digits. -/
def uint8 : NumericLimits := .integer false 8

def float : NumericLimits := .floating 24 128

def double : NumericLimits := .floating 53 1024

/-- A negative number and one above the range, a number, and a text. -/
theorem conversions_uint8 :
    Saturates checkedConverter uint8 float (-7 / 2) ∧ Saturates checkedConverter uint8 float 300 ∧
      KeepsOrder checkedConverter uint8 float (-7 / 2) 300 ∧
      IsReadBack checkedConverter uint8 float 7 ∧
      toCTKString (toOpcUAString (fun s => ⟨s.toList⟩) "text") = "text" := by
  have hholds : ∀ x : ℚ, -1000 ≤ x → x ≤ 1000 → float.Holds x := by
    intro x hlow hhigh
    have hmax : (1000 : ℚ) ≤ float.max := by norm_num [float, NumericLimits.floating]
    have hsymm : float.lowest = -float.max := rfl
    refine ⟨?_, hhigh.trans hmax, fun h => by cases h⟩
    rw [hsymm]
    linarith
  have hua : uint8.Holds 7 := by
    refine ⟨?_, ?_, fun _ => ⟨7, by norm_num⟩⟩ <;> norm_num [uint8, NumericLimits.integer]
  refine (conversions_iff checkedConverter_documented (fun s _ => rfl)
    (hholds _ (by norm_num) (by norm_num)) (hholds _ (by norm_num) (by norm_num))
    (hholds 7 (by norm_num) (by norm_num)) hua "text").mpr ⟨⟨?_, ?_⟩, ⟨?_, ?_⟩, by decide⟩
  · intro h
    cases h
  · intro _
    norm_num [uint8, NumericLimits.integer]
  · intro h
    cases h
  · intro _
    norm_num [uint8, NumericLimits.integer]

/-- A double below the range of a float becomes the smallest positive float. -/
theorem not_saturates_float :
    double.Holds (-2 ^ 200) ∧ ¬ Saturates checkedConverter float double (-2 ^ 200) := by
  have hlow : (-2 ^ 200 : ℚ) < float.lowest := by norm_num [float, NumericLimits.floating]
  constructor
  · have hsmall : (2 : ℚ) ^ 200 ≤ 2 ^ 1023 := pow_le_pow_right₀ (by norm_num) (by norm_num)
    have hlarge : (2 : ℚ) ^ 1023 ≤ double.max := by
      have hlast : (2 : ℚ) ^ 971 ≤ 2 ^ 1023 := pow_le_pow_right₀ (by norm_num) (by norm_num)
      have htwice : (2 : ℚ) ^ 1024 = 2 ^ 1023 * 2 := pow_succ ..
      change (2 : ℚ) ^ 1023 ≤ 2 ^ 1024 - 2 ^ 971
      rw [htwice, mul_two, add_sub_assoc]
      exact le_add_of_nonneg_right (sub_nonneg.mpr hlast)
    have hsymm : double.lowest = -double.max := rfl
    have hpos : (0 : ℚ) ≤ 2 ^ 200 := by positivity
    refine ⟨?_, ?_, fun h => by cases h⟩
    · exact hsymm.le.trans (neg_le_neg (hsmall.trans hlarge))
    · exact (neg_nonpos.mpr hpos).trans (hpos.trans (hsmall.trans hlarge))
  · rintro ⟨y, hy, hresult⟩
    rw [Rounded, if_neg (by decide)] at hy
    subst hy
    have hconvert : RangeCheckingDataConverter.convert checkedConverter float double (-2 ^ 200)
        = some float.min := by
      have hrounds : rounds float double = false := rfl
      simp only [RangeCheckingDataConverter.convert, checkedConverter, hrounds, Bool.false_eq_true,
        if_false, if_pos hlow]
    rw [hconvert, NumericLimits.clamp_of_lt hlow] at hresult
    have hmin : float.min = float.lowest := Option.some.inj hresult
    norm_num [float, NumericLimits.floating] at hmin

end OpcUaBackend
