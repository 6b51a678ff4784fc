import Mathlib.Algebra.Group.Int.Defs
import Mathlib.Algebra.Group.Nat.Defs
import Mathlib.Data.List.Induction
import Mathlib.Data.List.TakeWhile

/-!
# Decimal texts

Numbers as decimal texts, and the conversions back of the standard library, which skip white
space, take a sign, and read digits up to the first other character. Conversions are into
integers of 64 bits.

## Main definitions

* `stoul`, `stol`: the conversions back
* `numeral?`: the number that a text is as a whole
* `leadingNumber`: the number at the start of a text, which is what the conversions read

## Main results

* `stoul_toString`, `stol_toString`: a number is read back from its text
* `stoul_of_no_number`, `stoul_of_large`, `stoul_of_small`: how a conversion ends
* `numeral?_injective`: texts without leading zeros are different numbers
-/

namespace Foundation

/-- The exceptions of a conversion. -/
inductive ConversionError
  | invalid_argument
  | out_of_range
  deriving DecidableEq, Repr

/-- White space in the C locale. -/
def isspace (c : Char) : Bool := c == ' ' || ('\t' ≤ c && c ≤ '\r')

/-- Whether there is a minus sign, and the digits. -/
def decimal (s : String) : Bool × List Char :=
  match s.toList.dropWhile isspace with
  | '-' :: cs => (true, cs.takeWhile Char.isDigit)
  | '+' :: cs => (false, cs.takeWhile Char.isDigit)
  | cs => (false, cs.takeWhile Char.isDigit)

/-- `std::stoul`. A number with a minus sign is taken modulo `2 ^ 64`. -/
def stoul (s : String) : Except ConversionError Nat :=
  let (negative, digits) := decimal s
  let n := Nat.ofDigitChars 10 digits 0
  if digits = [] then .error .invalid_argument
  else if n < 2 ^ 64 then .ok (if negative then (2 ^ 64 - n) % 2 ^ 64 else n)
  else .error .out_of_range

/-- `std::stol`. -/
def stol (s : String) : Except ConversionError Int :=
  let (negative, digits) := decimal s
  let n : Int := Nat.ofDigitChars 10 digits 0
  let n := if negative then -n else n
  if digits = [] then .error .invalid_argument
  else if -2 ^ 63 ≤ n ∧ n < 2 ^ 63 then .ok n
  else .error .out_of_range

theorem isspace_of_isDigit {c : Char} (h : c.isDigit = true) : isspace c = false := by
  simp only [Char.isDigit, Bool.and_eq_true, decide_eq_true_eq] at h
  simp only [isspace, Bool.or_eq_false_iff, beq_eq_false_iff_ne, Bool.and_eq_false_iff,
    decide_eq_false_iff_not]
  refine ⟨fun he => ?_, .inr fun hle => ?_⟩
  · subst he
    exact absurd h.1 (by decide)
  · have hc : (48 : UInt32) ≤ '\r'.val := UInt32.le_trans h.1 hle
    exact absurd hc (by decide)

/-- A text that starts with a digit has no white space or sign. -/
theorem decimal_eq_of_digits {s : String} {c : Char} {cs : List Char} (hs : s.toList = c :: cs)
    (hdigits : ∀ d ∈ c :: cs, d.isDigit = true) : decimal s = (false, c :: cs) := by
  have hc : c.isDigit = true := hdigits c (List.mem_cons_self ..)
  have htake : (c :: cs).takeWhile Char.isDigit = c :: cs := List.takeWhile_eq_self_iff.mpr hdigits
  unfold decimal
  rw [hs, List.dropWhile_cons_of_neg (by simp [isspace_of_isDigit hc])]
  split
  · rename_i he
    obtain ⟨rfl, -⟩ := List.cons.inj he
    exact absurd hc (by decide)
  · rename_i he
    obtain ⟨rfl, -⟩ := List.cons.inj he
    exact absurd hc (by decide)
  · rw [htake]

theorem toList_toString (n : Nat) : (toString n).toList = Nat.toDigits 10 n := by
  rw [Nat.toString_eq_ofList_toDigits, String.toList_ofList]

theorem isDigit_of_mem_toString {n : Nat} {c : Char} (h : c ∈ (toString n).toList) :
    c.isDigit = true := by
  rw [toList_toString] at h
  exact Nat.isDigit_of_mem_toDigits (by decide) (by decide) h

theorem toString_ne_nil (n : Nat) : (toString n).toList ≠ [] := by
  rw [toList_toString]
  exact Nat.toDigits_ne_nil

/-- Two numbers are two texts. -/
theorem toString_injective {n m : Nat} (h : (toString n).toList = (toString m).toList) :
    n = m := by
  rw [toList_toString, toList_toString] at h
  have hvalue := congrArg (fun digits => Nat.ofDigitChars 10 digits 0) h
  simpa using hvalue

theorem decimal_toString (n : Nat) : decimal (toString n) = (false, Nat.toDigits 10 n) := by
  have hlist := toList_toString n
  cases hdigits : Nat.toDigits 10 n with
  | nil => exact absurd hdigits Nat.toDigits_ne_nil
  | cons c cs =>
    refine decimal_eq_of_digits (hlist.trans hdigits) fun d hd => ?_
    exact Nat.isDigit_of_mem_toDigits (by decide) (by decide) (hdigits ▸ hd)

theorem stoul_toString {n : Nat} (h : n < 2 ^ 64) : stoul (toString n) = .ok n := by
  unfold stoul
  rw [decimal_toString]
  simp only [Nat.toDigits_ne_nil, Nat.ofDigitChars_ten_toDigits, if_false, if_pos h,
    Bool.false_eq_true]

theorem stol_toString {n : Nat} (h : n < 2 ^ 63) : stol (toString n) = .ok n := by
  have hrange : -2 ^ 63 ≤ (n : Int) ∧ (n : Int) < 2 ^ 63 := by omega
  unfold stol
  rw [decimal_toString]
  simp only [Nat.toDigits_ne_nil, Nat.ofDigitChars_ten_toDigits, if_false, Bool.false_eq_true,
    if_pos hrange]

/-! ## Complete numerals -/

/-- The value of digits. -/
def digitsValue (digits : List Char) : Nat := Nat.ofDigitChars 10 digits 0

/-- A text that is digits only. -/
def IsNumeral (s : String) : Prop := s.toList ≠ [] ∧ ∀ c ∈ s.toList, c.isDigit = true

-- the instance is named, since a search may find the one that tries every character there is
instance (s : String) : Decidable (IsNumeral s) :=
  @instDecidableAnd _ _ _ (List.decidableBAll (fun c => c.isDigit = true) s.toList)

/-- The number that a text is as a whole, without white space, sign or anything behind it. -/
def numeral? (s : String) : Option Nat :=
  if IsNumeral s then some (digitsValue s.toList) else none

/-- The number that stands at the start of a text, behind white space and a sign. -/
def leadingNumber (s : String) : Option Nat :=
  if (decimal s).2 = [] then none else some (digitsValue (decimal s).2)

/-- No zero stands before other digits. -/
def NoLeadingZero (digits : List Char) : Prop := digits.head? = some '0' → digits = ['0']

section Numerals

variable {s t : String} {n : Nat} {c : Char} {digits : List Char}

theorem numeral?_eq_some_iff :
    numeral? s = some n ↔ IsNumeral s ∧ digitsValue s.toList = n := by
  rw [numeral?]
  split <;> rename_i h <;> simp [h]

theorem numeral?_eq_none_iff : numeral? s = none ↔ ¬ IsNumeral s := by
  rw [numeral?]
  split <;> rename_i h <;> simp [h]

theorem IsNumeral.decimal_eq (h : IsNumeral s) : decimal s = (false, s.toList) := by
  rcases hlist : s.toList with - | ⟨c, cs⟩
  · exact absurd hlist h.1
  · exact decimal_eq_of_digits hlist (hlist ▸ h.2)

theorem leadingNumber_of_numeral (h : numeral? s = some n) : leadingNumber s = some n := by
  obtain ⟨hs, rfl⟩ := numeral?_eq_some_iff.mp h
  rw [leadingNumber, hs.decimal_eq, if_neg hs.1]

/-- A conversion reads the number at the start. -/
theorem stoul_eq : stoul s = match leadingNumber s with
    | none => .error .invalid_argument
    | some n =>
      if n < 2 ^ 64 then .ok (if (decimal s).1 then (2 ^ 64 - n) % 2 ^ 64 else n)
      else .error .out_of_range := by
  change (if (decimal s).2 = [] then _ else _) = _
  rw [leadingNumber]
  split <;> rfl

theorem stoul_of_no_number (h : leadingNumber s = none) :
    stoul s = .error .invalid_argument := by
  rw [stoul_eq, h]

theorem stoul_of_large (h : leadingNumber s = some n) (hn : 2 ^ 64 ≤ n) :
    stoul s = .error .out_of_range := by
  rw [stoul_eq, h]
  exact if_neg (Nat.not_lt.mpr hn)

/-- A minus sign is no reason to reject a number. -/
theorem stoul_of_small (h : leadingNumber s = some n) (hn : n < 2 ^ 64) :
    stoul s = .ok (if (decimal s).1 then (2 ^ 64 - n) % 2 ^ 64 else n) := by
  rw [stoul_eq, h]
  exact if_pos hn

theorem stoul_of_numeral (h : numeral? s = some n) (hn : n < 2 ^ 64) : stoul s = .ok n := by
  have hs := (numeral?_eq_some_iff.mp h).1
  rw [stoul_of_small (leadingNumber_of_numeral h) hn, hs.decimal_eq]
  rfl

theorem stol_of_numeral (h : numeral? s = some n) (hn : n < 2 ^ 63) : stol s = .ok n := by
  obtain ⟨hs, rfl⟩ := numeral?_eq_some_iff.mp h
  have hrange : -2 ^ 63 ≤ (digitsValue s.toList : Int) ∧ (digitsValue s.toList : Int) < 2 ^ 63 := by
    omega
  rw [stol, hs.decimal_eq]
  exact (if_neg hs.1).trans (if_pos hrange)

/-! ### Uniqueness -/

theorem digitsValue_concat :
    digitsValue (digits ++ [c]) = 10 * digitsValue digits + (c.toNat - 48) := by
  rw [digitsValue, Nat.ofDigitChars_append, Nat.ofDigitChars_cons, Nat.ofDigitChars_nil]
  rfl

theorem digit_toNat (hc : c.isDigit = true) : 48 ≤ c.toNat ∧ c.toNat ≤ 57 := by
  simp only [Char.isDigit, Bool.and_eq_true, decide_eq_true_eq] at hc
  exact ⟨UInt32.le_iff_toNat_le.mp hc.1, UInt32.le_iff_toNat_le.mp hc.2⟩

theorem digitChar_toNat (hc : c.isDigit = true) : Nat.digitChar (c.toNat - 48) = c := by
  obtain ⟨hle, hge⟩ := digit_toNat hc
  apply Char.toNat_inj.mp
  have hlt : c.toNat - 48 < 10 := by omega
  have hback := Nat.toNat_digitChar_sub_48_of_lt_ten hlt
  have hdigit := digit_toNat (by rw [Nat.isDigit_digitChar]; exact decide_eq_true hlt)
  omega

theorem digitsValue_pos {cs : List Char} (hc : c.isDigit = true) (hzero : c ≠ '0') :
    0 < digitsValue (c :: cs) := by
  have hpos : 0 < c.toNat - 48 := by
    have hle := (digit_toNat hc).1
    have hne : c.toNat ≠ 48 := fun he => hzero (Char.toNat_inj.mp he)
    omega
  rw [digitsValue, Nat.ofDigitChars_cons, Nat.ofDigitChars_eq_ofDigitChars_zero]
  apply Nat.lt_of_lt_of_le _ (Nat.le_add_right _ _)
  exact Nat.mul_pos (Nat.pow_pos (by decide)) (by simpa using hpos)

/-- Digits without a leading zero are the numeral of their value. -/
theorem toDigits_digitsValue (hne : digits ≠ []) (hdigits : ∀ c ∈ digits, c.isDigit = true)
    (hzero : NoLeadingZero digits) : Nat.toDigits 10 (digitsValue digits) = digits := by
  induction digits using List.reverseRecOn with
  | nil => exact absurd rfl hne
  | append_singleton digits d ih =>
    have hd : d.isDigit = true := hdigits d (by simp)
    have hlt : d.toNat - 48 < 10 := by
      have := digit_toNat hd
      omega
    rw [digitsValue_concat]
    cases digits with
    | nil =>
      rw [show digitsValue [] = 0 from rfl, Nat.mul_zero, Nat.zero_add,
        Nat.toDigits_of_lt_base hlt, digitChar_toNat hd, List.nil_append]
    | cons c cs =>
      -- the digits before the last start with no zero, so they have a value to divide by
      have hc : c ≠ '0' := by
        rintro rfl
        have he := hzero rfl
        simp at he
      have hcs : ∀ e ∈ c :: cs, e.isDigit = true := fun e he =>
        hdigits e (List.mem_append_left _ he)
      have hfirst : c.isDigit = true := hcs c (List.mem_cons_self ..)
      rw [← Nat.toDigits_append_toDigits (by decide) (digitsValue_pos hfirst hc) hlt,
        ih (by simp) hcs (fun he => absurd (Option.some.inj he) hc),
        Nat.toDigits_of_lt_base hlt, digitChar_toNat hd]

/-- **Uniqueness.** Two numerals without leading zeros that have one value are one text. -/
theorem numeral?_injective (hs : numeral? s = some n) (ht : numeral? t = some n)
    (hszero : NoLeadingZero s.toList) (htzero : NoLeadingZero t.toList) : s = t := by
  obtain ⟨⟨hsne, hsdigits⟩, hsvalue⟩ := numeral?_eq_some_iff.mp hs
  obtain ⟨⟨htne, htdigits⟩, htvalue⟩ := numeral?_eq_some_iff.mp ht
  apply String.toList_inj.mp
  calc s.toList = Nat.toDigits 10 (digitsValue s.toList) :=
        (toDigits_digitsValue hsne hsdigits hszero).symm
    _ = Nat.toDigits 10 (digitsValue t.toList) := by rw [hsvalue, htvalue]
    _ = t.toList := toDigits_digitsValue htne htdigits htzero

end Numerals

end Foundation
