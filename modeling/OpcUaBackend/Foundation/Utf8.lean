import Mathlib.Data.List.Basic

/-!
# Texts as bytes

A byte string is kept as a text whose characters stand for the bytes, each for the byte of its
number. Characters become bytes by UTF-8. An ASCII character is its own byte, and every byte of
another character lies above them, so that ASCII characters can be looked for among the bytes.

## Main definitions

* `utf8Char`, `utf8`: the bytes of a character, and of characters

## Main results

* `utf8_eq_self`: ASCII characters are their own bytes
* `mem_utf8_iff`, `utf8_head?_iff`: an ASCII character among the bytes, and as the first of them
-/

namespace Foundation

/-- The bytes of a character. -/
def utf8Char (c : Char) : List Char := (String.utf8EncodeChar c).map fun b => Char.ofNat b.toNat

def utf8 (cs : List Char) : List Char := cs.flatMap utf8Char

variable {b c : Char} {cs : List Char}

theorem utf8_cons (c : Char) (cs : List Char) : utf8 (c :: cs) = utf8Char c ++ utf8 cs :=
  List.flatMap_cons

theorem toNat_byte (n : UInt8) : (Char.ofNat n.toNat).toNat = n.toNat := by
  have hbound := n.toNat_lt
  have hvalid : n.toNat.isValidChar := .inl (by omega)
  rw [Char.ofNat, dif_pos hvalid]
  rfl

theorem utf8Char_of_ascii (hc : c.toNat < 128) : utf8Char c = [c] := by
  have hfirst : c.val.toNat ≤ 0x7f := Nat.le_of_lt_succ hc
  have hbyte : (UInt8.ofNat c.val.toNat).toNat = c.toNat := Nat.mod_eq_of_lt (by omega)
  rw [utf8Char, String.utf8EncodeChar]
  simp only [hfirst, if_true, List.map_cons, List.map_nil, hbyte, Char.ofNat_toNat]

/-- The bytes of a character that is not ASCII lie above the ASCII characters. -/
theorem le_of_mem_utf8Char (hc : 128 ≤ c.toNat) (hb : b ∈ utf8Char c) : 128 ≤ b.toNat := by
  have hfirst : ¬ c.val.toNat ≤ 0x7f := Nat.not_le_of_lt hc
  obtain ⟨n, hn, rfl⟩ := List.mem_map.mp hb
  rw [toNat_byte]
  rw [String.utf8EncodeChar] at hn
  simp only [hfirst, if_false] at hn
  split at hn
  · simp only [List.mem_cons, List.not_mem_nil, or_false] at hn
    rcases hn with rfl | rfl <;> rw [UInt8.toNat_ofNat'] <;> omega
  · split at hn
    · simp only [List.mem_cons, List.not_mem_nil, or_false] at hn
      rcases hn with rfl | rfl | rfl <;> rw [UInt8.toNat_ofNat'] <;> omega
    · simp only [List.mem_cons, List.not_mem_nil, or_false] at hn
      rcases hn with rfl | rfl | rfl | rfl <;> rw [UInt8.toNat_ofNat'] <;> omega

/-- Among the bytes of a character an ASCII character is this character. -/
theorem mem_utf8Char_iff (hb : b.toNat < 128) : b ∈ utf8Char c ↔ b = c := by
  by_cases hc : c.toNat < 128
  · rw [utf8Char_of_ascii hc, List.mem_singleton]
  · apply iff_of_false
    · intro hmem
      have hhigh := le_of_mem_utf8Char (Nat.le_of_not_lt hc) hmem
      omega
    · rintro rfl
      exact hc hb

theorem mem_utf8_iff (hb : b.toNat < 128) : b ∈ utf8 cs ↔ b ∈ cs := by
  rw [utf8, List.mem_flatMap]
  constructor
  · rintro ⟨c, hc, hmem⟩
    obtain rfl := (mem_utf8Char_iff hb).mp hmem
    exact hc
  · intro hmem
    exact ⟨b, hmem, (mem_utf8Char_iff hb).mpr rfl⟩

theorem utf8_eq_self (h : ∀ c ∈ cs, c.toNat < 128) : utf8 cs = cs := by
  induction cs with
  | nil => rfl
  | cons c cs ih =>
    rw [utf8_cons, utf8Char_of_ascii (h c (List.mem_cons_self ..)),
      ih fun d hd => h d (List.mem_cons_of_mem _ hd), List.singleton_append]

theorem utf8Char_ne_nil : utf8Char c ≠ [] :=
  fun hnil => String.utf8EncodeChar_ne_nil (List.map_eq_nil_iff.mp hnil)

theorem utf8_eq_nil_iff : utf8 cs = [] ↔ cs = [] := by
  cases cs with
  | nil => exact iff_of_true rfl rfl
  | cons c cs =>
    apply iff_of_false
    · intro hnil
      rw [utf8_cons, List.append_eq_nil_iff] at hnil
      exact utf8Char_ne_nil hnil.1
    · exact List.cons_ne_nil c cs

/-- The first byte is an ASCII character exactly if the first character is. -/
theorem utf8_head?_iff (hb : b.toNat < 128) : (utf8 cs).head? = some b ↔ cs.head? = some b := by
  cases cs with
  | nil => exact Iff.rfl
  | cons c cs =>
    rw [utf8_cons, List.head?_cons, Option.some_inj]
    by_cases hc : c.toNat < 128
    · rw [utf8Char_of_ascii hc, List.singleton_append, List.head?_cons, Option.some_inj]
    · apply iff_of_false
      · intro hhead
        cases hbytes : utf8Char c with
        | nil => exact utf8Char_ne_nil hbytes
        | cons d ds =>
          rw [hbytes, List.cons_append, List.head?_cons, Option.some_inj] at hhead
          subst hhead
          have hhigh := le_of_mem_utf8Char (Nat.le_of_not_lt hc) (hbytes ▸ List.mem_cons_self ..)
          omega
      · rintro rfl
        exact hc hb

end Foundation
