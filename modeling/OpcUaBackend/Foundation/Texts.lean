import Mathlib.Data.List.Basic

/-!
# Lines and tokens

A text is read line by line, and a line is split into tokens at separators, without empty
tokens.

## Main definitions

* `lines`: the lines of a text
* `tokens`: the tokens of a line
* `Separated`: a line of fields with separators between them

## Main results

* `tokens_separated`: the fields of a line are its tokens
* `tokens_drop_iff`: which characters can be left out at the start
* `mem_tokens`, `tokens_flatMap`: tokens are taken apart again
-/

namespace Foundation

/-- The lines of a text after the characters `line` of its first line. -/
def linesFrom (line : List Char) : List Char → List (List Char)
  | [] => if line = [] then [] else [line]
  | c :: cs => if c = '\n' then line :: linesFrom [] cs else linesFrom (line ++ [c]) cs

/-- The lines of a text; a line break at the end does not begin another one. -/
def lines (text : List Char) : List (List Char) := linesFrom [] text

section Tokens

variable (sep : Char → Bool)

/-- The tokens of a line after the characters `token` of its first token. -/
def tokensFrom (token : List Char) : List Char → List (List Char)
  | [] => if token = [] then [] else [token]
  | c :: cs =>
    if sep c then
      if token = [] then tokensFrom [] cs else token :: tokensFrom [] cs
    else tokensFrom (token ++ [c]) cs

def tokens (line : List Char) : List (List Char) := tokensFrom sep [] line

/-- The line has these fields, with separators between them and perhaps at its end. -/
inductive Separated : List (List Char) → List Char → Prop
  | last {field blanks : List Char} : (∀ c ∈ blanks, sep c = true) →
      Separated [field] (field ++ blanks)
  | cons {field blanks : List Char} {fields : List (List Char)} {line : List Char} :
      blanks ≠ [] → (∀ c ∈ blanks, sep c = true) → Separated fields line →
      Separated (field :: fields) (field ++ (blanks ++ line))

variable {sep} {token field blanks line : List Char} {fields : List (List Char)}

theorem tokensFrom_field (h : ∀ c ∈ field, sep c = false) :
    tokensFrom sep token (field ++ line) = tokensFrom sep (token ++ field) line := by
  induction field generalizing token with
  | nil => simp
  | cons c field ih =>
    have hc : ¬ sep c = true := by simp [h c (List.mem_cons_self ..)]
    rw [List.cons_append, tokensFrom, if_neg hc, ih fun d hd => h d (List.mem_cons_of_mem _ hd)]
    simp

theorem tokensFrom_blanks (h : ∀ c ∈ blanks, sep c = true) :
    tokensFrom sep [] (blanks ++ line) = tokensFrom sep [] line := by
  induction blanks with
  | nil => rfl
  | cons c blanks ih =>
    rw [List.cons_append, tokensFrom, if_pos (h c (List.mem_cons_self ..)), if_pos rfl]
    exact ih fun d hd => h d (List.mem_cons_of_mem _ hd)

theorem tokensFrom_token (hne : token ≠ []) (hblanks : blanks ≠ [])
    (h : ∀ c ∈ blanks, sep c = true) :
    tokensFrom sep token (blanks ++ line) = token :: tokensFrom sep [] line := by
  cases blanks with
  | nil => exact absurd rfl hblanks
  | cons c blanks =>
    rw [List.cons_append, tokensFrom, if_pos (h c (List.mem_cons_self ..)), if_neg hne,
      tokensFrom_blanks fun d hd => h d (List.mem_cons_of_mem _ hd)]

theorem tokens_separated (h : Separated sep fields line)
    (hfields : ∀ field ∈ fields, field ≠ [] ∧ ∀ c ∈ field, sep c = false) :
    tokens sep line = fields := by
  unfold tokens
  induction h with
  | @last field blanks hblanks =>
    obtain ⟨hne, hfield⟩ := hfields field (List.mem_singleton_self _)
    rw [tokensFrom_field hfield, List.nil_append]
    by_cases hnil : blanks = []
    · rw [hnil, tokensFrom, if_neg hne]
    · have htoken : tokensFrom sep field (blanks ++ []) = field :: tokensFrom sep [] [] :=
        tokensFrom_token hne hnil hblanks
      rw [List.append_nil] at htoken
      rw [htoken]
      rfl
  | @cons field blanks fields line hnil hblanks _ ih =>
    obtain ⟨hne, hfield⟩ := hfields field (List.mem_cons_self ..)
    rw [tokensFrom_field hfield, List.nil_append, tokensFrom_token hne hnil hblanks,
      ih fun f hf => hfields f (List.mem_cons_of_mem _ hf)]

theorem Separated.head? (h : Separated sep fields line) (hne : ∀ field ∈ fields, field ≠ []) :
    line.head? = fields.head?.bind List.head? := by
  cases h with
  | @last field blanks _ =>
    obtain ⟨c, cs, rfl⟩ := List.exists_cons_of_ne_nil (hne field (List.mem_singleton_self _))
    rfl
  | @cons field blanks fields line _ _ _ =>
    obtain ⟨c, cs, rfl⟩ := List.exists_cons_of_ne_nil (hne field (List.mem_cons_self ..))
    rfl

/-! ### What the tokens leave out -/

theorem tokensFrom_flatten :
    (tokensFrom sep token line).flatten = token ++ line.filter fun c => !sep c := by
  induction line generalizing token with
  | nil =>
    rw [tokensFrom]
    split
    · rename_i hnil
      simp [hnil]
    · simp
  | cons c line ih =>
    rw [tokensFrom]
    by_cases hc : sep c = true
    · rw [if_pos hc, List.filter_cons_of_neg (by simp [hc])]
      split
      · rename_i hnil
        rw [ih, hnil]
      · rw [List.flatten_cons, ih, List.nil_append]
    · rw [if_neg hc, ih, List.filter_cons_of_pos (by simp [hc]), List.append_assoc]
      rfl

/-- Tokens are all the characters but the separators. -/
theorem tokens_flatten : (tokens sep line).flatten = line.filter fun c => !sep c := by
  rw [tokens, tokensFrom_flatten, List.nil_append]

theorem tokens_blanks (h : ∀ c ∈ blanks, sep c = true) :
    tokens sep (blanks ++ line) = tokens sep line :=
  tokensFrom_blanks h

/-- Characters at the start are not missed if and only if they are separators. -/
theorem tokens_drop_iff {k : ℕ} :
    tokens sep (line.drop k) = tokens sep line ↔ ∀ c ∈ line.take k, sep c = true := by
  have hsplit : line = line.take k ++ line.drop k := (List.take_append_drop k line).symm
  constructor
  · intro h c hc
    -- the characters that are no separators would be fewer
    have hlength := congrArg List.length (congrArg List.flatten h)
    rw [tokens_flatten, tokens_flatten] at hlength
    conv_rhs at hlength => rw [hsplit, List.filter_append, List.length_append]
    have hnil : (line.take k).filter (fun c => !sep c) = [] :=
      List.length_eq_zero_iff.mp (by omega)
    have hsep := List.filter_eq_nil_iff.mp hnil c hc
    simpa using hsep
  · intro h
    conv_rhs => rw [hsplit]
    exact (tokens_blanks h).symm

theorem mem_tokensFrom (htoken : ∀ c ∈ token, sep c = false) {field : List Char}
    (h : field ∈ tokensFrom sep token line) : field ≠ [] ∧ ∀ c ∈ field, sep c = false := by
  induction line generalizing token with
  | nil =>
    rw [tokensFrom] at h
    split at h
    · cases h
    · rename_i hne
      obtain rfl := List.mem_singleton.mp h
      exact ⟨hne, htoken⟩
  | cons c line ih =>
    rw [tokensFrom] at h
    by_cases hc : sep c = true
    · rw [if_pos hc] at h
      split at h
      · exact ih (by simp) h
      · rename_i hne
        rcases List.mem_cons.mp h with rfl | hrest
        · exact ⟨hne, htoken⟩
        · exact ih (by simp) hrest
    · rw [if_neg hc] at h
      refine ih (List.forall_mem_append.mpr ⟨htoken, ?_⟩) h
      simpa using hc

/-- No token is empty or has a separator. -/
theorem mem_tokens {field : List Char} (h : field ∈ tokens sep line) :
    field ≠ [] ∧ ∀ c ∈ field, sep c = false :=
  mem_tokensFrom (by simp) h

/-- Tokens behind a separator each are split again. -/
theorem tokens_flatMap {c : Char} (hc : sep c = true)
    (h : ∀ field ∈ fields, field ≠ [] ∧ ∀ d ∈ field, sep d = false) :
    tokens sep (fields.flatMap fun field => c :: field) = fields := by
  induction fields with
  | nil => rfl
  | cons field fields ih =>
    obtain ⟨hne, hfield⟩ := h field (List.mem_cons_self ..)
    have hrest := ih fun f hf => h f (List.mem_cons_of_mem _ hf)
    rw [List.flatMap_cons, List.cons_append, tokens, tokensFrom, if_pos hc, if_pos rfl,
      tokensFrom_field hfield, List.nil_append]
    cases fields with
    | nil => exact if_neg hne
    | cons f fs =>
      -- the field ends at the separator of the next
      rw [List.flatMap_cons, List.cons_append, tokensFrom, if_pos hc, if_neg hne]
      rw [List.flatMap_cons, List.cons_append, tokens, tokensFrom, if_pos hc, if_pos rfl] at hrest
      rw [hrest]

end Tokens

end Foundation
