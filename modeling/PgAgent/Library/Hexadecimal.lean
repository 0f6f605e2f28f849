import PgAgent.Library.Text

/-!
# Hexadecimal numerals

* `fromStrRadix16` --- `from_str_radix(_, 16)` of an unsigned type, and `IsNumeral`, the texts it
  takes: `fromStrRadix16_eq_some_iff`;
* `hexUpper` --- the format `{:X}`, and `digitsValue_hexUpper`, that it is read back.
-/

namespace Rust

/-- `char::to_digit(16)`. -/
def toDigit16 (c : Char) : Option ℕ :=
  let n := c.toNat
  if 48 ≤ n ∧ n ≤ 57 then some (n - 48)
  else if 97 ≤ n ∧ n ≤ 102 then some (n - 87)
  else if 65 ≤ n ∧ n ≤ 70 then some (n - 55)
  else none

/-- The value of a run of digits behind digits of the value `acc`. -/
def digitsValue (acc : ℕ) : List Char → Option ℕ
  | [] => some acc
  | c :: cs => (toDigit16 c).bind fun d => digitsValue (16 * acc + d) cs

/-- `s` is a non-empty run of hexadecimal digits of the value `v`. -/
def IsHex (s : List Char) (v : ℕ) : Prop := s ≠ [] ∧ digitsValue 0 s = some v

/-- `s` is such a run, behind a plus sign or not. -/
def IsNumeral (s : List Char) (v : ℕ) : Prop :=
  ∃ digits, (s = digits ∨ s = '+' :: digits) ∧ IsHex digits v

/-- `from_str_radix(s, 16)` of the unsigned type of `bits` bits. -/
def fromStrRadix16 (bits : ℕ) (s : List Char) : Option ℕ :=
  let digits :=
    match s with
    | '+' :: cs => cs
    | cs => cs
  -- the running value only grows, so the overflow check may wait until the end
  if digits = [] then none else (digitsValue 0 digits).filter fun v => decide (v < 2 ^ bits)

/-- The digit of the value `d` in the format `{:X}`. -/
def upperDigit (d : ℕ) : Char := Char.ofNat (if d < 10 then 48 + d else 55 + d)

/-- The format `{:X}`. -/
def hexUpper (n : ℕ) : List Char :=
  if n = 0 then ['0'] else ((Nat.digits 16 n).map upperDigit).reverse

/-! ## Reading -/

section Read

variable {s : List Char} {v acc : ℕ}

theorem digitsValue_append (acc : ℕ) (s t : List Char) :
    digitsValue acc (s ++ t) = (digitsValue acc s).bind fun v => digitsValue v t := by
  induction s generalizing acc with
  | nil => rfl
  | cons c cs ih =>
    rw [List.cons_append, digitsValue, digitsValue]
    cases toDigit16 c with
    | none => rfl
    | some d => exact ih (16 * acc + d)

/-- Every character of a run of digits is a digit. -/
theorem isSome_toDigit16_of_mem (h : digitsValue acc s = some v) :
    ∀ c ∈ s, (toDigit16 c).isSome = true := by
  induction s generalizing acc with
  | nil => exact fun c hc => absurd hc List.not_mem_nil
  | cons d ds ih =>
    rw [digitsValue] at h
    cases hd : toDigit16 d with
    | none => rw [hd] at h; cases h
    | some n =>
      rw [hd] at h
      intro c hc
      rcases List.mem_cons.mp hc with rfl | hmem
      · rw [hd]; rfl
      · exact ih h c hmem

/-- A digit is none of the characters that texts are cut at, and it is one byte long. -/
theorem digit_spec {c : Char} (h : (toDigit16 c).isSome = true) :
    isWhitespace c = false ∧ c ≠ '/' ∧ c ≠ '+' ∧ c ≠ '#' ∧ c.utf8Size = 1 := by
  have hrange : 48 ≤ c.toNat ∧ c.toNat ≤ 57 ∨ 97 ≤ c.toNat ∧ c.toNat ≤ 102 ∨
      65 ≤ c.toNat ∧ c.toNat ≤ 70 := by
    unfold toDigit16 at h
    dsimp only at h
    split at h
    · exact Or.inl ‹_›
    · split at h
      · exact Or.inr (Or.inl ‹_›)
      · split at h
        · exact Or.inr (Or.inr ‹_›)
        · cases h
  refine ⟨?_, ?_, ?_, ?_, ?_⟩
  · simp only [isWhitespace, Bool.or_eq_false_iff, Bool.and_eq_false_iff, decide_eq_false_iff_not,
      beq_eq_false_iff_ne]
    omega
  · rintro rfl; revert hrange; decide
  · rintro rfl; revert hrange; decide
  · rintro rfl; revert hrange; decide
  · refine Char.utf8Size_eq_one_iff.mpr ?_
    show c.val.toNat ≤ 127
    have hval : c.toNat = c.val.toNat := rfl
    omega

theorem IsHex.digit_of_mem (h : IsHex s v) {c : Char} (hc : c ∈ s) :
    (toDigit16 c).isSome = true :=
  isSome_toDigit16_of_mem h.2 c hc

/-- What `from_str_radix` takes. -/
theorem fromStrRadix16_eq_some_iff {bits : ℕ} :
    fromStrRadix16 bits s = some v ↔ IsNumeral s v ∧ v < 2 ^ bits := by
  have hread : ∀ digits : List Char,
      (if digits = [] then none
        else (digitsValue 0 digits).filter fun v => decide (v < 2 ^ bits)) = some v ↔
        IsHex digits v ∧ v < 2 ^ bits := by
    intro digits
    by_cases hnil : digits = []
    · rw [if_pos hnil]
      constructor
      · intro h
        cases h
      · intro h
        exact absurd hnil h.1.1
    · rw [if_neg hnil, Option.filter_eq_some_iff, decide_eq_true_iff]
      exact ⟨fun h => ⟨⟨hnil, h.1⟩, h.2⟩, fun h => ⟨h.1.2, h.2⟩⟩
  -- a run of digits does not begin with the sign
  have hplus : ∀ digits : List Char, ¬ IsHex ('+' :: digits) v := by
    intro digits h
    exact (digit_spec (h.digit_of_mem List.mem_cons_self)).2.2.1 rfl
  unfold fromStrRadix16
  dsimp only
  split
  · rename_i cs
    rw [hread cs]
    constructor
    · rintro ⟨hhex, hlt⟩
      exact ⟨⟨cs, Or.inr rfl, hhex⟩, hlt⟩
    · rintro ⟨⟨digits, hs, hhex⟩, hlt⟩
      rcases hs with rfl | hs
      · exact absurd hhex (hplus cs)
      · obtain ⟨-, rfl⟩ := List.cons.inj hs
        exact ⟨hhex, hlt⟩
  · rename_i hsign
    rw [hread s]
    constructor
    · rintro ⟨hhex, hlt⟩
      exact ⟨⟨s, Or.inl rfl, hhex⟩, hlt⟩
    · rintro ⟨⟨digits, hs, hhex⟩, hlt⟩
      rcases hs with rfl | hs
      · exact ⟨hhex, hlt⟩
      · exact absurd hs (hsign digits)

theorem IsNumeral.ne_nil (h : IsNumeral s v) : s ≠ [] := by
  obtain ⟨digits, hs, hhex⟩ := h
  rcases hs with rfl | rfl
  · exact hhex.1
  · exact List.cons_ne_nil _ _

theorem IsNumeral.char_spec (h : IsNumeral s v) {c : Char} (hc : c ∈ s) :
    isWhitespace c = false ∧ c ≠ '/' := by
  obtain ⟨digits, hs, hhex⟩ := h
  have hdigit : c ∈ digits → isWhitespace c = false ∧ c ≠ '/' := fun hmem =>
    ⟨(digit_spec (hhex.digit_of_mem hmem)).1, (digit_spec (hhex.digit_of_mem hmem)).2.1⟩
  rcases hs with rfl | rfl
  · exact hdigit hc
  · rcases List.mem_cons.mp hc with rfl | hmem
    · exact ⟨by decide, by decide⟩
    · exact hdigit hmem

theorem IsNumeral.unique {w : ℕ} (h : IsNumeral s v) (h' : IsNumeral s w) : v = w := by
  have hv : fromStrRadix16 (v + w) s = some v :=
    fromStrRadix16_eq_some_iff.mpr
      ⟨h, lt_of_lt_of_le v.lt_two_pow_self (Nat.pow_le_pow_right (by decide) (by omega))⟩
  have hw : fromStrRadix16 (v + w) s = some w :=
    fromStrRadix16_eq_some_iff.mpr
      ⟨h', lt_of_lt_of_le w.lt_two_pow_self (Nat.pow_le_pow_right (by decide) (by omega))⟩
  exact Option.some.inj (hv.symm.trans hw)

end Read

/-! ## Writing -/

theorem toDigit16_upperDigit {d : ℕ} (h : d < 16) : toDigit16 (upperDigit d) = some d := by
  revert d
  decide

theorem digitsValue_reverse_map {ds : List ℕ} (h : ∀ d ∈ ds, d < 16) :
    digitsValue 0 (ds.map upperDigit).reverse = some (Nat.ofDigits 16 ds) := by
  induction ds with
  | nil => rfl
  | cons d ds ih =>
    have hd : d < 16 := h d List.mem_cons_self
    rw [List.map_cons, List.reverse_cons, digitsValue_append,
      ih fun e he => h e (List.mem_cons_of_mem d he), Option.bind_some, digitsValue,
      toDigit16_upperDigit hd, Option.bind_some, digitsValue, Nat.ofDigits_cons, Nat.add_comm]

/-- A number is read back from its numeral. -/
theorem isHex_hexUpper (n : ℕ) : IsHex (hexUpper n) n := by
  unfold hexUpper
  by_cases hn : n = 0
  · rw [if_pos hn, hn]
    exact ⟨List.cons_ne_nil _ _, rfl⟩
  · rw [if_neg hn]
    refine ⟨?_, ?_⟩
    · simpa using Nat.digits_ne_nil_iff_ne_zero.mpr hn
    · rw [digitsValue_reverse_map fun d hd => Nat.digits_lt_base (by decide) hd,
        Nat.ofDigits_digits]

theorem isNumeral_hexUpper (n : ℕ) : IsNumeral (hexUpper n) n :=
  ⟨hexUpper n, Or.inl rfl, isHex_hexUpper n⟩

end Rust
