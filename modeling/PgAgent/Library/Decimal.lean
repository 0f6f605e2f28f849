import Mathlib

/-!
# Decimal numerals in texts

Numbers are written into texts with a separator between them and read back from texts.

* `notMem_toString` --- a numeral has only digits and a sign in it;
* `append_sep_inj` --- a text splits in one way at a separator that its first part has not;
* `Rust.parseI32` --- `str::parse::<i32>`, and `Rust.parseI32_toString`, that it reads back what
  has been written;
* `Rust.parseI32_eq_some_iff` --- all the texts that are read as a number, and
  `Rust.eq_toString_iff`, the one among them that has been written;
* `Rust.parseUnsigned` --- `str::parse` for an unsigned type, with the reason of a refusal.
-/

namespace Decimal

theorem isDigit_of_mem_repr {n : ℕ} {c : Char} (h : c ∈ (Nat.repr n).toList) :
    c.isDigit = true := by
  rw [Nat.repr, String.toList_ofList] at h
  exact Nat.isDigit_of_mem_toDigits (by decide) (by decide) h

/-- The characters of a numeral. -/
theorem notMem_toString {c : Char} (hdigit : c.isDigit = false) (hsign : c ≠ '-') (a : ℤ) :
    c ∉ (toString a).toList := by
  have hnat : ∀ n : ℕ, c ∉ (Nat.repr n).toList := by
    intro n hmem
    rw [isDigit_of_mem_repr hmem] at hdigit
    cases hdigit
  cases a with
  | ofNat n => exact hnat n
  | negSucc n =>
    show c ∉ ("-" ++ Nat.repr (n + 1)).toList
    rw [String.toList_append, List.mem_append, not_or]
    refine ⟨?_, hnat (n + 1)⟩
    simpa using hsign

theorem toString_ne_nil (a : ℤ) : (toString a).toList ≠ [] := by
  cases a with
  | ofNat n =>
    show (Nat.repr n).toList ≠ []
    rw [Nat.toList_repr]
    exact Nat.toDigits_ne_nil
  | negSucc n =>
    show ("-" ++ Nat.repr (n + 1)).toList ≠ []
    rw [String.toList_append]
    exact List.cons_ne_nil _ _

/-- The part of a list in front of the first `c`. -/
theorem append_cons_inj {c : Char} {x x' y y' : List Char} (hx : c ∉ x) (hx' : c ∉ x')
    (h : x ++ c :: y = x' ++ c :: y') : x = x' ∧ y = y' := by
  induction x generalizing x' with
  | nil =>
    cases x' with
    | nil => exact ⟨rfl, (List.cons.inj h).2⟩
    | cons d ds => exact absurd ((List.cons.inj h).1 ▸ List.mem_cons_self) hx'
  | cons d ds ih =>
    cases x' with
    | nil => exact absurd ((List.cons.inj h).1 ▸ List.mem_cons_self) hx
    | cons d' ds' =>
      obtain ⟨rfl, hrest⟩ := List.cons.inj h
      obtain ⟨rfl, hy⟩ :=
        ih (List.not_mem_of_not_mem_cons hx) (List.not_mem_of_not_mem_cons hx')
        hrest
      exact ⟨rfl, hy⟩

/-- The part of a list behind the last `c`. -/
theorem append_cons_inj_right {c : Char} {x x' y y' : List Char} (hy : c ∉ y) (hy' : c ∉ y')
    (h : x ++ c :: y = x' ++ c :: y') : x = x' ∧ y = y' := by
  have hreverse := congrArg List.reverse h
  simp only [List.reverse_append, List.reverse_cons, List.append_assoc, List.singleton_append]
    at hreverse
  obtain ⟨hlast, hfirst⟩ := append_cons_inj (by simpa using hy) (by simpa using hy') hreverse
  exact ⟨List.reverse_injective hfirst, List.reverse_injective hlast⟩

/-- A text splits in one way at a separator whose first character its first part has not. -/
theorem append_sep_inj {x x' sep y y' : String} {c : Char} {cs : List Char}
    (hsep : sep.toList = c :: cs) (hx : c ∉ x.toList) (hx' : c ∉ x'.toList) :
    x ++ sep ++ y = x' ++ sep ++ y' ↔ x = x' ∧ y = y' := by
  constructor
  · intro h
    have hlist := congrArg String.toList h
    simp only [String.toList_append, hsep, List.append_assoc, List.cons_append] at hlist
    obtain ⟨hfirst, hrest⟩ := append_cons_inj hx hx' hlist
    exact ⟨String.toList_inj.mp hfirst, String.toList_inj.mp (List.append_cancel_left hrest)⟩
  · rintro ⟨rfl, rfl⟩
    rfl

theorem toString_inj {a b : ℤ} : toString a = toString b ↔ a = b := Int.repr_inj

end Decimal

namespace Rust

/-- The value of a run of decimal digits; `none` if there is none or some character is not a
digit. -/
def parseDigits (cs : List Char) : Option ℕ :=
  if cs ≠ [] ∧ cs.all Char.isDigit then some (cs.foldl (fun n c => 10 * n + (c.toNat - 48)) 0)
  else none

/-- `str::parse::<i32>`: an optional sign, then digits, in the range of `i32`. -/
def parseI32 (s : String) : Option ℤ :=
  let value : Option ℤ :=
    match s.toList with
    | '+' :: cs => (parseDigits cs).map fun n => (n : ℤ)
    | '-' :: cs => (parseDigits cs).map fun n => -(n : ℤ)
    | cs => (parseDigits cs).map fun n => (n : ℤ)
  value.filter fun v => decide (-2 ^ 31 ≤ v ∧ v < 2 ^ 31)

/-- `str::parse::<i64>`: an optional sign, then digits, in the range of `i64`. -/
def parseI64 (cs : List Char) : Option ℤ :=
  let value : Option ℤ :=
    match cs with
    | '+' :: cs => (parseDigits cs).map fun n => (n : ℤ)
    | '-' :: cs => (parseDigits cs).map fun n => -(n : ℤ)
    | cs => (parseDigits cs).map fun n => (n : ℤ)
  value.filter fun v => decide (-2 ^ 63 ≤ v ∧ v < 2 ^ 63)

/-- `str::parse::<u64>`: digits, behind a plus sign or not, in the range of `u64`. -/
def parseU64 (cs : List Char) : Option UInt64 :=
  let digits :=
    match cs with
    | '+' :: cs => cs
    | cs => cs
  (parseDigits digits).bind fun n => if n < 2 ^ 64 then some (UInt64.ofNat n) else none

theorem parseDigits_repr (n : ℕ) : parseDigits (Nat.repr n).toList = some n := by
  have hne : (Nat.repr n).toList ≠ [] := by
    rw [Nat.toList_repr]
    exact Nat.toDigits_ne_nil
  have hdigits : (Nat.repr n).toList.all Char.isDigit = true :=
    List.all_eq_true.mpr fun _ hc => Decimal.isDigit_of_mem_repr hc
  unfold parseDigits
  rw [if_pos ⟨hne, hdigits⟩, Nat.toList_repr]
  exact congrArg some Nat.ofDigitChars_ten_toDigits

/-- An `i32` is read back from its numeral. -/
theorem parseI32_toString {v : ℤ} (h : -2 ^ 31 ≤ v ∧ v < 2 ^ 31) :
    parseI32 (toString v) = some v := by
  have hvalue : (match (toString v).toList with
      | '+' :: cs => (parseDigits cs).map fun n => (n : ℤ)
      | '-' :: cs => (parseDigits cs).map fun n => -(n : ℤ)
      | cs => (parseDigits cs).map fun n => (n : ℤ)) = some v := by
    cases v with
    | ofNat n =>
      have hparse := parseDigits_repr n
      have hlist : (toString (Int.ofNat n)).toList = (Nat.repr n).toList := rfl
      rw [hlist]
      -- a numeral does not begin with a sign
      split
      · rename_i cs hcs
        have hdigit := Decimal.isDigit_of_mem_repr (n := n) (hcs ▸ List.mem_cons_self)
        exact absurd hdigit (by decide)
      · rename_i cs hcs
        have hdigit := Decimal.isDigit_of_mem_repr (n := n) (hcs ▸ List.mem_cons_self)
        exact absurd hdigit (by decide)
      · rw [hparse]
        rfl
    | negSucc n =>
      have hlist : (toString (Int.negSucc n)).toList = '-' :: (Nat.repr (n + 1)).toList := by
        show ("-" ++ Nat.repr (n + 1)).toList = _
        rw [String.toList_append]
        rfl
      rw [hlist]
      simp only [parseDigits_repr]
      rfl
  unfold parseI32
  dsimp only
  rw [hvalue, Option.filter_some, if_pos (by simpa using h)]

/-! ## The texts of one number -/

section Written

variable {cs : List Char} {n : ℕ}

theorem parseDigits_eq_some_iff :
    parseDigits cs = some n ↔
      cs ≠ [] ∧ (∀ c ∈ cs, c.isDigit = true) ∧
        cs.foldl (fun n c => 10 * n + (c.toNat - 48)) 0 = n := by
  unfold parseDigits
  split
  · rename_i h
    rw [Option.some_inj]
    exact ⟨fun hn => ⟨h.1, List.all_eq_true.mp h.2, hn⟩, fun hn => hn.2.2⟩
  · rename_i h
    exact iff_of_false (Option.some_ne_none n).symm
      fun hn => h ⟨hn.1, List.all_eq_true.mpr hn.2.1⟩

theorem isDigit_iff {c : Char} : c.isDigit = true ↔ 48 ≤ c.toNat ∧ c.toNat ≤ 57 := by
  simp only [Char.isDigit, Bool.and_eq_true, decide_eq_true_eq, ge_iff_le, UInt32.le_iff_toNat_le]
  exact Iff.rfl

/-- A digit is the digit of its value. -/
theorem digitChar_sub {c : Char} (h : c.isDigit = true) : Nat.digitChar (c.toNat - 48) = c := by
  obtain ⟨hlow, hhigh⟩ := isDigit_iff.mp h
  have hc : c = Char.ofNat c.toNat := (Char.ofNat_toNat c).symm
  rw [hc]
  interval_cases c.toNat <;> rfl

/-- Digits behind a positive number are digits of the whole. -/
theorem toDigits_append_digits (hcs : ∀ c ∈ cs, c.isDigit = true) {acc : ℕ} (hacc : 0 < acc) :
    Nat.toDigits 10 acc ++ cs =
      Nat.toDigits 10 (cs.foldl (fun n c => 10 * n + (c.toNat - 48)) acc) := by
  induction cs generalizing acc with
  | nil => rw [List.append_nil, List.foldl_nil]
  | cons c cs ih =>
    have hc := hcs c List.mem_cons_self
    have hlt : c.toNat - 48 < 10 := by
      have hrange := isDigit_iff.mp hc
      omega
    have hstep : Nat.toDigits 10 acc ++ [c] = Nat.toDigits 10 (10 * acc + (c.toNat - 48)) := by
      rw [← Nat.toDigits_append_toDigits (by decide) hacc hlt, Nat.toDigits_of_lt_base hlt,
        digitChar_sub hc]
    calc Nat.toDigits 10 acc ++ c :: cs = Nat.toDigits 10 acc ++ [c] ++ cs := by
          rw [List.append_assoc, List.singleton_append]
      _ = Nat.toDigits 10 (10 * acc + (c.toNat - 48)) ++ cs := by rw [hstep]
      _ = _ := ih (fun d hd => hcs d (List.mem_cons_of_mem c hd)) (by omega)

/-- Digits that do not begin with a zero are the numeral of their value. -/
theorem toList_repr_of_parseDigits (h : parseDigits cs = some n) (hzero : cs.head? ≠ some '0') :
    (Nat.repr n).toList = cs := by
  obtain ⟨hne, hdigits, hvalue⟩ := parseDigits_eq_some_iff.mp h
  rw [Nat.toList_repr, ← hvalue]
  cases cs with
  | nil => exact absurd rfl hne
  | cons c cs =>
    have hc := hdigits c List.mem_cons_self
    have hrange := isDigit_iff.mp hc
    have hpos : 0 < c.toNat - 48 := by
      have hne48 : c.toNat ≠ 48 := by
        intro h48
        refine hzero (congrArg some ?_)
        rw [← Char.ofNat_toNat c, h48]
      omega
    have happend := toDigits_append_digits (fun d hd => hdigits d (List.mem_cons_of_mem c hd)) hpos
    rw [Nat.toDigits_of_lt_base (by omega), digitChar_sub hc] at happend
    rw [List.foldl_cons, Nat.mul_zero, Nat.zero_add, ← happend]
    rfl

/-- No text of a number is shorter than its numeral. -/
theorem length_repr_le (h : parseDigits cs = some n) :
    (Nat.repr n).toList.length ≤ cs.length := by
  induction cs with
  | nil => cases h
  | cons c cs ih =>
    by_cases hzero : c = '0'
    · subst hzero
      obtain ⟨-, hdigits, hvalue⟩ := parseDigits_eq_some_iff.mp h
      cases cs with
      | nil =>
        rw [← hvalue]
        exact le_of_eq rfl
      | cons d ds =>
        have hrest : parseDigits (d :: ds) = some n :=
          parseDigits_eq_some_iff.mpr ⟨List.cons_ne_nil _ _,
            fun e he => hdigits e (List.mem_cons_of_mem _ he), hvalue⟩
        exact (ih hrest).trans (Nat.le_succ _)
    · rw [toList_repr_of_parseDigits h (by simpa using hzero)]

/-- The numeral among the texts of a number: it has no zero in front, but for the number zero. -/
theorem eq_toList_repr_iff (h : parseDigits cs = some n) :
    cs = (Nat.repr n).toList ↔ (cs.head? = some '0' → cs = ['0']) := by
  constructor
  · intro hrepr hzero
    cases cs with
    | nil => cases hzero
    | cons c cs =>
      obtain rfl : c = '0' := Option.some.inj hzero
      cases cs with
      | nil => rfl
      | cons d ds =>
        -- without the zero it would be a shorter text of the same number
        obtain ⟨-, hdigits, hvalue⟩ := parseDigits_eq_some_iff.mp h
        have hrest : parseDigits (d :: ds) = some n :=
          parseDigits_eq_some_iff.mpr ⟨List.cons_ne_nil _ _,
            fun e he => hdigits e (List.mem_cons_of_mem _ he), hvalue⟩
        have hle := length_repr_le hrest
        rw [← hrepr] at hle
        exact absurd hle (Nat.not_succ_le_self _)
  · intro hzero
    by_cases hhead : cs.head? = some '0'
    · obtain rfl := hzero hhead
      obtain rfl : n = 0 := (Option.some.inj h).symm
      rfl
    · exact (toList_repr_of_parseDigits h hhead).symm

end Written

/-- The texts that `parse::<i32>` reads as `v`. -/
inductive IsI32Text (v : ℤ) : List Char → Prop
  | plain {cs : List Char} {n : ℕ} : parseDigits cs = some n → v = n → IsI32Text v cs
  | plus {cs : List Char} {n : ℕ} : parseDigits cs = some n → v = n → IsI32Text v ('+' :: cs)
  | minus {cs : List Char} {n : ℕ} : parseDigits cs = some n → v = -n →
      IsI32Text v ('-' :: cs)

theorem not_sign_of_parseDigits {c : Char} {cs : List Char} {n : ℕ}
    (h : parseDigits (c :: cs) = some n) : c ≠ '+' ∧ c ≠ '-' := by
  have hdigit := (parseDigits_eq_some_iff.mp h).2.1 c List.mem_cons_self
  constructor
  · rintro rfl
    cases hdigit
  · rintro rfl
    cases hdigit

/-- The value of a run of digits alone. -/
theorem parseU64_of_parseDigits {cs : List Char} {n : ℕ} (h : parseDigits cs = some n) :
    parseU64 cs = if n < 2 ^ 64 then some (UInt64.ofNat n) else none := by
  unfold parseU64
  dsimp only
  split
  · exact absurd rfl (not_sign_of_parseDigits h).1
  · rw [h, Option.bind_some]

theorem parseI32_eq_some_iff {s : String} {v : ℤ} :
    parseI32 s = some v ↔ IsI32Text v s.toList ∧ -2 ^ 31 ≤ v ∧ v < 2 ^ 31 := by
  unfold parseI32
  dsimp only
  rw [Option.filter_eq_some_iff, decide_eq_true_eq]
  refine and_congr_left fun _ => ?_
  constructor
  · intro h
    split at h
    · rename_i cs hcs
      obtain ⟨w, hw, rfl⟩ := Option.map_eq_some_iff.mp h
      obtain ⟨n, hn, hcast⟩ := Option.bind_eq_some_iff.mp hw
      rw [hcs]
      exact .plus hn (Option.some.inj hcast).symm
    · rename_i cs hcs
      obtain ⟨w, hw, rfl⟩ := Option.map_eq_some_iff.mp h
      obtain ⟨n, hn, hcast⟩ := Option.bind_eq_some_iff.mp hw
      rw [hcs]
      exact .minus hn (congrArg Neg.neg (Option.some.inj hcast).symm)
    · obtain ⟨w, hw, rfl⟩ := Option.map_eq_some_iff.mp h
      obtain ⟨n, hn, hcast⟩ := Option.bind_eq_some_iff.mp hw
      exact .plain hn (Option.some.inj hcast).symm
  · intro h
    generalize s.toList = cs at h
    cases h with
    | plain hn hv =>
      split
      · exact absurd rfl (not_sign_of_parseDigits hn).1
      · exact absurd rfl (not_sign_of_parseDigits hn).2
      · rw [hn, hv]
        rfl
    | plus hn hv =>
      simp only [hn, hv]
      rfl
    | minus hn hv =>
      simp only [hn, hv]
      rfl

/-- The text has a sign or a zero that the numeral of its number has not: a plus sign, a zero in
front of other digits, or a minus sign in front of a zero. -/
inductive Misspelt : List Char → Prop
  | plus (cs : List Char) : Misspelt ('+' :: cs)
  | zero (c : Char) (cs : List Char) : Misspelt ('0' :: c :: cs)
  | minusZero (cs : List Char) : Misspelt ('-' :: '0' :: cs)

/-- Of the texts of a number, the one that is not misspelt has been written. -/
theorem eq_toString_iff {v : ℤ} {cs : List Char} (h : IsI32Text v cs) :
    cs = (toString v).toList ↔ ¬ Misspelt cs := by
  have hnat : ∀ n : ℕ, (toString (n : ℤ)).toList = (Nat.repr n).toList := fun _ => rfl
  cases h with
  | @plain _ n hn hv =>
    subst hv
    rw [hnat, eq_toList_repr_iff hn]
    constructor
    · intro hzero hbad
      cases hbad with
      | plus cs => exact (not_sign_of_parseDigits hn).1 rfl
      | zero c cs => cases hzero rfl
      | minusZero cs => exact (not_sign_of_parseDigits hn).2 rfl
    · intro hgood hhead
      cases cs with
      | nil => cases hhead
      | cons c cs =>
        obtain rfl : c = '0' := Option.some.inj hhead
        cases cs with
        | nil => rfl
        | cons d ds => exact absurd (.zero d ds) hgood
  | @plus cs n hn hv =>
    subst hv
    refine iff_of_false ?_ fun hgood => hgood (.plus cs)
    rw [hnat]
    intro heq
    have hdigit := Decimal.isDigit_of_mem_repr (n := n) (heq ▸ List.mem_cons_self)
    cases hdigit
  | @minus cs n hn hv =>
    subst hv
    have hzero : Misspelt ('-' :: cs) ↔ cs.head? = some '0' := by
      constructor
      · rintro (_ | _ | ⟨cs⟩)
        rfl
      · intro hhead
        cases cs with
        | nil => cases hhead
        | cons c cs =>
          obtain rfl : c = '0' := Option.some.inj hhead
          exact .minusZero cs
    rw [hzero]
    cases n with
    | zero =>
      -- a zero has no numeral with a sign, and all its texts begin with a zero
      have hhead : cs.head? = some '0' := by
        by_contra hne
        have hrepr := toList_repr_of_parseDigits hn hne
        rw [← hrepr] at hne
        exact hne rfl
      refine iff_of_false ?_ fun hne => hne hhead
      intro heq
      cases heq
    | succ n =>
      have hlist : (toString (-((n + 1 : ℕ) : ℤ))).toList =
          '-' :: (Nat.repr (n + 1)).toList := by
        show ("-" ++ Nat.repr (n + 1)).toList = _
        rw [String.toList_append]
        rfl
      rw [hlist, List.cons_inj_right, eq_toList_repr_iff hn]
      refine imp_congr_right fun hhead => iff_of_false ?_ not_false
      rintro rfl
      cases hn

example : parseI32 "7" = some 7 := by decide
example : parseI32 "-" = none := by decide
example : parseI32 "2147483648" = none := by decide

/-! ## Unsigned numbers, with the reason of a refusal -/

/-- `std::num::IntErrorKind`, in what an unsigned type can meet. -/
inductive IntErrorKind where
  | empty
  | invalidDigit
  | posOverflow
  deriving DecidableEq, Repr

/-- The text of a `ParseIntError`. -/
def IntErrorKind.text : IntErrorKind → String
  | empty => "cannot parse integer from empty string"
  | invalidDigit => "invalid digit found in string"
  | posOverflow => "number too large to fit in target type"

/-- The digits of a number below `bound`, read on from `acc`: the first character that is no
digit, or that leaves the range, decides. -/
def readUnsigned (bound : ℕ) (acc : ℕ) : List Char → Except IntErrorKind ℕ
  | [] => .ok acc
  | c :: cs =>
      if c.isDigit then
        let acc' := 10 * acc + (c.toNat - 48)
        if acc' < bound then readUnsigned bound acc' cs else .error .posOverflow
      else .error .invalidDigit

/-- `str::parse` for the unsigned type with the values below `bound`. -/
def parseUnsigned (bound : ℕ) (cs : List Char) : Except IntErrorKind ℕ :=
  match cs with
  | [] => .error .empty
  | ['+'] => .error .invalidDigit
  | '+' :: cs => readUnsigned bound 0 cs
  | cs => readUnsigned bound 0 cs

theorem le_foldl_digits (cs : List Char) (n : ℕ) :
    n ≤ cs.foldl (fun n c => 10 * n + (c.toNat - 48)) n := by
  induction cs generalizing n with
  | nil => exact le_rfl
  | cons c cs ih =>
    have hnext := ih (10 * n + (c.toNat - 48))
    rw [List.foldl_cons]
    omega

theorem readUnsigned_of_lt {bound : ℕ} {cs : List Char} (hcs : ∀ c ∈ cs, c.isDigit = true)
    (acc : ℕ) (h : cs.foldl (fun n c => 10 * n + (c.toNat - 48)) acc < bound) :
    readUnsigned bound acc cs = .ok (cs.foldl (fun n c => 10 * n + (c.toNat - 48)) acc) := by
  induction cs generalizing acc with
  | nil => rfl
  | cons c cs ih =>
    rw [List.foldl_cons] at h ⊢
    have hstep := le_foldl_digits cs (10 * acc + (c.toNat - 48))
    have hlt : 10 * acc + (c.toNat - 48) < bound := by omega
    unfold readUnsigned
    dsimp only
    rw [if_pos (hcs c List.mem_cons_self), if_pos hlt]
    exact ih (fun d hd => hcs d (List.mem_cons_of_mem c hd)) _ h

/-- A number of the type is read back from its numeral. -/
theorem parseUnsigned_repr {bound n : ℕ} (h : n < bound) :
    parseUnsigned bound (Nat.repr n).toList = .ok n := by
  obtain ⟨hne, hdigits, hvalue⟩ := parseDigits_eq_some_iff.mp (parseDigits_repr n)
  have hread := readUnsigned_of_lt hdigits 0 (hvalue.symm ▸ h)
  rw [hvalue] at hread
  have hsign : ∀ cs, (Nat.repr n).toList = '+' :: cs → False := by
    intro cs hcs
    have hdigit := hdigits '+' (hcs ▸ List.mem_cons_self)
    exact absurd hdigit (by decide)
  unfold parseUnsigned
  split
  · exact absurd ‹_› hne
  · exact absurd ‹_› (hsign [])
  · exact absurd ‹_› (hsign _)
  · exact hread

end Rust
