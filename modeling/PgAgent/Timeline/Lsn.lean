import PgAgent.Library.Hexadecimal

/-!
# Positions in the log, as texts

A position is a number of 64 bits, written as its two halves in hexadecimal with a slash between
them. Two functions read such texts: `parseLsn`, for the history files and the output of
`pg_controldata`, and `parsePgLsn`, for what a query returns. `formatLsn` writes them.

* `parseLsn_eq_some_iff`, `parsePgLsn_eq_ok_iff` --- the texts that each of them takes;
* `parseLsn_formatLsn` --- a position is read back from its text.
-/

namespace PgAgent

/-- `timeline::parse_lsn`. -/
def parseLsn (s : String) : Option ℕ := do
  let (hi, lo) ← Rust.splitOnce '/' (Rust.trim s.toList)
  let hi ← Rust.fromStrRadix16 32 (Rust.trim hi)
  let lo ← Rust.fromStrRadix16 32 (Rust.trim lo)
  some ((hi <<< 32) ||| lo)

/-- `timeline::format_lsn`. -/
def formatLsn (lsn : ℕ) : String :=
  String.ofList
    (Rust.hexUpper ((lsn >>> 32) % 2 ^ 32) ++ '/' :: Rust.hexUpper (lsn % 2 ^ 32))

/-- The ways in which `parse_pg_lsn` fails. -/
inductive PgLsnError
  | missingSlash
  | unexpectedWidth
  | highHalf
  | lowHalf
  deriving DecidableEq, Repr

/-- `localdb::parse_pg_lsn`. The shift is one of 64 bits. -/
def parsePgLsn (s : String) : Except PgLsnError ℕ :=
  match Rust.splitOnce '/' s.toList with
  | none => .error .missingSlash
  | some (hi, lo) =>
    if hi = [] ∨ lo = [] ∨ 16 < Rust.len hi ∨ 16 < Rust.len lo then .error .unexpectedWidth
    else
      match Rust.fromStrRadix16 64 hi with
      | none => .error .highHalf
      | some h =>
        match Rust.fromStrRadix16 64 lo with
        | none => .error .lowHalf
        | some l => .ok ((h <<< 32) % 2 ^ 64 ||| l)

/-! ## Two halves of 32 bits -/

/-- The halves of a position stand in their own bits. -/
theorem shiftLeft_or_halves {h l : ℕ} (hl : l < 2 ^ 32) : h <<< 32 ||| l = h * 2 ^ 32 + l := by
  rw [← Nat.shiftLeft_add_eq_or_of_lt hl, Nat.shiftLeft_eq]

theorem shiftLeft_mod_or_halves {h l : ℕ} (hh : h < 2 ^ 32) (hl : l < 2 ^ 32) :
    (h <<< 32) % 2 ^ 64 ||| l = h * 2 ^ 32 + l := by
  have hshift : h <<< 32 < 2 ^ 64 := by
    rw [Nat.shiftLeft_eq]
    omega
  rw [Nat.mod_eq_of_lt hshift, shiftLeft_or_halves hl]

/-! ## What the functions take -/

/-- `parse_lsn` takes two numerals of 32 bits around the first slash, with white space around the
text and around each of them. -/
theorem parseLsn_eq_some_iff {s : String} {v : ℕ} :
    parseLsn s = some v ↔
      ∃ hi lo h l, Rust.splitOnce '/' (Rust.trim s.toList) = some (hi, lo) ∧
        Rust.IsNumeral (Rust.trim hi) h ∧ h < 2 ^ 32 ∧
        Rust.IsNumeral (Rust.trim lo) l ∧ l < 2 ^ 32 ∧ v = h * 2 ^ 32 + l := by
  unfold parseLsn
  constructor
  · intro hparse
    obtain ⟨⟨hi, lo⟩, hsplit, hparse⟩ := Option.bind_eq_some_iff.mp hparse
    obtain ⟨h, hhi, hparse⟩ := Option.bind_eq_some_iff.mp hparse
    obtain ⟨l, hlo, hparse⟩ := Option.bind_eq_some_iff.mp hparse
    obtain ⟨hhnum, hhlt⟩ := Rust.fromStrRadix16_eq_some_iff.mp hhi
    obtain ⟨hlnum, hllt⟩ := Rust.fromStrRadix16_eq_some_iff.mp hlo
    refine ⟨hi, lo, h, l, hsplit, hhnum, hhlt, hlnum, hllt, ?_⟩
    rw [← Option.some.inj hparse, shiftLeft_or_halves hllt]
  · rintro ⟨hi, lo, h, l, hsplit, hhnum, hhlt, hlnum, hllt, rfl⟩
    rw [hsplit, Option.bind_eq_bind, Option.bind_some]
    dsimp only
    rw [Rust.fromStrRadix16_eq_some_iff.mpr ⟨hhnum, hhlt⟩,
      Rust.fromStrRadix16_eq_some_iff.mpr ⟨hlnum, hllt⟩]
    simp only [Option.bind_eq_bind, Option.bind_some]
    rw [shiftLeft_or_halves hllt]

/-- `parse_pg_lsn` takes two numerals of at most sixteen bytes around the first slash, and no white
space. -/
theorem parsePgLsn_eq_ok_iff {s : String} {v : ℕ} :
    parsePgLsn s = .ok v ↔
      ∃ hi lo h l, Rust.splitOnce '/' s.toList = some (hi, lo) ∧
        Rust.len hi ≤ 16 ∧ Rust.len lo ≤ 16 ∧
        Rust.IsNumeral hi h ∧ h < 2 ^ 64 ∧ Rust.IsNumeral lo l ∧ l < 2 ^ 64 ∧
        v = (h <<< 32) % 2 ^ 64 ||| l := by
  unfold parsePgLsn
  constructor
  · intro hparse
    split at hparse
    · cases hparse
    rename_i hi lo hsplit
    split at hparse
    · cases hparse
    rename_i hwidth
    split at hparse
    · cases hparse
    rename_i h hhi
    split at hparse
    · cases hparse
    rename_i l hlo
    obtain ⟨hhnum, hhlt⟩ := Rust.fromStrRadix16_eq_some_iff.mp hhi
    obtain ⟨hlnum, hllt⟩ := Rust.fromStrRadix16_eq_some_iff.mp hlo
    exact ⟨hi, lo, h, l, hsplit, by omega, by omega, hhnum, hhlt, hlnum, hllt,
      (Except.ok.inj hparse).symm⟩
  · rintro ⟨hi, lo, h, l, hsplit, hhlen, hllen, hhnum, hhlt, hlnum, hllt, rfl⟩
    have hwidth : ¬ (hi = [] ∨ lo = [] ∨ 16 < Rust.len hi ∨ 16 < Rust.len lo) := by
      rintro (hnil | hnil | hlong | hlong)
      · exact hhnum.ne_nil hnil
      · exact hlnum.ne_nil hnil
      · omega
      · omega
    rw [hsplit]
    dsimp only
    rw [if_neg hwidth, Rust.fromStrRadix16_eq_some_iff.mpr ⟨hhnum, hhlt⟩,
      Rust.fromStrRadix16_eq_some_iff.mpr ⟨hlnum, hllt⟩]

theorem isWhitespace_of_mem_formatLsn {lsn : ℕ} {c : Char} (hc : c ∈ (formatLsn lsn).toList) :
    Rust.isWhitespace c = false := by
  rw [formatLsn, String.toList_ofList] at hc
  rcases List.mem_append.mp hc with hmem | hmem
  · exact ((Rust.isNumeral_hexUpper _).char_spec hmem).1
  · rcases List.mem_cons.mp hmem with rfl | hmem
    · rfl
    · exact ((Rust.isNumeral_hexUpper _).char_spec hmem).1

/-- A position is read back from its text. -/
theorem parseLsn_formatLsn {lsn : ℕ} (h : lsn < 2 ^ 64) :
    parseLsn (formatLsn lsn) = some lsn := by
  have hhi : lsn >>> 32 < 2 ^ 32 := by
    rw [Nat.shiftRight_eq_div_pow]
    omega
  have hmod : (lsn >>> 32) % 2 ^ 32 = lsn / 2 ^ 32 := by
    rw [Nat.mod_eq_of_lt hhi, Nat.shiftRight_eq_div_pow]
  have hhex := Rust.isNumeral_hexUpper (lsn / 2 ^ 32)
  have hlex := Rust.isNumeral_hexUpper (lsn % 2 ^ 32)
  have htext : (formatLsn lsn).toList =
      Rust.hexUpper (lsn / 2 ^ 32) ++ '/' :: Rust.hexUpper (lsn % 2 ^ 32) := by
    rw [formatLsn, String.toList_ofList, hmod]
  rw [parseLsn_eq_some_iff]
  refine ⟨Rust.hexUpper (lsn / 2 ^ 32), Rust.hexUpper (lsn % 2 ^ 32), lsn / 2 ^ 32, lsn % 2 ^ 32,
    ?_, ?_, ?_, ?_, ?_, ?_⟩
  · rw [Rust.trim_of_forall fun c hc => isWhitespace_of_mem_formatLsn hc,
      Rust.splitOnce_eq_some_iff]
    exact ⟨htext, fun hmem => (hhex.char_spec hmem).2 rfl⟩
  · rwa [Rust.trim_of_forall fun c hc => (hhex.char_spec hc).1]
  · omega
  · rwa [Rust.trim_of_forall fun c hc => (hlex.char_spec hc).1]
  · omega
  · omega

/-! ## The two functions compared -/

/-- The text has no white space, and at most sixteen bytes on each side of its slash. -/
def WrittenBare (s : String) : Prop :=
  (∀ c ∈ s.toList, Rust.isWhitespace c = false) ∧
    ∀ hi lo, Rust.splitOnce '/' s.toList = some (hi, lo) →
      Rust.len hi ≤ 16 ∧ Rust.len lo ≤ 16

/-- Neither side of the slash is a number of more than 32 bits. -/
def HalvesFit (s : String) : Prop :=
  ∀ hi lo, Rust.splitOnce '/' s.toList = some (hi, lo) →
    ∀ n, Rust.IsNumeral hi n ∨ Rust.IsNumeral lo n → n < 2 ^ 32

/-- Where the halves fit into 32 bits, `parse_pg_lsn` is `parse_lsn` on the bare texts. -/
theorem parsePgLsn_eq_ok_iff_of_fit {s : String} (hfit : HalvesFit s) {v : ℕ} :
    parsePgLsn s = .ok v ↔ parseLsn s = some v ∧ WrittenBare s := by
  constructor
  · intro hparse
    obtain ⟨hi, lo, h, l, hsplit, hhlen, hllen, hhnum, -, hlnum, -, rfl⟩ :=
      parsePgLsn_eq_ok_iff.mp hparse
    have hhlt : h < 2 ^ 32 := hfit hi lo hsplit h (Or.inl hhnum)
    have hllt : l < 2 ^ 32 := hfit hi lo hsplit l (Or.inr hlnum)
    have htext := (Rust.splitOnce_eq_some_iff.mp hsplit).1
    have hspace : ∀ c ∈ s.toList, Rust.isWhitespace c = false := by
      intro c hc
      rw [htext] at hc
      rcases List.mem_append.mp hc with hmem | hmem
      · exact (hhnum.char_spec hmem).1
      · rcases List.mem_cons.mp hmem with rfl | hmem
        · rfl
        · exact (hlnum.char_spec hmem).1
    refine ⟨parseLsn_eq_some_iff.mpr ⟨hi, lo, h, l, ?_, ?_, hhlt, ?_, hllt, ?_⟩, hspace, ?_⟩
    · rwa [Rust.trim_of_forall hspace]
    · rwa [Rust.trim_of_forall fun c hc => (hhnum.char_spec hc).1]
    · rwa [Rust.trim_of_forall fun c hc => (hlnum.char_spec hc).1]
    · exact shiftLeft_mod_or_halves hhlt hllt
    · intro hi' lo' hsplit'
      obtain ⟨rfl, rfl⟩ := Prod.mk.inj (Option.some.inj (hsplit.symm.trans hsplit'))
      exact ⟨hhlen, hllen⟩
  · rintro ⟨hparse, hspace, hlen⟩
    obtain ⟨hi, lo, h, l, hsplit, hhnum, hhlt, hlnum, hllt, rfl⟩ :=
      parseLsn_eq_some_iff.mp hparse
    rw [Rust.trim_of_forall hspace] at hsplit
    have htext := (Rust.splitOnce_eq_some_iff.mp hsplit).1
    have hhi : Rust.trim hi = hi := Rust.trim_of_forall fun c hc => hspace c (by simp [htext, hc])
    have hlo : Rust.trim lo = lo := Rust.trim_of_forall fun c hc => hspace c (by simp [htext, hc])
    rw [hhi] at hhnum
    rw [hlo] at hlnum
    refine parsePgLsn_eq_ok_iff.mpr ⟨hi, lo, h, l, hsplit, (hlen hi lo hsplit).1,
      (hlen hi lo hsplit).2, hhnum, by omega, hlnum, by omega, ?_⟩
    exact (shiftLeft_mod_or_halves hhlt hllt).symm

/-- What each of the two functions reads in a text. `parse_lsn` returns `v` exactly if the trimmed
sides of the first slash of the trimmed text are numerals of 32 bits and `v` has them as its two
halves; and as long as no side is a number of more than 32 bits, `parse_pg_lsn` returns `v` exactly
if `parse_lsn` does and the text is written bare. -/
theorem lsn_readers (s : String) (v : ℕ) :
    (parseLsn s = some v ↔
      ∃ hi lo, Rust.splitOnce '/' (Rust.trim s.toList) = some (hi, lo) ∧
        Rust.IsNumeral (Rust.trim hi) (v / 2 ^ 32) ∧ v / 2 ^ 32 < 2 ^ 32 ∧
        Rust.IsNumeral (Rust.trim lo) (v % 2 ^ 32)) ∧
      (HalvesFit s → (parsePgLsn s = .ok v ↔ parseLsn s = some v ∧ WrittenBare s)) := by
  refine ⟨?_, fun hfit => parsePgLsn_eq_ok_iff_of_fit hfit⟩
  rw [parseLsn_eq_some_iff]
  constructor
  · rintro ⟨hi, lo, h, l, hsplit, hhnum, hhlt, hlnum, hllt, rfl⟩
    have hdiv : (h * 2 ^ 32 + l) / 2 ^ 32 = h := by omega
    have hmod : (h * 2 ^ 32 + l) % 2 ^ 32 = l := by omega
    rw [hdiv, hmod]
    exact ⟨hi, lo, hsplit, hhnum, hhlt, hlnum⟩
  · rintro ⟨hi, lo, hsplit, hhnum, hhlt, hlnum⟩
    exact ⟨hi, lo, v / 2 ^ 32, v % 2 ^ 32, hsplit, hhnum, hhlt, hlnum, Nat.mod_lt v (by decide),
      by omega⟩

theorem lsn_readers_canonical :
    HalvesFit "1/FFFFFFFF" ∧ parsePgLsn "1/FFFFFFFF" = .ok 0x1FFFFFFFF ∧
      parseLsn "1/FFFFFFFF" = some 0x1FFFFFFFF ∧ WrittenBare "1/FFFFFFFF" := by
  have hfit : HalvesFit "1/FFFFFFFF" := by
    intro hi lo hsplit n hn
    have hhalves : Rust.splitOnce '/' "1/FFFFFFFF".toList =
        some ("1".toList, "FFFFFFFF".toList) := by
      decide
    obtain ⟨rfl, rfl⟩ := Prod.mk.inj (Option.some.inj (hhalves.symm.trans hsplit))
    rcases hn with hn | hn
    · have hone : Rust.fromStrRadix16 32 "1".toList = some 1 := by decide
      rw [hn.unique (Rust.fromStrRadix16_eq_some_iff.mp hone).1]
      decide
    · have hmax : Rust.fromStrRadix16 32 "FFFFFFFF".toList = some 0xFFFFFFFF := by decide
      rw [hn.unique (Rust.fromStrRadix16_eq_some_iff.mp hmax).1]
      decide
  have hread : parsePgLsn "1/FFFFFFFF" = .ok 0x1FFFFFFFF := by decide
  exact ⟨hfit, hread, ((lsn_readers "1/FFFFFFFF" 0x1FFFFFFFF).2 hfit).mp hread⟩

/-- Both functions reject the text or read the same position in it; and a text that one of them
takes is, trimmed, two hexadecimal numbers below `2 ^ 32` around a slash, which are the halves of
the position. -/
def LsnParsersAgree (s : String) : Prop :=
  parseLsn s = (parsePgLsn s).toOption ∧
    ∀ v, parseLsn s = some v ∨ parsePgLsn s = .ok v →
      ∃ hi lo h l, Rust.trim s.toList = hi ++ '/' :: lo ∧ Rust.IsHex hi h ∧ h < 2 ^ 32 ∧
        Rust.IsHex lo l ∧ l < 2 ^ 32 ∧ v = h * 2 ^ 32 + l

/-- White space around the text or a half of seventeen zeros is taken by `parse_lsn` alone; a plus
sign is taken by both. -/
theorem lsn_readers_differ :
    ¬ LsnParsersAgree " 0/1" ∧ ¬ LsnParsersAgree "00000000000000000/1" ∧
      ¬ LsnParsersAgree "+0/1" := by
  refine ⟨fun h => ?_, fun h => ?_, fun h => ?_⟩
  · exact absurd h.1 (by decide)
  · exact absurd h.1 (by decide)
  · obtain ⟨hi, lo, a, b, htext, hhi, -⟩ := h.2 1 (Or.inl (by decide))
    -- the sign would be a digit
    cases hi with
    | nil => exact hhi.1 rfl
    | cons c cs =>
      have hplus : c = '+' := by
        have htrim : Rust.trim "+0/1".toList = '+' :: "0/1".toList := by decide
        rw [htrim] at htext
        exact (List.cons.inj htext).1.symm
      exact (Rust.digit_spec (hhi.digit_of_mem List.mem_cons_self)).2.2.1 hplus

end PgAgent
