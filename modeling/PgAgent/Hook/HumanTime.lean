import PgAgent.Library.Decimal
import PgAgent.Library.Duration
import PgAgent.Library.Overflow
import PgAgent.Library.Text

/-!
# The durations of the hook client

`humantime::parse` of `pg_agentc`: a text is a number of seconds, or numbers with a unit behind
each, and stands for their sum. The text is read character by character, with the digits since the
last unit and the sum so far carried along.

The product of a number with the length of its unit is one of `u64`, and the sum is one of
durations. The first wraps or panics where it does not fit, by the build, and the second panics.

* `parseChars_segment` --- one number with its unit;
* `exists_segments` --- every text begins with such numbers, and then stops being one;
* `parsesExactly_iff` --- the texts that are read as the grammar says.
-/

namespace PgAgent
namespace HumanTime

open Rust

/-- The duration of `n` units; `none` where the product panics. -/
def unitDuration (profile : Profile) (ch : Char) (n : UInt64) : Option (Except String Duration) :=
  match ch with
  | 's' => some (.ok (Duration.fromSecs n))
  | 'm' => (mulU64 profile n 60).map fun secs => .ok (Duration.fromSecs secs)
  | 'h' => (mulU64 profile n 3600).map fun secs => .ok (Duration.fromSecs secs)
  | _ => some (.error "unknown unit")

/-- The loop of `parse`, and what follows it; `none` where the code panics. -/
def parseChars (profile : Profile) :
    List Char → Duration → List Char → Bool → Option (Except String Duration)
  | [], total, num, sawUnit =>
    if num = [] then some (.ok total)
    else if sawUnit then some (.error "trailing digits without unit")
    else
      match parseU64 num with
      | none => some (.error "bad number")
      | some n => (Duration.checkedAdd total (Duration.fromSecs n)).map .ok
  | ch :: rest, total, num, sawUnit =>
    if ch.isDigit then parseChars profile rest total (num ++ [ch]) sawUnit
    else if num = [] then some (.error "unit without number")
    else
      match parseU64 num with
      | none => some (.error "bad number")
      | some n =>
        (unitDuration profile ch n).bind fun unit =>
          match unit with
          | .error e => some (.error e)
          | .ok unit =>
            (Duration.checkedAdd total unit).bind fun total =>
              parseChars profile rest total [] true

/-- `humantime::parse`. -/
def parse (profile : Profile) (s : String) : Option (Except String Duration) :=
  let s := trim s.toList
  if s = [] then some (.error "empty") else parseChars profile s 0 [] false

/-! ## The grammar -/

inductive TimeUnit
  | second
  | minute
  | hour
  deriving DecidableEq, Repr

namespace TimeUnit

def char : TimeUnit → Char
  | second => 's'
  | minute => 'm'
  | hour => 'h'

/-- The length of the unit, in seconds. -/
def secs : TimeUnit → ℕ
  | second => 1
  | minute => 60
  | hour => 3600

theorem char_injective : Function.Injective char := by
  intro a b h
  cases a <;> cases b <;> first | rfl | cases h

theorem isDigit_char (u : TimeUnit) : u.char.isDigit = false := by
  cases u <;> rfl

end TimeUnit

/-- A number and its unit. -/
@[ext] structure Segment where
  digits : List Char
  value : ℕ
  unit : TimeUnit
  reads : parseDigits digits = some value

namespace Segment

def text (seg : Segment) : List Char := seg.digits ++ [seg.unit.char]

def secs (seg : Segment) : ℕ := seg.value * seg.unit.secs

theorem isDigit_of_mem (seg : Segment) : ∀ c ∈ seg.digits, c.isDigit = true :=
  (parseDigits_eq_some_iff.mp seg.reads).2.1

theorem digits_ne_nil (seg : Segment) : seg.digits ≠ [] :=
  (parseDigits_eq_some_iff.mp seg.reads).1

end Segment

def render (segs : List Segment) : List Char := segs.flatMap Segment.text

def totalSecs (segs : List Segment) : ℕ := (segs.map Segment.secs).sum

/-- The text is a number of seconds, or some numbers with their units; `total` is its value. -/
inductive Denotes : List Char → ℕ → Prop
  | bare {s : List Char} {total : ℕ} : parseDigits s = some total → Denotes s total
  | units {segs : List Segment} : segs ≠ [] → Denotes (render segs) (totalSecs segs)

/-- The parser returns, and accepts the text exactly if it is in the grammar and its value is below
`2 ^ 64`, which is then the value returned. -/
def ParsesExactly (profile : Profile) (s : String) : Prop :=
  ∃ result, parse profile s = some result ∧
    ∀ d, result = .ok d ↔
      ∃ total, Denotes (trim s.toList) total ∧ total < 2 ^ 64 ∧ d = Duration.ofSecs total

/-- However far the text consists of numbers with units, and as long as each of the numbers is below
`2 ^ 64`, their sum is. -/
def SumsFit (total : ℕ) (s : List Char) : Prop :=
  ∀ segs rest, s = render segs ++ rest → (∀ seg ∈ segs, seg.value < 2 ^ 64) →
    total + totalSecs segs < 2 ^ 64

@[simp] theorem render_nil : render [] = [] := rfl

@[simp] theorem render_cons (seg : Segment) (segs : List Segment) :
    render (seg :: segs) = seg.text ++ render segs := rfl

@[simp] theorem totalSecs_nil : totalSecs [] = 0 := rfl

@[simp] theorem totalSecs_cons (seg : Segment) (segs : List Segment) :
    totalSecs (seg :: segs) = seg.secs + totalSecs segs := rfl

/-! ## One number with its unit -/

section Segment

variable {profile : Profile} {seg : Segment} {rest : List Char} {total : ℕ} {sawUnit : Bool}

/-- Digits are collected. -/
theorem parseChars_digits {ds : List Char} (hds : ∀ c ∈ ds, c.isDigit = true) (rest : List Char)
    (total : Duration) (num : List Char) :
    parseChars profile (ds ++ rest) total num sawUnit =
      parseChars profile rest total (num ++ ds) sawUnit := by
  induction ds generalizing num with
  | nil => rw [List.nil_append, List.append_nil]
  | cons c ds ih =>
    rw [List.cons_append, parseChars, if_pos (hds c List.mem_cons_self),
      ih fun d hd => hds d (List.mem_cons_of_mem c hd), List.append_assoc, List.singleton_append]

/-- A number with its unit, up to the addition. -/
theorem parseChars_text (hvalue : seg.value < 2 ^ 64) (rest : List Char) (total : Duration) :
    parseChars profile (seg.text ++ rest) total [] sawUnit =
      (unitDuration profile seg.unit.char (UInt64.ofNat seg.value)).bind fun unit =>
        match unit with
        | .error e => some (.error e)
        | .ok unit =>
          (Duration.checkedAdd total unit).bind fun total =>
            parseChars profile rest total [] true := by
  rw [Segment.text, List.append_assoc, parseChars_digits seg.isDigit_of_mem, List.nil_append,
    List.singleton_append, parseChars, if_neg (by simp [seg.unit.isDigit_char]),
    if_neg seg.digits_ne_nil, parseU64_of_parseDigits seg.reads, if_pos hvalue]

/-- A number that is no `u64`. -/
theorem parseChars_segment_bad (hvalue : ¬ seg.value < 2 ^ 64) (total : Duration) :
    parseChars profile (seg.text ++ rest) total [] sawUnit = some (.error "bad number") := by
  rw [Segment.text, List.append_assoc, parseChars_digits seg.isDigit_of_mem, List.nil_append,
    List.singleton_append, parseChars, if_neg (by simp [seg.unit.isDigit_char]),
    if_neg seg.digits_ne_nil, parseU64_of_parseDigits seg.reads, if_neg hvalue]

theorem toNat_ofNat_value (h : seg.value < 2 ^ 64) :
    (UInt64.ofNat seg.value).toNat = seg.value := by
  rw [UInt64.toNat_ofNat', Nat.mod_eq_of_lt h]

/-- The product with the length of a unit. -/
theorem map_mulU64 {n k : UInt64} (h : n.toNat * k.toNat < 2 ^ 64) :
    (mulU64 profile n k).map (fun secs => (Except.ok (Duration.fromSecs secs) : Except String _)) =
      some (.ok (Duration.ofSecs (n.toNat * k.toNat))) := by
  obtain ⟨c, hc, hval⟩ := @mulU64_eq_some profile _ _ h
  rw [hc, Option.map_some, Duration.fromSecs_eq_ofSecs, hval]

/-- The duration of a number of units, by the unit. -/
theorem unitDuration_char (u : TimeUnit) (n : UInt64) :
    unitDuration profile u.char n =
      match u with
      | .second => some (.ok (Duration.ofSecs n.toNat))
      | .minute => (mulU64 profile n 60).map fun secs => .ok (Duration.fromSecs secs)
      | .hour => (mulU64 profile n 3600).map fun secs => .ok (Duration.fromSecs secs) := by
  cases u <;> rfl

/-- The duration of a number of units that fits. -/
theorem unitDuration_eq (hvalue : seg.value < 2 ^ 64) (hsecs : seg.secs < 2 ^ 64) :
    unitDuration profile seg.unit.char (UInt64.ofNat seg.value) =
      some (.ok (Duration.ofSecs seg.secs)) := by
  have hn := toNat_ofNat_value hvalue
  have hminute : (60 : UInt64).toNat = 60 := rfl
  have hhour : (3600 : UInt64).toNat = 3600 := rfl
  rw [unitDuration_char]
  unfold Segment.secs TimeUnit.secs at hsecs ⊢
  cases hunit : seg.unit with
  | second =>
    dsimp only
    rw [hn, mul_one]
  | minute =>
    rw [hunit] at hsecs
    dsimp only at hsecs ⊢
    rw [map_mulU64 (by rwa [hn, hminute]), hn, hminute]
  | hour =>
    rw [hunit] at hsecs
    dsimp only at hsecs ⊢
    rw [map_mulU64 (by rwa [hn, hhour]), hn, hhour]

theorem unitDuration_debug (hvalue : seg.value < 2 ^ 64) (hsecs : ¬ seg.secs < 2 ^ 64) :
    unitDuration .debug seg.unit.char (UInt64.ofNat seg.value) = none := by
  have hn := toNat_ofNat_value hvalue
  have hminute : (60 : UInt64).toNat = 60 := rfl
  have hhour : (3600 : UInt64).toNat = 3600 := rfl
  rw [unitDuration_char]
  unfold Segment.secs TimeUnit.secs at hsecs
  cases hunit : seg.unit with
  | second =>
    rw [hunit] at hsecs
    dsimp only at hsecs
    rw [mul_one] at hsecs
    exact absurd hvalue hsecs
  | minute =>
    rw [hunit] at hsecs
    dsimp only at hsecs ⊢
    rw [mulU64_debug_eq_none (by rwa [hn, hminute]), Option.map_none]
  | hour =>
    rw [hunit] at hsecs
    dsimp only at hsecs ⊢
    rw [mulU64_debug_eq_none (by rwa [hn, hhour]), Option.map_none]

/-- A number whose seconds fit into the sum. -/
theorem parseChars_segment (hvalue : seg.value < 2 ^ 64) (hsum : total + seg.secs < 2 ^ 64) :
    parseChars profile (seg.text ++ rest) (Duration.ofSecs total) [] sawUnit =
      parseChars profile rest (Duration.ofSecs (total + seg.secs)) [] true := by
  have hsecs : seg.secs < 2 ^ 64 := (Nat.le_add_left _ _).trans_lt hsum
  rw [parseChars_text hvalue, unitDuration_eq hvalue hsecs, Option.bind_some]
  show (Duration.checkedAdd (Duration.ofSecs total) (Duration.ofSecs seg.secs)).bind _ = _
  rw [Duration.checkedAdd_ofSecs, if_pos hsum, Option.bind_some]

/-- A number whose seconds do not fit into the sum: the product or the addition panics. -/
theorem parseChars_segment_panics (hvalue : seg.value < 2 ^ 64)
    (hsum : ¬ total + seg.secs < 2 ^ 64) :
    parseChars .debug (seg.text ++ rest) (Duration.ofSecs total) [] sawUnit = none := by
  rw [parseChars_text hvalue]
  by_cases hsecs : seg.secs < 2 ^ 64
  · rw [unitDuration_eq hvalue hsecs, Option.bind_some]
    show (Duration.checkedAdd (Duration.ofSecs total) (Duration.ofSecs seg.secs)).bind _ = _
    rw [Duration.checkedAdd_ofSecs, if_neg hsum, Option.bind_none]
  · rw [unitDuration_debug hvalue hsecs, Option.bind_none]

end Segment

/-! ## The text cut into numbers with units -/

/-- The text does not begin with a number and its unit. -/
def Stuck (s : List Char) : Prop := ∀ (seg : Segment) (rest : List Char), s ≠ seg.text ++ rest

theorem stuck_nil : Stuck [] := by
  intro seg rest h
  exact seg.digits_ne_nil (List.append_eq_nil_iff.mp (List.append_eq_nil_iff.mp h.symm).1).1

/-- Every text begins with numbers and units, and then stops being one. -/
theorem exists_segments (s : List Char) :
    ∃ segs rest, s = render segs ++ rest ∧ Stuck rest := by
  induction hlen : s.length using Nat.strong_induction_on generalizing s with
  | _ n ih =>
    by_cases hstuck : Stuck s
    · exact ⟨[], s, rfl, hstuck⟩
    · simp only [Stuck, not_forall, not_not] at hstuck
      obtain ⟨seg, rest, rfl⟩ := hstuck
      have hshort : rest.length < n := by
        rw [← hlen, Segment.text]
        simp only [List.length_append, List.length_singleton]
        omega
      obtain ⟨segs, rest', rfl, hstuck⟩ := ih rest.length hshort rest rfl
      exact ⟨seg :: segs, rest', by rw [render_cons, List.append_assoc], hstuck⟩

/-- A run of digits ends at a character that is none. -/
theorem append_digits_inj {a b x y : List Char} {c d : Char} (ha : ∀ e ∈ a, e.isDigit = true)
    (hb : ∀ e ∈ b, e.isDigit = true) (hc : c.isDigit = false) (hd : d.isDigit = false)
    (h : a ++ c :: x = b ++ d :: y) : a = b ∧ c = d ∧ x = y := by
  have htake : ∀ {l : List Char} {e : Char} {z : List Char}, (∀ e ∈ l, e.isDigit = true) →
      e.isDigit = false → (l ++ e :: z).takeWhile Char.isDigit = l := by
    intro l e z hl he
    rw [List.takeWhile_append_of_pos hl, List.takeWhile_cons_of_neg (by simp [he]), List.append_nil]
  have hab : a = b := by rw [← htake ha hc, h, htake hb hd]
  subst hab
  obtain ⟨hcd, hxy⟩ := List.cons.inj (List.append_cancel_left h)
  exact ⟨rfl, hcd, hxy⟩

/-- A text begins with one number and unit at most. -/
theorem segment_inj {seg seg' : Segment} {rest rest' : List Char}
    (h : seg.text ++ rest = seg'.text ++ rest') : seg = seg' ∧ rest = rest' := by
  simp only [Segment.text, List.append_assoc, List.singleton_append] at h
  obtain ⟨hdigits, hunit, hrest⟩ := append_digits_inj seg.isDigit_of_mem seg'.isDigit_of_mem
    seg.unit.isDigit_char seg'.unit.isDigit_char h
  have hvalue : seg.value = seg'.value :=
    Option.some.inj (seg.reads.symm.trans (hdigits ▸ seg'.reads))
  exact ⟨Segment.ext hdigits hvalue (TimeUnit.char_injective hunit), hrest⟩

/-- The cut is the only one. -/
theorem segments_unique {segs segs' : List Segment} {rest : List Char} (hstuck : Stuck rest)
    (h : render segs ++ rest = render segs') : segs = segs' ∧ rest = [] := by
  induction segs generalizing segs' with
  | nil =>
    cases segs' with
    | nil => exact ⟨rfl, h⟩
    | cons seg' segs' => exact absurd h (hstuck seg' (render segs'))
  | cons seg segs ih =>
    rw [render_cons, List.append_assoc] at h
    cases segs' with
    | nil =>
      have hnil : seg.digits = [] := by
        have hempty := congrArg List.length h
        simp only [Segment.text, List.length_append, List.length_singleton, render_nil,
          List.length_nil] at hempty
        exact List.length_eq_zero_iff.mp (by omega)
      exact absurd hnil seg.digits_ne_nil
    | cons seg' segs' =>
      obtain ⟨rfl, hrest⟩ := segment_inj h
      obtain ⟨rfl, hnil⟩ := ih hrest
      exact ⟨rfl, hnil⟩

/-- What a text that has been cut stands for. -/
theorem denotes_iff {segs : List Segment} {rest : List Char} {total : ℕ} (hstuck : Stuck rest) :
    Denotes (render segs ++ rest) total ↔
      segs ≠ [] ∧ rest = [] ∧ total = totalSecs segs ∨
        segs = [] ∧ parseDigits rest = some total := by
  constructor
  · intro h
    generalize htext : render segs ++ rest = s at h
    cases h with
    | bare hread =>
      cases segs with
      | nil =>
        refine Or.inr ⟨rfl, ?_⟩
        rw [render_nil, List.nil_append] at htext
        rw [htext]
        exact hread
      | cons seg segs =>
        -- a unit is no digit
        have hdigit := (parseDigits_eq_some_iff.mp hread).2.1 seg.unit.char
          (by rw [← htext]; simp [Segment.text])
        rw [seg.unit.isDigit_char] at hdigit
        cases hdigit
    | units hne =>
      obtain ⟨rfl, rfl⟩ := segments_unique hstuck htext
      exact Or.inl ⟨hne, rfl, rfl⟩
  · rintro (⟨hne, rfl, rfl⟩ | ⟨rfl, hread⟩)
    · rw [List.append_nil]
      exact .units hne
    · exact .bare hread

/-! ## The whole text -/

section Parse

variable {profile : Profile} {segs : List Segment} {rest : List Char} {total : ℕ} {sawUnit : Bool}

theorem unitDuration_unknown {c : Char} (h : ∀ u : TimeUnit, c ≠ u.char) (n : UInt64) :
    unitDuration profile c n = some (.error "unknown unit") := by
  unfold unitDuration
  split
  · exact absurd rfl (h .second)
  · exact absurd rfl (h .minute)
  · exact absurd rfl (h .hour)
  · rfl

/-- A text with another character than a digit is no number. -/
theorem parseDigits_eq_none {ds tail : List Char} {c : Char} (hc : c.isDigit = false) :
    parseDigits (ds ++ c :: tail) = none := by
  rw [Option.eq_none_iff_forall_ne_some]
  intro n hn
  have hdigit := (parseDigits_eq_some_iff.mp hn).2.1 c (by simp)
  rw [hc] at hdigit
  cases hdigit

/-- Where the text stops being numbers with units at another character, it is rejected. -/
theorem parseChars_stuck_cons (profile : Profile) (sawUnit : Bool) {ds tail : List Char} {c : Char}
    (hstuck : Stuck (ds ++ c :: tail)) (hds : ∀ e ∈ ds, e.isDigit = true)
    (hc : c.isDigit = false) (sum : Duration) :
    ∃ e, parseChars profile (ds ++ c :: tail) sum [] sawUnit = some (.error e) := by
  rw [parseChars_digits hds, List.nil_append, parseChars, if_neg (by simp [hc])]
  by_cases hne : ds = []
  · rw [if_pos hne]
    exact ⟨_, rfl⟩
  rw [if_neg hne]
  have hread := parseDigits_eq_some_iff.mpr ⟨hne, hds, rfl⟩
  have hunit : ∀ u : TimeUnit, c ≠ u.char := by
    rintro u rfl
    refine hstuck ⟨ds, _, u, hread⟩ tail ?_
    rw [Segment.text, List.append_assoc, List.singleton_append]
  cases hnum : parseU64 ds with
  | none => exact ⟨_, rfl⟩
  | some n =>
    dsimp only
    rw [unitDuration_unknown hunit]
    exact ⟨_, rfl⟩

/-- Digits at the end stand for seconds, if no unit has been read. -/
theorem parseChars_stuck_digits (profile : Profile) {n : ℕ} (hread : parseDigits rest = some n)
    (hbare : sawUnit = false → total = 0) :
    ∃ result, parseChars profile rest (Duration.ofSecs total) [] sawUnit = some result ∧
      ∀ d, result = .ok d ↔ sawUnit = false ∧ n < 2 ^ 64 ∧ d = Duration.ofSecs n := by
  obtain ⟨hne, hds, -⟩ := parseDigits_eq_some_iff.mp hread
  have hcollect : parseChars profile (rest ++ []) (Duration.ofSecs total) [] sawUnit =
      parseChars profile [] (Duration.ofSecs total) ([] ++ rest) sawUnit :=
    parseChars_digits hds [] (Duration.ofSecs total) []
  rw [List.append_nil, List.nil_append] at hcollect
  rw [hcollect, parseChars, if_neg hne]
  cases sawUnit with
  | true => exact ⟨_, rfl, fun d => iff_of_false (by rintro ⟨⟩) (by rintro ⟨⟨⟩, -⟩)⟩
  | false =>
    obtain rfl := hbare rfl
    rw [if_neg Bool.false_ne_true, parseU64_of_parseDigits hread]
    by_cases hn : n < 2 ^ 64
    · have hadd : Duration.checkedAdd (Duration.ofSecs 0)
          (Duration.fromSecs (UInt64.ofNat n)) = some (Duration.ofSecs n) := by
        rw [Duration.fromSecs_eq_ofSecs, UInt64.toNat_ofNat', Nat.mod_eq_of_lt hn,
          Duration.checkedAdd_ofSecs, Nat.zero_add, if_pos hn]
      rw [if_pos hn]
      refine ⟨.ok (Duration.ofSecs n), ?_, fun d => ?_⟩
      · show (Duration.checkedAdd _ _).map _ = _
        rw [hadd, Option.map_some]
      · rw [Except.ok.injEq]
        exact ⟨fun h => ⟨rfl, hn, h.symm⟩, fun h => h.2.2.symm⟩
    · rw [if_neg hn]
      exact ⟨_, rfl, fun d => iff_of_false (by rintro ⟨⟩) fun h => hn h.2.1⟩

/-- What comes of the text where it has stopped being numbers with units. -/
theorem parseChars_stuck (profile : Profile) (hstuck : Stuck rest)
    (hbare : sawUnit = false → total = 0) :
    ∃ result, parseChars profile rest (Duration.ofSecs total) [] sawUnit = some result ∧
      ∀ d, result = .ok d ↔
        rest = [] ∧ d = Duration.ofSecs total ∨
          sawUnit = false ∧ ∃ n, parseDigits rest = some n ∧ n < 2 ^ 64 ∧
            d = Duration.ofSecs n := by
  have hsplit : rest.takeWhile Char.isDigit ++ rest.dropWhile Char.isDigit = rest :=
    List.takeWhile_append_dropWhile
  have hdigits : ∀ c ∈ rest.takeWhile Char.isDigit, c.isDigit = true :=
    fun c hc => List.mem_takeWhile_imp hc
  cases htail : rest.dropWhile Char.isDigit with
  | nil =>
    rw [htail, List.append_nil] at hsplit
    rw [hsplit] at hdigits
    by_cases hnil : rest = []
    · subst hnil
      refine ⟨.ok (Duration.ofSecs total), rfl, fun d => ?_⟩
      rw [Except.ok.injEq]
      constructor
      · rintro rfl
        exact Or.inl ⟨rfl, rfl⟩
      · rintro (⟨-, rfl⟩ | ⟨-, n, hn, -⟩)
        · rfl
        · cases hn
    · have hread := parseDigits_eq_some_iff.mpr ⟨hnil, hdigits, rfl⟩
      obtain ⟨result, hresult, hok⟩ := parseChars_stuck_digits profile hread hbare
      refine ⟨result, hresult, fun d => (hok d).trans ?_⟩
      constructor
      · rintro ⟨hsaw, hn, rfl⟩
        exact Or.inr ⟨hsaw, _, hread, hn, rfl⟩
      · rintro (⟨hempty, -⟩ | ⟨hsaw, n, hn, hlt, rfl⟩)
        · exact absurd hempty hnil
        · obtain rfl := Option.some.inj (hread.symm.trans hn)
          exact ⟨hsaw, hlt, rfl⟩
  | cons c tail =>
    have hc : c.isDigit = false := by
      have hstop := List.head?_dropWhile_not Char.isDigit rest
      rw [htail] at hstop
      exact hstop
    rw [htail] at hsplit
    rw [← hsplit] at hstuck ⊢
    obtain ⟨e, he⟩ := parseChars_stuck_cons profile sawUnit hstuck hdigits hc
      (Duration.ofSecs total)
    refine ⟨.error e, he, fun d => iff_of_false (by rintro ⟨⟩) ?_⟩
    rintro (⟨hempty, -⟩ | ⟨-, n, hn, -⟩)
    · exact absurd hempty (by simp)
    · rw [parseDigits_eq_none hc] at hn
      cases hn

/-- Numbers that fit are added up; the first that is no `u64` is rejected. -/
theorem parseChars_render (hfit : SumsFit total (render segs ++ rest)) :
    parseChars profile (render segs ++ rest) (Duration.ofSecs total) [] sawUnit =
      if ∀ seg ∈ segs, seg.value < 2 ^ 64 then
        parseChars profile rest (Duration.ofSecs (total + totalSecs segs)) []
          (sawUnit || !segs.isEmpty)
      else some (.error "bad number") := by
  induction segs generalizing total sawUnit with
  | nil => simp
  | cons seg segs ih =>
    rw [render_cons, List.append_assoc] at hfit ⊢
    by_cases hvalue : seg.value < 2 ^ 64
    · have hsum : total + seg.secs < 2 ^ 64 := by
        have h := hfit [seg] (render segs ++ rest) (by simp) (by simpa using hvalue)
        simpa using h
      have hrest : SumsFit (total + seg.secs) (render segs ++ rest) := by
        intro segs' rest' htext hvalues
        have h := hfit (seg :: segs') rest' (by rw [htext, render_cons, List.append_assoc])
          (List.forall_mem_cons.mpr ⟨hvalue, hvalues⟩)
        rwa [totalSecs_cons, ← Nat.add_assoc] at h
      rw [parseChars_segment hvalue hsum, ih hrest]
      simp only [List.forall_mem_cons, hvalue, true_and, Bool.true_or, totalSecs_cons,
        Nat.add_assoc, List.isEmpty_cons, Bool.not_false, Bool.or_true]
    · rw [parseChars_segment_bad hvalue, if_neg]
      exact fun h => hvalue (h seg List.mem_cons_self)

/-- A sum that does not fit makes the debug build panic. -/
theorem parseChars_panics (htotal : total < 2 ^ 64) (hvalues : ∀ seg ∈ segs, seg.value < 2 ^ 64)
    (hsum : ¬ total + totalSecs segs < 2 ^ 64) :
    parseChars .debug (render segs ++ rest) (Duration.ofSecs total) [] sawUnit = none := by
  induction segs generalizing total sawUnit with
  | nil => exact absurd htotal hsum
  | cons seg segs ih =>
    have hvalue := hvalues seg List.mem_cons_self
    rw [render_cons, List.append_assoc]
    by_cases hfirst : total + seg.secs < 2 ^ 64
    · rw [parseChars_segment hvalue hfirst]
      refine ih hfirst (fun seg' hmem => hvalues seg' (List.mem_cons_of_mem seg hmem)) ?_
      rwa [totalSecs_cons, ← Nat.add_assoc] at hsum
    · exact parseChars_segment_panics hvalue hfirst

end Parse

/-- A sum below `2 ^ 64` is one of numbers below `2 ^ 64`. -/
theorem value_lt_of_totalSecs {segs : List Segment} (h : totalSecs segs < 2 ^ 64) :
    ∀ seg ∈ segs, seg.value < 2 ^ 64 := by
  intro seg hmem
  have hpos : 1 ≤ seg.unit.secs := by
    cases seg.unit <;> decide
  have hsecs : seg.value ≤ seg.secs := Nat.le_mul_of_pos_right _ hpos
  have hle : seg.secs ≤ totalSecs segs :=
    List.single_le_sum (by simp) _ (List.mem_map_of_mem hmem)
  omega

/-- A text whose sums fit is read as the grammar says. -/
theorem parsesExactly_of_sumsFit (profile : Profile) {s : String}
    (hfit : SumsFit 0 (trim s.toList)) : ParsesExactly profile s := by
  unfold ParsesExactly parse
  dsimp only
  generalize trim s.toList = t at hfit
  by_cases hnil : t = []
  · subst hnil
    rw [if_pos rfl]
    refine ⟨_, rfl, fun d => iff_of_false (by rintro ⟨⟩) ?_⟩
    rintro ⟨total, hdenotes, -⟩
    obtain ⟨hne, -⟩ | ⟨-, hread⟩ := (@denotes_iff [] [] _ stuck_nil).mp hdenotes
    · exact hne rfl
    · cases hread
  rw [if_neg hnil]
  obtain ⟨segs, rest, rfl, hstuck⟩ := exists_segments t
  have hzero : (0 : Duration) = Duration.ofSecs 0 := rfl
  rw [hzero, parseChars_render hfit, Nat.zero_add, Bool.false_or]
  simp only [denotes_iff hstuck]
  by_cases hvalues : ∀ seg ∈ segs, seg.value < 2 ^ 64
  · rw [if_pos hvalues]
    have hbare : (!segs.isEmpty) = false → totalSecs segs = 0 := by
      intro hempty
      have hsegs : segs = [] := by simpa using hempty
      rw [hsegs, totalSecs_nil]
    obtain ⟨result, hresult, hok⟩ := parseChars_stuck profile hstuck hbare
    refine ⟨result, hresult, fun d => (hok d).trans ?_⟩
    constructor
    · rintro (⟨rfl, rfl⟩ | ⟨hempty, n, hread, hn, rfl⟩)
      · have hsum := hfit segs [] rfl hvalues
        rw [Nat.zero_add] at hsum
        refine ⟨totalSecs segs, Or.inl ⟨?_, rfl, rfl⟩, hsum, rfl⟩
        rintro rfl
        exact hnil rfl
      · exact ⟨n, Or.inr ⟨by simpa using hempty, hread⟩, hn, rfl⟩
    · rintro ⟨total, ⟨-, rfl, rfl⟩ | ⟨rfl, hread⟩, hn, rfl⟩
      · exact Or.inl ⟨rfl, rfl⟩
      · exact Or.inr ⟨rfl, total, hread, hn, rfl⟩
  · rw [if_neg hvalues]
    refine ⟨_, rfl, fun d => iff_of_false (by rintro ⟨⟩) ?_⟩
    rintro ⟨total, ⟨-, rfl, rfl⟩ | ⟨rfl, -⟩, hn, -⟩
    · exact hvalues (value_lt_of_totalSecs hn)
    · exact hvalues (by simp)

/-- A text is read as the grammar says, in both builds, **exactly when its sums fit**. -/
theorem parsesExactly_iff (s : String) :
    (∀ profile, ParsesExactly profile s) ↔ SumsFit 0 (trim s.toList) := by
  constructor
  · intro h segs rest htext hvalues
    by_contra hsum
    obtain ⟨result, hresult, -⟩ := h .debug
    unfold parse at hresult
    dsimp only at hresult
    rw [htext] at hresult
    split at hresult
    · -- the empty text has no sum
      rename_i hnil
      have hsegs : segs = [] := by
        cases segs with
        | nil => rfl
        | cons seg segs => exact absurd hnil (by simp [Segment.text])
      rw [hsegs] at hsum
      exact hsum (by decide)
    · have hzero : (0 : Duration) = Duration.ofSecs 0 := rfl
      rw [hzero, parseChars_panics (by decide) hvalues hsum] at hresult
      cases hresult
  · exact fun hfit profile => parsesExactly_of_sumsFit profile hfit

/-- A number of minutes whose seconds are `2 ^ 64 + 44`: the release build returns 44 seconds, and
the debug build panics. -/
theorem parse_wraps :
    parse .release "307445734561825861m" = some (.ok (Duration.ofSecs 44)) ∧
      parse .debug "307445734561825861m" = none ∧
      ¬ ParsesExactly .release "307445734561825861m" ∧
      ¬ ParsesExactly .debug "307445734561825861m" := by
  have hrelease : parse .release "307445734561825861m" = some (.ok (Duration.ofSecs 44)) := by
    decide +kernel
  have hdebug : parse .debug "307445734561825861m" = none := by decide +kernel
  refine ⟨hrelease, hdebug, ?_, ?_⟩
  · rintro ⟨result, hresult, hok⟩
    have hresult44 : result = .ok (Duration.ofSecs 44) :=
      Option.some.inj (hresult.symm.trans hrelease)
    obtain ⟨total, hdenotes, -, htotal⟩ := (hok _).mp hresult44
    obtain rfl := Duration.ofSecs_injective htotal
    -- the text stands for one sum only
    let seg : Segment :=
      ⟨"307445734561825861".toList, 307445734561825861, .minute, by decide +kernel⟩
    have htext : trim "307445734561825861m".toList = render [seg] ++ [] := by decide +kernel
    rw [htext, denotes_iff stuck_nil] at hdenotes
    rcases hdenotes with ⟨-, -, hsum⟩ | ⟨hne, -⟩
    · exact absurd hsum (by decide +kernel)
    · cases hne
  · rintro ⟨result, hresult, -⟩
    rw [hdebug] at hresult
    cases hresult

end HumanTime
end PgAgent
