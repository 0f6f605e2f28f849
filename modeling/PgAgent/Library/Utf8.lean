import Mathlib.Data.List.Basic

/-!
# Reading UTF-8 with replacement

`String::from_utf8_lossy` reads a character where a well-formed sequence of bytes stands, and the
replacement character for every longest run of bytes that begins such a sequence and does not end
it.

* `fromUtf8Lossy` --- the text that is read, and `fromUtf8Lossy_ascii`, what it is for bytes below
  `0x80`;
* `fromUtf8` --- the reader that rejects such runs, and `fromUtf8Lossy_of_fromUtf8`, that the two
  agree where it does not.
-/

namespace Rust

/-- `char::REPLACEMENT_CHARACTER`. -/
def replacementCharacter : Char := Char.ofNat 0xFFFD

/-- A byte `10xxxxxx`. -/
def isContinuation (b : UInt8) : Bool := decide (0x80 ≤ b) && decide (b ≤ 0xBF)

/-- The second bytes behind a first byte of three or four: neither too long a form, nor a surrogate,
nor beyond the last code point. -/
def isSecond (first b : UInt8) : Bool :=
  if first = 0xE0 then decide (0xA0 ≤ b) && decide (b ≤ 0xBF)
  else if first = 0xED then decide (0x80 ≤ b) && decide (b ≤ 0x9F)
  else if first = 0xF0 then decide (0x90 ≤ b) && decide (b ≤ 0xBF)
  else if first = 0xF4 then decide (0x80 ≤ b) && decide (b ≤ 0x8F)
  else isContinuation b

/-- What a first byte says: its own bits of the code point, and what the bytes behind it must be;
`none` if no sequence begins with it. -/
def firstByte (b : UInt8) : Option (ℕ × List (UInt8 → Bool)) :=
  if b < 0x80 then some (b.toNat, [])
  else if 0xC2 ≤ b ∧ b ≤ 0xDF then some (b.toNat % 32, [isContinuation])
  else if 0xE0 ≤ b ∧ b ≤ 0xEF then some (b.toNat % 16, [isSecond b, isContinuation])
  else if 0xF0 ≤ b ∧ b ≤ 0xF4 then
    some (b.toNat % 8, [isSecond b, isContinuation, isContinuation])
  else none

/-- The bytes behind a first byte: the code point if all of them are there, and the bytes that have
not been read. -/
def readTail (bits : ℕ) : List (UInt8 → Bool) → List UInt8 → Option ℕ × List UInt8
  | [], rest => (some bits, rest)
  | _ :: _, [] => (none, [])
  | check :: checks, b :: rest =>
    if check b then readTail (bits * 64 + b.toNat % 64) checks rest else (none, b :: rest)

/-- The character at the front of some bytes if they are well-formed, and the bytes that have not
been read. -/
def readChar (first : UInt8) (rest : List UInt8) : Option Char × List UInt8 :=
  match firstByte first with
  | some (bits, checks) =>
    let p := readTail bits checks rest
    (p.1.map Char.ofNat, p.2)
  | none => (none, rest)

/-- `fromUtf8Lossy`, with at most so many characters; there are no more than bytes. -/
def decodeLossy : ℕ → List UInt8 → List Char
  | 0, _ => []
  | _, [] => []
  | n + 1, first :: rest =>
    let p := readChar first rest
    p.1.getD replacementCharacter :: decodeLossy n p.2

/-- `fromUtf8`, with at most so many characters. -/
def decodeStrict : ℕ → List UInt8 → Option (List Char)
  | 0, _ => some []
  | _, [] => some []
  | n + 1, first :: rest =>
    let p := readChar first rest
    p.1.bind fun c => (decodeStrict n p.2).map fun cs => c :: cs

/-- `String::from_utf8_lossy`. -/
def fromUtf8Lossy (bytes : List UInt8) : List Char := decodeLossy bytes.length bytes

/-- `String::from_utf8`: only well-formed bytes are read. -/
def fromUtf8 (bytes : List UInt8) : Option (List Char) := decodeStrict bytes.length bytes

theorem readChar_ascii {b : UInt8} (h : b < 0x80) (rest : List UInt8) :
    readChar b rest = (some (Char.ofNat b.toNat), rest) := by
  have hfirst : firstByte b = some (b.toNat, []) := if_pos h
  unfold readChar
  rw [hfirst]
  rfl

theorem fromUtf8Lossy_ascii {bytes : List UInt8} (h : ∀ b ∈ bytes, b < 0x80) :
    fromUtf8Lossy bytes = bytes.map fun b => Char.ofNat b.toNat := by
  unfold fromUtf8Lossy
  induction bytes with
  | nil => rfl
  | cons b bytes ih =>
    have hrest := ih fun c hc => h c (List.mem_cons_of_mem _ hc)
    rw [List.length_cons, decodeLossy, readChar_ascii (h b List.mem_cons_self),
      List.map_cons, hrest]
    rfl

theorem decodeLossy_of_decodeStrict {n : ℕ} {bytes : List UInt8} {text : List Char}
    (h : decodeStrict n bytes = some text) : decodeLossy n bytes = text := by
  induction n generalizing bytes text with
  | zero => exact Option.some.inj h
  | succ n ih =>
    cases bytes with
    | nil => exact Option.some.inj h
    | cons first rest =>
      obtain ⟨c, hc, hmap⟩ := Option.bind_eq_some_iff.mp h
      obtain ⟨cs, hcs, rfl⟩ := Option.map_eq_some_iff.mp hmap
      rw [decodeLossy, hc, ih hcs]
      rfl

/-- Well-formed bytes are read as they are. -/
theorem fromUtf8Lossy_of_fromUtf8 {bytes : List UInt8} {text : List Char}
    (h : fromUtf8 bytes = some text) : fromUtf8Lossy bytes = text :=
  decodeLossy_of_decodeStrict h

-- a character, a sequence that breaks off in front of another character, and one at the end
example : fromUtf8Lossy [0xC3, 0xA9, 0xE2, 0x82, 0x41, 0xF0, 0x9F] = "é�A�".toList :=
  by decide +kernel

end Rust
