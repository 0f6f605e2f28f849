import Mathlib

/-!
# Connection strings, as libpq cuts them

A connection string is a sequence of pairs `key = value`. libpq reads it character by character:
blanks in front of a key, around the sign and behind a value are skipped, a value is quoted or ends
at the next blank, and a backslash takes the next character as it is.

* `readConninfo` --- the reader, `none` where libpq reports a syntax error;
* `readConninfo_render` --- pairs of plain words are read back as they have been written.
-/

namespace Libpq

/-- `isspace` of the C locale. -/
def isSpace (c : Char) : Bool := (9 ≤ c.toNat && c.toNat ≤ 13) || c.toNat == 32

/-- Where the reader stands. -/
inductive ReadState
  /-- Between two pairs. -/
  | between
  /-- In a key. -/
  | key (key : List Char)
  /-- Behind a key, before the sign. -/
  | sign (key : List Char)
  /-- Behind the sign, before the value. -/
  | value (key : List Char)
  /-- In a value that is not quoted; `escaped` behind a backslash. -/
  | bare (key value : List Char) (escaped : Bool)
  /-- In a quoted value; `escaped` behind a backslash. -/
  | quoted (key value : List Char) (escaped : Bool)
  deriving DecidableEq, Repr

/-- The pairs of a connection string. -/
abbrev Pairs := List (List Char × List Char)

/-- `conninfo_parse`. -/
def readFrom : ReadState → List Char → Option Pairs
  | .between, [] => some []
  | .between, c :: cs =>
    if isSpace c then readFrom .between cs
    else if c = '=' then readFrom (.value []) cs
    else readFrom (.key [c]) cs
  | .key _, [] => none
  | .key key, c :: cs =>
    if c = '=' then readFrom (.value key) cs
    else if isSpace c then readFrom (.sign key) cs
    else readFrom (.key (key ++ [c])) cs
  | .sign _, [] => none
  | .sign key, c :: cs =>
    if isSpace c then readFrom (.sign key) cs
    else if c = '=' then readFrom (.value key) cs
    else none
  | .value key, [] => some [(key, [])]
  | .value key, c :: cs =>
    if isSpace c then readFrom (.value key) cs
    else if c = '\'' then readFrom (.quoted key [] false) cs
    else if c = '\\' then readFrom (.bare key [] true) cs
    else readFrom (.bare key [c] false) cs
  | .bare key value _, [] => some [(key, value)]
  | .bare key value true, c :: cs => readFrom (.bare key (value ++ [c]) false) cs
  | .bare key value false, c :: cs =>
    if isSpace c then (readFrom .between cs).map ((key, value) :: ·)
    else if c = '\\' then readFrom (.bare key value true) cs
    else readFrom (.bare key (value ++ [c]) false) cs
  | .quoted _ _ _, [] => none
  | .quoted key value true, c :: cs => readFrom (.quoted key (value ++ [c]) false) cs
  | .quoted key value false, c :: cs =>
    if c = '\\' then readFrom (.quoted key value true) cs
    else if c = '\'' then (readFrom .between cs).map ((key, value) :: ·)
    else readFrom (.quoted key (value ++ [c]) false) cs

def readConninfo (s : List Char) : Option Pairs := readFrom .between s

/-! ## Plain words -/

/-- A character that libpq takes for itself wherever it stands. -/
def Plain (c : Char) : Prop := isSpace c = false ∧ c ≠ '=' ∧ c ≠ '\'' ∧ c ≠ '\\'

/-- A word of plain characters, and not none. -/
def Word (s : List Char) : Prop := s ≠ [] ∧ ∀ c ∈ s, Plain c

/-- Pairs as they are written: the sign between key and value, a blank between the pairs. -/
def render : Pairs → List Char
  | [] => []
  | [(key, value)] => key ++ '=' :: value
  | (key, value) :: pair :: pairs => key ++ '=' :: (value ++ ' ' :: render (pair :: pairs))

/-- A pair at the end of a rendering. -/
theorem render_concat {pairs : Pairs} (hne : pairs ≠ []) (key value : List Char) :
    render (pairs ++ [(key, value)]) = render pairs ++ ' ' :: (key ++ '=' :: value) := by
  induction pairs with
  | nil => exact absurd rfl hne
  | cons p pairs ih =>
    obtain ⟨k, v⟩ := p
    cases pairs with
    | nil => simp [render]
    | cons q pairs =>
      have hrest := ih (List.cons_ne_nil _ _)
      rw [List.cons_append] at hrest
      rw [List.cons_append, List.cons_append, render, hrest, render]
      simp only [List.append_assoc, List.cons_append]

section Read

variable {key value : List Char}

theorem readFrom_key {s : List Char} (hs : ∀ c ∈ s, Plain c) (rest : List Char) :
    readFrom (.key key) (s ++ '=' :: rest) = readFrom (.value (key ++ s)) rest := by
  induction s generalizing key with
  | nil => rw [List.nil_append, List.append_nil, readFrom, if_pos rfl]
  | cons c s ih =>
    obtain ⟨hspace, hsign, -, -⟩ := hs c List.mem_cons_self
    rw [List.cons_append, readFrom, if_neg hsign, if_neg (by simp [hspace]),
      ih fun d hd => hs d (List.mem_cons_of_mem c hd), List.append_assoc, List.singleton_append]

theorem readFrom_bare {s : List Char} (hs : ∀ c ∈ s, Plain c) (rest : List Char) :
    readFrom (.bare key value false) (s ++ rest) =
      readFrom (.bare key (value ++ s) false) rest := by
  induction s generalizing value with
  | nil => rw [List.nil_append, List.append_nil]
  | cons c s ih =>
    obtain ⟨hspace, -, -, hback⟩ := hs c List.mem_cons_self
    rw [List.cons_append, readFrom, if_neg (by simp [hspace]), if_neg hback,
      ih fun d hd => hs d (List.mem_cons_of_mem c hd), List.append_assoc, List.singleton_append]

/-- A key, the sign and the beginning of a value. -/
theorem readFrom_pair (hkey : Word key) (hvalue : Word value) (rest : List Char) :
    readFrom .between (key ++ '=' :: (value ++ rest)) = readFrom (.bare key value false) rest := by
  obtain ⟨hkne, hkey⟩ := hkey
  obtain ⟨hvne, hvalue⟩ := hvalue
  cases key with
  | nil => exact absurd rfl hkne
  | cons k key =>
    obtain ⟨hkspace, hksign, -, -⟩ := hkey k List.mem_cons_self
    rw [List.cons_append, readFrom, if_neg (by simp [hkspace]), if_neg hksign,
      readFrom_key fun d hd => hkey d (List.mem_cons_of_mem k hd), List.singleton_append]
    cases value with
    | nil => exact absurd rfl hvne
    | cons v value =>
      obtain ⟨hvspace, -, hvquote, hvback⟩ := hvalue v List.mem_cons_self
      rw [List.cons_append, readFrom, if_neg (by simp [hvspace]), if_neg hvquote, if_neg hvback,
        readFrom_bare fun d hd => hvalue d (List.mem_cons_of_mem v hd), List.singleton_append]

end Read

/-- Pairs of words are read back. -/
theorem readConninfo_render {pairs : Pairs} (h : ∀ p ∈ pairs, Word p.1 ∧ Word p.2) :
    readConninfo (render pairs) = some pairs := by
  unfold readConninfo
  induction pairs with
  | nil => rfl
  | cons p pairs ih =>
    obtain ⟨key, value⟩ := p
    obtain ⟨hkey, hvalue⟩ := h (key, value) List.mem_cons_self
    have hrest := ih fun q hq => h q (List.mem_cons_of_mem _ hq)
    cases pairs with
    | nil =>
      have hlast := readFrom_pair hkey hvalue []
      rw [List.append_nil] at hlast
      rw [render, hlast, readFrom]
    | cons q pairs =>
      rw [render, readFrom_pair hkey hvalue, readFrom,
        if_pos (by decide : isSpace ' ' = true), hrest,
        Option.map_some]

example : readConninfo "host = 'a b' user=x\\ y".toList =
    some [("host".toList, "a b".toList), ("user".toList, "x y".toList)] := by decide
example : readConninfo "host=a user".toList = none := by decide

end Libpq
