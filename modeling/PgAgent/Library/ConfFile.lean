import Mathlib

/-!
# Configuration files, as PostgreSQL reads them

A file is read line by line. A line is blank, or a name, an equals sign that may be left out, and a
value; a comment may follow. A value is a quoted string, a word or a number. In a quoted string a
doubled quote is a quote, and a backslash begins an escape sequence.

* `readLine`, `readConf` --- the reader, an error where PostgreSQL reports one;
* `readQuoted_plain` --- a string without quote and backslash is read as it stands;
* `readQuoted_ne` --- a string with a backslash is not, as it is read as a shorter one;
* `readConf_cons` --- a file is read line by line, and `readConf_quoted_iff`, one line of it.
-/

namespace Postgres

def isBlank (c : Char) : Bool := c == ' ' || c == '\t' || c == '\r'

/-- `LETTER`: every character beyond ASCII is one. -/
def isLetter (c : Char) : Bool := c.isAlpha || c == '_' || decide (128 ≤ c.toNat)

def isLetterOrDigit (c : Char) : Bool := isLetter c || c.isDigit

/-- What a word goes on with. -/
def isWordChar (c : Char) : Bool :=
  isLetterOrDigit c || c == '-' || c == '.' || c == ':' || c == '/'

def isOctal (c : Char) : Bool := '0' ≤ c && c ≤ '7'

def isHexDigit (c : Char) : Bool :=
  c.isDigit || ('a' ≤ c && c ≤ 'f') || ('A' ≤ c && c ≤ 'F')

/-! ## Quoted strings -/

/-- Where the reader stands in a quoted string. -/
inductive QuoteState
  | plain
  /-- Behind a backslash. -/
  | backslash
  /-- In an octal escape with the given value, of which at most `left` digits are to come. -/
  | octal (value left : ℕ)
  /-- Behind a quote, which ends the string unless it is doubled. -/
  | quote
  deriving DecidableEq, Repr

/-- The character that an escape sequence of one character stands for. -/
def unescape : Char → Char
  | 'b' => Char.ofNat 8
  | 'f' => Char.ofNat 12
  | 'n' => '\n'
  | 'r' => '\r'
  | 't' => '\t'
  | c => c

/-- What is behind the opening quote: the string, and what follows it. -/
def readQuoted : QuoteState → List Char → List Char → Option (List Char × List Char)
  | .plain, _, [] => none
  | .plain, value, c :: cs =>
    if c = '\\' then readQuoted .backslash value cs
    else if c = '\'' then readQuoted .quote value cs
    else readQuoted .plain (value ++ [c]) cs
  | .backslash, _, [] => none
  | .backslash, value, c :: cs =>
    if isOctal c then readQuoted (.octal (c.toNat - 48) 2) value cs
    else readQuoted .plain (value ++ [unescape c]) cs
  | .octal _ _, _, [] => none
  | .octal n left, value, c :: cs =>
    if 0 < left ∧ isOctal c then readQuoted (.octal (8 * n + (c.toNat - 48)) (left - 1)) value cs
    else
      -- the escape ends in front of `c`
      let value := value ++ [Char.ofNat (n % 256)]
      if c = '\\' then readQuoted .backslash value cs
      else if c = '\'' then readQuoted .quote value cs
      else readQuoted .plain (value ++ [c]) cs
  | .quote, value, [] => some (value, [])
  | .quote, value, c :: cs =>
    if c = '\'' then readQuoted .plain (value ++ ['\'']) cs else some (value, c :: cs)

/-! ## Lines -/

/-- `ID`, of a word. -/
def isId (word : List Char) : Bool :=
  match word with
  | [] => false
  | c :: cs => isLetter c && cs.all isLetterOrDigit

/-- `QUALIFIED_ID`, of a word. -/
def isQualifiedId (word : List Char) : Bool :=
  isId (word.takeWhile (· != '.')) && isId ((word.dropWhile (· != '.')).drop 1)

/-- `INTEGER` or `REAL`, whichever is longer. -/
def readNumber (s : List Char) : Option (List Char × List Char) :=
  let sign :=
    match s with
    | '-' :: _ => 1
    | '+' :: _ => 1
    | _ => 0
  let body := s.drop sign
  let digits := (body.takeWhile Char.isDigit).length
  let hex :=
    match body with
    | '0' :: 'x' :: cs => (cs.takeWhile isHexDigit).length
    | _ => 0
  let number := if 0 < hex then 2 + hex else digits
  let integer :=
    if 0 < number then number + ((body.drop number).takeWhile Char.isAlpha).length else 0
  let real :=
    match body.drop digits with
    | '.' :: cs =>
      let fraction := (cs.takeWhile Char.isDigit).length
      let exponent :=
        match cs.drop fraction with
        | e :: cs =>
          let esign :=
            match cs with
            | '-' :: _ => 1
            | '+' :: _ => 1
            | _ => 0
          let edigits := ((cs.drop esign).takeWhile Char.isDigit).length
          if (e = 'e' ∨ e = 'E') ∧ 0 < edigits then 1 + esign + edigits else 0
        | [] => 0
      digits + 1 + fraction + exponent
    | _ => 0
  let n := max integer real
  if n = 0 then none else some (s.take (sign + n), s.drop (sign + n))

/-- The value at the front of a text, and what follows it. A qualified name is none. -/
def readValue (s : List Char) : Option (List Char × List Char) :=
  match s with
  | [] => none
  | c :: cs =>
    if c = '\'' then readQuoted .plain [] cs
    else if isLetter c then
      let word := s.takeWhile isWordChar
      if isQualifiedId word then none else some (word, s.dropWhile isWordChar)
    else readNumber s

/-- What a line says. -/
inductive Line
  | blank
  | setting (name value : List Char)
  | error
  deriving DecidableEq, Repr

/-- Nothing but a comment is left of the line. -/
def atEnd (s : List Char) : Bool :=
  match s.dropWhile isBlank with
  | [] => true
  | c :: _ => c == '#'

/-- The equals sign, if there is one, and the blanks around it. -/
def skipSign (s : List Char) : List Char :=
  match s.dropWhile isBlank with
  | '=' :: cs => cs.dropWhile isBlank
  | cs => cs

def readLine (line : List Char) : Line :=
  if atEnd line then .blank
  else
    let s := line.dropWhile isBlank
    let name := s.takeWhile isWordChar
    if isId name || isQualifiedId name then
      match readValue (skipSign (s.dropWhile isWordChar)) with
      | none => .error
      | some (value, rest) => if atEnd rest then .setting name value else .error
    else .error

/-- The settings of the lines; `none` if PostgreSQL rejects one of them. -/
def readLines : List (List Char) → Option (List (List Char × List Char))
  | [] => some []
  | line :: lines =>
    match readLine line with
    | .blank => readLines lines
    | .setting name value => (readLines lines).map ((name, value) :: ·)
    | .error => none

def confLines (text : List Char) : List (List Char) := text.splitOnP (· == '\n')

/-- The settings of a file, in order. -/
def readConf (text : List Char) : Option (List (List Char × List Char)) :=
  readLines (confLines text)

example : readLine "port = 5432 # the default".toList =
    .setting "port".toList "5432".toList := by decide
example : readLine "search_path '\"$user\", it''s\\t'".toList =
    .setting "search_path".toList "\"$user\", it's\t".toList := by decide
example : readLine "include conf.d".toList = .error := by decide

/-! ## Strings and the lengths of them -/

section Quoted

variable {s value rest : List Char}

/-- A string without quote and backslash is read as it stands. -/
theorem readQuoted_plain (hquote : '\'' ∉ s) (hback : '\\' ∉ s)
    (hrest : rest.head? ≠ some '\'') :
    readQuoted .plain value (s ++ '\'' :: rest) = some (value ++ s, rest) := by
  induction s generalizing value with
  | nil =>
    rw [List.nil_append, List.append_nil, readQuoted, if_neg (by decide), if_pos rfl]
    cases rest with
    | nil => rfl
    | cons c cs => rw [readQuoted, if_neg fun h => hrest (by rw [h]; rfl)]
  | cons c s ih =>
    have hc : c ≠ '\\' ∧ c ≠ '\'' :=
      ⟨fun h => hback (h ▸ List.mem_cons_self), fun h => hquote (h ▸ List.mem_cons_self)⟩
    rw [List.cons_append, readQuoted, if_neg hc.1, if_neg hc.2,
      ih (fun h => hquote (List.mem_cons_of_mem c h)) (fun h => hback (List.mem_cons_of_mem c h)),
      List.append_assoc, List.singleton_append]

/-- The characters of a string that are still to be written. -/
def QuoteState.pending : QuoteState → ℕ
  | .octal _ _ => 1
  | _ => 0

/-- No string is read as a longer one, and one with a backslash is read as a shorter one. -/
theorem length_of_readQuoted (hquote : '\'' ∉ s) {state : QuoteState} (hstate : state ≠ .quote)
    {result : List Char} (h : readQuoted state value (s ++ ['\'']) = some (result, rest)) :
    rest = [] ∧
      result.length + (if state = .plain ∧ '\\' ∈ s then 1 else 0) ≤
        value.length + state.pending + s.length := by
  induction s generalizing value state with
  | nil =>
    rw [List.nil_append] at h
    cases state with
    | plain =>
      obtain ⟨rfl, rfl⟩ := Prod.mk.inj (Option.some.inj h)
      exact ⟨rfl, by simp⟩
    | backslash => cases h
    | octal n left =>
      have hoctal : isOctal '\'' = false := by decide
      rw [readQuoted, if_neg (by simp [hoctal])] at h
      obtain ⟨rfl, rfl⟩ := Prod.mk.inj (Option.some.inj h)
      exact ⟨rfl, by simp [QuoteState.pending]⟩
    | quote => exact absurd rfl hstate
  | cons c s ih =>
    have hc : c ≠ '\'' := fun hc => hquote (hc ▸ List.mem_cons_self)
    have hs : '\'' ∉ s := fun hmem => hquote (List.mem_cons_of_mem c hmem)
    rw [List.cons_append] at h
    -- the step that a plain character or a backslash makes, in the states that look at it afresh
    have hfresh : ∀ value : List Char,
        (if c = '\\' then readQuoted .backslash value (s ++ ['\''])
          else if c = '\'' then readQuoted .quote value (s ++ ['\''])
          else readQuoted .plain (value ++ [c]) (s ++ ['\''])) = some (result, rest) →
        rest = [] ∧ result.length + (if '\\' ∈ c :: s then 1 else 0) ≤
          value.length + (c :: s).length := by
      intro value h
      by_cases hback : c = '\\'
      · rw [if_pos hback] at h
        obtain ⟨hrest, hlen⟩ := ih hs (by decide) h
        refine ⟨hrest, ?_⟩
        rw [if_pos (by simp [hback]), List.length_cons]
        simp only [QuoteState.pending, reduceCtorEq, false_and, if_false] at hlen
        omega
      · rw [if_neg hback, if_neg hc] at h
        obtain ⟨hrest, hlen⟩ := ih hs (by decide) h
        refine ⟨hrest, ?_⟩
        have hmem : '\\' ∈ c :: s ↔ '\\' ∈ s := by simp [Ne.symm hback]
        simp only [hmem, List.length_cons]
        simp only [QuoteState.pending, true_and, List.length_append, List.length_singleton] at hlen
        omega
    cases state with
    | plain =>
      rw [readQuoted] at h
      simpa [QuoteState.pending] using hfresh value h
    | backslash =>
      rw [readQuoted] at h
      split at h
      · obtain ⟨hrest, hlen⟩ := ih hs (by simp) h
        refine ⟨hrest, ?_⟩
        simp only [QuoteState.pending, reduceCtorEq, false_and, if_false, List.length_cons]
          at hlen ⊢
        omega
      · obtain ⟨hrest, hlen⟩ := ih hs (by decide) h
        refine ⟨hrest, ?_⟩
        simp only [QuoteState.pending, reduceCtorEq, false_and, if_false, List.length_cons,
          List.length_append, List.length_nil] at hlen ⊢
        omega
    | octal n left =>
      rw [readQuoted] at h
      by_cases hmore : 0 < left ∧ isOctal c = true
      · rw [if_pos hmore] at h
        obtain ⟨hrest, hlen⟩ := ih hs (by simp) h
        refine ⟨hrest, ?_⟩
        simp only [QuoteState.pending, reduceCtorEq, false_and, if_false, List.length_cons]
          at hlen ⊢
        omega
      · rw [if_neg hmore] at h
        obtain ⟨hrest, hlen⟩ := hfresh _ h
        refine ⟨hrest, ?_⟩
        simp only [QuoteState.pending, reduceCtorEq, false_and, if_false, List.length_cons,
          List.length_append, List.length_nil] at hlen ⊢
        omega
    | quote => exact absurd rfl hstate

/-- A string with a backslash is not read as it stands. -/
theorem readQuoted_ne (hquote : '\'' ∉ s) (hback : '\\' ∈ s) (rest : List Char) :
    readQuoted .plain [] (s ++ ['\'']) ≠ some (s, rest) := by
  intro h
  obtain ⟨-, hlen⟩ := length_of_readQuoted hquote (by decide) h
  rw [if_pos ⟨rfl, hback⟩] at hlen
  simp only [List.length_nil, QuoteState.pending] at hlen
  omega

end Quoted

/-! ## Lines and files -/

section Lines

variable {name value line rest : List Char}

/-- A name, the sign between blanks, and a quoted string. -/
theorem readLine_quoted (hid : isId name = true) :
    readLine (name ++ " = '".toList ++ value) =
      match readQuoted .plain [] value with
      | none => .error
      | some (value, rest) => if atEnd rest then .setting name value else .error := by
  cases name with
  | nil => cases hid
  | cons c cs =>
    obtain ⟨hc, hcs⟩ := Bool.and_eq_true_iff.mp hid
    have hcs := List.all_eq_true.mp hcs
    have hword : ∀ d ∈ c :: cs, isWordChar d = true := by
      intro d hd
      have hletter : isLetterOrDigit d = true := by
        rcases List.mem_cons.mp hd with rfl | hmem
        · simp only [isLetterOrDigit, hc, Bool.true_or]
        · exact hcs d hmem
      simp only [isWordChar, hletter, Bool.true_or]
    have hblank : isBlank c = false := by
      refine Bool.eq_false_iff.mpr fun hb => ?_
      simp only [isBlank, Bool.or_eq_true, beq_iff_eq] at hb
      rcases hb with (rfl | rfl) | rfl
      all_goals exact absurd hc (by decide)
    have hhash : (c == '#') = false := by
      refine Bool.eq_false_iff.mpr fun hb => ?_
      obtain rfl := beq_iff_eq.mp hb
      exact absurd hc (by decide)
    have hdrop : (c :: cs ++ " = '".toList ++ value).dropWhile isBlank =
        c :: cs ++ (" = '".toList ++ value) := by
      rw [List.append_assoc, List.cons_append, List.dropWhile_cons_of_neg (by simp [hblank])]
    have htake : (c :: cs ++ (" = '".toList ++ value)).takeWhile isWordChar = c :: cs := by
      rw [List.takeWhile_append_of_pos hword]
      exact List.append_nil _
    have hrest : (c :: cs ++ (" = '".toList ++ value)).dropWhile isWordChar =
        " = '".toList ++ value := by
      rw [List.dropWhile_append_of_pos hword]
      rfl
    have hend : atEnd (c :: cs ++ " = '".toList ++ value) = false := by
      unfold atEnd
      rw [hdrop]
      exact hhash
    unfold readLine
    rw [hend, if_neg Bool.false_ne_true]
    dsimp only
    rw [hdrop, htake, hrest, hid, Bool.true_or, if_pos rfl]
    rfl

theorem confLines_cons (hline : '\n' ∉ line) (rest : List Char) :
    confLines (line ++ '\n' :: rest) = line :: confLines rest := by
  unfold confLines
  rw [List.splitOnP_append_cons line rest (by rfl), List.splitOnP_eq_singleton]
  · rfl
  · intro c hc
    exact Bool.eq_false_iff.mpr fun h => hline (beq_iff_eq.mp h ▸ hc)

/-- A file is read line by line. -/
theorem readConf_cons (hline : '\n' ∉ line) (rest : List Char) :
    readConf (line ++ '\n' :: rest) =
      match readLine line with
      | .blank => readConf rest
      | .setting name value => (readConf rest).map ((name, value) :: ·)
      | .error => none := by
  unfold readConf
  rw [confLines_cons hline, readLines]

/-- A line with a quoted string says what is in the string **exactly if it has no backslash**. -/
theorem readConf_quoted_iff (hid : isId name = true) (hname : '\n' ∉ name)
    (hline : '\n' ∉ value) (hquote : '\'' ∉ value) {tail : List (List Char × List Char)} :
    readConf (name ++ " = '".toList ++ (value ++ ['\'']) ++ '\n' :: rest) =
        some ((name, value) :: tail) ↔
      '\\' ∉ value ∧ readConf rest = some tail := by
  have hbreak : '\n' ∉ name ++ " = '".toList ++ (value ++ ['\'']) := by
    simp only [List.mem_append, not_or]
    exact ⟨⟨hname, by decide⟩, hline, by decide⟩
  rw [readConf_cons hbreak, readLine_quoted hid]
  by_cases hback : '\\' ∈ value
  · refine iff_of_false ?_ fun h => h.1 hback
    intro h
    cases hread : readQuoted .plain [] (value ++ ['\'']) with
    | none => rw [hread] at h; cases h
    | some r =>
      obtain ⟨read, after⟩ := r
      rw [hread] at h
      dsimp only at h
      by_cases hend : atEnd after = true
      · rw [if_pos hend] at h
        obtain ⟨settings, -, hcons⟩ := Option.map_eq_some_iff.mp h
        obtain ⟨-, rfl⟩ := Prod.mk.inj (List.cons.inj hcons).1
        exact readQuoted_ne hquote hback after hread
      · rw [if_neg hend] at h
        cases h
  · rw [readQuoted_plain hquote hback (by decide), List.nil_append]
    dsimp only
    rw [if_pos (by decide)]
    dsimp only
    constructor
    · intro h
      obtain ⟨settings, hsettings, hcons⟩ := Option.map_eq_some_iff.mp h
      obtain ⟨-, rfl⟩ := List.cons.inj hcons
      exact ⟨hback, hsettings⟩
    · rintro ⟨-, h⟩
      rw [h, Option.map_some]

@[simp] theorem readConf_nil : readConf [] = some [] := rfl

end Lines

end Postgres
