import PgAgent.Library.ConfFile
import PgAgent.Library.Text

/-!
# Include lines of configuration files

Three names are no settings: `include`, `include_if_exists` and `include_dir` make PostgreSQL read
other files. They are compared without regard to case, and a name that is blank is rejected.

* `readInclude` --- what PostgreSQL takes from a line;
* `IncludeLine` --- an include line as people write it, and `IncludeLine.readInclude_text`, that it
  is read as such;
* `firstWord_of_readInclude` --- the key that is taken from a line is its first word.
-/

namespace Postgres

open Rust

inductive IncludeKey
  | file
  | ifExists
  | dir
  deriving DecidableEq, Repr

namespace IncludeKey

def text : IncludeKey → List Char
  | file => "include".toList
  | ifExists => "include_if_exists".toList
  | dir => "include_dir".toList

/-- The key that a name is, without regard to case. -/
def ofName (name : List Char) : Option IncludeKey :=
  [file, ifExists, dir].find? fun k => name.map Char.toLower == k.text

end IncludeKey

/-- What PostgreSQL takes from a line: a key and the name of a file or a directory. -/
def readInclude (line : List Char) : Option (IncludeKey × List Char) :=
  match readLine line with
  | .setting name value =>
    (IncludeKey.ofName name).bind fun k =>
      if value.all fun c => isBlank c || c == '\n' then none else some (k, value)
  | _ => none

/-! ## Characters -/

section Characters

variable {c : Char}

/-- The characters of a name, as far as they are in ASCII. -/
def isNameChar (c : Char) : Bool := c.isAlphanum || c == '_'

theorem alpha_range (h : c.isAlpha = true) :
    65 ≤ c.toNat ∧ c.toNat ≤ 90 ∨ 97 ≤ c.toNat ∧ c.toNat ≤ 122 := by
  simp only [Char.isAlpha, Char.isUpper, Char.isLower, Bool.or_eq_true, Bool.and_eq_true,
    decide_eq_true_eq, ge_iff_le, UInt32.le_iff_toNat_le] at h
  exact h

theorem isBlank_iff : isBlank c = true ↔ c = ' ' ∨ c = '\t' ∨ c = '\r' := by
  simp only [isBlank, Bool.or_eq_true, beq_iff_eq, or_assoc]

/-- What a blank is not. -/
theorem isBlank_facts (h : isBlank c = true) :
    isWhitespace c = true ∧ isWordChar c = false ∧ isNameChar c = false ∧
    c ≠ '#' ∧ c ≠ '\'' ∧
      c ≠ '=' := by
  rcases isBlank_iff.mp h with rfl | rfl | rfl <;> decide

/-- What a letter is not. -/
theorem isAlpha_facts (h : c.isAlpha = true ∨ c = '_') :
    isLetter c = true ∧ isNameChar c = true ∧ isWhitespace c = false ∧
    c ≠ '#' ∧ c ≠ '\'' ∧
      c ≠ '=' := by
  rcases h with h | rfl
  · have hrange := alpha_range h
    refine ⟨by simp [isLetter, h], by simp [isNameChar, Char.isAlphanum, h], ?_, ?_, ?_, ?_⟩
    · simp only [isWhitespace, Bool.or_eq_false_iff, Bool.and_eq_false_iff,
        decide_eq_false_iff_not,
        beq_eq_false_iff_ne]
      omega
    all_goals
      rintro rfl
      cases h
  · decide

theorem isLetter_facts (h : isLetter c = true) : c ≠ '#' ∧ c ≠ '\'' ∧ c ≠ '=' := by
  refine ⟨?_, ?_, ?_⟩
  all_goals
    rintro rfl
    cases h

theorem isWordChar_of_isLetter (h : isLetter c = true) : isWordChar c = true := by
  simp [isWordChar, isLetterOrDigit, h]

theorem isWordChar_of_isNameChar (h : isNameChar c = true) : isWordChar c = true := by
  simp only [isNameChar, Char.isAlphanum, Bool.or_eq_true, beq_iff_eq] at h
  rcases h with (h | h) | rfl
  · exact isWordChar_of_isLetter (by simp [isLetter, h])
  · simp [isWordChar, isLetterOrDigit, h]
  · decide

theorem isBlank_of_isWhitespace (h : isWhitespace c = false) : isBlank c = false := by
  refine Bool.eq_false_iff.mpr fun hblank => ?_
  rw [(isBlank_facts hblank).1] at h
  cases h

end Characters

/-! ## The names -/

section Names

variable {name : List Char} {k : IncludeKey}

theorem toLower_of_not_isUpper {c : Char} (h : c.isUpper = false) : c.toLower = c := by
  unfold Char.toLower
  rw [dif_neg]
  intro hupper
  rw [Char.isUpper, decide_eq_true hupper] at h
  cases h

/-- A key is a word of letters and underscores. -/
theorem name_chars (h : IncludeKey.ofName name = some k) :
    name ≠ [] ∧ ∀ c ∈ name, c.isAlpha = true ∨ c = '_' := by
  have htext : k.text ≠ [] ∧ (k.text.all fun c => c.isLower || c == '_') = true := by
    cases k <;> decide +kernel
  have hname : name.map Char.toLower = k.text := by
    have hfound := List.find?_some h
    exact beq_iff_eq.mp hfound
  constructor
  · rintro rfl
    exact htext.1 hname.symm
  · intro c hc
    by_cases hupper : c.isUpper = true
    · exact Or.inl (by simp [Char.isAlpha, hupper])
    · have hmem : c ∈ k.text := by
        rw [← hname, ← toLower_of_not_isUpper (Bool.eq_false_iff.mpr hupper)]
        exact List.mem_map_of_mem hc
      have hlower := List.all_eq_true.mp htext.2 c hmem
      simp only [Bool.or_eq_true, beq_iff_eq] at hlower
      rcases hlower with hlower | hlower
      · exact Or.inl (by simp [Char.isAlpha, hlower])
      · exact Or.inr hlower

theorem isId_name (h : IncludeKey.ofName name = some k) : isId name = true := by
  obtain ⟨hne, hchars⟩ := name_chars h
  cases name with
  | nil => exact absurd rfl hne
  | cons c cs =>
    have hletter : ∀ d ∈ c :: cs, isLetter d = true :=
      fun d hd => (isAlpha_facts (hchars d hd)).1
    refine Bool.and_eq_true_iff.mpr ⟨hletter c List.mem_cons_self, List.all_eq_true.mpr ?_⟩
    intro d hd
    simp [isLetterOrDigit, hletter d (List.mem_cons_of_mem c hd)]

end Names

/-! ## Lines as they are written -/

/-- A character of a word that is written without quotes. -/
def isBareChar (c : Char) : Bool := isWordChar c && !isWhitespace c

theorem isWhitespace_of_isBareChar {c : Char} (h : isBareChar c = true) :
    isWhitespace c = false := by
  have hspace := (Bool.and_eq_true_iff.mp h).2
  simpa using hspace

/-- An include line as people write it: the name behind blanks, an equals sign that may be left out,
a name in quotes, without quotes and backslashes in it and not blank, or a bare word that is not two
names with a dot between them, and a comment that may be left out. -/
structure IncludeLine where
  key : IncludeKey
  indent : List Char
  name : List Char
  front : List Char
  sign : Bool
  back : List Char
  quoted : Bool
  value : List Char
  tail : List Char
  indent_blank : ∀ c ∈ indent, isBlank c = true
  name_key : IncludeKey.ofName name = some key
  front_blank : ∀ c ∈ front, isBlank c = true
  back_blank : ∀ c ∈ back, isBlank c = true
  quoted_form : quoted = true →
    '\'' ∉ value ∧ '\\' ∉ value ∧ ¬ ∀ c ∈ value, isBlank c = true ∨ c = '\n'
  bare_form : quoted = false →
    (∃ c cs, value = c :: cs ∧ isLetter c = true) ∧ (∀ c ∈ value, isBareChar c = true) ∧
      isQualifiedId value = false ∧ (sign = true ∨ front ≠ [])
  tail_form : atEnd tail = true

namespace IncludeLine

/-- The name of the file as it is written. -/
def written (l : IncludeLine) : List Char :=
  if l.quoted then '\'' :: (l.value ++ ['\'']) else l.value

/-- What is between the name and the file. -/
def between (l : IncludeLine) : List Char :=
  if l.sign then l.front ++ '=' :: l.back else l.front

def text (l : IncludeLine) : List Char :=
  l.indent ++ (l.name ++ (l.between ++ (l.written ++ l.tail)))

variable (l : IncludeLine)

/-- The first character of the file as it is written. -/
theorem exists_written :
    ∃ c cs, l.written = c :: cs ∧ isBlank c = false ∧ isWhitespace c = false ∧
    c ≠ '=' ∧ c ≠ '#' ∧ (l.quoted = true → c = '\'') ∧
    (l.quoted = false → isLetter c = true ∧ c ≠ '\'') := by
  unfold written
  cases hquoted : l.quoted with
  | true => exact ⟨'\'', l.value ++ ['\''], rfl, by decide, by decide, by decide, by decide,
      fun _ => rfl, fun h => nomatch h⟩
  | false =>
    obtain ⟨⟨c, cs, hvalue, hletter⟩, hchars, -, -⟩ := l.bare_form hquoted
    have hspace := isWhitespace_of_isBareChar (hchars c (by rw [hvalue]; exact List.mem_cons_self))
    obtain ⟨hhash, hquote, hsign⟩ := isLetter_facts hletter
    exact ⟨c, cs, hvalue, isBlank_of_isWhitespace hspace, hspace, hsign, hhash,
      (fun h => nomatch h),
      fun _ => ⟨hletter, hquote⟩⟩

theorem dropWhile_blank {blanks rest : List Char} {c : Char}
    (h : ∀ c ∈ blanks, isBlank c = true)
    (hc : isBlank c = false) : (blanks ++ c :: rest).dropWhile isBlank = c :: rest := by
  rw [List.dropWhile_append_of_pos h, List.dropWhile_cons_of_neg (by simp [hc])]

/-- What follows the name is no part of it. -/
theorem exists_between : ∃ c cs, l.between ++ (l.written ++ l.tail) = c :: cs ∧
    isWordChar c = false := by
  obtain ⟨w, ws, hwritten, -, -, -, -, hquote, -⟩ := l.exists_written
  unfold between
  cases hfront : l.front with
  | cons c cs =>
    have hword := (isBlank_facts (l.front_blank c (by rw [hfront]; exact List.mem_cons_self))).2.1
    cases l.sign <;> exact ⟨c, _, rfl, hword⟩
  | nil =>
    cases hsign : l.sign with
    | true => exact ⟨'=', _, rfl, by decide⟩
    | false =>
      cases hquoted : l.quoted with
      | true =>
        rw [hwritten, hquote hquoted]
        exact ⟨'\'', _, rfl, by decide⟩
      | false =>
        rcases (l.bare_form hquoted).2.2.2 with h | h
        · rw [hsign] at h
          cases h
        · exact absurd hfront h

theorem skipSign_between : skipSign (l.between ++ (l.written ++ l.tail)) = l.written ++ l.tail := by
  obtain ⟨w, ws, hwritten, hblank, -, hsign, -, -, -⟩ := l.exists_written
  rw [hwritten]
  unfold skipSign between
  cases l.sign with
  | true =>
    rw [if_pos rfl, List.append_assoc, List.cons_append, dropWhile_blank l.front_blank (by decide)]
    exact dropWhile_blank l.back_blank hblank
  | false =>
    rw [if_neg Bool.false_ne_true, List.cons_append, dropWhile_blank l.front_blank hblank]
    split
    · next cs heq => exact absurd (List.cons.inj heq).1 hsign
    · rfl

/-- Behind the file there is a blank, a comment or nothing. -/
theorem tail_head : ∀ c, l.tail.head? = some c → isBlank c = true ∨ c = '#' := by
  intro c hc
  have htail := l.tail_form
  unfold atEnd at htail
  cases htext : l.tail with
  | nil =>
    rw [htext] at hc
    cases hc
  | cons d ds =>
    rw [htext] at hc htail
    obtain rfl := Option.some.inj hc
    by_cases hblank : isBlank d = true
    · exact Or.inl hblank
    · rw [List.dropWhile_cons_of_neg hblank] at htail
      exact Or.inr (beq_iff_eq.mp htail)

theorem readValue_written : readValue (l.written ++ l.tail) = some (l.value, l.tail) := by
  cases hquoted : l.quoted with
  | true =>
    obtain ⟨hquote, hback, -⟩ := l.quoted_form hquoted
    have hwritten : l.written = '\'' :: (l.value ++ ['\'']) := by
      unfold written
      rw [hquoted]
      rfl
    have hhead : l.tail.head? ≠ some '\'' := by
      intro h
      rcases l.tail_head _ h with h | h
      · cases h
      · cases h
    rw [hwritten, List.cons_append, readValue, if_pos rfl, List.append_assoc, List.singleton_append,
      readQuoted_plain hquote hback hhead, List.nil_append]
  | false =>
    obtain ⟨⟨c, cs, hvalue, hletter⟩, hchars, hqualified, -⟩ := l.bare_form hquoted
    have hwritten : l.written = l.value := by
      unfold written
      rw [hquoted]
      rfl
    have hword : ∀ d ∈ l.value, isWordChar d = true := fun d hd =>
      (Bool.and_eq_true_iff.mp (hchars d hd)).1
    have htail : l.tail.takeWhile isWordChar = [] := by
      cases htext : l.tail with
      | nil => rfl
      | cons d ds =>
        refine List.takeWhile_cons_of_neg ?_
        rcases l.tail_head d (by rw [htext]; rfl) with h | rfl
        · rw [(isBlank_facts h).2.1]
          exact Bool.false_ne_true
        · decide
    have hdrop : l.tail.dropWhile isWordChar = l.tail := by
      conv_rhs => rw [← List.takeWhile_append_dropWhile (p := isWordChar) (l := l.tail), htail,
        List.nil_append]
    have htake : (l.value ++ l.tail).takeWhile isWordChar = l.value := by
      rw [List.takeWhile_append_of_pos hword, htail, List.append_nil]
    have hquote : c ≠ '\'' := (isLetter_facts hletter).2.1
    have hcons : l.value ++ l.tail = c :: (cs ++ l.tail) := by
      rw [hvalue, List.cons_append]
    rw [hwritten, hcons, readValue, if_neg hquote, if_pos hletter, ← hcons]
    dsimp only
    rw [htake, hqualified, if_neg Bool.false_ne_true,
      List.dropWhile_append_of_pos hword, hdrop]

theorem value_not_blank : ¬ ∀ c ∈ l.value, (isBlank c || c == '\n') = true := by
  intro hall
  cases hquoted : l.quoted with
  | true =>
    refine (l.quoted_form hquoted).2.2 fun c hc => ?_
    simpa [Bool.or_eq_true] using hall c hc
  | false =>
    obtain ⟨⟨c, cs, hvalue, -⟩, hchars, -, -⟩ := l.bare_form hquoted
    have hmem : c ∈ l.value := by
      rw [hvalue]
      exact List.mem_cons_self
    have hspace := isWhitespace_of_isBareChar (hchars c hmem)
    have hblank := hall c hmem
    rw [isBlank_of_isWhitespace hspace, Bool.false_or, beq_iff_eq] at hblank
    rw [hblank] at hspace
    cases hspace

/-- An include line is read as one. -/
theorem readInclude_text : readInclude l.text = some (l.key, l.value) := by
  obtain ⟨hne, hchars⟩ := name_chars l.name_key
  obtain ⟨c, cs, hname⟩ := List.exists_cons_of_ne_nil hne
  obtain ⟨b, bs, hbetween, hb⟩ := l.exists_between
  have hword : ∀ d ∈ l.name, isWordChar d = true := fun d hd =>
    isWordChar_of_isLetter (isAlpha_facts (hchars d hd)).1
  obtain ⟨-, -, hspace, hhash, -, -⟩ :=
    isAlpha_facts (hchars c (by rw [hname]; exact List.mem_cons_self))
  have hdrop : l.text.dropWhile isBlank = l.name ++ (b :: bs) := by
    unfold text
    rw [hbetween, hname, List.cons_append]
    exact dropWhile_blank l.indent_blank (isBlank_of_isWhitespace hspace)
  have hend : atEnd l.text = false := by
    unfold atEnd
    rw [hdrop, hname]
    exact beq_eq_false_iff_ne.mpr hhash
  have htake : (l.name ++ (b :: bs)).takeWhile isWordChar = l.name := by
    rw [List.takeWhile_append_of_pos hword, List.takeWhile_cons_of_neg (by simp [hb]),
      List.append_nil]
  have hrest : (l.name ++ (b :: bs)).dropWhile isWordChar = b :: bs := by
    rw [List.dropWhile_append_of_pos hword, List.dropWhile_cons_of_neg (by simp [hb])]
  have hline : readLine l.text = .setting l.name l.value := by
    unfold readLine
    rw [hend, if_neg Bool.false_ne_true]
    dsimp only
    rw [hdrop, htake, hrest, isId_name l.name_key, Bool.true_or, if_pos rfl, ← hbetween,
      l.skipSign_between, l.readValue_written]
    dsimp only
    rw [if_pos l.tail_form]
  have hvalue : (l.value.all fun c => isBlank c || c == '\n') = false :=
    Bool.eq_false_iff.mpr fun hall => l.value_not_blank (List.all_eq_true.mp hall)
  unfold readInclude
  rw [hline]
  dsimp only
  rw [l.name_key, Option.bind_some, hvalue, if_neg Bool.false_ne_true]

end IncludeLine

/-! ## Lines of another kind -/

/-- The first word of a line. -/
def firstWord (line : List Char) : List Char := (trimStart line).takeWhile isNameChar

/-- The key that PostgreSQL takes from a line is its first word. -/
theorem firstWord_of_readInclude {line value : List Char} {k : IncludeKey}
    (h : readInclude line = some (k, value)) : IncludeKey.ofName (firstWord line) = some k := by
  -- a name that is a key is the first word
  have hfirst : ∀ k, IncludeKey.ofName ((line.dropWhile isBlank).takeWhile isWordChar) =
      some k →
      firstWord line = (line.dropWhile isBlank).takeWhile isWordChar := by
    intro k hk
    obtain ⟨hne, hchars⟩ := name_chars hk
    generalize hname : (line.dropWhile isBlank).takeWhile isWordChar = name at hne hchars
    generalize hrest : (line.dropWhile isBlank).dropWhile isWordChar = rest
    have hsplit : line.dropWhile isBlank = name ++ rest := by
      rw [← hname, ← hrest, List.takeWhile_append_dropWhile]
    obtain ⟨c, cs, rfl⟩ := List.exists_cons_of_ne_nil hne
    have hspace : isWhitespace c = false := (isAlpha_facts (hchars c List.mem_cons_self)).2.2.1
    have hblanks : ∀ d ∈ line.takeWhile isBlank, isWhitespace d = true := fun d hd =>
      (isBlank_facts (List.mem_takeWhile_imp hd)).1
    have hstart : trimStart line = c :: cs ++ rest := by
      have hline : line = line.takeWhile isBlank ++ (c :: cs ++ rest) := by
        rw [← hsplit, List.takeWhile_append_dropWhile]
      unfold trimStart
      rw [hline, List.dropWhile_append_of_pos hblanks, List.cons_append,
        List.dropWhile_cons_of_neg (by simp [hspace])]
    have hstop : rest.takeWhile isNameChar = [] := by
      cases rest with
      | nil => rfl
      | cons d ds =>
        refine List.takeWhile_cons_of_neg fun hd => ?_
        have hword : isWordChar d = false := by
          have hnot := List.head?_dropWhile_not isWordChar (line.dropWhile isBlank)
          rw [hrest] at hnot
          exact hnot
        rw [isWordChar_of_isNameChar hd] at hword
        cases hword
    have hnames : ∀ d ∈ c :: cs, isNameChar d = true :=
      fun d hd => (isAlpha_facts (hchars d hd)).2.1
    unfold firstWord
    rw [hstart, List.takeWhile_append_of_pos hnames, hstop, List.append_nil]
  unfold readInclude readLine at h
  dsimp only at h
  split at h
  · next name value' hsetting =>
    split at hsetting
    · cases hsetting
    · split at hsetting
      · split at hsetting
        · cases hsetting
        · split at hsetting
          · obtain ⟨rfl, -⟩ := Line.setting.inj hsetting
            obtain ⟨k', hk', htaken⟩ := Option.bind_eq_some_iff.mp h
            split at htaken
            · cases htaken
            · obtain ⟨rfl, -⟩ := Prod.mk.inj (Option.some.inj htaken)
              rw [hfirst k' hk', hk']
          · cases hsetting
      · cases hsetting
  · cases h

end Postgres
