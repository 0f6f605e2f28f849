import PgAgent.Library.ConfInclude

/-!
# Include directives, as the preflight reads them

The preflight looks for include directives in `postgresql.conf` with a reader of its own, which cuts
a line at its first `#` outside quotes and takes words apart. PostgreSQL has a lexer. The two agree
on the lines that people write, and on a few others.

* `parseIncludeDirective_text` --- an include line as it is written;
* `parseIncludeDirective_eq_readInclude_iff` --- the lines on which they agree;
* `directives_of_plain` --- the directives of a text.
-/

namespace PgAgent
namespace Preflight

open Rust Postgres

/-- `strip_comment`: everything before the first `#` that is not in quotes. -/
def stripComment (inQuote : Bool) : List Char → List Char
  | [] => []
  | c :: cs =>
    if c = '\'' then c :: stripComment (!inQuote) cs
    else if c = '#' ∧ inQuote = false then []
    else c :: stripComment inQuote cs

/-- `parse_include_directive`. -/
def parseIncludeDirective (line : List Char) : Option (IncludeKey × List Char) :=
  let line := trim (stripComment false line)
  let key := line.takeWhile isNameChar
  let rest := line.dropWhile isNameChar
  if rest = [] then none
  else
    (IncludeKey.ofName key).bind fun k =>
      let rest := trimStart rest
      let rest := trimStart (
        match rest with
        | '=' :: cs => cs
        | cs => cs)
      let value : Option (List Char) :=
        match rest with
        | '\'' :: quoted => (splitOnce '\'' quoted).map Prod.fst
        | bare => (splitWhitespace bare).head?
      value.bind fun v => if v = [] then none else some (k, v)

/-! ## Comments -/

section Comment

variable {s t : List Char} {q : Bool}

theorem stripComment_append (h : ∀ c ∈ s, c ≠ '\'' ∧ c ≠ '#') (t : List Char) :
    stripComment q (s ++ t) = s ++ stripComment q t := by
  induction s with
  | nil => rfl
  | cons c s ih =>
    obtain ⟨hquote, hhash⟩ := h c List.mem_cons_self
    rw [List.cons_append, stripComment, if_neg hquote, if_neg fun hcut => hhash hcut.1,
      ih fun d hd => h d (List.mem_cons_of_mem c hd), List.cons_append]

/-- In quotes nothing is cut. -/
theorem stripComment_quoted (h : '\'' ∉ s) (t : List Char) :
    stripComment true (s ++ '\'' :: t) = s ++ '\'' :: stripComment false t := by
  induction s with
  | nil => rfl
  | cons c s ih =>
    have hc : c ≠ '\'' := fun hc => h (hc ▸ List.mem_cons_self)
    rw [List.cons_append, stripComment, if_neg hc, if_neg fun hcut => Bool.noConfusion hcut.2,
      ih fun hmem => h (List.mem_cons_of_mem c hmem), List.cons_append]

/-- A carriage return at the end makes no difference. -/
theorem trim_stripComment_return (q : Bool) (s : List Char) :
    trim (stripComment q (s ++ ['\r'])) = trim (stripComment q s) := by
  have hcases : ∀ (q : Bool) (s : List Char), stripComment q (s ++ ['\r']) = stripComment q s ∨
      stripComment q (s ++ ['\r']) = stripComment q s ++ ['\r'] := by
    intro q s
    induction s generalizing q with
    | nil => exact Or.inr rfl
    | cons c s ih =>
      rw [List.cons_append, stripComment, stripComment]
      split
      · rcases ih (!q) with h | h
        · exact Or.inl (by rw [h])
        · exact Or.inr (by rw [h, List.cons_append])
      · split
        · exact Or.inl rfl
        · rcases ih q with h | h
          · exact Or.inl (by rw [h])
          · exact Or.inr (by rw [h, List.cons_append])
  rcases hcases q s with h | h
  · rw [h]
  · rw [h]
    refine trim_append_right _ fun c hc => ?_
    rw [List.mem_singleton.mp hc]
    decide

theorem parseIncludeDirective_return (line : List Char) :
    parseIncludeDirective (line ++ ['\r']) = parseIncludeDirective line := by
  unfold parseIncludeDirective
  rw [trim_stripComment_return]

/-- The first character is kept or cut off. -/
theorem takeWhile_stripComment {p : Char → Bool} (h : t.takeWhile p = []) :
    (stripComment q t).takeWhile p = [] := by
  cases t with
  | nil => rfl
  | cons c t =>
    have hc : ¬ p c = true := by
      intro hc
      rw [List.takeWhile_cons_of_pos hc] at h
      cases h
    rw [stripComment]
    split
    · exact List.takeWhile_cons_of_neg hc
    · split
      · rfl
      · exact List.takeWhile_cons_of_neg hc

theorem head?_of_stripComment {c : Char} (h : (stripComment q t).head? = some c) :
    t.head? = some c := by
  cases t with
  | nil => exact h
  | cons d t =>
    rw [stripComment] at h
    split at h
    · exact h
    · split at h
      · cases h
      · exact h

end Comment

/-! ## The first word -/

theorem takeWhile_of_prefix {p : Char → Bool} {a b : List Char} (h : (a ++ b).takeWhile p = []) :
    a.takeWhile p = [] := by
  cases a with
  | nil => rfl
  | cons c a =>
    refine List.takeWhile_cons_of_neg fun hc => ?_
    rw [List.cons_append, List.takeWhile_cons_of_pos hc] at h
    cases h

theorem isWhitespace_of_isNameChar {c : Char} (h : isNameChar c = true) :
    isWhitespace c = false ∧ c ≠ '\'' ∧ c ≠ '#' := by
  simp only [isNameChar, Char.isAlphanum, Bool.or_eq_true, beq_iff_eq] at h
  rcases h with (h | h) | h
  · obtain ⟨-, -, hspace, hhash, hquote, -⟩ := isAlpha_facts (Or.inl h)
    exact ⟨hspace, hquote, hhash⟩
  · obtain ⟨hspace, hhash, -, hquote⟩ := isWhitespace_of_isDigit h
    exact ⟨hspace, hquote, hhash⟩
  · obtain ⟨-, -, hspace, hhash, hquote, -⟩ := isAlpha_facts (Or.inr h)
    exact ⟨hspace, hquote, hhash⟩

theorem isBareChar_facts {c : Char} (h : isBareChar c = true) : c ≠ '\'' ∧ c ≠ '#' := by
  constructor
  all_goals
    rintro rfl
    cases h

/-- The key of the reader is the first word of the line. -/
theorem takeWhile_trim_stripComment (line : List Char) :
    (trim (stripComment false line)).takeWhile isNameChar = firstWord line := by
  unfold firstWord
  have hline : line = line.takeWhile isWhitespace ++ trimStart line :=
    List.takeWhile_append_dropWhile.symm
  have hspaces : ∀ c ∈ line.takeWhile isWhitespace, isWhitespace c = true := fun c hc =>
    List.mem_takeWhile_imp hc
  have hstart : ∀ c, (trimStart line).head? = some c → isWhitespace c = false := by
    intro c hc
    have hnot := List.head?_dropWhile_not isWhitespace line
    unfold trimStart at hc
    rw [hc] at hnot
    exact hnot
  generalize line.takeWhile isWhitespace = spaces at hline hspaces
  generalize trimStart line = rest at hline hstart
  subst hline
  generalize hword : rest.takeWhile isNameChar = word
  generalize htail : rest.dropWhile isNameChar = tail
  have hrest : rest = word ++ tail := by
    rw [← hword, ← htail, List.takeWhile_append_dropWhile]
  have hchars : ∀ c ∈ word, isNameChar c = true := fun c hc => by
    rw [← hword] at hc
    exact List.mem_takeWhile_imp hc
  have hstop : tail.takeWhile isNameChar = [] := by
    rw [← htail]
    cases hdrop : rest.dropWhile isNameChar with
    | nil => rfl
    | cons d ds =>
      have hnot := List.head?_dropWhile_not isNameChar rest
      rw [hdrop] at hnot
      exact List.takeWhile_cons_of_neg (by simp [show isNameChar d = false from hnot])
  have hstrip : stripComment false (spaces ++ rest) =
      spaces ++ (word ++ stripComment false tail) := by
    rw [hrest, stripComment_append, stripComment_append]
    · exact fun c hc => (isWhitespace_of_isNameChar (hchars c hc)).2
    · intro c hc
      constructor
      · rintro rfl
        exact absurd (hspaces _ hc) (by decide)
      · rintro rfl
        exact absurd (hspaces _ hc) (by decide)
  rw [hstrip, trim_append hspaces]
  have hstop' : (stripComment false tail).takeWhile isNameChar = [] := takeWhile_stripComment hstop
  have hhead : ∀ c, (word ++ stripComment false tail).head? = some c →
      isWhitespace c = false := by
    intro c hc
    cases word with
    | cons d ds =>
      obtain rfl := Option.some.inj hc
      exact (isWhitespace_of_isNameChar (hchars d List.mem_cons_self)).1
    | nil =>
      refine hstart c ?_
      rw [hrest, List.nil_append]
      exact head?_of_stripComment hc
  obtain ⟨front, back, heq, hfront, hback⟩ := exists_eq_trim (word ++ stripComment false tail)
  generalize trim (word ++ stripComment false tail) = trimmed at heq
  have hnil : front = [] := by
    cases front with
    | nil => rfl
    | cons d ds =>
      have hspace := hhead d (by rw [heq]; rfl)
      rw [hfront d List.mem_cons_self] at hspace
      cases hspace
  rw [hnil, List.nil_append] at heq
  rcases List.append_eq_append_iff.mp heq with ⟨a, htrimmed, htail'⟩ | ⟨a, hword', hback'⟩
  · rw [htail'] at hstop'
    rw [htrimmed, List.takeWhile_append_of_pos hchars, takeWhile_of_prefix hstop', List.append_nil]
  · -- nothing of the word is white space
    have ha : a = [] := by
      cases a with
      | nil => rfl
      | cons d ds =>
        have hspace := (isWhitespace_of_isNameChar (hchars d (by rw [hword']; simp))).1
        rw [hback d (by rw [hback']; simp)] at hspace
        cases hspace
    rw [ha, List.append_nil] at hword'
    rw [← hword', List.takeWhile_eq_self_iff.mpr hchars]

/-! ## Include lines -/

section Written

variable (l : IncludeLine)

/-- What is left of an include line without its comment and the blanks around it. -/
def core : List Char := l.name ++ (l.between ++ l.written)

theorem between_chars : ∀ c ∈ l.between, c ≠ '\'' ∧ c ≠ '#' := by
  have hfront : ∀ c ∈ l.front, c ≠ '\'' ∧ c ≠ '#' := fun c hc =>
    ⟨(isBlank_facts (l.front_blank c hc)).2.2.2.2.1,
      (isBlank_facts (l.front_blank c hc)).2.2.2.1⟩
  intro c hc
  unfold IncludeLine.between at hc
  split at hc
  · rcases List.mem_append.mp hc with hc | hc
    · exact hfront c hc
    · rcases List.mem_cons.mp hc with rfl | hc
      · decide
      · have hblank := isBlank_facts (l.back_blank c hc)
        exact ⟨hblank.2.2.2.2.1, hblank.2.2.2.1⟩
  · exact hfront c hc

theorem stripComment_written : stripComment false (l.written ++ l.tail) =
    l.written ++ stripComment false l.tail := by
  unfold IncludeLine.written
  cases hquoted : l.quoted with
  | true =>
    obtain ⟨hquote, -, -⟩ := l.quoted_form hquoted
    rw [if_pos rfl, List.cons_append, stripComment, if_pos rfl, List.append_assoc,
      List.singleton_append]
    exact congrArg _ (stripComment_quoted hquote l.tail |>.trans (by simp))
  | false =>
    obtain ⟨-, hchars, -, -⟩ := l.bare_form hquoted
    rw [if_neg Bool.false_ne_true]
    exact stripComment_append (fun c hc => isBareChar_facts (hchars c hc)) l.tail

theorem stripComment_tail : ∀ c ∈ stripComment false l.tail, isWhitespace c = true := by
  have htail := l.tail_form
  unfold atEnd at htail
  have hsplit : l.tail = l.tail.takeWhile isBlank ++ l.tail.dropWhile isBlank :=
    List.takeWhile_append_dropWhile.symm
  have hblanks : ∀ c ∈ l.tail.takeWhile isBlank, isBlank c = true := fun c hc =>
    List.mem_takeWhile_imp hc
  generalize l.tail.takeWhile isBlank = blanks at hsplit hblanks
  generalize l.tail.dropWhile isBlank = rest at hsplit htail
  have hcut : stripComment false rest = [] := by
    cases rest with
    | nil => rfl
    | cons c cs =>
      obtain rfl := beq_iff_eq.mp htail
      rfl
  intro c hc
  rw [hsplit, stripComment_append (fun d hd => ⟨(isBlank_facts (hblanks d hd)).2.2.2.2.1,
    (isBlank_facts (hblanks d hd)).2.2.2.1⟩), hcut, List.append_nil] at hc
  exact (isBlank_facts (hblanks c hc)).1

theorem name_facts : ∀ c ∈ l.name, isNameChar c = true := fun c hc =>
  (isAlpha_facts ((name_chars l.name_key).2 c hc)).2.1

theorem getLast?_written : ∃ c, l.written.getLast? = some c ∧ isWhitespace c = false := by
  unfold IncludeLine.written
  cases hquoted : l.quoted with
  | true =>
    refine ⟨'\'', ?_, by decide⟩
    rw [if_pos rfl, ← List.cons_append]
    exact List.getLast?_concat
  | false =>
    obtain ⟨⟨c, cs, hvalue, -⟩, hchars, -, -⟩ := l.bare_form hquoted
    have hne : l.value ≠ [] := by
      rw [hvalue]
      exact List.cons_ne_nil c cs
    rw [if_neg Bool.false_ne_true]
    exact ⟨_, List.getLast?_eq_getLast_of_ne_nil hne,
      isWhitespace_of_isBareChar (hchars _ (List.getLast_mem hne))⟩

theorem trim_stripComment_text : trim (stripComment false l.text) = core l := by
  have hindent : ∀ c ∈ l.indent, c ≠ '\'' ∧ c ≠ '#' := fun c hc =>
    ⟨(isBlank_facts (l.indent_blank c hc)).2.2.2.2.1,
      (isBlank_facts (l.indent_blank c hc)).2.2.2.1⟩
  have hstrip : stripComment false l.text = l.indent ++ (core l ++ stripComment false l.tail) := by
    unfold IncludeLine.text core
    rw [stripComment_append hindent,
      stripComment_append fun c hc => (isWhitespace_of_isNameChar (name_facts l c hc)).2,
      stripComment_append (between_chars l), stripComment_written]
    simp only [List.append_assoc]
  rw [hstrip, trim_append fun c hc => (isBlank_facts (l.indent_blank c hc)).1,
    trim_append_right _ (stripComment_tail l)]
  refine trim_eq_self (fun c hc => ?_) fun c hc => ?_
  · obtain ⟨d, ds, hname⟩ := List.exists_cons_of_ne_nil (name_chars l.name_key).1
    unfold core at hc
    rw [hname] at hc
    obtain rfl := Option.some.inj hc
    exact (isWhitespace_of_isNameChar (name_facts l d (by rw [hname]; exact List.mem_cons_self))).1
  · obtain ⟨d, hlast, hspace⟩ := getLast?_written l
    unfold core at hc
    rw [List.getLast?_append, List.getLast?_append, hlast] at hc
    obtain rfl := Option.some.inj hc
    exact hspace

theorem dropWhile_space {blanks rest : List Char} {c : Char}
    (h : ∀ c ∈ blanks, isBlank c = true)
    (hc : isWhitespace c = false) : trimStart (blanks ++ c :: rest) = c :: rest := by
  unfold trimStart
  rw [List.dropWhile_append_of_pos fun d hd => (isBlank_facts (h d hd)).1,
    List.dropWhile_cons_of_neg (by simp [hc])]

/-- The sign and the blanks around it are passed over. -/
theorem trimStart_between : trimStart (
    match trimStart (l.between ++ l.written) with
    | '=' :: cs => cs
    | cs => cs) = l.written := by
  obtain ⟨w, ws, hwritten, -, hspace, hsign, -, -, -⟩ := l.exists_written
  rw [hwritten]
  unfold IncludeLine.between
  cases l.sign with
  | true =>
    rw [if_pos rfl, List.append_assoc, List.cons_append, dropWhile_space l.front_blank (by decide)]
    exact dropWhile_space l.back_blank hspace
  | false =>
    rw [if_neg Bool.false_ne_true, dropWhile_space l.front_blank hspace]
    split
    · next cs heq => exact absurd (List.cons.inj heq).1 hsign
    · exact List.dropWhile_cons_of_neg (by simp [hspace])

/-- What follows the name is no part of it. -/
theorem exists_between_written :
    ∃ c cs, l.between ++ l.written = c :: cs ∧ isNameChar c = false := by
  obtain ⟨w, ws, hwritten, -⟩ := l.exists_written
  obtain ⟨b, bs, hbetween, hb⟩ := l.exists_between
  cases hfront : l.between ++ l.written with
  | nil =>
    rw [hwritten] at hfront
    exact absurd (List.append_eq_nil_iff.mp hfront).2 (List.cons_ne_nil w ws)
  | cons c cs =>
    rw [← List.append_assoc, hfront, List.cons_append] at hbetween
    obtain ⟨rfl, -⟩ := List.cons.inj hbetween
    refine ⟨c, cs, rfl, Bool.eq_false_iff.mpr fun hname => ?_⟩
    rw [isWordChar_of_isNameChar hname] at hb
    cases hb

/-- The value of a line as it is written. -/
theorem value_written : (
    match l.written with
    | '\'' :: quoted => (splitOnce '\'' quoted).map Prod.fst
    | bare => (splitWhitespace bare).head?) = some l.value := by
  obtain ⟨w, ws, hwritten, -, -, -, -, -, hbare⟩ := l.exists_written
  cases hquoted : l.quoted with
  | true =>
    obtain ⟨hquote, -, -⟩ := l.quoted_form hquoted
    have hsplit : splitOnce '\'' (l.value ++ ['\'']) = some (l.value, []) :=
      splitOnce_eq_some_iff.mpr ⟨rfl, hquote⟩
    unfold IncludeLine.written
    rw [hquoted, if_pos rfl]
    show (splitOnce '\'' (l.value ++ ['\''])).map Prod.fst = _
    rw [hsplit]
    rfl
  | false =>
    obtain ⟨-, hchars, -, -⟩ := l.bare_form hquoted
    have hvalue : l.written = l.value := by
      unfold IncludeLine.written
      rw [hquoted, if_neg Bool.false_ne_true]
    have hwords : splitWhitespace l.value = [l.value] := by
      refine splitWhitespace_word ?_ fun c hc => isWhitespace_of_isBareChar (hchars c hc)
      rw [← hvalue, hwritten]
      exact List.cons_ne_nil w ws
    split
    · next quoted heq =>
      rw [hwritten] at heq
      exact absurd (List.cons.inj heq).1 (hbare hquoted).2
    · rw [hvalue, hwords, List.head?_cons]

/-- An include line as it is written is read as one. -/
theorem parseIncludeDirective_text : parseIncludeDirective l.text = some (l.key, l.value) := by
  obtain ⟨b, bs, hrest, hb⟩ := exists_between_written l
  have hname : ∀ c ∈ l.name, isNameChar c = true := name_facts l
  have htake : (core l).takeWhile isNameChar = l.name := by
    unfold core
    rw [List.takeWhile_append_of_pos hname, hrest, List.takeWhile_cons_of_neg (by simp [hb]),
      List.append_nil]
  have hdrop : (core l).dropWhile isNameChar = l.between ++ l.written := by
    unfold core
    rw [List.dropWhile_append_of_pos hname, hrest, List.dropWhile_cons_of_neg (by simp [hb])]
  have hne : ¬ l.between ++ l.written = [] := by
    rw [hrest]
    exact List.cons_ne_nil b bs
  have hvalue : l.value ≠ [] := by
    intro hnil
    refine l.value_not_blank fun c hc => ?_
    rw [hnil] at hc
    cases hc
  unfold parseIncludeDirective
  dsimp only
  rw [trim_stripComment_text, htake, hdrop, if_neg hne, l.name_key, Option.bind_some,
    trimStart_between, value_written, Option.bind_some, if_neg hvalue]

end Written

/-! ## Lines that are read alike -/

/-- What stands behind the first word of a line, without the comment, the white space and the equals
sign. -/
def operand (line : List Char) : List Char :=
  trimStart (
    match trimStart ((trim (stripComment false line)).dropWhile isNameChar) with
    | '=' :: cs => cs
    | cs => cs)

/-- No file is named: there is nothing, or a quote that is not closed or encloses nothing. -/
def NoName (o : List Char) : Prop :=
  o = [] ∨ ∃ quoted, o = '\'' :: quoted ∧ ('\'' ∉ quoted ∨ quoted.head? = some '\'')

/-- The name of a file that stands there: what is in the first quotes, or the first word. -/
def Names (o v : List Char) : Prop :=
  v ≠ [] ∧ ((∃ rest, o = '\'' :: (v ++ '\'' :: rest) ∧ '\'' ∉ v) ∨
    o.head? ≠ some '\'' ∧ (splitWhitespace o).head? = some v)

/-- A line that both a reader of words and PostgreSQL understand: its first word is no key; or
PostgreSQL takes no file from it, and none is named; or PostgreSQL takes the name that stands
there. -/
def PlainLine (line : List Char) : Prop :=
  IncludeKey.ofName (firstWord line) = none ∨ readInclude line = none ∧
  NoName (operand line) ∨
    ∃ k v, readInclude line = some (k, v) ∧ Names (operand line) v

section Operand

variable {line o v : List Char} {k : IncludeKey}

/-- The value that the reader takes. -/
def operandValue (o : List Char) : Option (List Char) :=
  let value : Option (List Char) :=
    match o with
    | '\'' :: quoted => (splitOnce '\'' quoted).map Prod.fst
    | bare => (splitWhitespace bare).head?
  value.bind fun v => if v = [] then none else some v

theorem parseIncludeDirective_eq (line : List Char) : parseIncludeDirective line =
    (IncludeKey.ofName (firstWord line)).bind fun k =>
    (operandValue (operand line)).map (k, ·) := by
  unfold parseIncludeDirective operand operandValue
  dsimp only
  rw [takeWhile_trim_stripComment]
  generalize (trim (stripComment false line)).dropWhile isNameChar = rest
  by_cases hrest : rest = []
  · rw [if_pos hrest, hrest]
    cases IncludeKey.ofName (firstWord line) <;> rfl
  · rw [if_neg hrest]
    refine Option.bind_congr fun k _ => ?_
    rw [Option.map_bind]
    refine Option.bind_congr fun v _ => ?_
    rw [Function.comp_apply]
    split <;> rfl

theorem operandValue_eq_some_iff : operandValue o = some v ↔ Names o v := by
  have hvalue : ∀ value : Option (List Char),
      (value.bind fun v => if v = [] then none else some v) = some v ↔
        v ≠ [] ∧ value = some v := by
    intro value
    cases value with
    | none => simp
    | some u =>
      rw [Option.bind_some]
      split
      · next hnil => exact ⟨nofun, fun h => absurd (hnil ▸ (Option.some.inj h.2).symm) h.1⟩
      · next hne =>
        rw [Option.some.injEq]
        exact ⟨fun h => ⟨h ▸ hne, h⟩, fun h => h.2⟩
  unfold operandValue Names
  dsimp only
  rw [hvalue]
  refine and_congr_right fun _ => ?_
  split
  · next quoted =>
    have hhead : ¬ ('\'' :: quoted).head? ≠ some '\'' := fun h => h rfl
    rw [or_iff_left (fun h => hhead h.1), Option.map_eq_some_iff]
    constructor
    · rintro ⟨⟨a, b⟩, hsplit, rfl⟩
      obtain ⟨rfl, hnot⟩ := splitOnce_eq_some_iff.mp hsplit
      exact ⟨b, rfl, hnot⟩
    · rintro ⟨rest, heq, hnot⟩
      exact ⟨(v, rest), splitOnce_eq_some_iff.mpr ⟨(List.cons.inj heq).2, hnot⟩, rfl⟩
  · next hbare =>
    rw [or_iff_right]
    · refine (and_iff_right fun hhead => ?_).symm
      obtain ⟨quoted, rfl⟩ := List.head?_eq_some_iff.mp hhead
      exact hbare quoted rfl
    · rintro ⟨rest, rfl, -⟩
      exact hbare _ rfl

theorem not_names_of_noName (h : NoName o) : ¬ Names o v := by
  rintro ⟨hne, hcases⟩
  rcases h with rfl | ⟨quoted, rfl, hquoted⟩
  · rcases hcases with ⟨rest, heq, -⟩ | ⟨-, hword⟩
    · cases heq
    · cases hword
  · rcases hcases with ⟨rest, heq, hnot⟩ | ⟨hhead, -⟩
    · obtain rfl := (List.cons.inj heq).2
      rcases hquoted with hunclosed | hempty
      · exact hunclosed (by simp)
      · cases v with
        | nil => exact hne rfl
        | cons c cs =>
          obtain rfl := Option.some.inj hempty
          exact hnot List.mem_cons_self
    · exact hhead rfl

theorem noName_or_names (h : trimStart o = o) : NoName o ∨ ∃ v, Names o v := by
  cases o with
  | nil => exact Or.inl (Or.inl rfl)
  | cons c cs =>
    by_cases hc : c = '\''
    · subst hc
      by_cases hquoted : '\'' ∉ cs ∨ cs.head? = some '\''
      · exact Or.inl (Or.inr ⟨cs, rfl, hquoted⟩)
      · obtain ⟨hmem, hhead⟩ := not_or.mp hquoted
        obtain ⟨v, rest, rfl, hnot⟩ := List.eq_append_cons_of_mem (not_not.mp hmem)
        refine Or.inr ⟨v, ?_, Or.inl ⟨rest, rfl, hnot⟩⟩
        rintro rfl
        exact hhead rfl
    · -- the first word is not empty
      have hspace : isWhitespace c = false := by
        have hnot := List.head?_dropWhile_not isWhitespace (c :: cs)
        rw [trimStart] at h
        rw [h] at hnot
        exact hnot
      obtain ⟨w, hw⟩ := head?_splitWhitespace_cons hspace cs
      have hne : w ≠ [] := by
        have hfield := (List.mem_filter.mp (List.mem_of_mem_head? hw)).2
        simpa using hfield
      exact Or.inr ⟨w, hne, Or.inr ⟨by simpa using hc, hw⟩⟩

theorem operandValue_eq_none_iff (h : trimStart o = o) : operandValue o = none ↔ NoName o := by
  rw [Option.eq_none_iff_forall_ne_some]
  constructor
  · intro hnone
    refine (noName_or_names h).resolve_right ?_
    rintro ⟨v, hv⟩
    exact hnone v (operandValue_eq_some_iff.mpr hv)
  · exact fun hno v hv => not_names_of_noName hno (operandValue_eq_some_iff.mp hv)

theorem trimStart_operand (line : List Char) : trimStart (operand line) = operand line :=
  List.dropWhile_idempotent _ _

end Operand

/-- **The reader takes from a line what PostgreSQL takes from it** exactly if the line is plain. -/
theorem parseIncludeDirective_eq_readInclude_iff {line : List Char} :
    parseIncludeDirective line = readInclude line ↔ PlainLine line := by
  unfold PlainLine
  rw [parseIncludeDirective_eq]
  cases hread : readInclude line with
  | none =>
    cases hkey : IncludeKey.ofName (firstWord line) with
    | none => simp
    | some k =>
      simp [operandValue_eq_none_iff (trimStart_operand line)]
  | some d =>
    obtain ⟨k, v⟩ := d
    simp [firstWord_of_readInclude hread, ← operandValue_eq_some_iff]

theorem plainLine_text (l : IncludeLine) : PlainLine l.text := by
  rw [← parseIncludeDirective_eq_readInclude_iff, parseIncludeDirective_text, l.readInclude_text]

example : PlainLine "include 5".toList := by
  rw [← parseIncludeDirective_eq_readInclude_iff]
  decide

example : ¬ PlainLine "include_if_exists myrecovery.conf".toList := by
  rw [← parseIncludeDirective_eq_readInclude_iff]
  decide

/-! ## Texts -/

theorem parseIncludeDirective_chomp (line : List Char) :
    parseIncludeDirective (chomp (line ++ ['\n'])) = parseIncludeDirective line := by
  by_cases hreturn : line.getLast? = some '\r'
  · obtain ⟨front, rfl⟩ := List.getLast?_eq_some_iff.mp hreturn
    have hchomp : chomp (front ++ ['\r'] ++ ['\n']) = front := by
      unfold chomp
      rw [List.getLast?_concat, if_pos rfl, List.dropLast_concat]
      dsimp only
      rw [if_pos hreturn, List.dropLast_concat]
    rw [hchomp, parseIncludeDirective_return]
  · rw [chomp_newline hreturn]

/-- It makes no difference to the directives where lines are cut. -/
theorem filterMap_lines (text : List Char) :
    (lines text).filterMap parseIncludeDirective =
      (confLines text).filterMap parseIncludeDirective := by
  induction hlen : text.length using Nat.strong_induction_on generalizing text with
  | _ n ih =>
    cases hsplit : splitOnce '\n' text with
    | some parts =>
      obtain ⟨htext, hline⟩ := splitOnce_eq_some_iff.mp hsplit
      have hrest := ih parts.2.length (by rw [← hlen, htext]; simp; omega) parts.2 rfl
      unfold lines at hrest ⊢
      rw [htext, splitInclusive_append, splitInclusive_line hline, confLines_cons hline,
        List.singleton_append, List.map_cons, List.filterMap_cons, List.filterMap_cons,
        parseIncludeDirective_chomp, hrest]
    | none =>
      -- the last line, without a line break
      have hline : '\n' ∉ text := by
        intro hmem
        obtain ⟨a, b, htext, hnot⟩ := List.eq_append_cons_of_mem hmem
        rw [splitOnce_eq_some_iff.mpr ⟨htext, hnot⟩] at hsplit
        cases hsplit
      have hconf : confLines text = [text] := by
        unfold confLines
        refine List.splitOnP_eq_singleton fun c hc => ?_
        exact Bool.eq_false_iff.mpr fun h => hline (beq_iff_eq.mp h ▸ hc)
      have hchomp : chomp text = text := by
        unfold chomp
        exact if_neg fun hlast => hline (List.mem_of_getLast? hlast)
      by_cases hnil : text = []
      · subst hnil
        rfl
      · unfold lines
        rw [hconf, splitInclusive_eq_singleton hnil hline, List.map_singleton, hchomp]

/-- The directives of a text whose lines are plain. -/
theorem directives_of_plain {text : List Char} (h : ∀ line ∈ confLines text, PlainLine line) :
    (lines text).filterMap parseIncludeDirective = (confLines text).filterMap readInclude := by
  rw [filterMap_lines]
  exact List.filterMap_congr fun line hline =>
    parseIncludeDirective_eq_readInclude_iff.mpr (h line hline)

end Preflight
end PgAgent
