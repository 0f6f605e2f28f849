import Mathlib.Data.List.Basic
import Mathlib.Data.String.Basic

/-!
# Command lines with directives

A command line that a configuration holds has directives in it, a `%` and a letter each.  The
program that runs it puts the values in, and a shell splits the result into words.  Neither of them
is ours, so both are parameters here, with what is documented of them as hypotheses; `expand` and
`shellWords` are functions that satisfy them.

A value that is empty is put in as a pair of quotes, so that it stays a word.

* `Shell.Splits`, `Filler.Fills` --- what is documented;
* `Shell.Splits.words_fill` --- a template's line is split into what its words and directives stand
  for.
-/

namespace CommandLine

/-- The shell takes the character as it stands. -/
def isPlain (c : Char) : Bool := c.isAlphanum || ['.', '_', '-', '/', ':', '@', '+', ','].contains c

/-- What is put in for a value. -/
def shown (value : List Char) : List Char := if value = [] then ['"', '"'] else value

/-- The words of a line, if the shell takes it for one command. -/
abbrev Shell := List Char → Option (List (List Char))

/-- A line with the values of its directives put in. -/
abbrev Filler := (Char → Option (List Char)) → List Char → List Char

/-- Blanks separate the words of a line: a word whose characters all stand for themselves is as it
is written, and a pair of quotes is an empty word. -/
structure Shell.Splits (shell : Shell) : Prop where
  words : ∀ values : List (List Char), (∀ v ∈ values, ∀ c ∈ v, isPlain c = true) →
    shell ([' '].intercalate (values.map shown)) = some values

/-- Every directive that has a value is replaced by it, and the text between stays.  Nothing is
asked for `%%`, which stands for a single one. -/
structure Filler.Fills (fill : Filler) : Prop where
  nil : ∀ value, fill value [] = []
  text : ∀ value (c : Char) s, c ≠ '%' → fill value (c :: s) = c :: fill value s
  directive : ∀ value (letter : Char) v s, letter ≠ '%' → value letter = some v →
    fill value ('%' :: letter :: s) = v ++ fill value s

/-- A word of a template. -/
inductive Part where
  | text (word : List Char)
  | directive (letter : Char)
  deriving DecidableEq, Repr

namespace Part

def spelled : Part → List Char
  | text word => word
  | directive letter => ['%', letter]

/-- The word that the part stands for. -/
def word (value : Char → List Char) : Part → List Char
  | text w => w
  | directive letter => value letter

end Part

/-! ## Templates -/

section Template

variable {fill : Filler} {shell : Shell} {value : Char → List Char} {given : Char → Bool}
  {parts : List Part}

/-- The values that are put in. -/
def putIn (given : Char → Bool) (value : Char → List Char) (letter : Char) :
    Option (List Char) :=
  if given letter then some (shown (value letter)) else none

/-- The texts of a template are plain and not empty, and its directives are given. -/
def Given (given : Char → Bool) : Part → Prop
  | .text word => word ≠ [] ∧ ∀ c ∈ word, isPlain c = true
  | .directive letter => letter ≠ '%' ∧ given letter = true

/-- A text without a directive stays. -/
theorem Filler.Fills.append_text (hfill : fill.Fills) {puts : Char → Option (List Char)}
    {w : List Char} (h : '%' ∉ w) (s : List Char) : fill puts (w ++ s) = w ++ fill puts s := by
  induction w with
  | nil => rfl
  | cons c w ih =>
    rw [List.mem_cons, not_or] at h
    rw [List.cons_append, hfill.text _ _ _ (Ne.symm h.1), ih h.2, List.cons_append]

theorem Filler.Fills.part (hfill : fill.Fills) {p : Part} (hp : Given given p) (s : List Char) :
    fill (putIn given value) (p.spelled ++ s) =
      shown (p.word value) ++ fill (putIn given value) s := by
  cases p with
  | text word =>
    obtain ⟨hne, hplain⟩ := hp
    have hpercent : '%' ∉ word := fun h => absurd (hplain _ h) (by decide)
    have hshown : shown word = word := if_neg hne
    exact (hfill.append_text hpercent s).trans (by rw [Part.word, hshown])
  | directive letter => exact hfill.directive _ _ _ s hp.1 (if_pos hp.2)

theorem Filler.Fills.intercalate (hfill : fill.Fills) (h : ∀ p ∈ parts, Given given p) :
    fill (putIn given value) ([' '].intercalate (parts.map Part.spelled)) =
      [' '].intercalate (parts.map fun p => shown (p.word value)) := by
  induction parts with
  | nil => exact hfill.nil _
  | cons p parts ih =>
    have hp := h p List.mem_cons_self
    have ih := ih fun q hq => h q (List.mem_cons_of_mem p hq)
    cases parts with
    | nil =>
      have hpart : fill (putIn given value) (p.spelled ++ []) =
          shown (p.word value) ++ fill (putIn given value) [] := hfill.part hp []
      rw [List.append_nil, hfill.nil, List.append_nil] at hpart
      rw [List.map_singleton, List.map_singleton, List.intercalate_singleton,
        List.intercalate_singleton, hpart]
    | cons q parts =>
      rw [List.map_cons, List.map_cons, List.intercalate_cons_cons, List.append_assoc,
        hfill.part hp, List.singleton_append, hfill.text _ _ _ (by decide), ← List.map_cons, ih,
        List.map_cons (l := q :: parts), List.map_cons, List.intercalate_cons_cons,
        List.append_assoc, List.singleton_append]

/-- **A template's line is split into what its parts stand for.** -/
theorem Shell.Splits.words_fill (hshell : shell.Splits) (hfill : fill.Fills)
    (h : ∀ p ∈ parts, Given given p)
    (hplain : ∀ letter, given letter = true → ∀ c ∈ value letter, isPlain c = true) :
    shell (fill (putIn given value) ([' '].intercalate (parts.map Part.spelled))) =
      some (parts.map (Part.word value)) := by
  have hmap : (parts.map fun p => shown (p.word value)) =
      (parts.map (Part.word value)).map shown := by
    rw [List.map_map]
    rfl
  rw [hfill.intercalate h, hmap]
  refine hshell.words _ fun v hv => ?_
  obtain ⟨p, hp, rfl⟩ := List.mem_map.mp hv
  cases p with
  | text word => exact (h _ hp).2
  | directive letter => exact hplain letter (h _ hp).2

end Template

/-! ## A shell

For the characters that stand for themselves, blanks and double quotes; a line with any other
character is not split. -/

/-- The rest of a line is split, with the word so far in hand, inside quotes or outside. -/
def split (quoted : Bool) (word : Option (List Char)) : Shell
  | [] => if quoted then none else some word.toList
  | c :: cs =>
      if c = '"' then split (!quoted) (some (word.getD [])) cs
      else if quoted then
        if isPlain c || c == ' ' then split true (some (word.getD [] ++ [c])) cs else none
      else if c = ' ' then (split false none cs).map fun words => word.toList ++ words
      else if isPlain c then split false (some (word.getD [] ++ [c])) cs
      else none

def shellWords : Shell := split false none

section Words

variable {w v s : List Char}

theorem isPlain_facts {c : Char} (h : isPlain c = true) : c ≠ '"' ∧ c ≠ ' ' := by
  constructor
  · rintro rfl
    exact absurd h (by decide)
  · rintro rfl
    exact absurd h (by decide)

theorem split_plain {c : Char} (h : isPlain c = true) (word : Option (List Char)) :
    split false word (c :: s) = split false (some (word.getD [] ++ [c])) s := by
  obtain ⟨hquote, hblank⟩ := isPlain_facts h
  conv_lhs => unfold split
  rw [if_neg hquote, if_neg Bool.false_ne_true, if_neg hblank, if_pos h]

/-- Plain characters go to the word in hand. -/
theorem split_append_plain (h : ∀ c ∈ v, isPlain c = true) :
    split false (some w) (v ++ s) = split false (some (w ++ v)) s := by
  induction v generalizing w with
  | nil => rw [List.nil_append, List.append_nil]
  | cons c v ih =>
    rw [List.cons_append, split_plain (h c List.mem_cons_self), Option.getD_some,
      ih fun d hd => h d (List.mem_cons_of_mem c hd), List.append_assoc, List.singleton_append]

/-- A value that is put in becomes the word in hand, an empty one too. -/
theorem split_shown (h : ∀ c ∈ v, isPlain c = true) :
    split false none (shown v ++ s) = split false (some v) s := by
  unfold shown
  cases v with
  | nil =>
    rw [if_pos rfl]
    rfl
  | cons c v =>
    rw [if_neg (List.cons_ne_nil c v), List.cons_append, split_plain (h c List.mem_cons_self),
      Option.getD_none, List.nil_append,
      split_append_plain fun d hd => h d (List.mem_cons_of_mem c hd), List.singleton_append]

theorem split_blank (w : Option (List Char)) :
    split false w (' ' :: s) = (split false none s).map fun words => w.toList ++ words := by
  conv_lhs => unfold split
  rw [if_neg (by decide), if_neg Bool.false_ne_true, if_pos rfl]

theorem shellWords_splits : Shell.Splits shellWords where
  words values h := by
    unfold shellWords
    induction values with
    | nil => rfl
    | cons v values ih =>
      have hv := h v List.mem_cons_self
      have ih := ih fun u hu => h u (List.mem_cons_of_mem v hu)
      cases values with
      | nil =>
        rw [List.map_singleton, List.intercalate_singleton, ← List.append_nil (shown v),
          split_shown hv]
        rfl
      | cons u values =>
        rw [List.map_cons, List.map_cons, List.intercalate_cons_cons, List.append_assoc,
          List.singleton_append, split_shown hv, split_blank, ← List.map_cons, ih]
        rfl

end Words

/-! ## A filler -/

/-- A directive that has no value stays. -/
def expand (value : Char → Option (List Char)) : List Char → List Char
  | [] => []
  | [c] => [c]
  | c :: d :: cs =>
      if c = '%' then
        if d = '%' then '%' :: expand value cs
        else match value d with
          | some v => v ++ expand value cs
          | none => '%' :: d :: expand value cs
      else c :: expand value (d :: cs)

theorem expand_fills : Filler.Fills expand where
  nil _ := rfl
  text value c s h := by
    cases s with
    | nil => rfl
    | cons d s =>
      conv_lhs => unfold expand
      rw [if_neg h]
  directive value letter v s hletter h := by
    conv_lhs => unfold expand
    rw [if_pos rfl, if_neg hletter, h]

end CommandLine
