import Mathlib

/-!
# Texts, as the standard library cuts them

A `str` is read here as the list of its characters. The functions are those of `core::str` under
their own names; each has one lemma that says what it returns, and callers use that lemma.

* `isWhitespace`, `trim`, `splitWhitespace` --- the white space of Unicode;
* `splitOnce` --- the two sides of the first separator;
* `lines` --- the lines of a text, cut out of the parts of `splitInclusive`: a text cut behind a
  line break has the parts of its two sides, `splitInclusive_append`;
* `unlines` --- a text written line by line, and `lines_unlines`, that its lines are these.
-/

namespace Rust

/-- `char::is_whitespace`: the characters with the property `White_Space`. -/
def isWhitespace (c : Char) : Bool :=
  let n := c.toNat
  (9 ≤ n && n ≤ 13) || n == 0x20 || n == 0x85 || n == 0xA0 || n == 0x1680 ||
    (0x2000 ≤ n && n ≤ 0x200A) || n == 0x2028 || n == 0x2029 || n == 0x202F || n == 0x205F ||
    n == 0x3000

/-- `str::trim`. -/
def trim (s : List Char) : List Char := (s.dropWhile isWhitespace).rdropWhile isWhitespace

/-- `str::len`: the length in bytes. -/
def len (s : List Char) : ℕ := (s.map Char.utf8Size).sum

/-- `str::split_whitespace`. -/
def splitWhitespace (s : List Char) : List (List Char) :=
  (s.splitOnP isWhitespace).filter fun field => !field.isEmpty

/-- `str::split_once`, with a character as the separator. -/
def splitOnce (d : Char) : List Char → Option (List Char × List Char)
  | [] => none
  | c :: cs => if c = d then some ([], cs) else (splitOnce d cs).map fun p => (c :: p.1, p.2)

/-- `str::split_inclusive('\n')`: every part but the last ends in a line break. -/
def splitInclusive : List Char → List (List Char)
  | [] => []
  | c :: cs =>
    if c = '\n' then ['\n'] :: splitInclusive cs
    else
      match splitInclusive cs with
      | [] => [[c]]
      | part :: parts => (c :: part) :: parts

/-- What `str::lines` does to one part: `\n` or `\r\n` is taken off its end. -/
def chomp (part : List Char) : List Char :=
  if part.getLast? = some '\n' then
    let line := part.dropLast
    if line.getLast? = some '\r' then line.dropLast else line
  else part

/-- `str::lines`. -/
def lines (s : List Char) : List (List Char) := (splitInclusive s).map chomp

/-- `str::trim_start`. -/
def trimStart (s : List Char) : List Char := s.dropWhile isWhitespace

/-- `&s[..s.find(pattern)?]`: the text in front of the first place where the pattern stands. -/
def before (pattern : List Char) : List Char → Option (List Char)
  | [] => if pattern = [] then some [] else none
  | c :: s => if pattern.isPrefixOf (c :: s) then some []
      else (before pattern s).map fun t => c :: t

/-- A text written with one `writeln!` for each line. -/
def unlines (ls : List (List Char)) : List Char := ls.flatMap fun line => line ++ ['\n']

/-- A digit is neither white space nor a sign of punctuation. -/
theorem isWhitespace_of_isDigit {c : Char} (h : c.isDigit = true) :
    isWhitespace c = false ∧ c ≠ '#' ∧ c ≠ '=' ∧ c ≠ '\'' := by
  have hrange : 48 ≤ c.toNat ∧ c.toNat ≤ 57 := by
    simp only [Char.isDigit, Bool.and_eq_true, decide_eq_true_eq, ge_iff_le,
      UInt32.le_iff_toNat_le] at h
    exact h
  refine ⟨?_, ?_, ?_, ?_⟩
  · simp only [isWhitespace, Bool.or_eq_false_iff, Bool.and_eq_false_iff, decide_eq_false_iff_not,
      beq_eq_false_iff_ne]
    omega
  all_goals
    rintro rfl
    cases h

theorem len_append (s t : List Char) : len (s ++ t) = len s + len t := by
  unfold len
  rw [List.map_append, List.sum_append]

theorem len_eq_zero_iff {s : List Char} : len s = 0 ↔ s = [] := by
  constructor
  · intro h
    cases s with
    | nil => rfl
    | cons c s =>
      have hpos := c.utf8Size_pos
      have hsum : c.utf8Size + len s = 0 := h
      omega
  · rintro rfl
    rfl

/-! ## White space -/

section Trim

variable {s t : List Char}

/-- A text that neither begins nor ends with white space is left alone. -/
theorem trim_eq_self (hfirst : ∀ c, s.head? = some c → isWhitespace c = false)
    (hlast : ∀ c, s.getLast? = some c → isWhitespace c = false) : trim s = s := by
  have hdrop : s.dropWhile isWhitespace = s := by
    cases s with
    | nil => rfl
    | cons c cs => exact List.dropWhile_cons_of_neg (by simp [hfirst c rfl])
  unfold trim
  rw [hdrop, List.rdropWhile_eq_self_iff]
  intro hne hspace
  rw [hlast _ (List.getLast?_eq_getLast_of_ne_nil hne)] at hspace
  cases hspace

/-- A text without white space is left alone. -/
theorem trim_of_forall (h : ∀ c ∈ s, isWhitespace c = false) : trim s = s :=
  trim_eq_self (fun c hc => h c (List.mem_of_head? hc)) fun c hc => h c (List.mem_of_getLast? hc)

/-- White space alone is trimmed to nothing. -/
theorem trim_eq_nil (h : ∀ c ∈ s, isWhitespace c = true) : trim s = [] := by
  unfold trim
  rw [List.dropWhile_eq_nil_iff.mpr h]
  rfl

/-- White space in front is taken off first. -/
theorem trim_append (h : ∀ c ∈ s, isWhitespace c = true) (t : List Char) :
    trim (s ++ t) = trim t := by
  unfold trim
  rw [List.dropWhile_append_of_pos h]

/-- White space behind is taken off first. -/
theorem trim_append_right (t : List Char) (h : ∀ c ∈ s, isWhitespace c = true) :
    trim (t ++ s) = trim t := by
  have hback : ∀ u : List Char, (u ++ s).rdropWhile isWhitespace = u.rdropWhile isWhitespace := by
    intro u
    induction s using List.reverseRecOn with
    | nil => rw [List.append_nil]
    | append_singleton s d ih =>
      rw [← List.append_assoc, List.rdropWhile_concat_pos _ _ _ (h d (by simp))]
      exact ih fun c hc => h c (by simp [hc])
  unfold trim
  rw [List.dropWhile_append]
  split
  · rename_i hempty
    rw [List.isEmpty_iff.mp hempty, List.dropWhile_eq_nil_iff.mpr h]
  · exact hback _

/-- A text is its trimmed part with white space around it. -/
theorem exists_eq_trim (s : List Char) :
    ∃ front back, s = front ++ trim s ++ back ∧ (∀ c ∈ front, isWhitespace c = true) ∧
      ∀ c ∈ back, isWhitespace c = true := by
  refine ⟨s.takeWhile isWhitespace,
    (s.dropWhile isWhitespace).rtakeWhile isWhitespace, ?_, ?_, ?_⟩
  · rw [trim, List.append_assoc, List.rdropWhile_append_rtakeWhile,
      List.takeWhile_append_dropWhile]
  · exact fun c hc => List.mem_takeWhile_imp hc
  · exact fun c hc => List.mem_rtakeWhile_imp hc

/-- A text that begins with another character than white space keeps its beginning. -/
theorem trim_cons {c : Char} (h : isWhitespace c = false) (s : List Char) :
    trim (c :: s) = c :: s.rdropWhile isWhitespace := by
  unfold trim
  rw [List.dropWhile_cons_of_neg (by simp [h])]
  induction s using List.reverseRecOn with
  | nil =>
    show List.rdropWhile isWhitespace ([] ++ [c]) = _
    rw [List.rdropWhile_concat_neg _ _ _ (by simp [h])]
    rfl
  | append_singleton s d ih =>
    rw [← List.cons_append]
    by_cases hd : isWhitespace d = true
    · rw [List.rdropWhile_concat_pos _ _ _ hd, List.rdropWhile_concat_pos _ _ _ hd, ih]
    · rw [List.rdropWhile_concat_neg _ _ _ hd, List.rdropWhile_concat_neg _ _ _ hd]
      rfl

end Trim

section SplitWhitespace

variable {s t : List Char}

@[simp] theorem splitWhitespace_nil : splitWhitespace [] = [] := rfl

/-- A text without white space is one field. -/
theorem splitWhitespace_word (hne : s ≠ []) (h : ∀ c ∈ s, isWhitespace c = false) :
    splitWhitespace s = [s] := by
  unfold splitWhitespace
  rw [List.splitOnP_eq_singleton h]
  simp [hne]

/-- White space separates the fields on its two sides. -/
theorem splitWhitespace_append_cons {c : Char} (h : isWhitespace c = true) (s t : List Char) :
    splitWhitespace (s ++ c :: t) = splitWhitespace s ++ splitWhitespace t := by
  unfold splitWhitespace
  rw [List.splitOnP_append_cons s t h, List.filter_append]

/-- A text that does not begin with white space has a first word. -/
theorem head?_splitWhitespace_cons {c : Char} (hc : isWhitespace c = false) (cs : List Char) :
    ∃ w, (splitWhitespace (c :: cs)).head? = some w := by
  have hsplit : c :: cs = (c :: cs).takeWhile (fun d => !isWhitespace d) ++
      (c :: cs).dropWhile fun d => !isWhitespace d := List.takeWhile_append_dropWhile.symm
  have hword : ∀ d ∈ (c :: cs).takeWhile (fun d => !isWhitespace d), isWhitespace d = false :=
    fun d hd => by simpa using List.mem_takeWhile_imp hd
  have hne : (c :: cs).takeWhile (fun d => !isWhitespace d) ≠ [] := by
    rw [List.takeWhile_cons_of_pos (by simp [hc])]
    exact List.cons_ne_nil _ _
  rw [hsplit]
  cases hrest : (c :: cs).dropWhile fun d => !isWhitespace d with
  | nil =>
    rw [List.append_nil, splitWhitespace_word hne hword]
    exact ⟨_, rfl⟩
  | cons d ds =>
    have hspace : isWhitespace d = true := by
      have hnot := List.head?_dropWhile_not (fun d => !isWhitespace d) (c :: cs)
      rw [hrest] at hnot
      simpa using hnot
    rw [splitWhitespace_append_cons hspace, splitWhitespace_word hne hword]
    exact ⟨_, rfl⟩

theorem splitWhitespace_append_left (h : ∀ c ∈ s, isWhitespace c = true) (t : List Char) :
    splitWhitespace (s ++ t) = splitWhitespace t := by
  induction s with
  | nil => rfl
  | cons c cs ih =>
    have hstep := splitWhitespace_append_cons (h c List.mem_cons_self) [] (cs ++ t)
    rw [List.nil_append] at hstep
    rw [List.cons_append, hstep, splitWhitespace_nil, List.nil_append]
    exact ih fun d hd => h d (List.mem_cons_of_mem c hd)

theorem splitWhitespace_append_right (t : List Char) (h : ∀ c ∈ s, isWhitespace c = true) :
    splitWhitespace (t ++ s) = splitWhitespace t := by
  cases s with
  | nil => rw [List.append_nil]
  | cons c cs =>
    have hrest := splitWhitespace_append_left (fun d hd => h d (List.mem_cons_of_mem c hd)) []
    rw [List.append_nil, splitWhitespace_nil] at hrest
    rw [splitWhitespace_append_cons (h c List.mem_cons_self), hrest, List.append_nil]

/-- The fields are those of the trimmed text. -/
@[simp] theorem splitWhitespace_trim (s : List Char) :
    splitWhitespace (trim s) = splitWhitespace s := by
  obtain ⟨front, back, hs, hfront, hback⟩ := exists_eq_trim s
  calc splitWhitespace (trim s) = splitWhitespace (trim s ++ back) :=
        (splitWhitespace_append_right (trim s) hback).symm
    _ = splitWhitespace (front ++ (trim s ++ back)) :=
        (splitWhitespace_append_left hfront (trim s ++ back)).symm
    _ = splitWhitespace s := by rw [← List.append_assoc, ← hs]

end SplitWhitespace

/-! ## Separators and lines -/

theorem splitOnce_eq_some_iff {d : Char} {s a b : List Char} :
    splitOnce d s = some (a, b) ↔ s = a ++ d :: b ∧ d ∉ a := by
  induction s generalizing a with
  | nil => simp [splitOnce]
  | cons c cs ih =>
    unfold splitOnce
    by_cases hc : c = d
    · subst hc
      rw [if_pos rfl]
      cases a with
      | nil => simp [eq_comm]
      | cons e es =>
        constructor
        · intro h
          cases h
        · rintro ⟨h, hnot⟩
          exact absurd ((List.cons.inj h).1 ▸ List.mem_cons_self) hnot
    · rw [if_neg hc]
      cases a with
      | nil =>
        constructor
        · intro h
          obtain ⟨p, -, hp⟩ := Option.map_eq_some_iff.mp h
          cases hp
        · rintro ⟨h, -⟩
          exact absurd (List.cons.inj h).1 hc
      | cons e es =>
        constructor
        · intro h
          obtain ⟨⟨x, y⟩, hxy, hp⟩ := Option.map_eq_some_iff.mp h
          obtain ⟨hcx, rfl⟩ := Prod.mk.inj hp
          obtain ⟨rfl, rfl⟩ := List.cons.inj hcx
          obtain ⟨rfl, hnot⟩ := ih.mp hxy
          exact ⟨rfl, by simpa using ⟨Ne.symm hc, hnot⟩⟩
        · rintro ⟨h, hnot⟩
          obtain ⟨rfl, rfl⟩ := List.cons.inj h
          rw [ih.mpr ⟨rfl, fun hmem => hnot (List.mem_cons_of_mem c hmem)⟩]
          rfl

theorem splitInclusive_newline (s : List Char) :
    splitInclusive ('\n' :: s) = ['\n'] :: splitInclusive s := rfl

theorem splitInclusive_cons {c : Char} (h : c ≠ '\n') (s : List Char) :
    splitInclusive (c :: s) =
      match splitInclusive s with
      | [] => [[c]]
      | part :: parts => (c :: part) :: parts := by
  rw [splitInclusive, if_neg h]

theorem splitInclusive_ne_nil {s : List Char} (h : s ≠ []) : splitInclusive s ≠ [] := by
  cases s with
  | nil => exact absurd rfl h
  | cons c cs =>
    unfold splitInclusive
    split
    · exact List.cons_ne_nil _ _
    · split
      · exact List.cons_ne_nil _ _
      · exact List.cons_ne_nil _ _

/-- A text cut behind a line break has the parts of its two sides. -/
theorem splitInclusive_append (s t : List Char) :
    splitInclusive (s ++ '\n' :: t) = splitInclusive (s ++ ['\n']) ++ splitInclusive t := by
  induction s with
  | nil => rfl
  | cons c cs ih =>
    rw [List.cons_append, List.cons_append]
    by_cases hc : c = '\n'
    · subst hc
      rw [splitInclusive_newline, splitInclusive_newline, ih]
      rfl
    · rw [splitInclusive_cons hc, splitInclusive_cons hc, ih]
      -- the part that `c` joins is one of `cs`
      cases hparts : splitInclusive (cs ++ ['\n']) with
      | nil => exact absurd hparts (splitInclusive_ne_nil (by simp))
      | cons part parts => rfl

theorem splitInclusive_eq_singleton {s : List Char} (hne : s ≠ []) (h : '\n' ∉ s) :
    splitInclusive s = [s] := by
  induction s with
  | nil => exact absurd rfl hne
  | cons c cs ih =>
    have hc : c ≠ '\n' := fun hc => h (hc ▸ List.mem_cons_self)
    rw [splitInclusive_cons hc]
    by_cases hcs : cs = []
    · subst hcs
      rfl
    · rw [ih hcs fun hmem => h (List.mem_cons_of_mem c hmem)]

/-- One line with its line break. -/
theorem splitInclusive_line {s : List Char} (h : '\n' ∉ s) :
    splitInclusive (s ++ ['\n']) = [s ++ ['\n']] := by
  induction s with
  | nil => rfl
  | cons c cs ih =>
    have hc : c ≠ '\n' := fun hc => h (hc ▸ List.mem_cons_self)
    rw [List.cons_append, splitInclusive_cons hc, ih fun hmem => h (List.mem_cons_of_mem c hmem)]

/-- A part is a line, with its line break or without. -/
theorem exists_of_mem_splitInclusive {s part : List Char} (h : part ∈ splitInclusive s) :
    ∃ line, '\n' ∉ line ∧ (part = line ++ ['\n'] ∨ part = line) := by
  induction s generalizing part with
  | nil => cases h
  | cons c s ih =>
    by_cases hc : c = '\n'
    · subst hc
      rw [splitInclusive_newline] at h
      rcases List.mem_cons.mp h with rfl | hmem
      · exact ⟨[], by simp, Or.inl rfl⟩
      · exact ih hmem
    · rw [splitInclusive_cons hc] at h
      cases hparts : splitInclusive s with
      | nil =>
        rw [hparts] at h
        obtain rfl := List.mem_singleton.mp h
        exact ⟨[c], by simpa using Ne.symm hc, Or.inr rfl⟩
      | cons first parts =>
        rw [hparts] at h ih
        rcases List.mem_cons.mp h with rfl | hmem
        · obtain ⟨line, hline, hfirst⟩ := ih List.mem_cons_self
          refine ⟨c :: line, by simpa using ⟨Ne.symm hc, hline⟩, ?_⟩
          rcases hfirst with rfl | rfl
          · exact Or.inl rfl
          · exact Or.inr rfl
        · exact ih (List.mem_cons_of_mem first hmem)

theorem chomp_newline {line : List Char} (h : line.getLast? ≠ some '\r') :
    chomp (line ++ ['\n']) = line := by
  unfold chomp
  rw [List.getLast?_concat, if_pos rfl, List.dropLast_concat]
  dsimp only
  rw [if_neg h]

/-- What is left of a part is in it. -/
theorem mem_of_mem_chomp {part : List Char} {c : Char} (h : c ∈ chomp part) : c ∈ part := by
  unfold chomp at h
  dsimp only at h
  split at h
  · split at h
    · exact List.mem_of_mem_dropLast (List.mem_of_mem_dropLast h)
    · exact List.mem_of_mem_dropLast h
  · exact h

/-- A line has no line break in it. -/
theorem notMem_of_mem_lines {s line : List Char} (h : line ∈ lines s) : '\n' ∉ line := by
  obtain ⟨part, hpart, rfl⟩ := List.mem_map.mp h
  obtain ⟨body, hbody, rfl | rfl⟩ := exists_of_mem_splitInclusive hpart
  · intro hmem
    have hcut : chomp (body ++ ['\n']) = body ∨ chomp (body ++ ['\n']) = body.dropLast := by
      unfold chomp
      rw [List.getLast?_concat, if_pos rfl, List.dropLast_concat]
      dsimp only
      split
      · exact Or.inr rfl
      · exact Or.inl rfl
    rcases hcut with hcut | hcut
    · rw [hcut] at hmem
      exact hbody hmem
    · rw [hcut] at hmem
      exact hbody (List.mem_of_mem_dropLast hmem)
  · exact fun hmem => hbody (mem_of_mem_chomp hmem)

/-- The lines that have been written are the lines of the text. -/
theorem lines_unlines {ls : List (List Char)}
    (h : ∀ line ∈ ls, '\n' ∉ line ∧ line.getLast? ≠ some '\r') :
    lines (unlines ls) = ls := by
  induction ls with
  | nil => rfl
  | cons line ls ih =>
    obtain ⟨hbreak, hreturn⟩ := h line List.mem_cons_self
    have hrest := ih fun l hl => h l (List.mem_cons_of_mem line hl)
    have htext : unlines (line :: ls) = line ++ '\n' :: unlines ls := by
      show line ++ ['\n'] ++ unlines ls = _
      rw [List.append_assoc, List.singleton_append]
    unfold lines at hrest ⊢
    rw [htext, splitInclusive_append, splitInclusive_line hbreak, List.singleton_append,
      List.map_cons, chomp_newline hreturn, hrest]

/-- The line break and the carriage return in front of it are white space. -/
theorem trim_chomp (part : List Char) : trim (chomp part) = trim part := by
  have hlast : ∀ {s : List Char} {c : Char}, isWhitespace c = true → s.getLast? = some c →
      trim s.dropLast = trim s := by
    intro s c hc hs
    have hcut : s.dropLast ++ [c] = s := List.dropLast_append_getLast? c hs
    calc trim s.dropLast = trim (s.dropLast ++ [c]) :=
          (trim_append_right s.dropLast (by simpa using hc)).symm
      _ = trim s := by rw [hcut]
  unfold chomp
  dsimp only
  split
  · rename_i hbreak
    split
    · rename_i hreturn
      rw [hlast (by decide) hreturn, hlast (by decide) hbreak]
    · exact hlast (by decide) hbreak
  · rfl

/-- Up to the white space around them the lines of a text are those that have been written. -/
theorem map_trim_lines_unlines {ls : List (List Char)} (h : ∀ line ∈ ls, '\n' ∉ line) :
    (lines (unlines ls)).map trim = ls.map trim := by
  have hparts : splitInclusive (unlines ls) = ls.map fun line => line ++ ['\n'] := by
    induction ls with
    | nil => rfl
    | cons line ls ih =>
      have hbreak := h line List.mem_cons_self
      have htext : unlines (line :: ls) = line ++ '\n' :: unlines ls := by
        show line ++ ['\n'] ++ unlines ls = _
        rw [List.append_assoc, List.singleton_append]
      rw [htext, splitInclusive_append, splitInclusive_line hbreak, List.singleton_append,
        List.map_cons, ih fun l hl => h l (List.mem_cons_of_mem line hl)]
  unfold lines
  rw [hparts, List.map_map, List.map_map]
  refine List.map_congr_left fun line _ => ?_
  show trim (chomp (line ++ ['\n'])) = trim line
  rw [trim_chomp, trim_append_right line (by simp [isWhitespace])]

end Rust
