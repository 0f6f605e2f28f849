import Mathlib.Data.List.Basic

/-!
# Cutting a stream into lines

A reader gets a stream in pieces. It collects symbols until a delimiter comes, then acts on the line
it has and starts a new one; a line without symbols is passed over. At the end of the stream it may
act on what it has collected since the last delimiter. An action may stop the reader for good.

* `feed_eq` --- after a piece, the reader has acted on all lines that are complete, and holds the
  last one;
* `feed_flush` --- with the last line, it has acted on all lines of the stream.

How the stream was cut into pieces does not matter, as pieces are read one after the other:
`feed_append`.
-/

namespace Framing

universe u v w

variable {α : Type u} {σ : Type v} {ε : Type w}

/-- What the reader holds: the line that has begun, and what its actions have made. -/
structure Frame (α : Type u) (σ : Type v) where
  line : List α
  out : σ

section Reader

variable (p : α → Bool) (act : σ → List α → Except ε σ)

/-- The next symbol. -/
def push (f : Frame α σ) (a : α) : Except ε (Frame α σ) :=
  if p a then
    if f.line ≠ [] then (act f.out f.line).map fun out => ⟨[], out⟩
    else .ok f
  else .ok ⟨f.line ++ [a], f.out⟩

/-- The symbols of a piece. -/
def feed (f : Frame α σ) : List α → Except ε (Frame α σ)
  | [] => .ok f
  | a :: as => (push p act f a).bind fun f => feed f as

/-- The end of the stream. -/
def flush (f : Frame α σ) : Except ε σ :=
  if f.line ≠ [] then act f.out f.line else .ok f.out

/-- Acting on lines one after the other. -/
def actAll (out : σ) : List (List α) → Except ε σ
  | [] => .ok out
  | line :: lines => (act out line).bind fun out => actAll out lines

end Reader

variable {p : α → Bool} {act : σ → List α → Except ε σ}

theorem feed_append (f : Frame α σ) (as bs : List α) :
    feed p act f (as ++ bs) = (feed p act f as).bind fun f => feed p act f bs := by
  induction as generalizing f with
  | nil => rfl
  | cons a as ih =>
    show (push p act f a).bind _ = ((push p act f a).bind _).bind _
    cases push p act f a with
    | error e => rfl
    | ok f => exact ih f

theorem actAll_concat (out : σ) (lines : List (List α)) (line : List α) :
    actAll act out (lines ++ [line]) = (actAll act out lines).bind fun out => act out line := by
  induction lines generalizing out with
  | nil =>
    show (act out line).bind _ = act out line
    cases act out line <;> rfl
  | cons l lines ih =>
    show (act out l).bind _ = ((act out l).bind _).bind _
    cases act out l with
    | error e => rfl
    | ok out => exact ih out

/-- A reader that holds a line has acted on the complete lines of what it holds and reads. -/
theorem feed_eq (hnil : ∀ out, act out [] = .ok out) {line : List α}
    (hline : ∀ a ∈ line, p a = false) (out : σ) (as : List α) :
    feed p act ⟨line, out⟩ as =
      (actAll act out ((line ++ as).splitOnP p).dropLast).map fun out =>
        ⟨((line ++ as).splitOnP p).getLast (List.splitOnP_ne_nil p _), out⟩ := by
  induction as generalizing line out with
  | nil =>
    have hsplit : (line ++ []).splitOnP p = [line] := by
      rw [List.append_nil, List.splitOnP_eq_singleton hline]
    simp only [hsplit]
    rfl
  | cons a as ih =>
    by_cases ha : p a = true
    · have hsplit : (line ++ a :: as).splitOnP p = line :: as.splitOnP p :=
        List.splitOnP_append_cons_of_forall_mem hline a ha as
      have hne := List.splitOnP_ne_nil p as
      have hpush : push p act ⟨line, out⟩ a = (act out line).map fun out => ⟨[], out⟩ := by
        unfold push
        rw [if_pos ha]
        split
        · rfl
        · next hempty =>
          have hempty' : line = [] := not_not.mp hempty
          rw [hempty', hnil]
          rfl
      simp only [hsplit, List.dropLast_cons_of_ne_nil hne, List.getLast_cons hne]
      unfold feed actAll
      rw [hpush]
      cases act out line with
      | error e => rfl
      | ok out => exact ih (fun _ hb => absurd hb List.not_mem_nil) out
    · have hpush : push p act ⟨line, out⟩ a = .ok ⟨line ++ [a], out⟩ := if_neg ha
      have hline' : ∀ b ∈ line ++ [a], p b = false := by
        intro b hb
        rcases List.mem_append.mp hb with hb | hb
        · exact hline b hb
        · rw [List.mem_singleton.mp hb]
          exact Bool.eq_false_iff.mpr ha
      have happend : line ++ a :: as = line ++ [a] ++ as := by
        rw [List.append_assoc, List.singleton_append]
      unfold feed
      rw [hpush]
      simp only [happend]
      exact ih hline' out

/-- At the end of the stream the reader has acted on all its lines. -/
theorem feed_flush (hnil : ∀ out, act out [] = .ok out) (out : σ) (as : List α) :
    ((feed p act ⟨[], out⟩ as).bind fun f => flush act f) = actAll act out (as.splitOnP p) := by
  have hne := List.splitOnP_ne_nil p as
  have hflush : ∀ f : Frame α σ, flush act f = act f.out f.line := by
    intro f
    unfold flush
    split
    · rfl
    · next hempty => rw [not_not.mp hempty, hnil]
  rw [feed_eq hnil (fun _ ha => absurd ha List.not_mem_nil), List.nil_append]
  conv_rhs => rw [← List.dropLast_concat_getLast hne, actAll_concat]
  cases actAll act out (as.splitOnP p).dropLast with
  | error e => rfl
  | ok out => exact hflush _

end Framing
