import PgAgent.Library.Decimal
import PgAgent.Library.Framing
import PgAgent.Library.Overflow
import PgAgent.Library.Text
import PgAgent.Library.Utf8

/-!
# The output of a subprocess

`pg_basebackup` and `pg_rewind` report on their standard error: progress, in lines that they write
over with a carriage return, and diagnostics. `drain_stderr` reads the stream in pieces, calls back
for each line of the first kind, and keeps the first lines of the second kind for the error message.

* `drainStderr_eq` --- the lines are handled one after the other, however the stream was cut;
* `Reached.actAll` --- what has been called and kept after some lines;
* `drainStderr_spec` --- what has been called and kept at the end.
-/

namespace PgAgent
namespace Stderr

open Rust Framing

/-- `STDERR_TAIL_MAX`, in bytes. -/
def stderrTailMax : ℕ := 4096

/-- The size of the buffer that a read fills. -/
def chunkSize : ℕ := 256

/-- What a read has put into the buffer; a read of no bytes is the end of the stream. -/
structure Chunk where
  bytes : List UInt8
  ne_nil : bytes ≠ []
  length_le : bytes.length ≤ chunkSize

/-- How the stream ends. -/
inductive Ending
  | eof
  | failed (e : String)
  deriving DecidableEq, Repr

/-- How `drain_stderr` ends. -/
inductive Exit
  | ok
  | failed (e : String)
  | panicked
  deriving DecidableEq, Repr

/-- The calls of the callback, in order, and the tail. -/
structure Output where
  calls : List (ℤ × ℤ)
  tail : List Char
  deriving DecidableEq, Repr

/-- `parse_kb_fraction`. -/
def parseKbFraction (s : List Char) : Option (ℤ × ℤ) :=
  ((before " kB".toList s).or (before " KB".toList s)).bind fun frac =>
    (splitOnce '/' (trim frac)).bind fun p =>
      (parseI64 (trim p.1)).bind fun done => (parseI64 (trim p.2)).map fun total => (done, total)

/-- `append_tail`. -/
def appendTail (tail line : List Char) : List Char :=
  if stderrTailMax ≤ len tail then tail
  else
    let extra := len line + if tail = [] then 0 else 1
    if stderrTailMax < len tail + extra then tail
    else (if tail = [] then tail else tail ++ ['\n']) ++ line

/-- `process_line`; `progress` is whether there is a callback. An error is a panic, with what has
been done until then. -/
def processLine (profile : Profile) (progress : Bool) (out : Output) (bytes : List UInt8) :
    Except Output Output :=
  let trimmed := trim (fromUtf8Lossy bytes)
  if trimmed = [] then .ok out
  else
    match parseKbFraction trimmed with
    | some (doneKb, totalKb) =>
      if progress then
        match mulI64 profile doneKb 1024, mulI64 profile totalKb 1024 with
        | some done, some total => .ok { out with calls := out.calls ++ [(done, total)] }
        | _, _ => .error out
      else .ok out
    | none => .ok { out with tail := appendTail out.tail trimmed }

def isDelimiter (b : UInt8) : Bool := b == 0x0D || b == 0x0A

structure Drained where
  out : Output
  exit : Exit
  deriving DecidableEq, Repr

/-- The loop of `drain_stderr`, over the reads that are left. -/
def drainLoop (profile : Profile) (progress : Bool) (ending : Ending) (f : Frame UInt8 Output) :
    List Chunk → Drained
  | [] =>
    match ending with
    | .eof =>
      match flush (processLine profile progress) f with
      | .ok out => ⟨out, .ok⟩
      | .error out => ⟨out, .panicked⟩
    | .failed e => ⟨f.out, .failed e⟩
  | c :: cs =>
    match feed isDelimiter (processLine profile progress) f c.bytes with
    | .ok f => drainLoop profile progress ending f cs
    | .error out => ⟨out, .panicked⟩

/-- `drain_stderr`, with the empty tail that it is called with. -/
def drainStderr (profile : Profile) (progress : Bool) (ending : Ending) (chunks : List Chunk) :
    Drained :=
  drainLoop profile progress ending ⟨[], ⟨[], []⟩⟩ chunks

/-! ## The lines of a stream -/

/-- The stream that has been read. -/
def stream (chunks : List Chunk) : List UInt8 := chunks.flatMap Chunk.bytes

/-- The lines of a stream; if it fails, what has been read of the last one is lost. -/
def streamLines (ending : Ending) (bytes : List UInt8) : List (List UInt8) :=
  match ending with
  | .eof => bytes.splitOnP isDelimiter
  | .failed _ => (bytes.splitOnP isDelimiter).dropLast

/-- The texts of lines, without those that are blank. -/
def texts (lines : List (List UInt8)) : List (List Char) :=
  (lines.map fun line => trim (fromUtf8Lossy line)).filter fun t => t ≠ []

/-- The lines that are not progress. -/
def diagnostics (ts : List (List Char)) : List (List Char) :=
  ts.filter fun t => (parseKbFraction t).isNone

/-- Lines with a newline between any two. -/
def joined (ls : List (List Char)) : List Char := ['\n'].intercalate ls

/-- A line is kept if all that is kept still fits with it. -/
def keep (ls : List (List Char)) (line : List Char) : List (List Char) :=
  if len (joined (ls ++ [line])) ≤ stderrTailMax then ls ++ [line] else ls

def kept (ls : List (List Char)) : List (List Char) := ls.foldl keep []

/-- The numbers of bytes are in the range of `i64`. -/
def Fits (p : ℤ × ℤ) : Prop :=
  (-2 ^ 63 ≤ p.1 * 1024 ∧ p.1 * 1024 < 2 ^ 63) ∧ -2 ^ 63 ≤ p.2 * 1024 ∧
  p.2 * 1024 < 2 ^ 63

def inBytes (p : ℤ × ℤ) : ℤ × ℤ := (p.1 * 1024, p.2 * 1024)

def finish (ending : Ending) : Except Output Output → Drained
  | .ok out =>
    match ending with
    | .eof => ⟨out, .ok⟩
    | .failed e => ⟨out, .failed e⟩
  | .error out => ⟨out, .panicked⟩

section Chunks

variable {profile : Profile} {progress : Bool} {ending : Ending}

theorem drainLoop_eq (f : Frame UInt8 Output) (chunks : List Chunk) :
    drainLoop profile progress ending f chunks =
      match feed isDelimiter (processLine profile progress) f (stream chunks) with
      | .ok f => drainLoop profile progress ending f []
      | .error out => ⟨out, .panicked⟩ := by
  induction chunks generalizing f with
  | nil => rfl
  | cons c cs ih =>
    have hstream : stream (c :: cs) = c.bytes ++ stream cs := List.flatMap_cons
    rw [hstream, feed_append]
    unfold drainLoop
    cases feed isDelimiter (processLine profile progress) f c.bytes with
    | error out => rfl
    | ok f => exact ih f

theorem processLine_nil (out : Output) : processLine profile progress out [] = .ok out := rfl

/-- The lines of the stream are handled one after the other. -/
theorem drainStderr_eq (chunks : List Chunk) :
    drainStderr profile progress ending chunks =
      finish ending (actAll (processLine profile progress) ⟨[], []⟩
        (streamLines ending (stream chunks))) := by
  unfold drainStderr
  rw [drainLoop_eq]
  cases ending with
  | eof =>
    have hflush := @feed_flush _ _ _ isDelimiter (processLine profile progress) processLine_nil
      ⟨[], []⟩ (stream chunks)
    show _ = finish .eof (actAll _ _ ((stream chunks).splitOnP isDelimiter))
    rw [← hflush]
    cases feed isDelimiter (processLine profile progress) ⟨[], ⟨[], []⟩⟩ (stream chunks)
        with
    | error out => rfl
    | ok f =>
      show drainLoop profile progress .eof f [] =
          finish .eof (flush (processLine profile progress) f)
      unfold drainLoop
      cases flush (processLine profile progress) f <;> rfl
  | failed e =>
    have hfeed := @feed_eq _ _ _ isDelimiter (processLine profile progress) processLine_nil []
      (fun _ ha => absurd ha List.not_mem_nil) ⟨[], []⟩ (stream chunks)
    show _ = finish (.failed e) (actAll _ _ ((stream chunks).splitOnP isDelimiter).dropLast)
    rw [hfeed, List.nil_append]
    cases actAll (processLine profile progress) ⟨[], []⟩
      ((stream chunks).splitOnP isDelimiter).dropLast <;> rfl

end Chunks

/-! ## The tail -/

section Tail

variable {ls : List (List Char)} {line : List Char}

theorem joined_concat (hne : ls ≠ []) : joined (ls ++ [line]) = joined ls ++ '\n' :: line := by
  unfold joined
  induction ls with
  | nil => exact absurd rfl hne
  | cons l ls ih =>
    cases ls with
    | nil =>
      show ['\n'].intercalate [l, line] = _
      rw [List.intercalate_cons_cons, List.intercalate_singleton, List.intercalate_singleton,
        List.append_assoc, List.singleton_append]
    | cons l' ls =>
      have hih := ih (List.cons_ne_nil _ _)
      show ['\n'].intercalate (l :: l' :: (ls ++ [line])) = _
      rw [List.intercalate_cons_cons, List.intercalate_cons_cons, ← List.cons_append, hih]
      simp only [List.append_assoc]

theorem joined_eq_nil_iff (hls : ∀ l ∈ ls, l ≠ []) : joined ls = [] ↔ ls = [] := by
  constructor
  · intro h
    rcases List.eq_nil_or_concat' ls with rfl | ⟨ls', l, rfl⟩
    · rfl
    · exfalso
      by_cases hls' : ls' = []
      · subst hls'
        exact hls l List.mem_cons_self ((List.intercalate_singleton).symm.trans h)
      · rw [joined_concat hls'] at h
        exact List.cons_ne_nil _ _ (List.append_eq_nil_iff.mp h).2
  · rintro rfl
    rfl

/-- The tail is the lines that are kept. -/
theorem appendTail_joined (hls : ∀ l ∈ ls, l ≠ []) (hline : line ≠ []) :
    appendTail (joined ls) line = joined (keep ls line) := by
  have hpos : len line ≠ 0 := mt len_eq_zero_iff.mp hline
  unfold appendTail keep
  by_cases hempty : ls = []
  · subst hempty
    have hnil : joined [] = [] := rfl
    have hone : joined ([] ++ [line]) = line := List.intercalate_singleton
    have hlen : len [] = 0 := rfl
    have hmax : ¬ stderrTailMax ≤ 0 := by decide
    rw [hnil, hone, hlen, if_neg hmax, if_pos rfl, if_pos rfl]
    dsimp only
    rw [Nat.zero_add, Nat.add_zero]
    by_cases hfit : len line ≤ stderrTailMax
    · rw [if_neg (not_lt.mpr hfit), if_pos hfit, hone]
      rfl
    · rw [if_pos (not_le.mp hfit), if_neg hfit]
      rfl
  · have hne : joined ls ≠ [] := mt (joined_eq_nil_iff hls).mp hempty
    have hlen : len (joined (ls ++ [line])) = len (joined ls) + (len line + 1) := by
      have hnewline : len ('\n' :: line) = 1 + len line := rfl
      rw [joined_concat hempty, len_append, hnewline, Nat.add_comm 1]
    rw [if_neg hne, if_neg hne, hlen]
    dsimp only
    by_cases hfit : len (joined ls) + (len line + 1) ≤ stderrTailMax
    · rw [if_neg (by omega), if_neg (by omega), if_pos hfit, joined_concat hempty,
        List.append_assoc, List.singleton_append]
    · rw [if_neg hfit]
      split
      · rfl
      · rw [if_pos (by omega)]

theorem kept_concat (ls : List (List Char)) (line : List Char) :
    kept (ls ++ [line]) = keep (kept ls) line := by
  unfold kept
  rw [List.foldl_append]
  rfl

theorem kept_sublist (ls : List (List Char)) : (kept ls).Sublist ls := by
  induction ls using List.reverseRecOn with
  | nil => exact List.Sublist.refl _
  | append_singleton ls line ih =>
    rw [kept_concat, keep]
    split
    · exact ih.append (List.Sublist.refl _)
    · exact ih.trans (List.sublist_append_left _ _)

theorem len_kept_le (ls : List (List Char)) : len (joined (kept ls)) ≤ stderrTailMax := by
  induction ls using List.reverseRecOn with
  | nil => exact Nat.zero_le _
  | append_singleton ls line ih =>
    rw [kept_concat, keep]
    split
    · next hfit => exact hfit
    · exact ih

end Tail

/-! ## What has been done after some lines -/

section Lines

variable {profile : Profile} {progress : Bool} {ts : List (List Char)} {out out' : Output}

/-- What the callback is given for a line. -/
def callOf (profile : Profile) (t : List Char) : Option (ℤ × ℤ) :=
  (parseKbFraction t).bind fun p =>
    (mulI64 profile p.1 1024).bind fun done =>
      (mulI64 profile p.2 1024).map fun total => (done, total)

/-- The calls and the tail are those of the lines. -/
structure Reached (profile : Profile) (progress : Bool) (ts : List (List Char)) (out : Output) :
    Prop where
  ne_nil : ∀ t ∈ ts, t ≠ []
  calls : out.calls = if progress then ts.filterMap (callOf profile) else []
  tail : out.tail = joined (kept (diagnostics ts))

theorem Reached.start (profile : Profile) (progress : Bool) :
    Reached profile progress [] ⟨[], []⟩ := by
  refine ⟨fun t ht => absurd ht List.not_mem_nil, ?_, rfl⟩
  cases progress <;> rfl

/-- A line that does not make the code panic. -/
theorem Reached.processLine_ok (h : Reached profile progress ts out) {bytes : List UInt8}
    (hok : processLine profile progress out bytes = .ok out') :
    Reached profile progress (ts ++ texts [bytes]) out' := by
  unfold processLine at hok
  dsimp only at hok
  by_cases hblank : trim (fromUtf8Lossy bytes) = []
  · have htexts : texts [bytes] = [] := by
      unfold texts
      rw [List.map_singleton, hblank]
      rfl
    rw [if_pos hblank] at hok
    obtain rfl := Except.ok.inj hok
    rwa [htexts, List.append_nil]
  · rw [if_neg hblank] at hok
    have htexts : texts [bytes] = [trim (fromUtf8Lossy bytes)] := by
      simp [texts, hblank]
    rw [htexts]
    generalize trim (fromUtf8Lossy bytes) = t at hok hblank
    have hne : ∀ t' ∈ ts ++ [t], t' ≠ [] := by
      intro t' ht'
      rcases List.mem_append.mp ht' with ht' | ht'
      · exact h.ne_nil t' ht'
      · rwa [List.mem_singleton.mp ht']
    cases hparse : parseKbFraction t with
    | none =>
      rw [hparse] at hok
      obtain rfl := Except.ok.inj hok
      have hcall : callOf profile t = none := by
        unfold callOf
        rw [hparse]
        rfl
      have hdiag : diagnostics (ts ++ [t]) = diagnostics ts ++ [t] := by
        unfold diagnostics
        rw [List.filter_append, List.filter_cons_of_pos (by rw [hparse]; rfl), List.filter_nil]
      have hkept : ∀ l ∈ kept (diagnostics ts), l ≠ [] := fun l hl =>
        h.ne_nil l (List.mem_of_mem_filter ((kept_sublist _).subset hl))
      refine ⟨hne, ?_, ?_⟩
      · show out.calls = _
        rw [List.filterMap_append, List.filterMap_cons_none hcall, List.filterMap_nil,
          List.append_nil, h.calls]
      · show appendTail out.tail t = _
        rw [h.tail, appendTail_joined hkept hblank, hdiag, kept_concat]
    | some p =>
      rw [hparse] at hok
      have hdiag : diagnostics (ts ++ [t]) = diagnostics ts := by
        unfold diagnostics
        rw [List.filter_append, List.filter_cons_of_neg (by rw [hparse]; exact Bool.false_ne_true),
          List.filter_nil,
          List.append_nil]
      cases progress with
      | false =>
        obtain rfl := Except.ok.inj hok
        exact ⟨hne, h.calls, by rw [hdiag]; exact h.tail⟩
      | true =>
        dsimp only at hok
        rw [if_pos rfl] at hok
        split at hok
        · next done total hdone htotal =>
          obtain rfl := Except.ok.inj hok
          have hcall : callOf profile t = some (done, total) := by
            unfold callOf
            rw [hparse, Option.bind_some, hdone, Option.bind_some, htotal]
            rfl
          refine ⟨hne, ?_, by rw [hdiag]; exact h.tail⟩
          show out.calls ++ [(done, total)] = _
          rw [h.calls, if_pos rfl, if_pos rfl, List.filterMap_append,
            List.filterMap_cons_some hcall, List.filterMap_nil]
        · cases hok

/-- A panic leaves what has been done. -/
theorem processLine_error {bytes : List UInt8}
    (herror : processLine profile progress out bytes = .error out') : out' = out := by
  unfold processLine at herror
  dsimp only at herror
  split at herror
  · cases herror
  · split at herror
    · split at herror
      · split at herror
        · cases herror
        · exact (Except.error.inj herror).symm
      · cases herror
    · cases herror

theorem texts_cons (line : List UInt8) (lines : List (List UInt8)) :
    texts (line :: lines) = texts [line] ++ texts lines := by
  unfold texts
  rw [← List.filter_append, ← List.map_append]
  rfl

/-- What has been done after some lines, or, if the code panics, after the first of them. -/
theorem Reached.actAll (h : Reached profile progress ts out) (lines : List (List UInt8)) :
    (∀ out', actAll (processLine profile progress) out lines = .ok out' →
      Reached profile progress (ts ++ texts lines) out') ∧
    ∀ out', actAll (processLine profile progress) out lines = .error out' →
      ∃ ts', ts' <+: ts ++ texts lines ∧ Reached profile progress ts' out' := by
  induction lines generalizing ts out with
  | nil =>
    constructor
    · intro out' hok
      obtain rfl := Except.ok.inj hok
      have hnil : texts [] = [] := rfl
      rwa [hnil, List.append_nil]
    · intro out' herror
      cases herror
  | cons line lines ih =>
    rw [texts_cons, ← List.append_assoc]
    unfold Framing.actAll
    cases hline : processLine profile progress out line with
    | ok out₁ => exact ih (h.processLine_ok hline)
    | error out₁ =>
      constructor
      · intro out' hok
        cases hok
      · intro out' herror
        obtain rfl := Except.error.inj herror
        obtain rfl := processLine_error hline
        refine ⟨ts, ?_, h⟩
        rw [List.append_assoc]
        exact List.prefix_append _ _

/-- Lines whose numbers fit do not make the code panic. -/
theorem exists_actAll_ok (profile : Profile) (progress : Bool) (out : Output)
    {lines : List (List UInt8)}
    (hfits : ∀ t ∈ texts lines, ∀ p, parseKbFraction t = some p → Fits p) :
    ∃ out', actAll (processLine profile progress) out lines = .ok out' := by
  induction lines generalizing out with
  | nil => exact ⟨out, rfl⟩
  | cons line lines ih =>
    have hline : ∃ out₁, processLine profile progress out line = .ok out₁ := by
      unfold processLine
      dsimp only
      split
      · exact ⟨out, rfl⟩
      · next hblank =>
        have hmem : trim (fromUtf8Lossy line) ∈ texts (line :: lines) := by
          simp [texts, hblank]
        split
        · next done total hparse =>
          obtain ⟨hdone, htotal⟩ := hfits _ hmem _ hparse
          split
          · rw [mulI64_eq_some hdone, mulI64_eq_some htotal]
            exact ⟨_, rfl⟩
          · exact ⟨out, rfl⟩
        · exact ⟨_, rfl⟩
    obtain ⟨out₁, hout₁⟩ := hline
    obtain ⟨out', hout'⟩ := ih out₁ fun t ht =>
      hfits t (by rw [texts_cons]; exact List.mem_append_right _ ht)
    refine ⟨out', ?_⟩
    unfold Framing.actAll
    rw [hout₁]
    exact hout'

theorem callOf_eq (hfits : ∀ t ∈ ts, ∀ p, parseKbFraction t = some p → Fits p) :
    ts.filterMap (callOf profile) = (ts.filterMap parseKbFraction).map inBytes := by
  rw [List.map_filterMap]
  refine List.filterMap_congr fun t ht => ?_
  unfold callOf
  cases hparse : parseKbFraction t with
  | none => rfl
  | some p =>
    obtain ⟨hdone, htotal⟩ := hfits t ht p hparse
    rw [Option.bind_some, mulI64_eq_some hdone, Option.bind_some, mulI64_eq_some htotal]
    rfl

end Lines

/-! ## The whole stream -/

section Stream

variable (profile : Profile) (progress : Bool) (ending : Ending) (chunks : List Chunk)

/-- The non-blank lines of the stream. -/
def streamTexts (ending : Ending) (chunks : List Chunk) : List (List Char) :=
  texts (streamLines ending (stream chunks))

theorem exists_reached : ∃ ts, ts <+: streamTexts ending chunks ∧
    Reached profile progress ts (drainStderr profile progress ending chunks).out := by
  obtain ⟨hok, herror⟩ :=
    (Reached.start profile progress).actAll (streamLines ending (stream chunks))
  rw [drainStderr_eq]
  cases hact : actAll (processLine profile progress) ⟨[], []⟩
      (streamLines ending (stream chunks)) with
  | ok out =>
    refine ⟨_, List.prefix_refl _, ?_⟩
    have hreached := hok out hact
    cases ending <;> exact hreached
  | error out => exact herror out hact

theorem drainStderr_of_fits
    (hfits : ∀ t ∈ streamTexts ending chunks, ∀ p, parseKbFraction t = some p → Fits p) :
    (drainStderr profile progress ending chunks).exit ≠ .panicked ∧
      (drainStderr profile progress ending chunks).out.calls =
        (if progress then
          ((streamTexts ending chunks).filterMap parseKbFraction).map inBytes else []) ∧
      (drainStderr profile progress ending chunks).out.tail =
        joined (kept (diagnostics (streamTexts ending chunks))) := by
  obtain ⟨out, hact⟩ := exists_actAll_ok profile progress ⟨[], []⟩ hfits
  have hall := ((Reached.start profile progress).actAll _).1 out hact
  have hfinish : drainStderr profile progress ending chunks = finish ending (.ok out) := by
    rw [drainStderr_eq, hact]
  have hout : (finish ending (.ok out)).out = out ∧
      (finish ending (.ok out)).exit ≠ .panicked := by
    cases ending
    · exact ⟨rfl, fun h => nomatch h⟩
    · exact ⟨rfl, fun h => nomatch h⟩
  rw [hfinish, hout.1, ← callOf_eq hfits]
  exact ⟨hout.2, hall.calls, hall.tail⟩

/-- How the stream was cut does not matter. A line is progress, and gives the callback its numbers,
or it is not, and is kept if it still fits; what is kept is the tail. -/
theorem drainStderr_spec :
    (∀ chunks' : List Chunk, stream chunks' = stream chunks →
      drainStderr profile progress ending chunks' = drainStderr profile progress ending chunks) ∧
    ((∀ t ∈ streamTexts ending chunks, ∀ p, parseKbFraction t = some p → Fits p) →
      (drainStderr profile progress ending chunks).exit ≠ .panicked ∧
        (drainStderr profile progress ending chunks).out.calls =
          (if progress then
            ((streamTexts ending chunks).filterMap parseKbFraction).map inBytes else []) ∧
        (drainStderr profile progress ending chunks).out.tail =
          joined (kept (diagnostics (streamTexts ending chunks)))) ∧
    (∃ ls, ls.Sublist (diagnostics (streamTexts ending chunks)) ∧
      (drainStderr profile progress ending chunks).out.tail = joined ls) ∧
    len (drainStderr profile progress ending chunks).out.tail ≤ stderrTailMax := by
  obtain ⟨ts, hts, hreached⟩ := exists_reached profile progress ending chunks
  refine ⟨fun chunks' hstream => ?_, drainStderr_of_fits profile progress ending chunks,
    ⟨_, ?_, hreached.tail⟩, ?_⟩
  · rw [drainStderr_eq, drainStderr_eq, hstream]
  · exact (kept_sublist _).trans (hts.sublist.filter _)
  · rw [hreached.tail]
    exact len_kept_le _

/-- Every non-blank line is in one of the two: it has given a call, or is one of the lines of the
tail. -/
def EveryLineOnce : Prop :=
  ∃ ls, ls.Sublist (diagnostics (streamTexts ending chunks)) ∧
    (drainStderr profile progress ending chunks).out.tail = joined ls ∧
    (drainStderr profile progress ending chunks).out.calls.length + ls.length =
      (streamTexts ending chunks).length

end Stream

/-! ## A line that is too long -/

theorem before_replicate {pattern : List Char} {c d : Char} (hhead : pattern.head? = some d)
    (hne : d ≠ c) (n : ℕ) : before pattern (List.replicate n c) = none := by
  obtain ⟨pattern, rfl⟩ := List.head?_eq_some_iff.mp hhead
  induction n with
  | zero => rfl
  | succ n ih =>
    rw [List.replicate_succ, before, ih, if_neg]
    · rfl
    · rw [List.isPrefixOf_cons_cons]
      simp [hne]

theorem parseKbFraction_replicate (n : ℕ) : parseKbFraction (List.replicate n 'x') = none := by
  unfold parseKbFraction
  rw [before_replicate (d := ' ') (by decide) (by decide),
    before_replicate (d := ' ') (by decide) (by decide)]
  rfl

theorem len_replicate (n : ℕ) : len (List.replicate n 'x') = n := by
  have hone : Char.utf8Size 'x' = 1 := by decide
  unfold len
  rw [List.map_replicate, hone, List.sum_replicate, smul_eq_mul, Nat.mul_one]

theorem kept_overlong {t : List Char} (h : stderrTailMax < len t) : kept [t] = [] := by
  have hone : joined ([] ++ [t]) = t := List.intercalate_singleton
  show keep [] t = []
  rw [keep, hone, if_neg (not_le.mpr h)]

theorem streamTexts_replicate {chunks : List Chunk} {n : ℕ}
    (h : stream chunks = List.replicate (n + 1) 0x78) :
    streamTexts .eof chunks = [List.replicate (n + 1) 'x'] := by
  have hlines : (List.replicate (n + 1) (0x78 : UInt8)).splitOnP isDelimiter =
      [List.replicate (n + 1) 0x78] := by
    refine List.splitOnP_eq_singleton fun b hb => ?_
    rw [List.eq_of_mem_replicate hb]
    decide
  have htext : trim (fromUtf8Lossy (List.replicate (n + 1) 0x78)) =
      List.replicate (n + 1) 'x' := by
    have hx : Char.ofNat (0x78 : UInt8).toNat = 'x' := by decide
    rw [fromUtf8Lossy_ascii fun b hb => by rw [List.eq_of_mem_replicate hb]; decide,
      List.map_replicate, hx]
    refine trim_of_forall fun c hc => ?_
    rw [List.eq_of_mem_replicate hc]
    decide
  unfold streamTexts streamLines
  rw [h]
  dsimp only
  rw [hlines, texts, List.map_singleton, htext]
  rfl

/-- A line of `4097` bytes, in `17` reads, is in none of the two. -/
theorem everyLineOnce_overlong :
    ¬ ∀ chunks : List Chunk, EveryLineOnce .release true .eof chunks := by
  intro h
  obtain ⟨c, hc⟩ : ∃ c : Chunk, c.bytes = List.replicate 241 0x78 :=
    ⟨⟨List.replicate 241 0x78, List.cons_ne_nil _ _,
      List.length_replicate.le.trans (by decide)⟩, rfl⟩
  have hstream : stream (List.replicate 17 c) = List.replicate (4096 + 1) 0x78 := by
    unfold stream
    rw [List.flatMap_replicate, hc, List.flatten_replicate_replicate]
  have htexts := streamTexts_replicate hstream
  have hdiag : diagnostics [List.replicate (4096 + 1) 'x'] = [List.replicate (4096 + 1) 'x'] := by
    unfold diagnostics
    rw [List.filter_cons_of_pos (by rw [parseKbFraction_replicate]; rfl), List.filter_nil]
  obtain ⟨-, hcalls, htail⟩ := drainStderr_of_fits .release true .eof (List.replicate 17 c) (by
    intro t ht p hp
    rw [htexts, List.mem_singleton] at ht
    rw [ht, parseKbFraction_replicate] at hp
    cases hp)
  obtain ⟨ls, hls, hjoined, hcount⟩ := h (List.replicate 17 c)
  rw [htexts, hdiag] at hls htail
  have hkept : kept [List.replicate (4096 + 1) 'x'] = [] :=
    kept_overlong (by rw [len_replicate]; decide)
  have hne : ∀ l ∈ ls, l ≠ [] := by
    intro l hl
    rw [List.mem_singleton.mp (hls.subset hl)]
    exact List.cons_ne_nil _ _
  rw [htail, hkept] at hjoined
  have hnil : ls = [] := (joined_eq_nil_iff hne).mp hjoined.symm
  rw [hcalls, htexts, hnil, List.filterMap_cons_none (parseKbFraction_replicate _)] at hcount
  cases hcount

end Stderr
end PgAgent
