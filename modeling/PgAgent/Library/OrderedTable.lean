import Mathlib.Data.List.Sort
import Mathlib.Order.Defs.LinearOrder

/-!
# Tables ordered by key

The key-value tables of an embedded database: one row per key, iterated in key order.
A table is a list of rows that carries the proof that its keys increase, so every
operation below returns a table again and no user of the library sees the order
invariant.

* `insert`, `remove`, `removeAll` --- the writes, each with its membership law;
* `range`, `last?` --- the reads: the rows whose key satisfies a test, in key order, and
  the row with the greatest key;
* `eq_of_mem_iff` --- two increasing lists of rows with the same members are equal, which
  turns a membership law into an equation between lists.
-/

/-- A table: rows with increasing keys. -/
structure OrderedTable (κ β : Type*) [LinearOrder κ] where
  rows : List (κ × β)
  /-- The keys increase along the rows, so every key has at most one row. -/
  increasing : rows.Pairwise fun a b => a.1 < b.1

namespace OrderedTable

variable {κ β : Type*} [LinearOrder κ]

/-- Rows are ordered by their keys alone. -/
def KeyLt (a b : κ × β) : Prop := a.1 < b.1

instance : Std.Irrefl (KeyLt : κ × β → κ × β → Prop) := ⟨fun a => lt_irrefl a.1⟩

instance : Std.Antisymm (KeyLt : κ × β → κ × β → Prop) :=
  ⟨fun _ _ hab hba => absurd hab (lt_asymm hba)⟩

/-- Increasing lists of rows with the same members are equal. -/
theorem eq_of_mem_iff {l m : List (κ × β)} (hl : l.Pairwise fun a b => a.1 < b.1)
    (hm : m.Pairwise fun a b => a.1 < b.1) (h : ∀ r, r ∈ l ↔ r ∈ m) : l = m :=
  List.Pairwise.eq_of_mem_iff (r := KeyLt) hl hm h

/-- The table without rows. -/
def empty : OrderedTable κ β := ⟨[], List.Pairwise.nil⟩

@[simp] theorem rows_empty : (empty : OrderedTable κ β).rows = [] := rfl

/-! ## Writing -/

/-- Put a row in its place, over the row with the same key if there is one. -/
def insertRow (k : κ) (v : β) : List (κ × β) → List (κ × β)
  | [] => [(k, v)]
  | r :: rs =>
      if k < r.1 then (k, v) :: r :: rs
      else if k = r.1 then (k, v) :: rs
      else r :: insertRow k v rs

theorem mem_insertRow {k : κ} {v : β} {l : List (κ × β)}
    (hl : l.Pairwise fun a b => a.1 < b.1) {r : κ × β} :
    r ∈ insertRow k v l ↔ r = (k, v) ∨ r.1 ≠ k ∧ r ∈ l := by
  induction l with
  | nil => simp [insertRow]
  | cons a l ih =>
    obtain ⟨ha, hl'⟩ := List.pairwise_cons.mp hl
    rw [insertRow]
    split_ifs with hlt heq
    · -- every key here is above the new one
      have hne : ∀ b ∈ a :: l, b.1 ≠ k := by
        intro b hb hbk
        rcases List.mem_cons.mp hb with rfl | hb
        · exact absurd hbk (ne_of_gt hlt)
        · exact absurd hbk (ne_of_gt (lt_trans hlt (ha b hb)))
      rw [List.mem_cons]
      exact or_congr_right ⟨fun h => ⟨hne r h, h⟩, fun h => h.2⟩
    · have hne : ∀ b ∈ l, b.1 ≠ k := fun b hb => ne_of_gt (heq ▸ ha b hb)
      rw [List.mem_cons, List.mem_cons]
      refine or_congr_right ⟨fun h => ⟨hne r h, Or.inr h⟩, ?_⟩
      rintro ⟨hrk, rfl | h⟩
      · exact absurd heq.symm hrk
      · exact h
    · rw [List.mem_cons, ih hl', List.mem_cons]
      constructor
      · rintro (rfl | rfl | ⟨hrk, h⟩)
        · exact Or.inr ⟨fun h => heq h.symm, Or.inl rfl⟩
        · exact Or.inl rfl
        · exact Or.inr ⟨hrk, Or.inr h⟩
      · rintro (rfl | ⟨hrk, rfl | h⟩)
        · exact Or.inr (Or.inl rfl)
        · exact Or.inl rfl
        · exact Or.inr (Or.inr ⟨hrk, h⟩)

theorem pairwise_insertRow (k : κ) (v : β) {l : List (κ × β)}
    (hl : l.Pairwise fun a b => a.1 < b.1) :
    (insertRow k v l).Pairwise fun a b => a.1 < b.1 := by
  induction l with
  | nil => exact List.pairwise_singleton _ _
  | cons a l ih =>
    obtain ⟨ha, hl'⟩ := List.pairwise_cons.mp hl
    rw [insertRow]
    split_ifs with hlt heq
    · refine List.pairwise_cons.mpr ⟨fun b hb => ?_, hl⟩
      rcases List.mem_cons.mp hb with rfl | hb
      · exact hlt
      · exact lt_trans hlt (ha b hb)
    · exact List.pairwise_cons.mpr ⟨fun b hb => heq ▸ ha b hb, hl'⟩
    · refine List.pairwise_cons.mpr ⟨fun b hb => ?_, ih hl'⟩
      rcases (mem_insertRow hl').mp hb with rfl | ⟨-, hb⟩
      · exact lt_of_le_of_ne (not_lt.mp hlt) (Ne.symm heq)
      · exact ha b hb

/-- Write the row of a key. -/
def insert (t : OrderedTable κ β) (k : κ) (v : β) : OrderedTable κ β :=
  ⟨insertRow k v t.rows, pairwise_insertRow k v t.increasing⟩

@[simp] theorem mem_insert {t : OrderedTable κ β} {k : κ} {v : β} {r : κ × β} :
    r ∈ (t.insert k v).rows ↔ r = (k, v) ∨ r.1 ≠ k ∧ r ∈ t.rows :=
  mem_insertRow t.increasing

/-- Drop the row of a key. -/
def remove (t : OrderedTable κ β) (k : κ) : OrderedTable κ β :=
  ⟨t.rows.filter fun r => decide (r.1 ≠ k), t.increasing.sublist List.filter_sublist⟩

@[simp] theorem mem_remove {t : OrderedTable κ β} {k : κ} {r : κ × β} :
    r ∈ (t.remove k).rows ↔ r ∈ t.rows ∧ r.1 ≠ k := by
  simp [remove]

/-- Drop the rows of several keys, one after the other. -/
def removeAll (t : OrderedTable κ β) (ks : List κ) : OrderedTable κ β :=
  ks.foldl remove t

@[simp] theorem mem_removeAll {t : OrderedTable κ β} {ks : List κ} {r : κ × β} :
    r ∈ (t.removeAll ks).rows ↔ r ∈ t.rows ∧ r.1 ∉ ks := by
  induction ks generalizing t with
  | nil => simp [removeAll]
  | cons k ks ih =>
    rw [removeAll, List.foldl_cons, ← removeAll, ih, mem_remove, List.mem_cons, not_or, and_assoc]

/-! ## Reading -/

/-- The rows whose key satisfies `p`, in key order. -/
def range (t : OrderedTable κ β) (p : κ → Bool) : List (κ × β) :=
  t.rows.filter fun r => p r.1

theorem pairwise_range (t : OrderedTable κ β) (p : κ → Bool) :
    (t.range p).Pairwise fun a b => a.1 < b.1 :=
  t.increasing.sublist List.filter_sublist

@[simp] theorem mem_range {t : OrderedTable κ β} {p : κ → Bool} {r : κ × β} :
    r ∈ t.range p ↔ r ∈ t.rows ∧ p r.1 = true := by
  simp [range]

/-- Dropping the keys a range read returned drops exactly the rows of that range. -/
theorem mem_removeAll_range {t : OrderedTable κ β} {p : κ → Bool} {r : κ × β} :
    r ∈ (t.removeAll ((t.range p).map Prod.fst)).rows ↔ r ∈ t.rows ∧ p r.1 = false := by
  rw [mem_removeAll, List.mem_map]
  refine and_congr_right fun hr => ?_
  rw [← Bool.not_eq_true]
  refine not_congr ⟨?_, fun hp => ⟨r, mem_range.mpr ⟨hr, hp⟩, rfl⟩⟩
  rintro ⟨s, hs, hsr⟩
  rw [← hsr]
  exact (mem_range.mp hs).2

/-- The row with the greatest key. -/
def last? (t : OrderedTable κ β) : Option (κ × β) := t.rows.getLast?

theorem last?_eq_none_iff {t : OrderedTable κ β} : t.last? = none ↔ t.rows = [] :=
  List.getLast?_eq_none_iff

/-- A row that no other row's key exceeds is the last one. -/
theorem last?_eq_some {t : OrderedTable κ β} {r : κ × β} (hr : r ∈ t.rows)
    (hmax : ∀ s ∈ t.rows, s.1 ≤ r.1) : t.last? = some r := by
  obtain ⟨l, s, hl⟩ : ∃ l s, t.rows = l ++ [s] :=
    (List.eq_nil_or_concat' t.rows).resolve_left (List.ne_nil_of_mem hr)
  rw [last?, hl, List.getLast?_concat]
  rw [hl, List.mem_append, List.mem_singleton] at hr
  rcases hr with hr | rfl
  · have hinc := t.increasing
    rw [hl] at hinc
    have hlt : r.1 < s.1 := (List.pairwise_append.mp hinc).2.2 r hr s (List.mem_singleton_self s)
    have hle : s.1 ≤ r.1 := hmax s (by rw [hl]; exact List.mem_concat_self)
    exact absurd hle (not_le.mpr hlt)
  · rfl

end OrderedTable
