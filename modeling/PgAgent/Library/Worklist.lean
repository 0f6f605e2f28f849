import Mathlib.Data.List.Lattice
import Mathlib.Data.List.Perm.Subperm
import Mathlib.Logic.Relation

/-!
# Searching a graph with a worklist

A search visits the nodes of a graph one after the other: the root, and then in any order nodes that
a visited node leads to, none of them twice. It is complete when everything that was found has been
visited.

* `Visited.mem_iff` --- a complete search has visited the nodes that can be reached, in whatever
  order;
* `Visited.complete_of_length` --- a search that has visited as many nodes as there can be is
  complete.
-/

namespace Worklist

universe u

variable {α : Type u} (next : α → List α) (root : α)

/-- `a` is found when the nodes `vs` have been visited. -/
def Found (vs : List α) (a : α) : Prop := a = root ∨ ∃ b ∈ vs, a ∈ next b

/-- The nodes that have been visited, the last one first. -/
inductive Visited : List α → Prop
  | start : Visited []
  | visit {vs : List α} {a : α} (h : Visited vs) (hnew : a ∉ vs)
      (hfound : Found next root vs a) :
      Visited (a :: vs)

/-- Everything that was found has been visited. -/
def Complete (vs : List α) : Prop := ∀ a, Found next root vs a → a ∈ vs

/-- There is a path from the root. -/
def Reachable : α → Prop := Relation.ReflTransGen (fun b a => a ∈ next b) root

variable {next root} {vs : List α} {a b : α}

theorem Reachable.start : Reachable next root root := Relation.ReflTransGen.refl

theorem Reachable.step (h : Reachable next root b) (ha : a ∈ next b) : Reachable next root a :=
  Relation.ReflTransGen.tail h ha

theorem Reachable.ind {motive : α → Prop} (hroot : motive root)
    (hstep : ∀ b a, Reachable next root b → motive b → a ∈ next b → motive a)
    (h : Reachable next root a) : motive a := by
  induction h with
  | refl => exact hroot
  | tail hb ha ih => exact hstep _ _ hb ih ha

namespace Visited

theorem nodup (h : Visited next root vs) : vs.Nodup := by
  induction h with
  | start => exact List.nodup_nil
  | visit _ hnew _ ih => exact List.nodup_cons.mpr ⟨hnew, ih⟩

theorem reachable (h : Visited next root vs) : ∀ a ∈ vs, Reachable next root a := by
  induction h with
  | start => exact fun a ha => absurd ha List.not_mem_nil
  | visit _ _ hfound ih =>
    intro a ha
    rcases List.mem_cons.mp ha with rfl | ha
    · rcases hfound with rfl | ⟨b, hb, hab⟩
      · exact Reachable.start
      · exact (ih b hb).step hab
    · exact ih a ha

/-- A complete search has visited what can be reached. -/
theorem mem_iff (h : Visited next root vs) (hcomplete : Complete next root vs) :
    a ∈ vs ↔ Reachable next root a := by
  refine ⟨h.reachable a, Reachable.ind (hcomplete root (Or.inl rfl)) ?_⟩
  exact fun b a _ hb ha => hcomplete a (Or.inr ⟨b, hb, ha⟩)

/-- A search that has visited as many nodes as there can be is complete. -/
theorem complete_of_length (h : Visited next root vs) {l : List α}
    (hl : ∀ a, Reachable next root a → a ∈ l) (hlength : l.length ≤ vs.length) :
    Complete next root vs := by
  have hsub : vs.Subperm l := h.nodup.subperm fun a ha => hl a (h.reachable a ha)
  have hperm := hsub.perm_of_length_le hlength
  intro a hfound
  refine hperm.mem_iff.mpr (hl a ?_)
  rcases hfound with rfl | ⟨b, hb, ha⟩
  · exact Reachable.start
  · exact (h.reachable b hb).step ha

end Visited

end Worklist
