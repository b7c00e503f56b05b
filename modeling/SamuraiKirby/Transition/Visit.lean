/-
The order in which an unordered collection is visited.

A hash map visits its keys in an order that nothing specifies.  `visitOrder` takes
the order as an argument: a visit passes every key once, and every order of the
keys is the order of some visit.
-/
import Mathlib.Data.List.Dedup
import Mathlib.Data.List.Perm.Basic

namespace Transition

universe u

variable {α : Type u} [DecidableEq α]

/-- The keys that `preference` lists, as it lists them, and then the others. -/
def visitOrder (keys preference : List α) : List α :=
  preference.dedup.filter (· ∈ keys) ++ keys.filter (· ∉ preference)

variable {keys : List α}

theorem mem_visitOrder (keys preference : List α) (a : α) :
    a ∈ visitOrder keys preference ↔ a ∈ keys := by
  unfold visitOrder
  by_cases h : a ∈ preference <;> simp [h]

theorem visitOrder_nodup (h : keys.Nodup) (preference : List α) :
    (visitOrder keys preference).Nodup := by
  unfold visitOrder
  refine List.nodup_append.2 ⟨(List.nodup_dedup preference).filter _, h.filter _, ?_⟩
  intro a ha b hb heq
  subst heq
  simp only [List.mem_filter, List.mem_dedup, decide_eq_true_eq] at ha hb
  exact hb.2 ha.1

/-- Every order of the keys is the order of some visit. -/
theorem visitOrder_of_perm (h : keys.Nodup) {order : List α} (hperm : order.Perm keys) :
    visitOrder keys order = order := by
  have hnodup : order.Nodup := hperm.symm.nodup h
  have hall : order.filter (· ∈ keys) = order :=
    List.filter_eq_self.2 fun a ha => by simpa using hperm.mem_iff.1 ha
  have hnone : keys.filter (· ∉ order) = [] :=
    List.filter_eq_nil_iff.2 fun a ha => by simpa using hperm.mem_iff.2 ha
  rw [visitOrder, hnodup.dedup, hall, hnone, List.append_nil]

end Transition
