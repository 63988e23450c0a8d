import Mathlib.Algebra.BigOperators.Group.List.Basic
import Mathlib.Algebra.GroupWithZero.Nat
import Mathlib.Data.List.Induction
import Mathlib.Order.Bounds.Basic
import Mathlib.Order.Nat

/-! A queue that is served with every arrival, and with nothing else. What is left in
it is the largest excess of its latest arrivals over what could be served with them. -/
namespace Backlog

/-- What is left after the arrivals, when each is followed by a service of at most
this much. -/
def left (service : Nat) (arrivals : List Nat) : Nat :=
  arrivals.foldl (fun queue arrival => queue + arrival - service) 0

def excess (service : Nat) (arrivals : List Nat) : Nat := arrivals.sum - service * arrivals.length

variable {service : Nat} {arrivals recent : List Nat} {arrival : Nat}

theorem left_snoc : left service (arrivals ++ [arrival]) = left service arrivals + arrival - service := by
  rw [left, List.foldl_append]
  rfl

theorem excess_snoc : excess service (recent ++ [arrival]) =
    recent.sum + arrival - (service * recent.length + service) := by
  rw [excess, List.sum_append, List.sum_singleton, List.length_append, List.length_singleton,
    Nat.mul_add, Nat.mul_one]

theorem suffix_snoc_iff : recent <:+ arrivals ++ [arrival] ↔
    recent = [] ∨ ∃ before, before <:+ arrivals ∧ recent = before ++ [arrival] := by
  rw [List.suffix_concat_iff]
  simp only [and_comm]

/-- No stretch of latest arrivals exceeds what is left. -/
theorem excess_le (suffix : recent <:+ arrivals) : excess service recent ≤ left service arrivals := by
  induction arrivals using List.reverseRecOn generalizing recent with
  | nil =>
    obtain rfl := List.suffix_nil.mp suffix
    exact Nat.le_refl _
  | append_singleton arrivals arrival ih =>
    rcases suffix_snoc_iff.mp suffix with rfl | ⟨before, within, rfl⟩
    · exact Nat.zero_le _
    · have bound := ih within
      rw [excess] at bound
      rw [excess_snoc, left_snoc]
      omega

/-- Some stretch accounts for all that is left. -/
theorem exists_excess (service : Nat) (arrivals : List Nat) :
    ∃ recent, recent <:+ arrivals ∧ left service arrivals = excess service recent := by
  induction arrivals using List.reverseRecOn with
  | nil => exact ⟨[], List.suffix_refl _, rfl⟩
  | append_singleton arrivals arrival ih =>
    obtain ⟨before, within, same⟩ := ih
    by_cases empty : left service arrivals = 0
    · -- the queue was empty, so the last arrival stands alone
      refine ⟨[arrival], List.suffix_append _ _, ?_⟩
      rw [left_snoc, empty, excess, List.sum_singleton, List.length_singleton]
      omega
    · refine ⟨before ++ [arrival], suffix_snoc_iff.mpr (.inr ⟨before, within, rfl⟩), ?_⟩
      rw [excess] at same
      rw [left_snoc, excess_snoc]
      omega

theorem isGreatest_left (service : Nat) (arrivals : List Nat) :
    IsGreatest {n | ∃ recent, recent <:+ arrivals ∧ n = excess service recent} (left service arrivals) := by
  constructor
  · exact exists_excess service arrivals
  · rintro n ⟨recent, suffix, rfl⟩
    exact excess_le suffix

end Backlog
