import Mathlib.Data.Finset.Card
import Mathlib.Logic.Function.Basic

/-! The entries of a partial map that have a property, counted. Changing an entry changes
the count by what the old and the new entry are worth. -/
namespace PartialMap
variable {κ α : Type} {S S' : Finset κ} {m : κ → Option α} {P : α → Bool} {k q : κ} {n n' : Nat}
  {a : α}

/-- The set holds the keys of the entries with the property. -/
structure Census (P : α → Bool) (m : κ → Option α) (S : Finset κ) : Prop where
  mem : ∀ k, k ∈ S ↔ (m k).any P = true

/-- What an entry is worth. -/
def worth (P : α → Bool) (entry : Option α) : Nat := if entry.any P then 1 else 0

@[simp] theorem worth_none (P : α → Bool) : worth P none = 0 := rfl

@[simp] theorem worth_some (P : α → Bool) (a : α) : worth P (some a) = if P a then 1 else 0 := rfl

/-- So many entries have the property. -/
def Counted (P : α → Bool) (m : κ → Option α) (n : Nat) : Prop := ∃ S, Census P m S ∧ S.card = n

namespace Census

theorem unique (census : Census P m S) (census' : Census P m S') : S' = S := by
  ext k
  rw [census.mem, census'.mem]

theorem update [DecidableEq κ] (census : Census P m S) (k : κ) (entry : Option α) :
    Census P (Function.update m k entry) (if entry.any P then insert k S else S.erase k) where
  mem q := by
    by_cases here : q = k
    · subst here
      rw [Function.update_self]
      split <;> simp_all
    · rw [Function.update_of_ne here]
      split <;> simp [here, census.mem]

end Census

namespace Counted

theorem of_census (census : Census P m S) : Counted P m S.card := ⟨S, census, rfl⟩

theorem empty (P : α → Bool) : Counted P (fun _ : κ => none) 0 :=
  ⟨∅, ⟨fun k => by simp⟩, Finset.card_empty⟩

theorem unique (counted : Counted P m n) (counted' : Counted P m n') : n' = n := by
  obtain ⟨S, census, rfl⟩ := counted
  obtain ⟨S', census', rfl⟩ := counted'
  rw [census.unique census']

theorem positive (counted : Counted P m n) (present : m k = some a) (has : P a = true) : 0 < n := by
  obtain ⟨S, census, rfl⟩ := counted
  exact Finset.card_pos.mpr ⟨k, (census.mem k).mpr (by rw [present, Option.any_some, has])⟩

/-- Nothing is counted where no entry has the property. -/
theorem zero (counted : Counted P m n) (none : ∀ k a, m k = some a → P a = false) : n = 0 := by
  obtain ⟨S, census, rfl⟩ := counted
  rw [Finset.card_eq_zero, Finset.eq_empty_iff_forall_notMem]
  intro k member
  obtain ⟨a, present, has⟩ := (Option.any_eq_true ..).mp ((census.mem k).mp member)
  rw [none k a present] at has
  contradiction

theorem worth_le (counted : Counted P m n) (k : κ) : worth P (m k) ≤ n := by
  rw [worth]
  split
  · rename_i has
    obtain ⟨a, present, has⟩ := (Option.any_eq_true ..).mp has
    exact counted.positive present has
  · exact Nat.zero_le n

variable [DecidableEq κ]

theorem update (counted : Counted P m n) {entry : Option α}
    (balance : n' + worth P (m k) = n + worth P entry) :
    Counted P (Function.update m k entry) n' := by
  obtain ⟨S, census, rfl⟩ := counted
  refine ⟨_, census.update k entry, ?_⟩
  rw [worth, worth] at balance
  by_cases before : (m k).any P = true <;> by_cases after : entry.any P = true
  · rw [if_pos before, if_pos after] at balance
    rw [if_pos after, Finset.insert_eq_of_mem ((census.mem k).mpr before)]
    omega
  · have inside : k ∈ S := (census.mem k).mpr before
    have positive := Finset.card_pos.mpr ⟨k, inside⟩
    rw [if_pos before, if_neg after] at balance
    rw [if_neg after, Finset.card_erase_of_mem inside]
    omega
  · rw [if_neg before, if_pos after] at balance
    rw [if_pos after, Finset.card_insert_of_notMem (fun inside => before ((census.mem k).mp inside))]
    omega
  · rw [if_neg before, if_neg after] at balance
    rw [if_neg after, Finset.erase_eq_of_notMem fun inside => before ((census.mem k).mp inside)]
    omega

/-- Two entries changed. -/
theorem update_two (counted : Counted P m n) (apart : q ≠ k) {entry entry' : Option α}
    (balance : n' + worth P (m k) + worth P (m q) = n + worth P entry + worth P entry') :
    Counted P (Function.update (Function.update m k entry) q entry') n' := by
  have enough := counted.worth_le k
  have first : Counted P (Function.update m k entry) (n + worth P entry - worth P (m k)) :=
    counted.update (by omega)
  refine first.update ?_
  rw [Function.update_of_ne apart]
  omega

end Counted
end PartialMap
