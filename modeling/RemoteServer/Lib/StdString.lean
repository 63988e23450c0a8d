import Mathlib.Algebra.Group.Nat.Defs
import Mathlib.Data.List.DropRight
import Mathlib.Data.List.TakeWhile

/-! The members of C++'s `std::string` that a line parser uses. A position is a
`size_t`. A search that fails returns `npos`, the largest of them, and one more
than `npos` is 0. -/
namespace StdString
variable {α : Type} {s : List α}

def npos : Nat := 2 ^ 64 - 1

/-- `pos + 1`. -/
def next (pos : Nat) : Nat := (pos + 1) % 2 ^ 64

def position (p : α → Bool) (s : List α) : Nat :=
  if s.findIdx p < s.length then s.findIdx p else npos

def erase (s : List α) (pos n : Nat) : List α := s.take pos ++ s.drop (pos + n)

def substr (s : List α) (pos n : Nat) : List α := (s.drop pos).take n

theorem position_found (found : ∃ a ∈ s, p a = true) : position p s = s.findIdx p := by
  rw [position, if_pos (List.findIdx_lt_length_of_exists found)]

theorem position_none (none : ∀ a ∈ s, p a = false) : position p s = npos := by
  rw [position, List.findIdx_eq_length_of_false none, if_neg (Nat.lt_irrefl _)]

theorem next_found (fits : s.length < npos) (found : ∃ a ∈ s, p a = true) :
    next (position p s) = s.findIdx p + 1 := by
  have inside := List.findIdx_lt_length_of_exists found
  rw [position_found found, next]
  simp only [npos] at fits
  omega

theorem next_npos : next npos = 0 := rfl

/-- Either way the string is cut where the search ended. -/
theorem position_eq_or (fits : s.length < npos) (p : α → Bool) :
    position p s = s.findIdx p ∨ s.length ≤ position p s ∧ s.length = s.findIdx p := by
  by_cases found : ∃ a ∈ s, p a = true
  · exact .inl (position_found found)
  · have none : ∀ a ∈ s, p a = false := by simpa using found
    rw [position_none none, List.findIdx_eq_length_of_false none]
    exact .inr ⟨Nat.le_of_lt fits, rfl⟩

theorem take_position (fits : s.length < npos) (p : α → Bool) :
    s.take (position p s) = s.takeWhile fun a => !p a := by
  rw [List.takeWhile_eq_take_findIdx_not]
  simp only [Bool.not_not]
  obtain same | ⟨outside, ends⟩ := position_eq_or fits p
  · rw [same]
  · rw [List.take_of_length_le outside, ← ends, List.take_length]

theorem drop_position (fits : s.length < npos) (p : α → Bool) :
    s.drop (position p s) = s.dropWhile fun a => !p a := by
  rw [List.dropWhile_eq_drop_findIdx_not]
  simp only [Bool.not_not]
  obtain same | ⟨outside, ends⟩ := position_eq_or fits p
  · rw [same]
  · rw [List.drop_of_length_le outside, ← ends, List.drop_length]

variable [DecidableEq α]

/-! A string up to the first `c`. -/

theorem all_ne {c : α} (absent : c ∉ s) : ∀ a ∈ s, decide (a ≠ c) = true := by
  intro a member
  exact decide_eq_true fun same => absent (same ▸ member)

theorem takeWhile_ne {c : α} (absent : c ∉ s) : s.takeWhile (· ≠ c) = s :=
  List.takeWhile_eq_self_iff.mpr (all_ne absent)

theorem takeWhile_ne_append {c : α} (absent : c ∉ s) (t : List α) :
    (s ++ c :: t).takeWhile (· ≠ c) = s := by
  rw [List.takeWhile_append_of_pos (all_ne absent)]
  simp

theorem dropWhile_ne_append {c : α} (absent : c ∉ s) (t : List α) :
    (s ++ c :: t).dropWhile (· ≠ c) = c :: t := by
  rw [List.dropWhile_append_of_pos (all_ne absent)]
  simp

def findFirstOf (c : α) (s : List α) : Nat := position (· = c) s

def findFirstNotOf (c : α) (s : List α) : Nat := position (· ≠ c) s

def findLastNotOf (c : α) (s : List α) : Nat :=
  let back := s.reverse.findIdx (· ≠ c)
  if back < s.length then s.length - 1 - back else npos

/-- `erase(0, find_first_not_of(c))`. -/
theorem erase_leading (fits : s.length < npos) (c : α) :
    erase s 0 (findFirstNotOf c s) = s.dropWhile (· = c) := by
  rw [erase, List.take_zero, List.nil_append, Nat.zero_add, findFirstNotOf, drop_position fits]
  simp

/-- `erase(find_last_not_of(c) + 1, npos)`. -/
theorem erase_trailing (fits : s.length < npos) (c : α) :
    erase s (next (findLastNotOf c s)) npos = s.rdropWhile (· = c) := by
  have whole : s.rdropWhile (· = c) = s.take (s.length - s.reverse.findIdx (· ≠ c)) := by
    rw [List.rdropWhile, List.dropWhile_eq_drop_findIdx_not, List.reverse_drop, List.reverse_reverse,
      List.length_reverse]
    simp
  have rest (pos : Nat) : s.drop (pos + npos) = [] := List.drop_eq_nil_of_le (by omega)
  rw [erase, rest, List.append_nil, whole, findLastNotOf]
  have within : s.reverse.findIdx (· ≠ c) ≤ s.length :=
    Nat.le_trans List.findIdx_le_length (Nat.le_of_eq List.length_reverse)
  generalize s.reverse.findIdx (· ≠ c) = back at within
  simp only [npos] at fits
  congr 1
  simp only [next, npos]
  split <;> omega

theorem substr_before (fits : s.length < npos) (c : α) :
    substr s 0 (findFirstOf c s) = s.takeWhile (· ≠ c) := by
  rw [substr, List.drop_zero, findFirstOf, take_position fits]
  simp

theorem substr_after (fits : s.length < npos) {c : α} (found : c ∈ s) :
    substr s (next (findFirstOf c s)) npos = (s.dropWhile (· ≠ c)).tail := by
  have found' : ∃ a ∈ s, decide (a = c) = true := ⟨c, found, decide_eq_true rfl⟩
  have rest : (s.drop (s.findIdx (· = c) + 1)).length ≤ npos := by
    rw [List.length_drop]
    omega
  rw [substr, findFirstOf, next_found fits found', List.take_of_length_le rest, ← List.tail_drop,
    List.dropWhile_eq_drop_findIdx_not]
  simp

/-- Without a `c` the whole string is after it. -/
theorem substr_whole (fits : s.length < npos) {c : α} (absent : c ∉ s) :
    substr s (next (findFirstOf c s)) npos = s := by
  have none : ∀ a ∈ s, decide (a = c) = false := by
    intro a member
    exact decide_eq_false fun same => absent (same ▸ member)
  rw [findFirstOf, position_none none, next_npos, substr, List.drop_zero,
    List.take_of_length_le (Nat.le_of_lt fits)]

end StdString
