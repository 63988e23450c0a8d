import Mathlib.Order.Bounds.Basic
import Mathlib.Order.Nat

/-! Words no end of which is also a beginning, and where such a word first occurs. -/
namespace Words
variable {α : Type} {word noise rest : List α}

/-- No proper end of the word is a beginning of it. -/
def Unbordered (word : List α) : Prop := ∀ j < word.length, 0 < j → ¬word.drop j <+: word

instance [DecidableEq α] (word : List α) : Decidable (Unbordered word) :=
  inferInstanceAs (Decidable (∀ j < word.length, 0 < j → ¬word.drop j <+: word))

/-- An occurrence that runs into the word itself begins with one of its ends. -/
theorem drop_prefix_of_straddles {before : List α} (occurs : word <+: before ++ (word ++ rest))
    (short : before.length < word.length) : word.drop before.length <+: word := by
  have shifted : word.drop before.length <+: word ++ rest := by
    obtain ⟨tail, split⟩ := occurs
    have dropped := congrArg (List.drop before.length) split
    rw [List.drop_left, List.drop_append_of_le_length short.le] at dropped
    exact ⟨tail, dropped⟩
  refine List.prefix_of_prefix_length_le shifted (List.prefix_append _ _) ?_
  rw [List.length_drop]
  omega

theorem isLeast_occurrence (unbordered : Unbordered word) (quiet : ¬word <:+: noise) :
    IsLeast {i | word <+: (noise ++ (word ++ rest)).drop i} noise.length := by
  constructor
  · change word <+: _
    rw [List.drop_left]
    exact List.prefix_append _ _
  · intro i occurs
    change word <+: (noise ++ (word ++ rest)).drop i at occurs
    by_contra early
    rw [Nat.not_le] at early
    rw [List.drop_append_of_le_length early.le] at occurs
    by_cases within : word.length ≤ (noise.drop i).length
    · have whole := List.prefix_of_prefix_length_le occurs (List.prefix_append _ _) within
      exact quiet (whole.isInfix.trans (List.drop_suffix i noise).isInfix)
    · rw [Nat.not_le] at within
      have positive : 0 < (noise.drop i).length := by
        rw [List.length_drop]
        omega
      exact unbordered _ within positive (drop_prefix_of_straddles occurs within)

end Words
