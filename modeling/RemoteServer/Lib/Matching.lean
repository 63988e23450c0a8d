import Mathlib.Data.Finset.Card

/-! Partners across two finite sides. Where nobody is left free on both sides, the
matching is as large as it can be. -/
namespace Matching
variable {κ : Type} {A B : Finset κ} {partner : κ → Option κ}

/-- Whoever has a partner has it on the other side, and is its partner. -/
structure Across (A B : Finset κ) (partner : κ → Option κ) : Prop where
  left : ∀ {a b}, a ∈ A → partner a = some b → b ∈ B ∧ partner b = some a
  right : ∀ {a b}, b ∈ B → partner b = some a → a ∈ A ∧ partner a = some b

def matched (partner : κ → Option κ) (A : Finset κ) : Finset κ := A.filter fun a => (partner a).isSome

theorem mem_matched {a : κ} : a ∈ matched partner A ↔ a ∈ A ∧ ∃ b, partner a = some b := by
  rw [matched, Finset.mem_filter, Option.isSome_iff_exists]

theorem card_matched_le (partner : κ → Option κ) (A : Finset κ) :
    (matched partner A).card ≤ A.card :=
  Finset.card_le_card (Finset.filter_subset _ _)

theorem matched_full (full : ∀ a ∈ A, (partner a).isSome) : matched partner A = A :=
  Finset.filter_true_of_mem full

/-- The partners of one side are those of the other. -/
theorem Across.card_matched (across : Across A B partner) :
    (matched partner A).card = (matched partner B).card := by
  refine Finset.card_bij (fun a member => (partner a).get (Finset.mem_filter.mp member).2) ?_ ?_ ?_
  · intro a member
    obtain ⟨inA, b, link⟩ := mem_matched.mp member
    obtain ⟨inB, back⟩ := across.left inA link
    simp only [link, Option.get_some]
    exact mem_matched.mpr ⟨inB, a, back⟩
  · intro a member a' member' same
    obtain ⟨inA, b, link⟩ := mem_matched.mp member
    obtain ⟨inA', b', link'⟩ := mem_matched.mp member'
    simp only [link, link', Option.get_some] at same
    subst same
    exact Option.some.inj ((across.left inA link).2.symm.trans (across.left inA' link').2)
  · intro b member
    obtain ⟨inB, a, back⟩ := mem_matched.mp member
    obtain ⟨inA, link⟩ := across.right inB back
    refine ⟨a, mem_matched.mpr ⟨inA, b, link⟩, ?_⟩
    simp only [link, Option.get_some]

/-- With nobody free on both sides, everybody on the smaller side has a partner. -/
theorem Across.card_eq_min (across : Across A B partner)
    (settled : ∀ a ∈ A, ∀ b ∈ B, (partner a).isSome ∨ (partner b).isSome) :
    (matched partner A).card = min A.card B.card := by
  have equal := across.card_matched
  by_cases full : ∀ a ∈ A, (partner a).isSome
  · rw [matched_full full] at equal ⊢
    have below := card_matched_le partner B
    omega
  · push Not at full
    obtain ⟨a, inA, free⟩ := full
    have full : ∀ b ∈ B, (partner b).isSome := fun b inB => (settled a inA b inB).resolve_left free
    have below := card_matched_le partner A
    rw [matched_full full] at equal
    omega

end Matching
