import RemoteServer.Lib.PartialMap
import Mathlib.Logic.Function.Basic

/-! Partial maps with their keys renamed. A renaming of keys that is injective, with a
change of entries that follows it, commutes with every update. -/
namespace PartialMap
variable {κ ι α β : Type} {e : κ → ι} {g : α → β} {m : κ → Option α}

/-- The map with every key `k` renamed to `e k` and every entry `a` changed to `g a`. -/
noncomputable def rename (e : κ → ι) (g : α → β) (m : κ → Option α) : ι → Option β :=
  Function.extend e (fun k => (m k).map g) fun _ => none

section
variable (injective : Function.Injective e)
include injective

theorem rename_apply (m : κ → Option α) (k : κ) : rename e g m (e k) = (m k).map g :=
  injective.extend_apply ..

omit injective in
theorem rename_outside {i : ι} (outside : ¬∃ k, e k = i) : rename e g m i = none :=
  Function.extend_apply' _ _ _ outside

theorem rename_eq_some_iff {i : ι} {b : β} :
    rename e g m i = some b ↔ ∃ k a, e k = i ∧ m k = some a ∧ g a = b := by
  constructor
  · intro found
    by_cases inside : ∃ k, e k = i
    · obtain ⟨k, rfl⟩ := inside
      rw [rename_apply injective] at found
      obtain ⟨a, present, rfl⟩ := Option.map_eq_some_iff.mp found
      exact ⟨k, a, rfl, present, rfl⟩
    · rw [rename_outside inside] at found
      contradiction
  · rintro ⟨k, a, rfl, present, rfl⟩
    rw [rename_apply injective, present, Option.map_some]

/-- Two maps are equal if they agree on renamed keys and have no others. -/
theorem eq_rename {n : ι → Option β} (inside : ∀ k, n (e k) = (m k).map g)
    (outside : ∀ i, (¬∃ k, e k = i) → n i = none) : n = rename e g m := by
  funext i
  by_cases renamed : ∃ k, e k = i
  · obtain ⟨k, rfl⟩ := renamed
    rw [rename_apply injective, inside]
  · rw [rename_outside renamed, outside i renamed]

variable [DecidableEq κ] [DecidableEq ι]

theorem rename_update (m : κ → Option α) (k : κ) (entry : Option α) :
    Function.update (rename e g m) (e k) (entry.map g) = rename e g (Function.update m k entry) := by
  apply eq_rename injective
  · intro q
    simp only [Function.update_apply, injective.eq_iff, rename_apply injective]
    split <;> rfl
  · intro i outside
    rw [Function.update_of_ne fun same => outside ⟨k, same.symm⟩, rename_outside outside]

theorem rename_erase (m : κ → Option α) (k : κ) :
    Function.update (rename e g m) (e k) none = rename e g (Function.update m k none) :=
  rename_update injective m k none

theorem rename_modify {f : α → α} {f' : β → β} (comm : ∀ a, f' (g a) = g (f a)) (m : κ → Option α) (k : κ) :
    modify (rename e g m) (e k) f' = rename e g (modify m k f) := by
  have entry : ((m k).map g).map f' = ((m k).map f).map g := by
    rw [Option.map_map, Option.map_map]
    exact congrArg (Option.map · (m k)) (funext comm)
  rw [modify, rename_apply injective, entry, rename_update injective, modify]

theorem rename_remove (peer : α → Option κ) (peer' : β → Option ι)
    (comm : ∀ a, peer' (g a) = (peer a).map e) (m : κ → Option α) (k : κ) :
    remove peer' (rename e g m) (e k) = rename e g (remove peer m k) := by
  have linked : ((m k).map g).bind peer' = ((m k).bind peer).map e := by
    cases m k with
    | none => rfl
    | some a => exact comm a
  rw [remove, remove, rename_apply injective, linked]
  cases (m k).bind peer with
  | none => exact rename_erase injective m k
  | some q => simp only [Option.map_some, rename_erase injective]

end
end PartialMap
