import RemoteServer.Lib.Transition

/-! Transition relations that match each other step for step, and so have the same
traces. -/
namespace Transition
variable {S T U L : Type}

/-- Related states take the same steps, to related states. -/
structure Bisimulation (first : S → L → S → Prop) (second : T → L → T → Prop) (R : S → T → Prop) :
    Prop where
  forth : ∀ {s t label s'}, R s t → first s label s' → ∃ t', second t label t' ∧ R s' t'
  back : ∀ {s t label t'}, R s t → second t label t' → ∃ s', first s label s' ∧ R s' t'

namespace Bisimulation
variable {first : S → L → S → Prop} {second : T → L → T → Prop} {third : U → L → U → Prop}
  {R : S → T → Prop} {Q : T → U → Prop} {s s' : S} {t : T} {u : U}

theorem symm (bisim : Bisimulation first second R) : Bisimulation second first fun t s => R s t where
  forth := bisim.back
  back := bisim.forth

theorem trans (bisim : Bisimulation first second R) (next : Bisimulation second third Q) :
    Bisimulation first third fun s u => ∃ t, R s t ∧ Q t u where
  forth := by
    rintro s u label s' ⟨t, related, related'⟩ step
    obtain ⟨t', step, after⟩ := bisim.forth related step
    obtain ⟨u', step, after'⟩ := next.forth related' step
    exact ⟨u', step, t', after, after'⟩
  back := by
    rintro s u label u' ⟨t, related, related'⟩ step
    obtain ⟨t', step, after'⟩ := next.back related' step
    obtain ⟨s', step, after⟩ := bisim.back related step
    exact ⟨s', step, t', after, after'⟩

theorem forth_run (bisim : Bisimulation first second R) (related : R s t) {trace : List L}
    (run : Run first s trace s') : ∃ t', Run second t trace t' ∧ R s' t' := by
  induction run with
  | refl => exact ⟨t, .refl, related⟩
  | snoc _ last ih =>
    obtain ⟨t', run, related⟩ := ih
    obtain ⟨t'', step, related⟩ := bisim.forth related last
    exact ⟨t'', run.snoc step, related⟩

/-- From related states the two relations have the same traces. -/
theorem traces_iff (bisim : Bisimulation first second R) (related : R s t) (trace : List L) :
    (∃ s', Run first s trace s') ↔ ∃ t', Run second t trace t' := by
  constructor
  · rintro ⟨s', run⟩
    obtain ⟨t', run, _⟩ := bisim.forth_run related run
    exact ⟨t', run⟩
  · rintro ⟨t', run⟩
    obtain ⟨s', run, _⟩ := bisim.symm.forth_run related run
    exact ⟨s', run⟩

end Bisimulation
end Transition
