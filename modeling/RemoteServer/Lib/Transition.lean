import Mathlib.Logic.Relation

/-! Labeled runs of a transition relation, newest step last, and monitors that
record a history beside a run without taking part in it. -/
namespace Transition
variable {S T L H K : Type}

inductive Run (step : S → L → S → Prop) (s : S) : List L → S → Prop where
  | refl : Run step s [] s
  | snoc : Run step s labels t → step t label u → Run step s (labels ++ [label]) u

namespace Run
variable {step : S → L → S → Prop} {s t u : S}

theorem single (h : step s label t) : Run step s [label] t := by
  simpa using (refl : Run step s [] s).snoc h

theorem trans (first : Run step s labels t) (second : Run step t more u) :
    Run step s (labels ++ more) u := by
  induction second with
  | refl => simpa using first
  | snoc _ last ih => simpa only [List.append_assoc] using ih.snoc last

theorem map {step' : T → K → T → Prop} (f : S → T) (g : L → K)
    (steps : ∀ {s label t}, step s label t → step' (f s) (g label) (f t)) (run : Run step s labels t) :
    Run step' (f s) (labels.map g) (f t) := by
  induction run with
  | refl => exact .refl
  | snoc _ last ih => simpa only [List.map_append, List.map_cons, List.map_nil] using ih.snoc (steps last)

theorem deterministic (run : Run step s labels t)
    (run' : Run step s labels u) (unique : ∀ s label t u, step s label t → step s label u → u = t) :
    u = t := by
  induction run generalizing u with
  | refl =>
    generalize same : ([] : List L) = labels at run'
    cases run' with
    | refl => rfl
    | snoc => simp at same
  | snoc _ last ih =>
    generalize same : _ ++ [_] = all at run'
    cases run' with
    | refl => simp at same
    | snoc first last' =>
      obtain ⟨rfl, label⟩ := List.append_inj' same rfl
      obtain rfl := List.singleton_inj.mp label
      obtain rfl := ih first
      exact unique _ _ _ _ last last'

/-- What the first state satisfies and every step preserves holds of every
state a run reaches. -/
theorem invariant (P : S → Prop) (preserves : ∀ {s label t}, P s → step s label t → P t)
    (run : Run step s labels t) (initial : P s) : P t := by
  induction run with
  | refl => exact initial
  | snoc _ last ih => exact preserves ih last

/-- As `invariant`, when the steps preserve the property only for labels that
satisfy a side condition. -/
theorem invariant_of (P : S → Prop) {Q : L → Prop}
    (preserves : ∀ {s label t}, P s → Q label → step s label t → P t)
    (run : Run step s labels t) (conditions : ∀ label ∈ labels, Q label) (initial : P s) : P t := by
  induction run with
  | refl => exact initial
  | snoc _ last ih =>
    refine preserves (ih fun label member => conditions label ?_) (conditions _ ?_) last
    · exact List.mem_append_left _ member
    · simp

end Run

/-- A history updated from the states before and after each step. -/
abbrev Monitor (S L H : Type) := S → L → S → H → H

/-- The relation with a monitor running beside it. -/
def Monitor.step (monitor : Monitor S L H) (step : S → L → S → Prop) :
    S × H → L → S × H → Prop :=
  fun before label after => step before.1 label after.1 ∧
    after.2 = monitor before.1 label after.1 before.2

/-- A monitor never blocks: every run has its history. -/
theorem Monitor.records (monitor : Monitor S L H) {step : S → L → S → Prop}
    (run : Run step s labels t) (initial : H) :
    ∃ history, Run (monitor.step step) (s, initial) labels (t, history) := by
  induction run with
  | refl => exact ⟨initial, .refl⟩
  | snoc _ last ih =>
    obtain ⟨history, run⟩ := ih
    exact ⟨monitor _ _ _ history, run.snoc ⟨last, rfl⟩⟩

theorem Monitor.forget (monitor : Monitor S L H) {step : S → L → S → Prop} {before after : S × H}
    (run : Run (monitor.step step) before labels after) : Run step before.1 labels after.1 := by
  induction run with
  | refl => exact .refl
  | snoc _ last ih => exact ih.snoc last.1

theorem Monitor.congr {first second : Monitor S L H} {step : S → L → S → Prop} {Q : L → Prop}
    (agree : ∀ s label t history, Q label → first s label t history = second s label t history)
    (run : Run (first.step step) before labels after) (conditions : ∀ label ∈ labels, Q label) :
    Run (second.step step) before labels after := by
  induction run with
  | refl => exact .refl
  | snoc _ last ih =>
    have run := ih fun label member => conditions label (List.mem_append_left _ member)
    refine run.snoc ⟨last.1, ?_⟩
    rw [last.2, agree]
    exact conditions _ (by simp)

def Monitor.prod (first : Monitor S L H) (second : Monitor S L K) : Monitor S L (H × K) :=
  fun s label t history => (first s label t history.1, second s label t history.2)

theorem Monitor.extend {first : Monitor S L H} (second : Monitor S L K) {step : S → L → S → Prop}
    {before after : S × H} (run : Run (first.step step) before labels after) (initial : K) :
    ∃ history, Run ((first.prod second).step step) (before.1, before.2, initial) labels
      (after.1, after.2, history) := by
  induction run with
  | refl => exact ⟨initial, .refl⟩
  | @snoc labels t label u _ last ih =>
    obtain ⟨history, run⟩ := ih
    refine ⟨second t.1 label u.1 history, run.snoc ⟨last.1, ?_⟩⟩
    exact Prod.ext last.2 rfl

end Transition
