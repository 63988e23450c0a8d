/-! Loops that may run for ever. A computation is a function of a fuel; it returns
what it yields with any fuel from some amount on, and diverges if no fuel is enough. -/
namespace Loop
variable {σ α β : Type}

def Returns (x : Nat → Option α) (a : α) : Prop := ∃ enough, ∀ fuel, enough ≤ fuel → x fuel = some a

def Diverges (x : Nat → Option α) : Prop := ∀ fuel, x fuel = none

namespace Returns
variable {x : Nat → Option α} {a b : α}

theorem pure (a : α) : Returns (fun _ => some a) a := ⟨0, fun _ _ => rfl⟩

theorem unique (first : Returns x a) (second : Returns x b) : a = b := by
  obtain ⟨enough, yields⟩ := first
  obtain ⟨enough', yields'⟩ := second
  have same := (yields _ (Nat.le_max_left enough enough')).symm.trans (yields' _ (Nat.le_max_right ..))
  exact Option.some.inj same

theorem bind {f : Nat → α → Option β} {b : β} (first : Returns x a) (second : Returns (f · a) b) :
    Returns (fun fuel => (x fuel).bind (f fuel)) b := by
  obtain ⟨enough, yields⟩ := first
  obtain ⟨enough', yields'⟩ := second
  refine ⟨max enough enough', fun fuel le => ?_⟩
  simp only [yields fuel (by omega), Option.bind_some]
  exact yields' fuel (by omega)

theorem map (first : Returns x a) (f : α → β) : Returns (fun fuel => (x fuel).map f) (f a) := by
  obtain ⟨enough, yields⟩ := first
  exact ⟨enough, fun fuel le => by simp only [yields fuel le, Option.map_some]⟩

theorem not_diverges (returns : Returns x a) : ¬Diverges x := by
  obtain ⟨enough, yields⟩ := returns
  intro diverges
  have yielded := yields enough (Nat.le_refl _)
  rw [diverges enough] at yielded
  contradiction

end Returns

/-- `while (guard) body`, given up when the fuel is spent. The body may loop itself,
with the fuel that is left. -/
def run (guard : σ → Bool) (body : Nat → σ → Option σ) : Nat → σ → Option σ
  | 0, _ => none
  | fuel + 1, s => if guard s then (body fuel s).bind (run guard body fuel) else some s

variable {guard : σ → Bool} {body : Nat → σ → Option σ} {s t u : σ} {fuel : Nat}

theorem run_done (done : guard s = false) : run guard body (fuel + 1) s = some s := by
  simp only [run, done, Bool.false_eq_true, if_false]

theorem run_next (goes : guard s = true) :
    run guard body (fuel + 1) s = (body fuel s).bind (run guard body fuel) := by
  simp only [run, goes, if_true]

theorem returns_done (done : guard s = false) : Returns (run guard body · s) s := by
  refine ⟨1, fun fuel le => ?_⟩
  cases fuel with
  | zero => omega
  | succ fuel => exact run_done done

theorem returns_next (goes : guard s = true) (first : Returns (body · s) t)
    (rest : Returns (run guard body · t) u) : Returns (run guard body · s) u := by
  obtain ⟨enough, yields⟩ := first.bind rest
  refine ⟨enough + 1, fun fuel le => ?_⟩
  cases fuel with
  | zero => omega
  | succ fuel => exact (run_next goes).trans (yields fuel (by omega))

/-- What the guard lets in and the body keeps in, no run leaves. -/
theorem diverges (I : σ → Prop) (goes : ∀ s, I s → guard s = true)
    (keeps : ∀ s fuel t, I s → body fuel s = some t → I t) (start : I s) :
    Diverges (run guard body · s) := by
  intro fuel
  induction fuel generalizing s with
  | zero => rfl
  | succ fuel ih =>
    refine (run_next (goes s start)).trans ?_
    cases next : body fuel s with
    | none => rfl
    | some t => exact ih (keeps s fuel t start next)

end Loop
