import Mathlib.Logic.Function.Basic

/-! Sequential programs over a mutable store that may stop with a fault. A run
either ends with a value and the final store, or with the fault that stopped it. -/

structure Exec (σ ε α : Type) where
  run : σ → Except ε (α × σ)

namespace Exec
variable {σ ε α β : Type}

instance : CoeFun (Exec σ ε α) (fun _ => σ → Except ε (α × σ)) := ⟨Exec.run⟩

instance : Monad (Exec σ ε) where
  pure a := ⟨fun s => .ok (a, s)⟩
  bind x f := ⟨fun s =>
    match x.run s with
    | .ok (a, t) => (f a).run t
    | .error e => .error e⟩

def get : Exec σ ε σ := ⟨fun s => .ok (s, s)⟩

def modify (f : σ → σ) : Exec σ ε Unit := ⟨fun s => .ok ((), f s)⟩

def throw (e : ε) : Exec σ ε α := ⟨fun _ => .error e⟩

/-- A computation that neither reads nor writes the store. -/
def lift (x : Except ε α) : Exec σ ε α := ⟨fun s => x.map (fun a => (a, s))⟩

@[simp] theorem pure_run (a : α) (s : σ) : (pure a : Exec σ ε α) s = .ok (a, s) := rfl

@[simp] theorem get_run (s : σ) : (get : Exec σ ε σ) s = .ok (s, s) := rfl

@[simp] theorem modify_run (f : σ → σ) (s : σ) : (modify f : Exec σ ε Unit) s = .ok ((), f s) := rfl

@[simp] theorem throw_run (e : ε) (s : σ) : (throw e : Exec σ ε α) s = .error e := rfl

@[simp] theorem lift_ok (a : α) (s : σ) : (lift (.ok a) : Exec σ ε α) s = .ok (a, s) := rfl

@[simp] theorem lift_error (e : ε) (s : σ) : (lift (.error e) : Exec σ ε α) s = .error e := rfl

/-- The rule for sequencing: once the first part is known to return, the run
continues with its value in the store it left. -/
theorem bind_ok {x : Exec σ ε α} {f : α → Exec σ ε β} (h : x s = .ok (a, t)) :
    (x >>= f) s = f a t := by
  change (match x.run s with | .ok (a, t) => (f a).run t | .error e => .error e) = f a t
  rw [h]

theorem bind_error {x : Exec σ ε α} {f : α → Exec σ ε β} (h : x s = .error e) :
    (x >>= f) s = .error e := by
  change (match x.run s with | .ok (a, t) => (f a).run t | .error e => .error e) = .error e
  rw [h]

@[simp] theorem pure_bind (a : α) (f : α → Exec σ ε β) : ((pure a : Exec σ ε α) >>= f) = f a := rfl

@[simp] theorem get_bind (f : σ → Exec σ ε β) (s : σ) : (get >>= f) s = f s s := rfl

@[simp] theorem modify_bind (g : σ → σ) (f : Unit → Exec σ ε β) (s : σ) :
    (modify g >>= f) s = f () (g s) := rfl

theorem bind_eq_ok {x : Exec σ ε α} {f : α → Exec σ ε β} :
    (x >>= f) s = .ok r ↔ ∃ a t, x s = .ok (a, t) ∧ f a t = .ok r := by
  cases runs : x s with
  | error e =>
    rw [bind_error runs]
    constructor
    · intro returns
      cases returns
    · rintro ⟨_, _, returns, _⟩
      cases returns
  | ok after =>
    obtain ⟨a, t⟩ := after
    rw [bind_ok runs]
    constructor
    · exact fun continues => ⟨a, t, rfl, continues⟩
    · rintro ⟨_, _, returns, continues⟩
      cases returns
      exact continues

/-- No run of the program changes what `view` shows of the store. -/
structure Keeps (view : σ → τ) (x : Exec σ ε α) : Prop where
  same : ∀ {s a t}, x s = .ok (a, t) → view t = view s

namespace Keeps
variable {τ : Type} {view : σ → τ} {x : Exec σ ε α}

theorem pure (a : α) : Keeps view (pure a : Exec σ ε α) where
  same returns := by
    cases returns
    rfl

theorem get : Keeps view (get : Exec σ ε σ) where
  same returns := by
    cases returns
    rfl

theorem throw (e : ε) : Keeps view (throw e : Exec σ ε α) where
  same returns := by cases returns

theorem lift (x : Except ε α) : Keeps view (lift x : Exec σ ε α) where
  same returns := by
    cases x with
    | error e => cases returns
    | ok a =>
      cases returns
      rfl

theorem modify {f : σ → σ} (same : ∀ s, view (f s) = view s) :
    Keeps view (modify f : Exec σ ε Unit) where
  same returns := by
    cases returns
    exact same _

theorem bind {f : α → Exec σ ε β} (first : Keeps view x) (rest : ∀ a, Keeps view (f a)) :
    Keeps view (x >>= f) where
  same returns := by
    obtain ⟨a, t, runs, continues⟩ := bind_eq_ok.mp returns
    exact ((rest a).same continues).trans (first.same runs)

theorem ite {c : Prop} [Decidable c] {y : Exec σ ε α} (yes : Keeps view x) (no : Keeps view y) :
    Keeps view (if c then x else y) := by
  split
  · exact yes
  · exact no

end Keeps

end Exec
