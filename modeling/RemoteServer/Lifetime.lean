import RemoteServer.ConnStep
import RemoteServer.Pairing

/-! Identity and partner are fixed for life: what a connection has once logged in
with, and whom it has once been bound to, no callback changes while it lives. -/
namespace RemoteServer
open Transition PartialMap

def SessionState.rank : SessionState → Int
  | .err => -1
  | .raw => 0
  | .login => 1
  | .bind => 2
  | .die => 3

/-- `t` is the session `s` at a later time of its life. -/
structure Session.Becomes (s t : Session) : Prop where
  sid : t.m_sid = s.m_sid
  forward : s.m_state.rank ≤ t.m_state.rank
  alive : t.m_state ≠ .die ∧ t.m_state ≠ .err
  card : ∀ card, s.m_meetee0.userData = some card → t.m_meetee0.userData = some card
  peer : ∀ q, s.m_meetee1.bev = some q → t.m_meetee1.bev = some q

theorem Session.Becomes.trans {s t u : Session} (first : s.Becomes t) (second : t.Becomes u) :
    s.Becomes u where
  sid := second.sid.trans first.sid
  forward := first.forward.trans second.forward
  alive := second.alive
  card card held := second.card card (first.card card held)
  peer q linked := second.peer q (first.peer q linked)

/-- The ways a phase can change. -/
inductive Phase.Becomes : Phase → Phase → Prop where
  | same : Becomes phase phase
  | login {mine : Card} : Becomes .raw (.waiting mine)
  | loginBind {mine : Card} {q : BevPtr} {pc : Option Card} : Becomes .raw (.bound mine q pc)
  | bind {mine : Card} {q : BevPtr} {pc : Option Card} : Becomes (.waiting mine) (.bound mine q pc)

theorem Phase.alive (phase : Phase) : phase.state ≠ .die ∧ phase.state ≠ .err := by
  cases phase <;> simp [state]

theorem Phase.Becomes.session {c d : Conn} (becomes : c.phase.Becomes d.phase) (sid : d.sid = c.sid)
    (cfg : Option Configure) (b : BevPtr) : (c.session cfg b).Becomes (d.session cfg b) := by
  obtain ⟨_, phase, _, _⟩ := c
  obtain ⟨_, phase', _, _⟩ := d
  refine ⟨sid, ?_, phase'.alive, ?_, ?_⟩
  all_goals
    cases becomes <;> simp [Conn.session, Phase.state, Phase.card, Phase.peer, SessionState.rank]

namespace ConnStep
variable {cfg : Option Configure} {sid : Int} {label : Label} {v : Relay} {i : BevPtr} {c new : Conn}

theorem becomes (step : ConnStep cfg sid label v i new) (present : v i = some c)
    (unaccepted : ¬label.event.accepts i) : c.phase.Becomes new.phase ∧ new.sid = c.sid := by
  have old {d : Conn} (found : v i = some d) : d = c := Option.some.inj (found.symm.trans present)
  cases step with
  | accept accepts => exact absurd (Event.accepts_iff.mpr ⟨_, accepts⟩) unaccepted
  | stay found => exact old found ▸ ⟨.same, rfl⟩
  | drop found => exact old found ▸ ⟨.same, rfl⟩
  | wait found _ raw =>
    obtain rfl := old found
    exact ⟨raw ▸ .login, rfl⟩
  | «match» found _ raw =>
    obtain rfl := old found
    exact ⟨raw ▸ .loginBind, rfl⟩
  | matched found waiting =>
    obtain rfl := old found
    exact ⟨waiting ▸ .bind, rfl⟩
  | relay found => exact old found ▸ ⟨.same, rfl⟩
  | relayed found => exact old found ▸ ⟨.same, rfl⟩
  | idle found => exact old found ▸ ⟨.same, rfl⟩
  | drain found => exact old found ▸ ⟨.same, rfl⟩

theorem present (step : ConnStep cfg sid label v i new) (unaccepted : ¬label.event.accepts i) :
    ∃ c, v i = some c := by
  cases step with
  | accept accepts => exact absurd (Event.accepts_iff.mpr ⟨_, accepts⟩) unaccepted
  | _ => exact ⟨_, by assumption⟩

/-- A connection becomes bound only where a raw one logs in: itself or its peer. -/
theorem binds (step : ConnStep cfg sid label v i new) (present : v i = some c)
    (unaccepted : ¬label.event.accepts i) (single : c.phase.state ≠ .bind)
    (bound : new.phase.state = .bind) :
    ∃ q chunk, label.event = .connReadcb q chunk ∧ (q = i ∨ new.phase.peer = some q) ∧
      v.state q = some .raw := by
  have old {d : Conn} (found : v i = some d) : d = c := Option.some.inj (found.symm.trans present)
  cases step with
  | accept accepts => exact absurd (Event.accepts_iff.mpr ⟨_, accepts⟩) unaccepted
  | stay found => exact absurd bound (old found ▸ single)
  | drop found => exact absurd bound (old found ▸ single)
  | wait => contradiction
  | «match» found reads raw =>
    refine ⟨i, _, reads, .inl rfl, ?_⟩
    rw [Relay.state_present found, raw]
    rfl
  | @matched b d _ _ _ _ found waiting reads logsIn raw =>
    refine ⟨b, _, reads, .inr rfl, ?_⟩
    rw [Relay.state_present logsIn, raw]
    rfl
  | relay found _ phase => exact absurd (by rw [phase]; rfl) (old found ▸ single)
  | relayed found => exact absurd bound (old found ▸ single)
  | idle found => exact absurd bound (old found ▸ single)
  | drain found => exact absurd bound (old found ▸ single)

end ConnStep

variable {cfg : Option Configure} {w w' : World} {label : Label} {b : BevPtr} {s t : Session}

theorem World.Models.becomes {R : Phase → Phase → Prop} {v : Relay} (models : w.Models cfg R v)
    (step : Step cfg w label w') (before : w.sessionAt b = some s) (after : w'.sessionAt b = some t) :
    ∃ c d, v b = some c ∧ s = c.session cfg b ∧ t = d.session cfg b ∧
      ConnStep cfg w.m_sidCount label v b d ∧ ¬label.event.accepts b := by
  have r := models.represents
  obtain ⟨r', _⟩ := r.next models.paired step
  rw [r.sessionAt] at before
  rw [r'.sessionAt] at after
  obtain ⟨c, present, rfl⟩ := Option.map_eq_some_iff.mp before
  obtain ⟨d, found, rfl⟩ := Option.map_eq_some_iff.mp after
  exact ⟨c, d, present, rfl, rfl, Relay.conn_step models.paired cfg _ label found,
    Relay.not_accepts present (r.accepts_free step)⟩

theorem becomes_step (run : Run (Step cfg) World.init labels w) (step : Step cfg w label w')
    (before : w.sessionAt b = some s) (after : w'.sessionAt b = some t) : s.Becomes t := by
  obtain ⟨v, models⟩ := reachable run
  obtain ⟨c, d, present, rfl, rfl, connStep, unaccepted⟩ := models.becomes step before after
  obtain ⟨becomes, sid⟩ := connStep.becomes present unaccepted
  exact becomes.session sid cfg b

/-- In every run, whatever the library calls return, a connection that is there
before and after a callback keeps its number, its card and its peer once it has
them, its state moves forward only, and it becomes bound only in a read callback
in which it, or the connection it is bound to, logs in. -/
theorem identity_fixed (run : Run (Step cfg) World.init labels w) (step : Step cfg w label w')
    (before : w.sessionAt b = some s) (after : w'.sessionAt b = some t) :
    s.Becomes t ∧
    (s.m_state ≠ .bind → t.m_state = .bind → ∃ q chunk, label.event = .connReadcb q chunk ∧
      (q = b ∨ t.m_meetee1.bev = some q) ∧ w.stateOf q = some .raw ∧ w'.stateOf q = some .bind) := by
  refine ⟨becomes_step run step before after, ?_⟩
  obtain ⟨v, models⟩ := reachable run
  have models' := models.next Relay.fits_joins step
  obtain ⟨c, d, present, rfl, rfl, connStep, unaccepted⟩ := models.becomes step before after
  intro single bound
  obtain ⟨q, chunk, reads, whose, raw⟩ := connStep.binds present unaccepted single bound
  refine ⟨q, chunk, reads, whose, by rw [models.represents.stateOf, raw], ?_⟩
  rcases whose with rfl | linked
  · rw [World.stateOf, after, Option.map_some, bound]
  · rw [models'.represents.sessionAt] at after
    obtain ⟨d', found, same⟩ := Option.map_eq_some_iff.mp after
    have linked' : d'.phase.peer = some q := (congrArg (·.m_meetee1.bev) same).trans linked
    obtain ⟨_, e, partner, back, _⟩ := models'.paired b d' q found linked'
    obtain ⟨_, _, phase⟩ := Relay.phase_of_peer back
    rw [models'.represents.stateOf, Relay.state_present partner, phase]
    rfl

theorem identity_fixed_pairLogin :
    ∃ w' s t, Step none (World.after none (pairLogin.take 3))
        ⟨.connReadcb 5 (TelProxyLogin.packet 2 [65]), .ideal 0⟩ w' ∧
      (World.after none (pairLogin.take 3)).sessionAt 7 = some s ∧ w'.sessionAt 7 = some t ∧
      s.Becomes t := by
  have run := run_after none (pairLogin.take 3) (by decide +kernel)
  let label : Label := ⟨.connReadcb 5 (TelProxyLogin.packet 2 [65]), .ideal 0⟩
  obtain ⟨w', step⟩ := progress run label (by decide +kernel)
  have there : ((World.after none (pairLogin.take 3)).sessionAt 7).isSome := by decide +kernel
  have stays : (exec none label (World.after none (pairLogin.take 3))).toOption.map
      (fun after => (after.2.sessionAt 7).isSome) = some true := by decide +kernel
  rw [step.2] at stays
  obtain ⟨s, before⟩ := Option.isSome_iff_exists.mp there
  obtain ⟨t, after⟩ := Option.isSome_iff_exists.mp (Option.some.inj stays)
  exact ⟨w', s, t, step, before, after, (identity_fixed run step before after).1⟩

theorem World.Models.was_there {R : Phase → Phase → Prop} {v : Relay} (models : w.Models cfg R v)
    (step : Step cfg w label w') (unaccepted : ¬label.event.accepts b)
    (after : w'.sessionAt b = some t) : ∃ s, w.sessionAt b = some s := by
  have r := models.represents
  obtain ⟨r', _⟩ := r.next models.paired step
  rw [r'.sessionAt] at after
  obtain ⟨d, found, _⟩ := Option.map_eq_some_iff.mp after
  obtain ⟨c, present⟩ := (Relay.conn_step models.paired cfg _ label found).present unaccepted
  exact ⟨_, by rw [r.sessionAt, present, Option.map_some]⟩

/-- Over any number of callbacks, as long as its address is not accepted anew. -/
theorem identity_for_life (run : Run (Step cfg) World.init labels w) (later : Run (Step cfg) w more w')
    (kept : ∀ label ∈ more, ¬label.event.accepts b) (before : w.sessionAt b = some s)
    (after : w'.sessionAt b = some t) : s.Becomes t := by
  induction later generalizing t with
  | refl =>
    obtain rfl := Option.some.inj (before.symm.trans after)
    obtain ⟨v, models⟩ := reachable run
    rw [models.represents.sessionAt] at before
    obtain ⟨c, _, rfl⟩ := Option.map_eq_some_iff.mp before
    exact Phase.Becomes.same.session rfl cfg b
  | snoc earlier last ih =>
    have run' := run.trans earlier
    obtain ⟨v, models⟩ := reachable run'
    obtain ⟨u, middle⟩ := models.was_there last (kept _ (by simp)) after
    have first := ih (fun label member => kept label (List.mem_append_left _ member)) middle
    exact first.trans (becomes_step run' last middle after)

end RemoteServer
