import RemoteServer.Refinement.Event
import RemoteServer.Lib.Transition

/-! Every run of the server is a run of the relay. -/
namespace RemoteServer
open PartialMap Transition

variable {cfg : Option Configure} {w w' : World} {v : Relay} {label : Label}
  {R : Phase → Phase → Prop}

namespace Represents

theorem start (r : Represents cfg w v) (env : Env) : Represents cfg (w.start env) v :=
  r.congr rfl rfl rfl rfl

theorem present (r : Represents cfg w v) (live : (w.bevs b).isSome) : ∃ c, v b = some c :=
  Option.isSome_iff_exists.mp (r.live_iff.mp live)

theorem step (r : Represents cfg w v) (paired : v.Paired R) (admissible : label.event.Admissible w) :
    ∃ w', exec cfg label w = .ok ((), w') ∧ Represents cfg w' (v.next cfg w.m_sidCount label) ∧
      w'.reads = v.reads label ∧ w'.freed = v.frees cfg label := by
  have begun := r.start label.env
  obtain ⟨event, env⟩ := label
  cases event with
  | listenerCb bev fd =>
    cases bev with
    | none => exact ⟨_, rfl, begun.congr rfl rfl rfl rfl, rfl, rfl⟩
    | some b => exact begun.listenerCb rfl (admissible b rfl) fd
  | connReadcb b chunk =>
    obtain ⟨c, present⟩ := r.present admissible.1
    obtain ⟨w', runs, r', reads, freed⟩ := begun.connReadcb paired present rfl admissible.2
    refine ⟨w', runs, r', ?_, freed⟩
    simp [reads, Relay.reads, present]
  | connEventcb b events =>
    obtain ⟨c, present⟩ := r.present admissible
    exact begun.connEventcb paired present events
  | writeProgress b n =>
    obtain ⟨c, present⟩ := r.present admissible
    obtain ⟨p, _, _, bev⟩ := begun.entry present
    exact ⟨_, drain_apply bev n, begun.putBev present (Conn.drain n) rfl, rfl, rfl⟩

theorem next (r : Represents cfg w v) (paired : v.Paired R) (step : Step cfg w label w') :
    Represents cfg w' (v.next cfg w.m_sidCount label) ∧ w'.reads = v.reads label ∧
      w'.freed = v.frees cfg label := by
  obtain ⟨w'', runs, after⟩ := r.step paired step.1
  obtain ⟨-, rfl⟩ := Prod.mk.inj (Except.ok.inj (step.2.symm.trans runs))
  exact after

theorem accepts_free (r : Represents cfg w v) (step : Step cfg w label w') :
    ∀ b fd, label.event = .listenerCb (some b) fd → v b = none := by
  intro b fd accepts
  have admissible := step.1
  rw [accepts] at admissible
  exact r.free_iff.mp (admissible b rfl)

end Represents

/-- A state that represents a relay in which `R` holds of every bound pair and no
match has been missed. -/
structure World.Models (cfg : Option Configure) (R : Phase → Phase → Prop) (w : World) (v : Relay) :
    Prop where
  represents : Represents cfg w v
  paired : v.Paired R
  settled : v.Settled

theorem World.Models.init : World.init.Models cfg R (fun _ => none) where
  represents := .init
  paired := Paired.empty
  settled := by
    intro b c card present
    contradiction

theorem World.Models.next (models : w.Models cfg R v) (joins : Relay.Joins R label.env.outcome)
    (step : Step cfg w label w') : w'.Models cfg R (v.next cfg w.m_sidCount label) where
  represents := (models.represents.next models.paired step).1
  paired := models.paired.next cfg _ label joins (models.represents.accepts_free step)
  settled := models.settled.next cfg _ label

theorem World.Models.progress (models : w.Models cfg R v) (label : Label)
    (admissible : label.event.Admissible w) : ∃ w', Step cfg w label w' := by
  obtain ⟨w', runs, _⟩ := models.represents.step models.paired admissible
  exact ⟨w', admissible, runs⟩

/-- Whatever the outcomes of the library calls, a reachable state is a relay. -/
theorem reachable (run : Run (Step cfg) World.init labels w) :
    ∃ v, w.Models cfg Phase.Fits v := by
  refine run.invariant (fun w => ∃ v, w.Models cfg Phase.Fits v) ?_ ⟨_, .init⟩
  rintro w label w' ⟨v, models⟩ step
  exact ⟨_, models.next Relay.fits_joins step⟩

/-- When they all succeed, the ends of a pair also hold each other's cards. -/
theorem reachable_knows (run : Run (Step cfg) World.init labels w)
    (succeeds : ∀ label ∈ labels, label.Succeeds) : ∃ v, w.Models cfg Phase.Agrees v := by
  refine run.invariant_of (fun w => ∃ v, w.Models cfg Phase.Agrees v) ?_ succeeds ⟨_, .init⟩
  rintro w label w' ⟨v, models⟩ succeeds step
  exact ⟨_, models.next (Relay.agrees_joins succeeds) step⟩

/-- A run can always be continued with any admissible callback. -/
theorem progress (run : Run (Step cfg) World.init labels w) (label : Label)
    (admissible : label.event.Admissible w) :
    ∃ w', Step cfg w label w' := by
  obtain ⟨v, models⟩ := reachable run
  exact models.progress label admissible

end RemoteServer
