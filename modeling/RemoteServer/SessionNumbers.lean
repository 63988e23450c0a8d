import RemoteServer.Indexes
import RemoteServer.Lifetime

/-! The numbers of the sessions. `m_sidCount` moves with the accepts alone, so no two
sessions share a number until it overflows. -/
namespace RemoteServer
open Exec Transition PartialMap

def Event.opens : Event → Bool
  | .listenerCb (some _) _ => true
  | _ => false

theorem Event.opens_of_accepts {event : Event} {b : BevPtr} (accepts : event.accepts b) :
    event.opens = true := by
  obtain ⟨fd, rfl⟩ := accepts_iff.mp accepts
  rfl

variable {cfg : Option Configure} {w w' : World} {v : Relay} {R : Phase → Phase → Prop} {b : BevPtr}
  {label : Label} {labels : List Label} {s : Session}

theorem World.Models.sidCount_next (models : w.Models cfg R v) (step : Step cfg w label w') :
    w'.m_sidCount = w.m_sidCount + if label.event.opens then 1 else 0 := by
  obtain ⟨event, env⟩ := label
  have begun := models.represents.start env
  cases event with
  | listenerCb bev fd =>
    cases bev with
    | none =>
      obtain ⟨-, rfl⟩ := Prod.mk.inj (Except.ok.inj step.2)
      exact (Int.add_zero _).symm
    | some b => exact begun.listenerCb_aside (step.1 b rfl) step.2
  | connReadcb => exact (step.apart nofun).trans (Int.add_zero _).symm
  | connEventcb => exact (step.apart nofun).trans (Int.add_zero _).symm
  | writeProgress => exact (step.apart nofun).trans (Int.add_zero _).symm

namespace Relay

/-- The numbers in use are distinct, and those of earlier accepts. -/
structure Numbered (v : Relay) (sid : Int) : Prop where
  positive : ∀ {b c}, v b = some c → 1 ≤ c.sid
  below : ∀ {b c}, v b = some c → c.sid < sid
  distinct : ∀ {b c b' c'}, v b = some c → v b' = some c' → c'.sid = c.sid → b' = b

/-- A connection has just been given the next number, or was there with its own. -/
theorem sid_step {new : Conn} {sid : Int} (paired : v.Paired R)
    (found : v.next cfg sid label b = some new) :
    label.event.accepts b ∧ new.sid = sid ∨ ∃ c, v b = some c ∧ new.sid = c.sid := by
  by_cases accepts : label.event.accepts b
  · left
    obtain ⟨fd, event⟩ := Event.accepts_iff.mp accepts
    simp only [Relay.next, event, Function.update_self, Option.some.injEq] at found
    rw [← found]
    exact ⟨accepts, rfl⟩
  · right
    have step := conn_step paired cfg sid label found
    obtain ⟨c, present⟩ := step.present accepts
    exact ⟨c, present, (step.becomes present accepts).2⟩

theorem Numbered.next (numbered : v.Numbered sid) (paired : v.Paired R) (positive : 1 ≤ sid) :
    (v.next cfg sid label).Numbered (sid + if label.event.opens then 1 else 0) where
  positive found := by
    rcases sid_step paired found with ⟨_, same⟩ | ⟨c, present, same⟩
    · omega
    · rw [same]
      exact numbered.positive present
  below found := by
    rcases sid_step paired found with ⟨accepts, same⟩ | ⟨c, present, same⟩
    · rw [if_pos (Event.opens_of_accepts accepts)]
      omega
    · have before := numbered.below present
      split <;> omega
  distinct found found' equal := by
    -- the only number that is not an old one is the next
    rcases sid_step paired found with ⟨accepts, same⟩ | ⟨c, present, same⟩ <;>
      rcases sid_step paired found' with ⟨accepts', same'⟩ | ⟨c', present', same'⟩
    · obtain ⟨fd, event⟩ := Event.accepts_iff.mp accepts
      obtain ⟨fd', event'⟩ := Event.accepts_iff.mp accepts'
      rw [event] at event'
      cases event'
      rfl
    · have before := numbered.below present'
      omega
    · have before := numbered.below present
      omega
    · exact numbered.distinct present present' (by omega)

end Relay

/-- Until the `int` that counts them overflows, the next number is one more than the
sessions made so far, every live session has one of the numbers given out, no two have the
same, and a new one gets a number that no session had before. -/
theorem session_numbers (run : Run (Step cfg) World.init labels w)
    (few : labels.countP (·.event.opens) < 2147483646) :
    w.m_sidCount = 1 + (labels.countP (·.event.opens) : Int) ∧ w.m_sidCount + 1 < 2147483648 ∧
    (∀ b s, w.sessionAt b = some s → 1 ≤ s.m_sid ∧ s.m_sid < w.m_sidCount ∧
      ∀ b' s', w.sessionAt b' = some s' → s'.m_sid = s.m_sid → b' = b) ∧
    ∀ b fd env w', Step cfg w ⟨.listenerCb (some b) fd, env⟩ w' →
      ∃ s, w'.sessionAt b = some s ∧ s.m_sid = w.m_sidCount := by
  obtain ⟨v, models, numbered, count⟩ : ∃ v, w.Models cfg Phase.Fits v ∧ v.Numbered w.m_sidCount ∧
      w.m_sidCount = 1 + (labels.countP (·.event.opens) : Int) := by
    clear few
    induction run with
    | refl =>
      exact ⟨_, .init, ⟨(fun impossible => nomatch impossible), (fun impossible => nomatch impossible),
        (fun impossible => nomatch impossible)⟩, rfl⟩
    | @snoc labels w label w' run step ih =>
      obtain ⟨v, models, numbered, count⟩ := ih
      have next := models.sidCount_next step
      refine ⟨_, models.next Relay.fits_joins step, ?_, ?_⟩
      · rw [next]
        exact numbered.next models.paired (by omega)
      · rw [next, count, List.countP_append, List.countP_singleton]
        split <;> omega
  refine ⟨count, by omega, ?_, ?_⟩
  · intro b s session
    rw [models.represents.sessionAt] at session
    obtain ⟨c, present, rfl⟩ := Option.map_eq_some_iff.mp session
    refine ⟨numbered.positive present, numbered.below present, ?_⟩
    intro b' s' session' same
    rw [models.represents.sessionAt] at session'
    obtain ⟨c', present', rfl⟩ := Option.map_eq_some_iff.mp session'
    exact numbered.distinct present present' same
  · intro b fd env w' step
    refine ⟨(Conn.fresh cfg env w.m_sidCount fd).session cfg b, ?_, rfl⟩
    rw [(models.represents.next models.paired step).1.sessionAt]
    simp only [Relay.next, Function.update_self, Option.map_some]

theorem session_numbers_pairLogin : (World.after none pairLogin).m_sidCount = 1 + (2 : Nat) :=
  (session_numbers (run_after none pairLogin (by decide +kernel)) (by decide)).1

end RemoteServer
