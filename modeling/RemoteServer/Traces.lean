import RemoteServer.Lib.Bisimulation
import RemoteServer.SessionNumbers

/-! The traces of the server. Pointers, indexes and heap set aside, they are those of
the relay, no fewer and no more. -/
namespace RemoteServer
open Transition PartialMap

/-- What a callback shows: what raised it, the bytes it took, the connections it closed as
they were then, and the sessions and sockets it leaves. -/
structure Sight where
  label : Label
  reads : List (BevPtr × List UInt8)
  freed : List (BevPtr × Bufferevent)
  sessions : BevPtr → Option Session
  lines : BevPtr → Option Bufferevent

/-- A step of the server, as it is seen. -/
def Shows (cfg : Option Configure) (w : World) (sight : Sight) (w' : World) : Prop :=
  LoopStep cfg w sight.label w' ∧ sight = ⟨sight.label, w'.reads, w'.freed, w'.sessionAt, w'.bevs⟩

/-- The server shows these things, one after the other, from its start. -/
def ServerTrace (cfg : Option Configure) (trace : List Sight) : Prop :=
  ∃ w, Run (Shows cfg) World.init trace w

namespace Relay

/-- The events that can come next, by the connections alone. -/
def Admits (v : Relay) : Event → Prop
  | .listenerCb bev _ => ∀ b, bev = some b → v b = none
  | .connReadcb bev chunk => (v bev).isSome ∧ chunk ≠ []
  | .connEventcb bev _ => (v bev).isSome
  | .writeProgress bev _ => (v bev).isSome

/-- The connections, the number of the next session, and whether an accept has failed. -/
structure State where
  conns : Relay
  sid : Int
  broken : Bool

def State.init : State := ⟨fun _ => none, 1, false⟩

noncomputable def State.next (cfg : Option Configure) (label : Label) (s : State) : State where
  conns := s.conns.next cfg s.sid label
  sid := s.sid + if label.event.opens then 1 else 0
  broken := s.broken || label.event.breaks

/-- A step of the relay, as it is seen. None follows a failed accept. -/
def Shows (cfg : Option Configure) (s : State) (sight : Sight) (s' : State) : Prop :=
  s.broken = false ∧ s.conns.Admits sight.label.event ∧ s' = s.next cfg sight.label ∧
    sight = ⟨sight.label, s.conns.reads sight.label, s.conns.frees cfg sight.label,
      fun b => (s'.conns b).map (Conn.session cfg b), fun b => (s'.conns b).map (·.line)⟩

end Relay

section Bisimulation
variable {cfg : Option Configure} {w w' : World} {v : Relay} {s : Relay.State}

theorem Represents.admits_iff (r : Represents cfg w v) (event : Event) :
    event.Admissible w ↔ v.Admits event := by
  cases event with
  | listenerCb bev fd => exact forall₂_congr fun b _ => r.free_iff
  | connReadcb b chunk => exact and_congr_left fun _ => r.live_iff
  | connEventcb b events => exact r.live_iff
  | writeProgress b n => exact r.live_iff

/-- The state has the connections of the relay, gives out its numbers and ends with it. -/
structure World.Is (cfg : Option Configure) (w : World) (s : Relay.State) : Prop where
  models : w.Models cfg Phase.Fits s.conns
  sid : w.m_sidCount = s.sid
  broken : w.broken = s.broken

theorem World.Is.init : World.init.Is cfg .init := ⟨.init, rfl, rfl⟩

theorem World.Is.next {label : Label} (same : w.Is cfg s) (step : Step cfg w label w') :
    w'.Is cfg (s.next cfg label) where
  models := by
    have models := same.models.next Relay.fits_joins step
    rwa [same.sid] at models
  sid := by
    rw [same.models.sidCount_next step, same.sid]
    rfl
  broken := by
    rw [same.models.represents.broken_next step, same.broken]
    rfl

/-- After a step the relay shows what the server shows. -/
theorem World.Is.sight {label : Label} (same : w.Is cfg s) (step : Step cfg w label w') :
    (⟨label, w'.reads, w'.freed, w'.sessionAt, w'.bevs⟩ : Sight) =
      ⟨label, s.conns.reads label, s.conns.frees cfg label,
        fun b => ((s.next cfg label).conns b).map (Conn.session cfg b),
        fun b => ((s.next cfg label).conns b).map (·.line)⟩ := by
  obtain ⟨_, reads, freed⟩ := same.models.represents.next same.models.paired step
  have after := (same.next step).models.represents
  rw [reads, freed, funext after.sessionAt, funext after.bevs]

theorem bisimulation (cfg : Option Configure) :
    Bisimulation (Shows cfg) (Relay.Shows cfg) (World.Is cfg) where
  forth := by
    rintro w s sight w' same ⟨⟨loop, step⟩, shown⟩
    have admits := (same.models.represents.admits_iff _).mp step.1
    rw [same.broken] at loop
    exact ⟨_, ⟨loop, admits, rfl, shown.trans (same.sight step)⟩, same.next step⟩
  back := by
    rintro w s sight s' same ⟨loop, admits, rfl, shown⟩
    have admissible := (same.models.represents.admits_iff _).mpr admits
    obtain ⟨w', step⟩ := same.models.progress sight.label admissible
    rw [← same.broken] at loop
    exact ⟨w', ⟨⟨loop, step⟩, shown.trans (same.sight step).symm⟩, same.next step⟩

end Bisimulation

/-! The relay looks up the banner and the timeouts in the configuration, and nothing else. -/

section Service
variable {cfg cfg' : Option Configure}

/-- The configurations have the banner and the timeouts in common. -/
structure SameService (cfg cfg' : Option Configure) : Prop where
  banner : Conn.banner cfg = Conn.banner cfg'
  login : loginTimeout cfg = loginTimeout cfg'
  match' : matchTimeout cfg = matchTimeout cfg'
  active : activeTimeout cfg = activeTimeout cfg'

namespace SameService

theorem limit (same : SameService cfg cfg') (phase : Phase) : phase.limit cfg = phase.limit cfg' := by
  cases phase with
  | raw => exact same.login
  | waiting => exact same.match'
  | bound => exact same.active

theorem fresh (same : SameService cfg cfg') : Conn.fresh cfg = Conn.fresh cfg' := by
  funext env sid fd
  simp only [Conn.fresh, same.banner]

theorem session (same : SameService cfg cfg') : Conn.session cfg = Conn.session cfg' := by
  funext b c
  simp only [Conn.session, same.limit]

theorem expired (same : SameService cfg cfg') (v : Relay) (b : BevPtr) :
    v.Expired cfg b ↔ v.Expired cfg' b := by
  simp only [Relay.Expired, same.limit]

theorem timedOut (same : SameService cfg cfg') (v : Relay) (b : BevPtr) :
    v.TimedOut cfg b ↔ v.TimedOut cfg' b := by
  simp only [Relay.TimedOut, same.expired]

theorem next (same : SameService cfg cfg') (label : Label) (s : Relay.State) :
    s.next cfg label = s.next cfg' label := by
  obtain ⟨event, env⟩ := label
  simp only [Relay.State.next, Relay.next, Relay.event, same.fresh, same.timedOut]

theorem frees (same : SameService cfg cfg') (label : Label) (v : Relay) :
    v.frees cfg label = v.frees cfg' label := by
  simp only [Relay.frees, same.timedOut]

theorem bisimulation (same : SameService cfg cfg') :
    Bisimulation (Relay.Shows cfg) (Relay.Shows cfg') Eq := by
  have shows_eq : Relay.Shows cfg = Relay.Shows cfg' := by
    funext s sight s'
    simp only [Relay.Shows, same.next, same.frees, same.session]
  rw [shows_eq]
  exact ⟨by rintro s _ label s' rfl step; exact ⟨s', step, rfl⟩,
    by rintro s _ label s' rfl step; exact ⟨s', step, rfl⟩⟩

end SameService

/-- What the server shows depends on the banner and the three timeouts alone: the limits on
requests and connections make it pause, and change nothing else. -/
theorem service_decides (same : SameService cfg cfg') (trace : List Sight) :
    ServerTrace cfg trace ↔ ServerTrace cfg' trace := by
  have through := ((bisimulation cfg).trans same.bisimulation).trans (bisimulation cfg').symm
  exact through.traces_iff ⟨.init, ⟨.init, .init, rfl⟩, .init⟩ trace

/-- What a server with no configuration shows of its first connection. -/
theorem service_decides_unconfigured : ∃ sight : Sight, sight.label.event = .listenerCb (some 5) 3 ∧
    ServerTrace none [sight] ∧ ServerTrace (some ⟨[], 50, 360, 1800, 1, 2⟩) [sight] := by
  have models : World.init.Models none Phase.Fits fun _ => none := .init
  obtain ⟨w, step⟩ := models.progress ⟨.listenerCb (some 5) 3, .ideal 0⟩ fun _ _ => rfl
  have shown : ServerTrace none [⟨_, w.reads, w.freed, w.sessionAt, w.bevs⟩] :=
    ⟨w, .single ⟨⟨rfl, step⟩, rfl⟩⟩
  have same : SameService none (some ⟨[], 50, 360, 1800, 1, 2⟩) := ⟨rfl, rfl, rfl, rfl⟩
  exact ⟨_, rfl, shown, (service_decides same _).mp shown⟩

end Service
end RemoteServer
