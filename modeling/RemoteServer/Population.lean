import RemoteServer.Idle
import RemoteServer.Lib.Census
import RemoteServer.Maximum

/-! The devices and clients of one id over time. Whatever the connections are, their
numbers follow a counter that only knows who logs in and who leaves. -/
namespace RemoteServer
open Bytes Transition PartialMap

/-- Two kinds that meet one to one: how many of each wait, and how many pairs there are. -/
structure Rendezvous where
  left : Nat
  right : Nat
  pairs : Nat
  deriving DecidableEq

namespace Rendezvous

inductive Input where
  | left | right | leftLeaves | rightLeaves | pairLeaves | nothing
  deriving DecidableEq

def init : Rendezvous := ⟨0, 0, 0⟩

/-- Whoever comes meets one that waits, if there is one, and waits otherwise. -/
def next : Input → Rendezvous → Rendezvous
  | .left, r =>
    if 0 < r.right then { r with right := r.right - 1, pairs := r.pairs + 1 }
    else { r with left := r.left + 1 }
  | .right, r =>
    if 0 < r.left then { r with left := r.left - 1, pairs := r.pairs + 1 }
    else { r with right := r.right + 1 }
  | .leftLeaves, r => { r with left := r.left - 1 }
  | .rightLeaves, r => { r with right := r.right - 1 }
  | .pairLeaves, r => { r with pairs := r.pairs - 1 }
  | .nothing, r => r

@[simp] theorem next_nothing (r : Rendezvous) : next .nothing r = r := rfl

end Rendezvous

namespace World

/-- The connections in a state that have logged in with this type and id. -/
def inState (w : World) (state : SessionState) (type : UInt32) (id : List UInt8) : Finset BevPtr :=
  (w.holders type id).filter fun b => w.stateOf b = some state

/-- The devices and the clients that wait with an id, and its pairs. -/
def population (w : World) (id : List UInt8) : Rendezvous where
  left := (w.inState .login 1 id).card
  right := (w.inState .login 2 id).card
  pairs := (w.inState .bind 1 id).card

/-- The state and the card of a connection. -/
def standing (w : World) (b : BevPtr) : Option (SessionState × Option UCard) :=
  (w.sessionAt b).map fun s => (s.m_state, s.m_meetee0.userData)

end World

/-- What a step is to the devices and clients of an id: a login, when the connection that
was read is no longer raw, or a departure, when the one that was called about is gone. -/
def Event.input (event : Event) (before after : BevPtr → Option (SessionState × Option UCard))
    (id : List UInt8) : Rendezvous.Input :=
  match event with
  | .connReadcb b _ =>
    match before b, after b with
    | some (.raw, _), some (.login, some card) | some (.raw, _), some (.bind, some card) =>
      if cstr card.id.val = id then if card.type = 1 then .left else .right else .nothing
    | _, _ => .nothing
  | .connEventcb b _ =>
    match before b, after b with
    | some (.login, some card), none =>
      if cstr card.id.val = id then if card.type = 1 then .leftLeaves else .rightLeaves else .nothing
    | some (.bind, some card), none => if cstr card.id.val = id then .pairLeaves else .nothing
    | _, _ => .nothing
  | _ => .nothing

/-- A step that leaves everybody as they stand is nothing to the counters. -/
theorem Event.input_same (event : Event) (standing : BevPtr → Option (SessionState × Option UCard))
    (id : List UInt8) : event.input standing standing id = .nothing := by
  cases event with
  | listenerCb => rfl
  | writeProgress => rfl
  | connReadcb b chunk =>
    simp only [Event.input]
    split <;> simp_all
  | connEventcb b events =>
    simp only [Event.input]
    split <;> simp_all

/-- The counter of each id, kept beside a run. -/
def rendezvous : Monitor World Label (List UInt8 → Rendezvous) :=
  fun w label w' counters id => (counters id).next (label.event.input w.standing w'.standing id)

/-- A phase in which the state, type and id are these. -/
def Phase.holds (state : SessionState) (type : UInt32) (id : List UInt8) (phase : Phase) : Bool :=
  phase.state = state && phase.card.any fun card => card.val.type = type && card.idString = id

namespace Phase
variable {state : SessionState} {type : UInt32} {id : List UInt8}

@[simp] theorem holds_raw : holds state type id raw = false := by
  rw [holds, card, Option.any_none, Bool.and_false]

@[simp] theorem holds_waiting (card : Card) : holds state type id (waiting card) =
    decide (.login = state ∧ card.val.type = type ∧ card.idString = id) := by
  simp only [holds, Phase.state, Phase.card, Option.any_some, Bool.decide_and]
  rfl

@[simp] theorem holds_bound (card : Card) (p : BevPtr) (pc : Option Card) :
    holds state type id (bound card p pc) =
      decide (.bind = state ∧ card.val.type = type ∧ card.idString = id) := by
  simp only [holds, Phase.state, Phase.card, Option.any_some, Bool.decide_and]
  rfl

end Phase

namespace Relay
variable {v : Relay} {R : Phase → Phase → Prop} {b : BevPtr} {c : Conn}

def phases (v : Relay) (b : BevPtr) : Option Phase := (v b).map (·.phase)

theorem phases_present (present : v b = some c) : v.phases b = some c.phase := by
  rw [phases, present, Option.map_some]

theorem phases_modify (f : Conn → Conn) (same : ∀ c, (f c).phase = c.phase) :
    Relay.phases (PartialMap.modify v b f) = v.phases :=
  funext (phase_modify f same)

theorem phases_update (entry : Option Conn) :
    Relay.phases (Function.update v b entry) = Function.update v.phases b (entry.map (·.phase)) := by
  funext i
  by_cases here : i = b
  · subst i
    rw [phases, Function.update_self, Function.update_self]
  · rw [phases, Function.update_of_ne here, Function.update_of_ne here, phases]

end Relay

/-- Everything a step can do to the phases of the connections. -/
inductive PhaseStep (m : BevPtr → Option Phase) (event : Event) : (BevPtr → Option Phase) → Prop where
  | same : PhaseStep m event m
  | accept {b : BevPtr} {fd : Int} : event = .listenerCb (some b) fd → m b = none →
      PhaseStep m event (Function.update m b (some .raw))
  | waits {b : BevPtr} {chunk : List UInt8} {card : Card} : event = .connReadcb b chunk →
      m b = some .raw → (∀ q u, m q = some (.waiting u) → ¬card.Fits u) →
      PhaseStep m event (Function.update m b (some (.waiting card)))
  | binds {b q : BevPtr} {chunk : List UInt8} {card u : Card} (pc pc' : Option Card) :
      event = .connReadcb b chunk → m b = some .raw → m q = some (.waiting u) → card.Fits u → q ≠ b →
      PhaseStep m event (Function.update (Function.update m b (some (.bound card q pc))) q
        (some (.bound u b pc')))
  | leaves {b : BevPtr} {events : BitVec 16} {phase : Phase} : event = .connEventcb b events →
      m b = some phase → phase.peer = none → PhaseStep m event (Function.update m b none)
  | parts {b q : BevPtr} {events : BitVec 16} {card u : Card} {pc pc' : Option Card} :
      event = .connEventcb b events → m b = some (.bound card q pc) → m q = some (.bound u b pc') →
      card.Fits u → q ≠ b → PhaseStep m event (Function.update (Function.update m b none) q none)

namespace Relay
variable {v : Relay} {b : BevPtr}

theorem phase_step_read (env : Env) (b : BevPtr) (chunk : List UInt8) (v : Relay) :
    PhaseStep v.phases (.connReadcb b chunk) (v.read env b chunk).phases := by
  have received : Relay.phases (PartialMap.modify v b (Conn.receive env chunk)) = v.phases :=
    phases_modify _ fun _ => rfl
  have step := v.read_step env b chunk
  generalize v.read env b chunk = v' at step
  cases step with
  | absent => exact .same
  | ignored =>
    rw [received]
    exact .same
  | @login c card present raw =>
    have before : v.phases b = some .raw := by rw [phases_present present, raw]
    have login := received_login_step env chunk card present raw
    generalize Relay.login _ env.outcome b card = v' at login
    cases login with
    | waits nobody =>
      rw [phases_update]
      refine .waits rfl before fun q u theirs fit => ?_
      exact nobody q (waits_iff.mpr ⟨u, theirs, fit⟩)
    | @binds q t u _ apart partner theirs fit =>
      rw [phases_update, phases_update]
      exact .binds _ _ rfl before (by rw [phases_present partner, theirs]) fit apart
  | @forward c card p _ present =>
    rw [forward, phases_modify (Conn.send _ _) fun _ => rfl, phases_modify Conn.active fun _ => rfl,
      received]
    exact .same

theorem phase_step_remove (paired : v.Paired Phase.Fits) (b : BevPtr) (events : BitVec 16) :
    PhaseStep v.phases (.connEventcb b events) (v.remove b).phases := by
  rw [Relay.remove, PartialMap.remove]
  cases present : v b with
  | none =>
    rw [Option.bind_none]
    change PhaseStep _ _ (Relay.phases (Function.update v b none))
    rw [← present, Function.update_eq_self]
    exact .same
  | some c =>
    rw [Option.bind_some]
    cases linked : c.phase.peer with
    | none =>
      change PhaseStep _ _ (Relay.phases (Function.update v b none))
      rw [phases_update]
      exact .leaves rfl (phases_present present) linked
    | some q =>
      obtain ⟨apart, t, partner, back, card, u, mine, theirs, fit⟩ := paired b c q present linked
      obtain ⟨own, pc, bound⟩ := phase_of_peer linked
      obtain ⟨other, pc', bound'⟩ := phase_of_peer back
      rw [bound] at mine
      rw [bound'] at theirs
      obtain rfl := Option.some.inj mine
      obtain rfl := Option.some.inj theirs
      change PhaseStep _ _ (Relay.phases (Function.update (Function.update v b none) q none))
      rw [phases_update, phases_update]
      exact .parts rfl (by rw [phases_present present, bound]) (by rw [phases_present partner, bound'])
        fit apart

theorem phase_step_event (paired : v.Paired Phase.Fits) (cfg : Option Configure) (env : Env) (b : BevPtr)
    (events : BitVec 16) :
    PhaseStep v.phases (.connEventcb b events) (v.event cfg env b events).phases := by
  have aged : Relay.phases (PartialMap.modify v b (Conn.inactive env)) = v.phases :=
    phases_modify _ fun _ => rfl
  have step := v.event_step cfg env b events
  generalize v.event cfg env b events = v' at step
  cases step with
  | quiet => exact .same
  | closed => exact phase_step_remove paired b events
  | idle =>
    rw [aged]
    exact .same
  | expired =>
    rw [← aged]
    exact phase_step_remove (paired.modify (Conn.inactive env) fun _ => rfl) b events

theorem phase_step (paired : v.Paired Phase.Fits) (cfg : Option Configure) (sid : Int) (label : Label)
    (fresh : ∀ b fd, label.event = .listenerCb (some b) fd → v b = none) :
    PhaseStep v.phases label.event (v.next cfg sid label).phases := by
  obtain ⟨event, env⟩ := label
  cases event with
  | listenerCb bev fd =>
    cases bev with
    | none => exact .same
    | some b =>
      simp only [Relay.next, phases_update]
      refine .accept rfl ?_
      rw [phases, fresh b fd rfl, Option.map_none]
  | connReadcb b chunk => exact phase_step_read env b chunk v
  | connEventcb b events => exact phase_step_event paired cfg env b events
  | writeProgress b n =>
    simp only [Relay.next, phases_modify (Conn.drain n) fun _ => rfl]
    exact .same

end Relay

/-- The numbers of an id are those of the phases. -/
structure Tallied (m : BevPtr → Option Phase) (id : List UInt8) (r : Rendezvous) : Prop where
  left : Counted (Phase.holds .login 1 id) m r.left
  right : Counted (Phase.holds .login 2 id) m r.right
  pairs : Counted (Phase.holds .bind 1 id) m r.pairs

def Phase.standing (phase : Phase) : SessionState × Option UCard := (phase.state, phase.card.map (·.val))

namespace Tallied
variable {m m' : BevPtr → Option Phase} {id : List UInt8} {r : Rendezvous} {event : Event} {b q : BevPtr}
  {card u : Card} {pc pc' : Option Card} {type : UInt32}

/-- One entry changed, and the three numbers with it. -/
theorem update (tallied : Tallied m id r) {r' : Rendezvous} {entry : Option Phase}
    (left : r'.left + worth (Phase.holds .login 1 id) (m b) =
      r.left + worth (Phase.holds .login 1 id) entry)
    (right : r'.right + worth (Phase.holds .login 2 id) (m b) =
      r.right + worth (Phase.holds .login 2 id) entry)
    (pairs : r'.pairs + worth (Phase.holds .bind 1 id) (m b) =
      r.pairs + worth (Phase.holds .bind 1 id) entry) :
    Tallied (Function.update m b entry) id r' where
  left := tallied.left.update left
  right := tallied.right.update right
  pairs := tallied.pairs.update pairs

/-- Two entries changed. -/
theorem update_two (tallied : Tallied m id r) (apart : q ≠ b) {r' : Rendezvous}
    {entry entry' : Option Phase}
    (left : r'.left + worth (Phase.holds .login 1 id) (m b) + worth (Phase.holds .login 1 id) (m q) =
      r.left + worth (Phase.holds .login 1 id) entry + worth (Phase.holds .login 1 id) entry')
    (right : r'.right + worth (Phase.holds .login 2 id) (m b) + worth (Phase.holds .login 2 id) (m q) =
      r.right + worth (Phase.holds .login 2 id) entry + worth (Phase.holds .login 2 id) entry')
    (pairs : r'.pairs + worth (Phase.holds .bind 1 id) (m b) + worth (Phase.holds .bind 1 id) (m q) =
      r.pairs + worth (Phase.holds .bind 1 id) entry + worth (Phase.holds .bind 1 id) entry') :
    Tallied (Function.update (Function.update m b entry) q entry') id r' where
  left := tallied.left.update_two apart left
  right := tallied.right.update_two apart right
  pairs := tallied.pairs.update_two apart pairs

theorem accept (tallied : Tallied m id r) (free : m b = none) :
    Tallied (Function.update m b (some .raw)) id r :=
  tallied.update (by simp [free]) (by simp [free]) (by simp [free])

/-- Nobody of the other type waits with the id of a card that nobody fits. -/
theorem nobody_waits (nobody : ∀ q u, m q = some (.waiting u) → ¬card.Fits u) {n : Nat}
    (other : card.val.type ≠ type) (counted : Counted (Phase.holds .login type card.idString) m n) :
    n = 0 := by
  refine counted.zero fun q phase present => ?_
  cases phase with
  | raw => rfl
  | bound u p pc => simp
  | waiting u =>
    rw [Phase.holds_waiting, Bool.eq_false_iff, ne_eq, decide_eq_true_eq]
    rintro ⟨-, isType, isId⟩
    refine nobody q u present ⟨?_, isId.symm⟩
    rwa [isType]

theorem waits (tallied : Tallied m id r) (raw : m b = some .raw)
    (nobody : ∀ q u, m q = some (.waiting u) → ¬card.Fits u) :
    Tallied (Function.update m b (some (.waiting card))) id
      (r.next (if card.idString = id then if card.val.type = 1 then .left else .right else .nothing)) := by
  by_cases own : card.idString = id
  · subst id
    obtain type | type := card.property
    · have alone : r.right = 0 := nobody_waits nobody (by rw [type]; decide) tallied.right
      rw [if_pos rfl, if_pos type, Rendezvous.next, if_neg (by omega)]
      exact tallied.update (by simp [raw, type]) (by simp [raw, type]) (by simp [raw])
    · have alone : r.left = 0 := nobody_waits nobody (by rw [type]; decide) tallied.left
      rw [if_pos rfl, if_neg (by simp [type]), Rendezvous.next, if_neg (by omega)]
      exact tallied.update (by simp [raw, type]) (by simp [raw, type]) (by simp [raw])
  · rw [if_neg own]
    exact tallied.update (by simp [raw, own]) (by simp [raw, own]) (by simp [raw])

theorem binds (tallied : Tallied m id r) (raw : m b = some .raw) (waiting : m q = some (.waiting u))
    (fit : card.Fits u) (apart : q ≠ b) :
    Tallied (Function.update (Function.update m b (some (.bound card q pc))) q (some (.bound u b pc'))) id
      (r.next (if card.idString = id then if card.val.type = 1 then .left else .right else .nothing)) := by
  by_cases own : card.idString = id
  · have same : u.idString = id := fit.2.symm.trans own
    obtain type | type := card.property
    · have type' : u.val.type = 2 := fit.client type
      have some : 0 < r.right := tallied.right.positive waiting (by simp [type', same])
      rw [if_pos own, if_pos type, Rendezvous.next, if_pos some]
      refine tallied.update_two apart ?_ ?_ ?_
      · simp [raw, waiting, type']
      · simp [raw, waiting, type', same]
        omega
      · simp [raw, waiting, type, type', own]
    · have type' : u.val.type = 1 := fit.device type
      have some : 0 < r.left := tallied.left.positive waiting (by simp [type', same])
      rw [if_pos own, if_neg (by simp [type]), Rendezvous.next, if_pos some]
      refine tallied.update_two apart ?_ ?_ ?_
      · simp [raw, waiting, type', same]
        omega
      · simp [raw, waiting, type']
      · simp [raw, waiting, type, type', same]
  · have other : u.idString ≠ id := by rwa [← fit.2]
    rw [if_neg own, Rendezvous.next_nothing]
    exact tallied.update_two apart (by simp [raw, waiting, other]) (by simp [raw, waiting, other])
      (by simp [raw, waiting, own, other])

theorem drops (tallied : Tallied m id r) (raw : m b = some .raw) :
    Tallied (Function.update m b none) id r :=
  tallied.update (by simp [raw]) (by simp [raw]) (by simp [raw])

theorem leaves (tallied : Tallied m id r) (waiting : m b = some (.waiting card)) :
    Tallied (Function.update m b none) id
      (r.next (if card.idString = id then if card.val.type = 1 then .leftLeaves else .rightLeaves
        else .nothing)) := by
  by_cases own : card.idString = id
  · obtain type | type := card.property
    · have some := tallied.left.positive waiting (by simp [type, own])
      rw [if_pos own, if_pos type]
      refine tallied.update ?_ ?_ ?_
      · simp [waiting, type, own, Rendezvous.next]
        omega
      · simp [waiting, type, Rendezvous.next]
      · simp [waiting, Rendezvous.next]
    · have some := tallied.right.positive waiting (by simp [type, own])
      rw [if_pos own, if_neg (by simp [type])]
      refine tallied.update ?_ ?_ ?_
      · simp [waiting, type, Rendezvous.next]
      · simp [waiting, type, own, Rendezvous.next]
        omega
      · simp [waiting, Rendezvous.next]
  · rw [if_neg own, Rendezvous.next_nothing]
    exact tallied.update (by simp [waiting, own]) (by simp [waiting, own]) (by simp [waiting])

theorem parts (tallied : Tallied m id r) (mine : m b = some (.bound card q pc))
    (theirs : m q = some (.bound u b pc')) (fit : card.Fits u) (apart : q ≠ b) :
    Tallied (Function.update (Function.update m b none) q none) id
      (r.next (if card.idString = id then .pairLeaves else .nothing)) := by
  by_cases own : card.idString = id
  · have same : u.idString = id := fit.2.symm.trans own
    rw [if_pos own]
    refine tallied.update_two apart ?_ ?_ ?_
    · simp [mine, theirs, Rendezvous.next]
    · simp [mine, theirs, Rendezvous.next]
    · obtain type | type := card.property
      · have type' : u.val.type = 2 := fit.client type
        have some := tallied.pairs.positive mine (by simp [type, own])
        simp [mine, theirs, type, type', own, Rendezvous.next]
        omega
      · have type' : u.val.type = 1 := fit.device type
        have some := tallied.pairs.positive theirs (by simp [type', same])
        simp [mine, theirs, type, type', same, Rendezvous.next]
        omega
  · have other : u.idString ≠ id := by rwa [← fit.2]
    rw [if_neg own, Rendezvous.next_nothing]
    exact tallied.update_two apart (by simp [mine, theirs]) (by simp [mine, theirs])
      (by simp [mine, theirs, own, other])

/-- One step of the phases is one step of the counter. -/
theorem next (tallied : Tallied m id r) (step : PhaseStep m event m') :
    Tallied m' id (r.next (event.input (fun b => (m b).map Phase.standing)
      (fun b => (m' b).map Phase.standing) id)) := by
  cases step with
  | same =>
    rw [Event.input_same]
    exact tallied
  | accept accepts free =>
    rw [accepts]
    exact tallied.accept free
  | waits reads raw nobody =>
    rw [reads]
    simp only [Event.input, raw, Function.update_self, Option.map_some, Phase.standing, Phase.state,
      Phase.card]
    exact tallied.waits raw nobody
  | binds pc pc' reads raw waiting fit apart =>
    rw [reads]
    simp only [Event.input, raw, Function.update_self, Function.update_of_ne apart.symm, Option.map_some,
      Phase.standing, Phase.state, Phase.card]
    exact tallied.binds raw waiting fit apart
  | @leaves b events phase closes present single =>
    rw [closes]
    cases phase with
    | raw =>
      simp only [Event.input, present, Function.update_self, Option.map_some, Option.map_none,
        Phase.standing, Phase.state, Phase.card]
      exact tallied.drops present
    | waiting card =>
      simp only [Event.input, present, Function.update_self, Option.map_some, Option.map_none,
        Phase.standing, Phase.state, Phase.card]
      exact tallied.leaves present
    | bound => contradiction
  | parts closes mine theirs fit apart =>
    rw [closes]
    simp only [Event.input, mine, Function.update_self, Function.update_of_ne apart.symm, Option.map_some,
      Option.map_none, Phase.standing, Phase.state, Phase.card]
    exact tallied.parts mine theirs fit apart

end Tallied

namespace World.Models
variable {cfg : Option Configure} {w : World} {v : Relay} {R : Phase → Phase → Prop} {id : List UInt8}

theorem standing (models : w.Models cfg R v) : w.standing = fun b => (v.phases b).map Phase.standing := by
  funext b
  rw [World.standing, models.represents.sessionAt, Relay.phases, Option.map_map, Option.map_map]
  rfl

theorem census (models : w.Models cfg R v) (state : SessionState) (type : UInt32) (id : List UInt8) :
    Census (Phase.holds state type id) v.phases (w.inState state type id) where
  mem b := by
    rw [World.inState, Finset.mem_filter, models.mem_holders, models.represents.stateOf, Relay.state,
      Relay.phases]
    cases present : v b with
    | none => simp
    | some c => simp [Phase.holds, and_comm, Option.any_eq_true]

theorem tallied (models : w.Models cfg R v) (id : List UInt8) : Tallied v.phases id (w.population id) where
  left := .of_census (models.census ..)
  right := .of_census (models.census ..)
  pairs := .of_census (models.census ..)

end World.Models

theorem Tallied.unique {m : BevPtr → Option Phase} {id : List UInt8} {r r' : Rendezvous}
    (tallied : Tallied m id r) (tallied' : Tallied m id r') : r' = r := by
  obtain ⟨left, right, pairs⟩ := r
  obtain ⟨left', right', pairs'⟩ := r'
  rw [Rendezvous.mk.injEq]
  exact ⟨tallied.left.unique tallied'.left, tallied.right.unique tallied'.right,
    tallied.pairs.unique tallied'.pairs⟩

variable {cfg : Option Configure} {w : World}

/-- In every run the devices and clients of an id are as many as the counter of logins
and departures has, and there are as many bound clients as bound devices. -/
theorem population_counted {counters : List UInt8 → Rendezvous}
    (run : Run (rendezvous.step (Step cfg)) (World.init, fun _ => Rendezvous.init) labels (w, counters))
    (id : List UInt8) :
    w.population id = counters id ∧ (w.inState .bind 2 id).card = (counters id).pairs := by
  have tracked : ∃ v, w.Models cfg Phase.Fits v ∧ Tallied v.phases id (counters id) := by
    refine run.invariant (fun state => ∃ v, state.1.Models cfg Phase.Fits v ∧
      Tallied v.phases id (state.2 id)) ?_ ⟨_, .init, .empty _, .empty _, .empty _⟩
    rintro ⟨w, counters⟩ label ⟨w', counters'⟩ ⟨v, models, tallied⟩ ⟨step, records⟩
    obtain rfl : counters' = rendezvous w label w' counters := records
    have models' := models.next Relay.fits_joins step
    refine ⟨_, models', ?_⟩
    change Tallied _ id ((counters id).next (label.event.input w.standing w'.standing id))
    rw [models.standing, models'.standing]
    refine tallied.next (Relay.phase_step models.paired cfg w.m_sidCount label ?_)
    exact models.represents.accepts_free step
  obtain ⟨v, models, tallied⟩ := tracked
  have same := tallied.unique (models.tallied id)
  refine ⟨same, ?_⟩
  rw [← same]
  have matched := (models.across id).card_matched
  rw [← models.boundHolders, ← models.boundHolders] at matched
  exact matched.symm

theorem population_counted_pairLogin : (World.after none pairLogin).population [65] = ⟨0, 0, 1⟩ ∧
    ((World.after none pairLogin).inState .bind 2 [65]).card = 1 := by
  have counted : historyOf rendezvous none pairLogin World.init (fun _ => .init) [65] = ⟨0, 0, 1⟩ := by
    decide +kernel
  have population := population_counted
    (recorded_after rendezvous none pairLogin (fun _ => .init) (by decide +kernel)) [65]
  rwa [counted] at population

end RemoteServer
