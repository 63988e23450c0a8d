import RemoteServer.ConnStep
import RemoteServer.Pairing

/-! The closing law: when a connection is closed is decided by its idle time, here
counted from the callbacks alone. -/
namespace RemoteServer
open Transition PartialMap

/-- `login_timeout`, `match_timeout` or `active_timeout`, according to the state. -/
def SessionState.limit (cfg : Option Configure) : SessionState → Int
  | .login => matchTimeout cfg
  | .bind => activeTimeout cfg
  | .raw | .err | .die => loginTimeout cfg

theorem Phase.limit_state (cfg : Option Configure) (phase : Phase) :
    phase.state.limit cfg = phase.limit cfg := by
  cases phase <;> rfl

namespace Event

/-- A timeout without end of file or error. -/
def idles (event : Event) (b : BevPtr) : Bool :=
  match event with
  | .connEventcb bev events => bev = b && has events bevEventTimeout && !Relay.closes events
  | _ => false

/-- The accept of a connection, its login, its becoming bound on either side of a
match, and data read from it while it is bound. -/
def resets (event : Event) (b : BevPtr) (before after : Option SessionState) : Bool :=
  event.accepts b ||
    (before = some .raw && (after = some .login || after = some .bind)) ||
    (before = some .login && after = some .bind) ||
    (before = some .bind && event.readsFrom b)

/-- The number of idle timeouts since the last reset. -/
def tally (event : Event) (b : BevPtr) (before after : Option SessionState) (n : Nat) : Nat :=
  if event.resets b before after then 0 else if event.idles b then n + 1 else n

theorem idles_iff {event : Event} : event.idles b ↔ ∃ events, event = .connEventcb b events ∧
    has events bevEventTimeout ∧ Relay.closes events = false := by
  cases event with
  | connEventcb bev events => simp [idles, and_assoc]
  | listenerCb => simp [idles]
  | connReadcb => simp [idles]
  | writeProgress => simp [idles]

end Event

def idleTimeouts : Monitor World Label (BevPtr → Nat) :=
  fun w label w' n b => label.event.tally b (w.stateOf b) (w'.stateOf b) (n b)

namespace Relay
variable {v : Relay} {R : Phase → Phase → Prop} {b : BevPtr} {c : Conn} {n : BevPtr → Nat}

def Idle (v : Relay) (n : BevPtr → Nat) : Prop := ∀ b c, v b = some c → c.idle = 40 * (n b : Int)

/-- A step that changes neither the phase nor the idle time of a connection, and
is no reset and no timeout of it. -/
theorem tally_same {event : Event} {old new : Conn} (idle : old.idle = 40 * (n b : Int))
    (same : new.idle = old.idle) (phase : new.phase = old.phase) (unaccepted : ¬event.accepts b)
    (untimed : ¬event.idles b) (unread : old.phase.state = .bind → ¬event.readsFrom b) :
    new.idle = 40 * (event.tally b (some old.phase.state) (some new.phase.state) (n b) : Int) := by
  have kept : event.resets b (some old.phase.state) (some new.phase.state) = false := by
    rw [phase]
    cases state : old.phase.state <;> simp_all [Event.resets]
  rw [same, idle, Event.tally, if_neg (by simp [kept]), if_neg untimed]

theorem tally_reset {event : Event} {before after : Option SessionState} {new : Conn}
    (idle : new.idle = 0) (resets : event.resets b before after = true) :
    new.idle = 40 * (event.tally b before after (n b) : Int) := by
  rw [idle, Event.tally, if_pos resets]
  rfl

theorem Idle.next (paired : v.Paired R) (idle : v.Idle n) (cfg : Option Configure) (sid : Int)
    (label : Label) : (v.next cfg sid label).Idle fun b =>
      label.event.tally b (v.state b) ((v.next cfg sid label).state b) (n b) := by
  intro i new found
  have step := conn_step paired cfg sid label found
  simp only [state, found, Option.map_some]
  cases step with
  | accept accepts => exact tally_reset rfl (by simp [Event.resets, Event.accepts, accepts])
  | stay present unread untimed unaccepted =>
    rw [present]
    refine tally_same (idle i new present) rfl rfl ?_ ?_ fun _ => ?_
    · rw [Event.accepts_iff]
      rintro ⟨fd, accepts⟩
      exact unaccepted fd accepts
    · rw [Event.idles_iff]
      rintro ⟨events, times, timeout, _⟩
      rw [untimed events times] at timeout
      contradiction
    · rw [Event.readsFrom_iff]
      rintro ⟨chunk, reads⟩
      exact (unread i chunk new reads present).1 rfl
  | drop present reads single =>
    rw [present]
    refine tally_same (idle i _ present) rfl rfl ?_ ?_ fun bound => ?_
    · simp [Event.accepts, reads]
    · simp [Event.idles, reads]
    · obtain ⟨q, linked⟩ := Phase.peer_of_bind bound
      rw [single] at linked
      contradiction
  | wait present reads raw =>
    exact tally_reset rfl (by simp [Event.resets, present, raw, Conn.login, Phase.state])
  | «match» present reads raw =>
    exact tally_reset rfl (by simp [Event.resets, present, raw, Conn.met, Phase.state])
  | matched present waiting =>
    exact tally_reset rfl (by simp [Event.resets, present, waiting, Conn.met, Phase.state])
  | relay present reads bound =>
    exact tally_reset rfl (by simp [Event.resets, Event.readsFrom, present, reads, bound, Phase.state])
  | relayed present linked reads _ _ apart =>
    rw [present]
    refine tally_same (idle i _ present) rfl rfl ?_ ?_ fun _ => ?_
    · simp [Event.accepts, reads]
    · simp [Event.idles, reads]
    · simpa [Event.readsFrom, reads] using apart.symm
  | idle present times opens timeout =>
    rename_i c events
    have counts : label.event.idles i := Event.idles_iff.mpr ⟨events, times, timeout, opens⟩
    have kept : label.event.resets i (some c.phase.state) (some c.phase.state) = false := by
      rw [times]
      cases state : c.phase.state <;> simp [Event.resets, Event.accepts, Event.readsFrom]
    have tallied : label.event.tally i (some c.phase.state) (some c.phase.state) (n i) = n i + 1 := by
      rw [Event.tally, if_neg (by simp [kept]), if_pos counts]
    rw [present]
    change c.idle + 40 = 40 * (label.event.tally i (some c.phase.state) (some c.phase.state) (n i) : Int)
    rw [tallied, idle i c present]
    omega
  | drain present drains =>
    rw [present]
    refine tally_same (idle i _ present) rfl rfl ?_ ?_ fun _ => ?_
    · simp [Event.accepts, drains]
    · simp [Event.idles, drains]
    · simp [Event.readsFrom, drains]

theorem event_none_iff (present : v b = some c) (cfg : Option Configure) (env : Env)
    (events : BitVec 16) : v.event cfg env b events b = none ↔
      closes events ∨ has events bevEventTimeout ∧
        TimedOut cfg (PartialMap.modify v b (Conn.inactive env)) b := by
  have step := v.event_step cfg env b events
  generalize v.event cfg env b events = w at step
  cases step with
  | quiet opens untimed => simp [opens, untimed, present]
  | closed closes => simp [closes, remove_self]
  | idle opens timeout kept => simp [opens, timeout, kept, modify_present present]
  | expired opens timeout expired => simp [opens, timeout, expired, remove_self]

theorem event_closed (present : v b = some c) (cfg : Option Configure) (env : Env)
    (events : BitVec 16) (gone : v.event cfg env b events b = none) (i : BevPtr) :
    v.event cfg env b events i = if i = b ∨ c.phase.peer = some i then none else v i := by
  have step := v.event_step cfg env b events
  generalize v.event cfg env b events = w at step gone
  cases step with
  | quiet => rw [present] at gone; contradiction
  | closed => rw [Relay.remove, PartialMap.Paired.remove_apply, present, Option.bind_some]
  | idle => rw [modify_present present] at gone; contradiction
  | expired =>
    rw [Relay.remove, PartialMap.Paired.remove_apply, modify_present present, Option.bind_some]
    by_cases here : i = b
    · rw [if_pos (.inl here), if_pos (.inl here)]
    · rw [modify_of_ne here]
      rfl

theorem event_kept (present : v b = some c) (cfg : Option Configure) (env : Env)
    (events : BitVec 16) (kept : v.event cfg env b events b ≠ none) (i : BevPtr) :
    (v.event cfg env b events i).map (Conn.session cfg i) =
      if i = b then some { c.session cfg b with
        m_inactive := c.idle + if has events bevEventTimeout then 40 else 0 }
      else (v i).map (Conn.session cfg i) := by
  have step := v.event_step cfg env b events
  generalize v.event cfg env b events = w at step kept
  cases step with
  | quiet opens untimed =>
    by_cases here : i = b
    · subst i
      simp [present, untimed, Conn.session]
    · rw [if_neg here]
  | closed => exact absurd (remove_self ..) kept
  | idle opens timeout =>
    by_cases here : i = b
    · subst i
      simp [modify_present present, timeout, Conn.session, Conn.inactive]
    · rw [if_neg here, modify_of_ne here]
  | expired => exact absurd (remove_self ..) kept

end Relay

variable {cfg : Option Configure} {w w' : World} {n : BevPtr → Nat}

theorem idle_counted (run : Run (idleTimeouts.step (Step cfg)) (World.init, fun _ => 0) labels (w, n)) :
    ∃ v, w.Models cfg Phase.Fits v ∧ v.Idle n := by
  refine run.invariant (fun state => ∃ v, state.1.Models cfg Phase.Fits v ∧ v.Idle state.2) ?_
    ⟨_, .init, fun b c impossible => nomatch impossible⟩
  rintro ⟨w, n⟩ label ⟨w', n'⟩ ⟨v, models, idle⟩ ⟨step, records⟩
  obtain rfl : n' = idleTimeouts w label w' n := records
  have models' := models.next Relay.fits_joins step
  refine ⟨_, models', ?_⟩
  have counted := idle.next models.paired cfg w.m_sidCount label
  intro b c found
  change c.idle = 40 * (label.event.tally b (w.stateOf b) (w'.stateOf b) (n b) : Int)
  rw [counted b c found, models.represents.stateOf, models'.represents.stateOf]

/-- Exactly when an event closes a connection, and what it changes when it does
and when it does not. -/
theorem closing_law
    (run : Run (idleTimeouts.step (Step cfg)) (World.init, fun _ => 0) labels (w, n))
    (step : Step cfg w ⟨.connEventcb b events, env⟩ w') (session : w.sessionAt b = some s) :
    (b ∉ w'.m_bsMap ↔ has events bevEventEof ∨ has events bevEventError ∨
      has events bevEventTimeout ∧ s.m_state.limit cfg ≤ 40 * (n b + 1 : Int) ∧
        ∀ q t, s.m_meetee1.bev = some q → w.sessionAt q = some t → t.m_state.limit cfg ≤ 40 * (n q : Int)) ∧
    (b ∉ w'.m_bsMap → ∀ i, w'.sessionAt i =
      if i = b ∨ s.m_meetee1.bev = some i then none else w.sessionAt i) ∧
    (b ∈ w'.m_bsMap → ∀ i, w'.sessionAt i =
      if i = b then
        some { s with m_inactive := s.m_inactive + if has events bevEventTimeout then 40 else 0 }
      else w.sessionAt i) := by
  obtain ⟨v, models, idle⟩ := idle_counted run
  have r := models.represents
  obtain ⟨r', _⟩ := r.next models.paired step
  rw [r.sessionAt] at session
  obtain ⟨c, present, rfl⟩ := Option.map_eq_some_iff.mp session
  have removed : b ∉ w'.m_bsMap ↔ v.event cfg env b events b = none := by
    rw [r'.mem_iff, Option.not_isSome_iff_eq_none]
    rfl
  refine ⟨?_, ?_, ?_⟩
  · have limits : (∀ q t, c.phase.peer = some q → v q = some t → t.phase.limit cfg ≤ t.idle) ↔
        ∀ q t, c.phase.peer = some q → w.sessionAt q = some t → t.m_state.limit cfg ≤ 40 * (n q : Int) := by
      apply forall_congr'
      intro q
      constructor
      · intro expired t linked found
        rw [r.sessionAt] at found
        obtain ⟨d, present', rfl⟩ := Option.map_eq_some_iff.mp found
        rw [← idle q d present', Conn.session, Phase.limit_state]
        exact expired d linked present'
      · intro expired d linked present'
        have := expired (d.session cfg q) linked (by rw [r.sessionAt, present', Option.map_some])
        rwa [Conn.session, Phase.limit_state, ← idle q d present'] at this
    rw [removed, Relay.event_none_iff present, Relay.timedOut_inactive_iff models.paired present, limits,
      idle b c present, Relay.closes, Bool.or_eq_true, or_assoc, Conn.session, Phase.limit_state]
    rw [show (40 : Int) * (n b + 1) = 40 * n b + 40 by omega]
  · intro gone i
    rw [r'.sessionAt, r.sessionAt]
    have closed := Relay.event_closed present cfg env events (removed.mp gone) i
    rw [show v.next cfg w.m_sidCount ⟨.connEventcb b events, env⟩ i = _ from closed]
    change Option.map _ (if i = b ∨ c.phase.peer = some i then none else v i) =
      if i = b ∨ c.phase.peer = some i then none else _
    split <;> rfl
  · intro kept i
    rw [r'.sessionAt, r.sessionAt]
    have kept := Relay.event_kept present cfg env events (fun gone => removed.mpr gone kept) i
    exact kept

theorem closing_law_pairLogin :
    ∃ w', Step none (World.after none pairLogin) ⟨.connEventcb 5 bevEventEof, .ideal 0⟩ w' ∧
      5 ∉ w'.m_bsMap ∧ w'.sessionAt 7 = none := by
  have run := run_after none pairLogin (by decide +kernel)
  obtain ⟨n, recorded⟩ := idleTimeouts.records run fun _ => 0
  obtain ⟨w', step⟩ := progress run ⟨.connEventcb 5 bevEventEof, .ideal 0⟩ (by decide +kernel)
  have peer : ((World.after none pairLogin).sessionAt 5).map (·.m_meetee1.bev) = some (some 7) := by
    decide +kernel
  obtain ⟨s, session, linked⟩ := Option.map_eq_some_iff.mp peer
  obtain ⟨closes, takes, _⟩ := closing_law recorded step session
  have gone : 5 ∉ w'.m_bsMap := closes.mpr (.inl (by decide))
  exact ⟨w', step, gone, by rw [takes gone 7, if_pos (.inr linked)]⟩

end RemoteServer
