import RemoteServer.Idle

/-! How far the idle counters go. Where the source has an `int` they are counted here
without bound. A connection that is not bound never gets past its limit; one that is
bound goes on counting as long as its peer is active. -/
namespace RemoteServer
open Transition PartialMap

theorem Event.not_resets {event : Event} {state : SessionState} (unaccepted : ¬event.accepts b)
    (unread : state = .bind → ¬event.readsFrom b) :
    ¬event.resets b (some state) (some state) := by
  cases state <;> simp_all [resets]

/-- What a step does to the idle time of a connection and to its timer. -/
inductive TimerStep (label : Label) (v : Relay) (i : BevPtr) (new : Conn) : Prop where
  | accept : label.event.accepts i → new.phase = .raw → new.idle = 0 →
      new.line.readTimeout = some (seconds 40) → new.line.timer = label.env.clock →
      TimerStep label v i new
  | reset {c : Conn} : v i = some c → label.event.resets i (v.state i) (some new.phase.state) →
      new.idle = 0 → new.line.readTimeout = c.line.readTimeout →
      (new.phase.peer ≠ none ∧ new.line.timer = c.line.timer ∨ new.line.timer = label.env.clock) →
      TimerStep label v i new
  /-- Data from a connection that is not bound restarts the timer alone. -/
  | heard {c : Conn} : v i = some c → ¬label.event.resets i (v.state i) (some new.phase.state) →
      label.event.readsFrom i → c.phase.peer = none → new.phase = c.phase → new.idle = c.idle →
      new.line.readTimeout = c.line.readTimeout → new.line.timer = label.env.clock →
      TimerStep label v i new
  | idle {c : Conn} {events : BitVec 16} : v i = some c →
      ¬label.event.resets i (v.state i) (some new.phase.state) → label.event = .connEventcb i events →
      has events bevEventTimeout → new.phase = c.phase → new.idle = c.idle + 40 →
      new.line.readTimeout = c.line.readTimeout → new.line.timer = label.env.clock →
      TimerStep label v i new
  | untouched {c : Conn} : v i = some c → ¬label.event.resets i (v.state i) (some new.phase.state) →
      ¬label.event.readsFrom i → new.phase = c.phase → new.idle = c.idle →
      new.line.readTimeout = c.line.readTimeout → new.line.timer = c.line.timer → TimerStep label v i new

theorem append_timer (x : Bufferevent) (success : Bool) (data : List UInt8) :
    (x.append success data).timer = x.timer ∧ (x.append success data).readTimeout = x.readTimeout := by
  cases success <;> exact ⟨rfl, rfl⟩

/-- The idle time is a number of whole timeouts, and while the connection is not bound it
is below its limit. -/
structure Conn.Counted (cfg : Option Configure) (c : Conn) : Prop where
  timeouts : ∃ n : Nat, c.idle = 40 * n
  spare : c.phase.peer = none → c.idle = 0 ∨ c.idle < c.phase.limit cfg

theorem Conn.Counted.zero {cfg : Option Configure} {c : Conn} (idle : c.idle = 0) : c.Counted cfg where
  timeouts := ⟨0, idle⟩
  spare _ := .inl idle

theorem Conn.Counted.congr {cfg : Option Configure} {c new : Conn} (counted : c.Counted cfg)
    (phase : new.phase = c.phase) (idle : new.idle = c.idle) : new.Counted cfg where
  timeouts := idle ▸ counted.timeouts
  spare := by
    rw [phase, idle]
    exact counted.spare

/-- The next timeout does not overflow the counter. -/
def Session.Countable (s : Session) : Prop := 0 ≤ s.m_inactive ∧ s.m_inactive + 40 < 2147483648

/-- A limit of at most 2147483640 is reached before an `int` overflows. -/
theorem Conn.Counted.countable {cfg : Option Configure} {c : Conn} (counted : c.Counted cfg)
    (single : c.phase.peer = none) (small : c.phase.limit cfg ≤ 2147483640) (b : BevPtr) :
    (c.session cfg b).Countable := by
  obtain ⟨n, whole⟩ := counted.timeouts
  have spare := counted.spare single
  change 0 ≤ c.idle ∧ c.idle + 40 < 2147483648
  omega

namespace Relay
variable {v : Relay} {R : Phase → Phase → Prop} {b i q : BevPtr} {c t new : Conn} {cfg : Option Configure}
  {sid : Int} {label : Label}

theorem timer_step (paired : v.Paired R) (fresh : ∀ b fd, label.event = .listenerCb (some b) fd → v b = none)
    (found : v.next cfg sid label i = some new) : TimerStep label v i new := by
  have step := conn_step paired cfg sid label found
  have untouched {c : Conn} (present : v i = some c) (unread : ¬label.event.readsFrom i)
      (phase : new.phase = c.phase) (idle : new.idle = c.idle)
      (period : new.line.readTimeout = c.line.readTimeout) (timer : new.line.timer = c.line.timer) :
      TimerStep label v i new := by
    refine .untouched present ?_ unread phase idle period timer
    rw [state_present present, phase]
    exact Event.not_resets (not_accepts present fresh) fun _ => unread
  cases step with
  | accept accepts => exact .accept (Event.accepts_iff.mpr ⟨_, accepts⟩) rfl rfl rfl rfl
  | stay present unread =>
    refine untouched present ?_ rfl rfl rfl rfl
    rw [Event.readsFrom_iff]
    rintro ⟨chunk, reads⟩
    exact (unread i chunk new reads present).1 rfl
  | @drop c chunk present reads single =>
    refine .heard present ?_ (Event.readsFrom_iff.mpr ⟨chunk, reads⟩) single rfl rfl rfl rfl
    rw [state_present present]
    refine Event.not_resets (not_accepts present fresh) fun bound => ?_
    obtain ⟨q, linked⟩ := Phase.peer_of_bind bound
    rw [single] at linked
    contradiction
  | wait present reads raw =>
    refine .reset present ?_ rfl rfl (.inr rfl)
    simp [Event.resets, state_present present, raw, Conn.login, Phase.state]
  | «match» present reads raw =>
    refine .reset present ?_ rfl (append_timer ..).2 (.inr (append_timer ..).1)
    simp [Event.resets, state_present present, raw, Conn.met, Phase.state]
  | matched present waiting =>
    refine .reset present ?_ rfl (append_timer ..).2 (.inl ⟨by simp [Conn.met, Phase.peer], (append_timer ..).1⟩)
    simp [Event.resets, state_present present, waiting, Conn.met, Phase.state]
  | relay present reads bound =>
    refine .reset present ?_ rfl rfl (.inr rfl)
    simp [Event.resets, Event.readsFrom, state_present present, reads, bound, Phase.state]
  | relayed present _ reads _ _ apart =>
    refine untouched present ?_ rfl rfl (append_timer ..).2 (append_timer ..).1
    simpa [Event.readsFrom, reads] using apart.symm
  | idle present times _ timeout =>
    refine .idle present ?_ times timeout rfl rfl rfl rfl
    rw [state_present present]
    refine Event.not_resets (not_accepts present fresh) fun _ => ?_
    simp [Event.readsFrom, times]
  | drain present drains =>
    refine untouched present ?_ rfl rfl rfl rfl
    simp [Event.readsFrom, drains]

/-- A timeout of a connection that stays finds it, or its peer, with idle time to spare. -/
theorem spare_of_kept {events : BitVec 16} (paired : v.Paired R) (present : v b = some c)
    (times : label.event = .connEventcb b events) (timeout : has events bevEventTimeout)
    (found : v.next cfg sid label b = some new) :
    c.idle + 40 < c.phase.limit cfg ∨
      ∃ q t, c.phase.peer = some q ∧ v q = some t ∧ t.idle < t.phase.limit cfg := by
  have survives : v.event cfg label.env b events b = some new := by
    rw [Relay.next, times] at found
    exact found
  have patient : ¬TimedOut cfg (modify v b (Conn.inactive label.env)) b := fun expired => by
    rw [(event_none_iff present cfg label.env events).mpr (.inr ⟨timeout, expired⟩)] at survives
    contradiction
  rw [timedOut_inactive_iff paired present] at patient
  by_contra spent
  push Not at spent
  exact patient ⟨spent.1, spent.2⟩

def Counted (cfg : Option Configure) (v : Relay) : Prop := ∀ b c, v b = some c → c.Counted cfg

theorem Counted.next (counted : v.Counted cfg) (paired : v.Paired R)
    (fresh : ∀ b fd, label.event = .listenerCb (some b) fd → v b = none) :
    (v.next cfg sid label).Counted cfg := by
  intro i new found
  have step := timer_step paired fresh found
  cases step with
  | accept _ _ idle => exact .zero idle
  | reset _ _ idle => exact .zero idle
  | heard present _ _ _ phase idle => exact (counted i _ present).congr phase idle
  | @idle c events present _ times timeout phase idle =>
    obtain ⟨n, whole⟩ := (counted i c present).timeouts
    refine ⟨⟨n + 1, by omega⟩, fun single => .inr ?_⟩
    rw [phase] at single ⊢
    rcases spare_of_kept paired present times timeout found with spare | ⟨q, t, linked, _⟩
    · omega
    · rw [single] at linked
      contradiction
  | untouched present _ _ phase idle => exact (counted i _ present).congr phase idle

/-- A step adds one timeout at most. -/
theorem idle_next {n : Int} (below : ∀ b c, v b = some c → c.idle ≤ n) (nonneg : 0 ≤ n) (paired : v.Paired R)
    (fresh : ∀ b fd, label.event = .listenerCb (some b) fd → v b = none)
    (found : v.next cfg sid label i = some new) : new.idle ≤ n + 40 := by
  have step := timer_step paired fresh found
  cases step with
  | accept _ _ idle => omega
  | reset _ _ idle => omega
  | heard present _ _ _ _ idle =>
    have before := below i _ present
    omega
  | idle present _ _ _ _ idle =>
    have before := below i _ present
    omega
  | untouched present _ _ _ idle =>
    have before := below i _ present
    omega

end Relay
end RemoteServer
