import RemoteServer.Timed

/-! How long silence is tolerated. The idle time of a connection starts afresh when it
is accepted, logs in or is bound, and with every read once it is bound; a pair lasts
until both its ends have been idle for the active timeout. Idle time is counted in
whole timeouts of forty seconds, which gives each bound its slack. -/
namespace RemoteServer
open Transition PartialMap

/-- When the idle time of a connection last started afresh. -/
def quietSince : Monitor (World × Time) TimedLabel (BevPtr → Time) := fun (w, now) label (w', _) since b =>
  match label with
  | .delay _ => since b
  | .callback label => if label.event.resets b (w.stateOf b) (w'.stateOf b) then now else since b

/-- The idle time that a connection's data has cut short since then. -/
def cutSince : Monitor (World × Time) TimedLabel (BevPtr → Time) := fun (w, now) label (w', _) lost b =>
  match label with
  | .delay _ => lost b
  | .callback label =>
    if label.event.resets b (w.stateOf b) (w'.stateOf b) then 0
    else if label.event.readsFrom b then lost b + w.waited now b
    else lost b

/-- No bound connection has been idle for so long that the next timeout overflows its
counter. -/
def World.Countable (w : World) : Prop :=
  ∀ b s, w.sessionAt b = some s → s.m_state = .bind → s.Countable

/-- A step to a state in which all counters have room left. -/
def CountableStep (cfg : Option Configure) (state : World × Time) (label : TimedLabel)
    (state' : World × Time) : Prop :=
  TimedStep cfg state label state' ∧ state'.1.Countable

namespace Relay
variable {v : Relay} {R : Phase → Phase → Prop} {b i q : BevPtr} {c t new : Conn} {cfg : Option Configure}
  {sid : Int} {label : Label} {now : Time} {since lost : BevPtr → Time}

/-- `quietSince` and `cutSince`, as the relay sees them. -/
def quiets (label : Label) (v v' : Relay) (now : Time) (since : BevPtr → Time) (b : BevPtr) : Time :=
  if label.event.resets b (v.state b) (v'.state b) then now else since b

def cuts (label : Label) (v v' : Relay) (now : Time) (lost : BevPtr → Time) (b : BevPtr) : Time :=
  if label.event.resets b (v.state b) (v'.state b) then 0
  else if label.event.readsFrom b then lost b + v.waited now b
  else lost b

end Relay

/-- The timer of a connection, as it last started, is at most its idle time past the
moment the idle time started afresh, and the idle time that data has cut short. -/
structure Conn.Watched (now since lost : Time) (c : Conn) : Prop where
  armed : c.line.Armed now
  past : since ≤ now
  alone : c.phase.peer = none → (c.line.timer : Int) ≤ since + c.idle * 1000000 + lost
  linked : c.phase.peer ≠ none → (c.line.timer : Int) ≤ since + c.idle * 1000000

/-- Moreover the last timeout of a bound connection found it or its peer with idle
time to spare. -/
structure Relay.Watched (cfg : Option Configure) (now : Time) (since lost : BevPtr → Time) (v : Relay) :
    Prop where
  conn : ∀ {b c}, v b = some c → c.Watched now (since b) (lost b)
  pair : ∀ {b c q}, v b = some c → c.phase.peer = some q →
    (c.line.timer : Int) ≤ since b + activeTimeout cfg * 1000000 ∨
      (c.line.timer : Int) ≤ since q + (activeTimeout cfg + 40) * 1000000

/-- The timer of a bound connection may have run for up to forty seconds when it was
bound; otherwise no idle second is counted early. -/
structure Conn.Punctual (now since : Time) (c : Conn) : Prop where
  armed : c.line.Armed now
  alone : c.phase.peer = none → (since : Int) + c.idle * 1000000 ≤ c.line.timer
  linked : (since : Int) + c.idle * 1000000 ≤ c.line.timer + 40 * 1000000

def Relay.Punctual (now : Time) (since : BevPtr → Time) (v : Relay) : Prop :=
  ∀ b c, v b = some c → c.Punctual now (since b)

theorem TimerStep.armed {label : Label} {v : Relay} {i : BevPtr} {new : Conn} {now : Time}
    (step : TimerStep label v i new) (clock : label.env.clock = now)
    (before : ∀ c, v i = some c → c.line.Armed now) : new.line.Armed now := by
  have restart {c : Conn} (present : v i = some c) (period : new.line.readTimeout = c.line.readTimeout)
      (timer : new.line.timer = label.env.clock) : new.line.Armed now :=
    (before c present).restart period (timer.trans clock)
  have same {c : Conn} (present : v i = some c) (period : new.line.readTimeout = c.line.readTimeout)
      (timer : new.line.timer = c.line.timer) : new.line.Armed now := by
    obtain ⟨old, started, running⟩ := before c present
    exact ⟨period.trans old, timer ▸ started, timer ▸ running⟩
  cases step with
  | accept _ _ _ period timer =>
    refine ⟨period, le_of_eq (timer.trans clock), ?_⟩
    rw [timer, clock]
    exact Nat.le_add_right ..
  | reset present _ _ period timer =>
    exact timer.elim (fun bound => same present period bound.2) (restart present period)
  | heard present _ _ _ _ _ period timer => exact restart present period timer
  | idle present _ _ _ _ _ period timer => exact restart present period timer
  | untouched present _ _ _ _ period timer => exact same present period timer

namespace Relay
variable {v : Relay} {R : Phase → Phase → Prop} {b i q : BevPtr} {c t new : Conn} {cfg : Option Configure}
  {sid : Int} {label : Label} {now : Time} {since lost : BevPtr → Time}

theorem limit_of_peer {phase : Phase} (linked : phase.peer = some q) (cfg : Option Configure) :
    phase.limit cfg = activeTimeout cfg := by
  obtain ⟨_, _, rfl⟩ := phase_of_peer linked
  rfl

theorem Watched.conn_next (watched : v.Watched cfg now since lost) (paired : v.Paired R)
    (clock : label.env.clock = now)
    (fresh : ∀ b fd, label.event = .listenerCb (some b) fd → v b = none)
    (found : v.next cfg sid label i = some new) :
    new.Watched now (v.quiets label (v.next cfg sid label) now since i)
      (v.cuts label (v.next cfg sid label) now lost i) := by
  have step := timer_step paired fresh found
  have armed := step.armed clock fun c present => (watched.conn present).armed
  have started := Int.ofNat_le.mpr armed.started
  rw [quiets, cuts, state_present found]
  cases step with
  | accept accepts phase idle period timer =>
    have resets : label.event.resets i (v.state i) (some new.phase.state) := by
      simp [Event.resets, accepts]
    rw [if_pos resets, if_pos resets]
    exact ⟨armed, le_refl _, fun _ => by omega, fun _ => by omega⟩
  | reset present resets idle period timer =>
    rw [if_pos resets, if_pos resets]
    exact ⟨armed, le_refl _, fun _ => by omega, fun _ => by omega⟩
  | @heard c present kept reads single phase idle period timer =>
    obtain ⟨before, past, alone, linked⟩ := watched.conn present
    rw [if_neg kept, if_neg kept, if_pos reads]
    have waited : v.waited now i = now - c.line.timer := by
      rw [Relay.waited, present]
      rfl
    have earlier := alone single
    have begun := before.started
    refine ⟨armed, past, fun _ => ?_, fun peer => ?_⟩
    · rw [waited, idle, timer, clock]
      omega
    · rw [phase] at peer
      exact absurd single peer
  | @idle c events present kept times timeout phase idle period timer =>
    obtain ⟨before, past, alone, linked⟩ := watched.conn present
    have unread : ¬label.event.readsFrom i := by simp [Event.readsFrom, times]
    rw [if_neg kept, if_neg kept, if_neg unread]
    have within := before.within
    refine ⟨armed, past, fun single => ?_, fun peer => ?_⟩
    · rw [phase] at single
      have earlier := alone single
      rw [timer, clock, idle]
      omega
    · rw [phase] at peer
      have earlier := linked peer
      rw [timer, clock, idle]
      omega
  | @untouched c present kept unread phase idle period timer =>
    obtain ⟨before, past, alone, linked⟩ := watched.conn present
    rw [if_neg kept, if_neg kept, if_neg unread]
    refine ⟨armed, past, ?_, ?_⟩
    · rw [phase, idle, timer]
      exact alone
    · rw [phase, idle, timer]
      exact linked

theorem Watched.quiets_le (watched : v.Watched cfg now since lost) (label : Label)
    (present : v b = some c) (v' : Relay) : since b ≤ v.quiets label v' now since b := by
  rw [quiets]
  split
  · exact (watched.conn present).past
  · exact le_refl _

theorem Watched.pair_next (watched : v.Watched cfg now since lost) (paired : v.Paired R)
    (nonneg : ∀ phase : Phase, 0 ≤ phase.limit cfg) (clock : label.env.clock = now)
    (fresh : ∀ b fd, label.event = .listenerCb (some b) fd → v b = none)
    (found : v.next cfg sid label i = some new) (linked : new.phase.peer = some q) :
    (new.line.timer : Int) ≤
        v.quiets label (v.next cfg sid label) now since i + activeTimeout cfg * 1000000 ∨
      (new.line.timer : Int) ≤
        v.quiets label (v.next cfg sid label) now since q + (activeTimeout cfg + 40) * 1000000 := by
  have step := timer_step paired fresh found
  have limit := limit_of_peer linked cfg
  have positive := nonneg new.phase
  cases step with
  | accept accepts raw =>
    rw [raw] at linked
    contradiction
  | reset present resets idle period timer =>
    left
    have started : new.line.timer ≤ now := by
      rcases timer with ⟨_, same⟩ | restarted
      · rw [same]
        exact (watched.conn present).armed.started
      · exact le_of_eq (restarted.trans clock)
    have passed := Int.ofNat_le.mpr started
    rw [quiets, state_present found, if_pos resets]
    omega
  | heard present kept reads single phase =>
    rw [phase, single] at linked
    contradiction
  | @idle c events present kept times timeout phase idle period timer =>
    rw [phase] at linked
    obtain ⟨_, t, partner, back, _⟩ := paired i c q present linked
    have within := (watched.conn present).armed.within
    have mine := (watched.conn present).linked (by simp [linked])
    have later := Int.ofNat_le.mpr (watched.quiets_le label present (v.next cfg sid label))
    have later' := Int.ofNat_le.mpr (watched.quiets_le label partner (v.next cfg sid label))
    rw [timer, clock]
    rcases spare_of_kept paired present times timeout found with spare | ⟨q', t', linked', partner', spare⟩
    · left
      rw [phase] at limit
      omega
    · right
      obtain rfl := Option.some.inj (linked.symm.trans linked')
      obtain rfl := Option.some.inj (partner.symm.trans partner')
      have theirs := (watched.conn partner).linked (by simp [back])
      have within' := (watched.conn partner).armed.within
      rw [limit_of_peer back] at spare
      omega
  | untouched present kept unread phase idle period timer =>
    rw [phase] at linked
    obtain ⟨_, t, partner, _⟩ := paired i _ q present linked
    have later := Int.ofNat_le.mpr (watched.quiets_le label present (v.next cfg sid label))
    have later' := Int.ofNat_le.mpr (watched.quiets_le label partner (v.next cfg sid label))
    rw [timer]
    rcases watched.pair present linked with early | early
    · left
      omega
    · right
      omega

theorem Watched.next (watched : v.Watched cfg now since lost) (paired : v.Paired R)
    (nonneg : ∀ phase : Phase, 0 ≤ phase.limit cfg) (clock : label.env.clock = now)
    (fresh : ∀ b fd, label.event = .listenerCb (some b) fd → v b = none) :
    (v.next cfg sid label).Watched cfg now (v.quiets label (v.next cfg sid label) now since)
      (v.cuts label (v.next cfg sid label) now lost) where
  conn found := watched.conn_next paired clock fresh found
  pair found linked := watched.pair_next paired nonneg clock fresh found linked

theorem Watched.delay (watched : v.Watched cfg now since lost) (d : Time)
    (idle : ∀ b c, v b = some c → now + d ≤ c.line.timer + seconds 40) :
    v.Watched cfg (now + d) since lost where
  conn present := by
    obtain ⟨armed, past, alone, linked⟩ := watched.conn present
    exact ⟨⟨armed.period, Nat.le_add_right_of_le armed.started, idle _ _ present⟩,
      Nat.le_add_right_of_le past, alone, linked⟩
  pair := watched.pair

/-- When every timeout is one of reading, and raised when it is due, idle time is
not counted early. -/
theorem Punctual.next (punctual : v.Punctual now since) (paired : v.Paired R)
    (clock : label.env.clock = now)
    (fresh : ∀ b fd, label.event = .listenerCb (some b) fd → v b = none)
    (due : ∀ b c events, label.event = .connEventcb b events → has events bevEventTimeout →
      v b = some c → now = c.line.timer + seconds 40) :
    (v.next cfg sid label).Punctual now (v.quiets label (v.next cfg sid label) now since) := by
  intro i new found
  have step := timer_step paired fresh found
  have armed := step.armed clock fun c present => (punctual i c present).armed
  rw [quiets, state_present found]
  cases step with
  | accept accepts phase idle period timer =>
    have resets : label.event.resets i (v.state i) (some new.phase.state) := by
      simp [Event.resets, accepts]
    rw [if_pos resets]
    exact ⟨armed, fun _ => by rw [idle, timer, clock]; omega, by rw [idle, timer, clock]; omega⟩
  | @reset c present resets idle period timer =>
    obtain ⟨before, _, _⟩ := punctual i c present
    have within := armed.within
    rw [if_pos resets]
    refine ⟨armed, fun single => ?_, by rw [idle]; omega⟩
    rcases timer with ⟨bound, _⟩ | restarted
    · exact absurd single bound
    · rw [idle, restarted, clock]
      omega
  | @heard c present kept reads single phase idle period timer =>
    obtain ⟨before, alone, linked⟩ := punctual i c present
    have started := Int.ofNat_le.mpr before.started
    have earlier := alone single
    rw [if_neg kept]
    refine ⟨armed, fun _ => ?_, ?_⟩
    · rw [idle, timer, clock]
      omega
    · rw [idle, timer, clock]
      omega
  | @idle c events present kept times timeout phase idle period timer =>
    obtain ⟨before, alone, linked⟩ := punctual i c present
    have exactly : (now : Int) = c.line.timer + 40 * 1000000 :=
      congrArg Int.ofNat (due i c events times timeout present)
    rw [if_neg kept]
    refine ⟨armed, fun single => ?_, ?_⟩
    · rw [phase] at single
      have earlier := alone single
      rw [idle, timer, clock]
      omega
    · rw [idle, timer, clock]
      omega
  | @untouched c present kept unread phase idle period timer =>
    obtain ⟨before, alone, linked⟩ := punctual i c present
    rw [if_neg kept]
    refine ⟨armed, ?_, ?_⟩
    · rw [phase, idle, timer]
      exact alone
    · rw [idle, timer]
      exact linked

end Relay

section Runs
variable {cfg : Option Configure} {w w' : World} {v : Relay} {now now' : Time}
  {since lost : BevPtr → Time} {label : Label} {labels : List TimedLabel} {b q : BevPtr} {s : Session}

theorem World.Models.due_armed {R : Phase → Phase → Prop} {c : Conn} (models : w.Models cfg R v)
    (present : v b = some c) (armed : c.line.Armed now) : w.due b = some (c.line.timer + seconds 40) := by
  rw [models.due, present, Option.bind_some, armed.period, Option.map_some]

/-- The monitors see what the relay does. -/
theorem World.Models.quiets {R : Phase → Phase → Prop} {v' : Relay} (models : w.Models cfg R v)
    (models' : w'.Models cfg R v') :
    quietSince (w, now) (.callback label) (w', now) since = v.quiets label v' now since := by
  funext b
  rw [quietSince, Relay.quiets, models.represents.stateOf, models'.represents.stateOf]

theorem World.Models.cuts {R : Phase → Phase → Prop} {v' : Relay} (models : w.Models cfg R v)
    (models' : w'.Models cfg R v') :
    cutSince (w, now) (.callback label) (w', now) lost = v.cuts label v' now lost := by
  funext b
  rw [cutSince, Relay.cuts, models.represents.stateOf, models'.represents.stateOf, models.waited]

theorem World.Models.countable {R : Phase → Phase → Prop} (models : w.Models cfg R v)
    (counted : v.Counted cfg) {n : Int} (below : ∀ b c, v b = some c → c.idle ≤ n)
    (small : n + 40 < 2147483648) : w.Countable := by
  intro b s session _
  rw [models.represents.sessionAt] at session
  obtain ⟨c, present, rfl⟩ := Option.map_eq_some_iff.mp session
  obtain ⟨timeouts, whole⟩ := (counted b c present).timeouts
  have most := below b c present
  change 0 ≤ c.idle ∧ c.idle + 40 < 2147483648
  omega

theorem World.countable_init : World.init.Countable := by
  have models : World.init.Models none Phase.Fits fun _ => none := .init
  have counted : Relay.Counted none fun _ => none := fun _ _ impossible => nomatch impossible
  exact models.countable counted (n := 0) (fun _ _ impossible => nomatch impossible) (by decide)

theorem watched_kept (limits : ∀ state : SessionState, 0 ≤ state.limit cfg)
    (run : Run ((quietSince.prod cutSince).step (CountableStep cfg))
      ((World.init, 0), (fun _ => 0), fun _ => 0) labels ((w, now), since, lost)) :
    w.Countable ∧ ∃ v, w.Models cfg Phase.Fits v ∧ v.Counted cfg ∧ v.Watched cfg now since lost := by
  have nonneg (phase : Phase) : 0 ≤ phase.limit cfg := by
    rw [← Phase.limit_state]
    exact limits phase.state
  refine run.invariant (fun state => state.1.1.Countable ∧ ∃ v, state.1.1.Models cfg Phase.Fits v ∧
      v.Counted cfg ∧ v.Watched cfg state.1.2 state.2.1 state.2.2) ?_
    ⟨World.countable_init, _, .init, (fun b c impossible => nomatch impossible),
      ⟨(fun impossible => nomatch impossible), (fun impossible => nomatch impossible)⟩⟩
  rintro ⟨⟨w, now⟩, since, lost⟩ label ⟨⟨w', now'⟩, since', lost'⟩ ⟨_, v, models, counted, watched⟩
    ⟨⟨step, countable⟩, records⟩
  obtain rfl : since' = quietSince (w, now) label (w', now') since := (Prod.mk.inj records).1
  obtain rfl : lost' = cutSince (w, now) label (w', now') lost := (Prod.mk.inj records).2
  cases step with
  | @delay _ _ d idle =>
    refine ⟨countable, v, models, counted, watched.delay d fun b c present => ?_⟩
    exact idle b _ (models.due_armed present (watched.conn present).armed)
  | @callback _ _ _ label clock _ step =>
    have models' := models.next Relay.fits_joins step
    have fresh := models.represents.accepts_free step
    refine ⟨countable, _, models', counted.next models.paired fresh, ?_⟩
    rw [models.quiets models', models.cuts models']
    exact watched.next models.paired nonneg clock fresh

/-- A run of so few events that no counter can overflow. -/
theorem countable_of_short (run : Run (TimedStep cfg) (World.init, 0) labels state)
    (short : labels.length ≤ 53687090) : Run (CountableStep cfg) (World.init, 0) labels state := by
  suffices kept : Run (CountableStep cfg) (World.init, 0) labels state ∧
      ∃ v, state.1.Models cfg Phase.Fits v ∧ v.Counted cfg ∧
        ∀ b c, v b = some c → c.idle ≤ 40 * (labels.length : Int) from kept.1
  induction run with
  | refl =>
    exact ⟨.refl, _, .init, (fun b c impossible => nomatch impossible),
      fun b c impossible => nomatch impossible⟩
  | @snoc labels state label state' _ step ih =>
    rw [List.length_append, List.length_singleton] at short ⊢
    obtain ⟨run, v, models, counted, below⟩ := ih (by omega)
    cases step with
    | @delay w now d idle =>
      have countable : w.Countable := models.countable counted below (by omega)
      refine ⟨run.snoc ⟨.delay idle, countable⟩, v, models, counted, fun b c present => ?_⟩
      have most := below b c present
      omega
    | @callback w w' now label clock timely step =>
      have fresh := models.represents.accepts_free step
      have models' := models.next Relay.fits_joins step
      have counted' : Relay.Counted cfg (v.next cfg w.m_sidCount label) := counted.next models.paired fresh
      have below' : ∀ b c, v.next cfg w.m_sidCount label b = some c →
          c.idle ≤ 40 * ((labels.length + 1 : Nat) : Int) := by
        intro b c present
        have most := Relay.idle_next below (by omega) models.paired fresh present
        omega
      exact ⟨run.snoc ⟨.callback clock timely step, models'.countable counted' below' (by omega)⟩,
        _, models', counted', below'⟩

/-- In timed runs in which the counters of bound connections always have room for one more
timeout, no silence lasts for ever: a connection that is not bound has by now been idle for
its limit and one more timeout at most, not counting what its own data has cut short, and a
bound one is still there only if it was read within the active timeout and one more period,
or its peer within the active timeout and two. With limits of at most 2147483640 the other
counters do not overflow either. -/
theorem silence_bounded
    (limits : ∀ state : SessionState, 0 ≤ state.limit cfg ∧ state.limit cfg ≤ 2147483640)
    (run : Run ((quietSince.prod cutSince).step (CountableStep cfg))
      ((World.init, 0), (fun _ => 0), fun _ => 0) labels ((w, now), since, lost))
    (session : w.sessionAt b = some s) :
    (s.m_state ≠ .bind → (now : Int) ≤ since b + (s.m_state.limit cfg + 40) * 1000000 + lost b) ∧
    (∀ q, s.m_meetee1.bev = some q →
      (now : Int) ≤ since b + (activeTimeout cfg + 40) * 1000000 ∨
        (now : Int) ≤ since q + (activeTimeout cfg + 80) * 1000000) ∧
    s.Countable := by
  obtain ⟨countable, v, models, counted, watched⟩ := watched_kept (fun state => (limits state).1) run
  have whole := countable b s session
  rw [models.represents.sessionAt] at session
  obtain ⟨c, present, rfl⟩ := Option.map_eq_some_iff.mp session
  obtain ⟨armed, _, alone, _⟩ := watched.conn present
  have within := armed.within
  obtain ⟨nonneg, small⟩ := limits c.phase.state
  rw [Phase.limit_state] at nonneg small
  refine ⟨?_, ?_, ?_⟩
  · intro state
    have single : c.phase.peer = none := Phase.peer_of_single state
    have spare := (counted b c present).spare single
    have started := alone single
    rw [Conn.session, Phase.limit_state]
    omega
  · intro q linked
    rcases watched.pair present linked with started | started
    · left
      omega
    · right
      omega
  · by_cases bound : c.phase.state = .bind
    · exact whole bound
    · exact (counted b c present).countable (Phase.peer_of_single bound) small b

/-- A pair that has been silent for forty seconds. -/
def quietPair : List TimedLabel := pairLogin.map .callback ++ [.delay (seconds 40)]

theorem limits_default (state : SessionState) :
    0 ≤ state.limit (some .defaults) ∧ state.limit (some .defaults) ≤ 2147483640 := by
  cases state <;> decide

theorem silence_bounded_quietPair :
    ∃ w now since lost, Run ((quietSince.prod cutSince).step (CountableStep (some .defaults)))
        ((World.init, 0), (fun _ => 0), fun _ => 0) quietPair ((w, now), since, lost) ∧
      ((now : Int) ≤ since 5 + (1800 + 40) * 1000000 ∨ (now : Int) ≤ since 7 + (1800 + 80) * 1000000) := by
  have replays : (timedReplay (some .defaults) quietPair (World.init, 0)).bind (fun state =>
      (state.1.sessionAt 5).map (·.m_meetee1.bev)) = some (some 7) := by
    decide +kernel
  obtain ⟨⟨w, now⟩, replayed, found⟩ := Option.bind_eq_some_iff.mp replays
  obtain ⟨s, session, linked⟩ := Option.map_eq_some_iff.mp found
  have counts := countable_of_short (run_of_timedReplay .init replayed) (by decide)
  obtain ⟨⟨since, lost⟩, recorded⟩ := (quietSince.prod cutSince).records counts (fun _ => 0, fun _ => 0)
  exact ⟨w, now, since, lost, recorded, (silence_bounded limits_default recorded session).2.1 7 linked⟩

end Runs
end RemoteServer
