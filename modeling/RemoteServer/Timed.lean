import RemoteServer.Counters

/-! Runs with a clock, in which a read timeout is raised exactly when it is due. A
connection is not dropped when a deadline passes but when its idle time reaches
the limit, and whatever it sends makes it start a new idle period. -/
namespace RemoteServer
open Transition PartialMap

namespace World

/-- When the read timeout of a bufferevent is due. -/
def due (w : World) (b : BevPtr) : Option Time :=
  (w.bevs b).bind fun x => x.readTimeout.map (x.timer + ·)

/-- How long the read timeout of a bufferevent has been running. -/
def waited (w : World) (now : Time) (b : BevPtr) : Time :=
  ((w.bevs b).map fun x => now - x.timer).getD 0

end World

inductive TimedLabel where
  | delay (d : Time)
  | callback (label : Label)

/-- A read timeout is raised when it is due, and at no other time. -/
def Event.Timely (w : World) (now : Time) : Event → Prop
  | .connEventcb b events =>
    has events bevEventTimeout ∧ has events bevEventReading → w.due b = some now
  | _ => True

instance (w : World) (now : Time) : (event : Event) → Decidable (event.Timely w now)
  | .listenerCb .. | .connReadcb .. | .writeProgress .. => .isTrue trivial
  | .connEventcb b events => inferInstanceAs (Decidable
      (has events bevEventTimeout ∧ has events bevEventReading → w.due b = some now))

/-- Callbacks take no time, and no time passes once a read timeout is due. -/
inductive TimedStep (cfg : Option Configure) : World × Time → TimedLabel → World × Time → Prop where
  | delay {w : World} {now d : Time} : (∀ b t, w.due b = some t → now + d ≤ t) →
      TimedStep cfg (w, now) (.delay d) (w, now + d)
  | callback {w w' : World} {now : Time} {label : Label} : label.env.clock = now →
      label.event.Timely w now → Step cfg w label w' →
      TimedStep cfg (w, now) (.callback label) (w', now)

/-- The idle time that a connection's data has cut short since its accept. -/
def Event.cut (event : Event) (b : BevPtr) (waited lost : Time) : Time :=
  if event.accepts b then 0 else if event.readsFrom b then lost + waited else lost

def cutShort : Monitor (World × Time) TimedLabel (BevPtr → Time) := fun (w, now) label _ lost b =>
  match label with
  | .delay _ => lost b
  | .callback label => label.event.cut b (w.waited now b) (lost b)

/-- The read timeout of a connection is forty seconds and not overdue. -/
structure Bufferevent.Armed (now : Time) (x : Bufferevent) : Prop where
  period : x.readTimeout = some (seconds 40)
  started : x.timer ≤ now
  running : now ≤ x.timer + seconds 40

theorem Bufferevent.Armed.restart {x y : Bufferevent} (armed : x.Armed now)
    (period : y.readTimeout = x.readTimeout) (timer : y.timer = now) : y.Armed now where
  period := period.trans armed.period
  started := le_of_eq timer
  running := by
    rw [timer]
    exact Nat.le_add_right ..

theorem Bufferevent.Armed.append {x : Bufferevent} (armed : x.Armed now) (success : Bool)
    (data : List UInt8) : (x.append success data).Armed now := by
  cases success with
  | false => exact armed
  | true => exact ⟨armed.period, armed.started, armed.running⟩

theorem Bufferevent.Armed.within {x : Bufferevent} (armed : x.Armed now) :
    (now : Int) ≤ x.timer + 40 * 1000000 := by
  have running := Int.ofNat_le.mpr armed.running
  rwa [seconds, Int.natCast_add, Int.natCast_mul] at running

/-- The age of a raw connection, as its timer last started, is at most its idle
time and the idle time it has cut short. -/
structure Conn.OnTime (now lost : Time) (c : Conn) : Prop where
  armed : c.line.Armed now
  age : c.phase = .raw → (c.line.timer : Int) ≤ c.line.accepted + c.idle * 1000000 + lost

/-- A connection that has logged in only needs its timer. -/
theorem Conn.OnTime.of_armed {c : Conn} (armed : c.line.Armed now) (logged : c.phase ≠ .raw) :
    c.OnTime now lost where
  armed := armed
  age raw := absurd raw logged

namespace Relay
variable {v : Relay} {R : Phase → Phase → Prop} {b i : BevPtr} {c : Conn} {cfg : Option Configure}
  {now : Time} {lost : BevPtr → Time}

def OnTime (now : Time) (lost : BevPtr → Time) (v : Relay) : Prop :=
  ∀ b c, v b = some c → c.OnTime now (lost b)

def waited (v : Relay) (now : Time) (b : BevPtr) : Time := ((v b).map fun c => now - c.line.timer).getD 0

theorem OnTime.next (paired : v.Paired R) (timely : v.OnTime now lost) (sid : Int) (label : Label)
    (clock : label.env.clock = now)
    (fresh : ∀ b fd, label.event = .listenerCb (some b) fd → v b = none) :
    (v.next cfg sid label).OnTime now fun b => label.event.cut b (v.waited now b) (lost b) := by
  intro i new found
  change new.OnTime now (label.event.cut i (v.waited now i) (lost i))
  have received {c : Conn} {chunk : List UInt8} (present : v i = some c) :
      (c.receive label.env chunk).line.Armed now := (timely i c present).armed.restart rfl clock
  have step := conn_step paired cfg sid label found
  cases step with
  | @accept fd accepts =>
    have period : (Conn.fresh cfg label.env sid fd).line.Armed now :=
      ⟨rfl, le_of_eq clock, by rw [← clock]; exact Nat.le_add_right ..⟩
    refine ⟨period, fun _ => ?_⟩
    simp only [Conn.fresh]
    omega
  | stay present unread _ unaccepted =>
    have cut : label.event.cut i (v.waited now i) (lost i) = lost i := by
      rw [Event.cut, if_neg, if_neg]
      · rw [Event.readsFrom_iff]
        rintro ⟨chunk, reads⟩
        exact (unread i chunk new reads present).1 rfl
      · exact not_accepts present fresh
    rw [cut]
    exact timely i new present
  | @drop c chunk present reads =>
    obtain ⟨armed, age⟩ := timely i c present
    have cut : label.event.cut i (v.waited now i) (lost i) = lost i + (now - c.line.timer) := by
      simp [Event.cut, Event.accepts, Event.readsFrom, reads, waited, present]
    rw [cut]
    refine ⟨received present, fun raw => ?_⟩
    have before := age raw
    simp only [Conn.receive, clock]
    omega
  | wait present => exact .of_armed (received present) (by simp [Conn.login])
  | «match» present => exact .of_armed ((received present).append ..) (by simp [Conn.met])
  | matched present => exact .of_armed ((timely i _ present).armed.append ..) (by simp [Conn.met])
  | relay present _ bound =>
    refine .of_armed (received present) ?_
    simp [Conn.active, Conn.receive, bound]
  | relayed present linked =>
    refine .of_armed ((timely i _ present).armed.append ..) ?_
    obtain ⟨_, _, bound⟩ := phase_of_peer linked
    simp [Conn.send, bound]
  | @idle c events present times opens timeout =>
    obtain ⟨armed, age⟩ := timely i c present
    have cut : label.event.cut i (v.waited now i) (lost i) = lost i := by
      simp [Event.cut, Event.accepts, Event.readsFrom, times]
    rw [cut]
    refine ⟨armed.restart rfl clock, fun raw => ?_⟩
    have before := age raw
    have within := armed.within
    simp only [Conn.inactive, clock]
    omega
  | @drain c n present drains =>
    obtain ⟨armed, age⟩ := timely i c present
    have cut : label.event.cut i (v.waited now i) (lost i) = lost i := by
      simp [Event.cut, Event.accepts, Event.readsFrom, drains]
    rw [cut]
    exact ⟨⟨armed.period, armed.started, armed.running⟩, age⟩

theorem OnTime.delay (timely : v.OnTime now lost) (d : Time)
    (idle : ∀ b c, v b = some c → now + d ≤ c.line.timer + seconds 40) : v.OnTime (now + d) lost := by
  intro b c present
  obtain ⟨armed, age⟩ := timely b c present
  exact ⟨⟨armed.period, Nat.le_add_right_of_le armed.started, idle b c present⟩, age⟩

end Relay

section Runs
variable {cfg : Option Configure} {w w' : World} {v : Relay} {now now' : Time} {lost lost' : BevPtr → Time}
  {label : TimedLabel} {b : BevPtr}

theorem World.Models.due {R : Phase → Phase → Prop} (models : w.Models cfg R v) (b : BevPtr) :
    w.due b = (v b).bind fun c => c.line.readTimeout.map (c.line.timer + ·) := by
  rw [World.due, models.represents.bevs]
  cases v b <;> rfl

theorem World.Models.waited {R : Phase → Phase → Prop} (models : w.Models cfg R v) (now : Time)
    (b : BevPtr) : w.waited now b = v.waited now b := by
  rw [World.waited, models.represents.bevs, Relay.waited, Option.map_map]
  rfl

/-- In timed runs the age of a raw connection is accounted for, and its counter is below
its limit. -/
theorem onTime_kept
    (run : Run (cutShort.step (TimedStep cfg)) ((World.init, 0), fun _ => 0) labels ((w, now), lost)) :
    ∃ v, w.Models cfg Phase.Fits v ∧ v.Counted cfg ∧ v.OnTime now lost := by
  refine run.invariant (fun state => ∃ v, state.1.1.Models cfg Phase.Fits v ∧ v.Counted cfg ∧
      v.OnTime state.1.2 state.2) ?_
    ⟨_, .init, (fun b c impossible => nomatch impossible), (fun b c impossible => nomatch impossible)⟩
  rintro ⟨⟨w, now⟩, lost⟩ label ⟨⟨w', now'⟩, lost'⟩ ⟨v, models, counted, timely⟩ ⟨step, records⟩
  obtain rfl : lost' = cutShort (w, now) label (w', now') lost := records
  cases step with
  | @delay _ _ d idle =>
    refine ⟨v, models, counted, timely.delay d fun b c present => ?_⟩
    apply idle b
    rw [models.due, present, Option.bind_some, (timely b c present).armed.period]
    rfl
  | @callback _ _ _ label clock _ step =>
    have fresh := models.represents.accepts_free step
    refine ⟨_, models.next Relay.fits_joins step, counted.next models.paired fresh, ?_⟩
    intro b c present
    have timely' : c.OnTime now (label.event.cut b (v.waited now b) (lost b)) :=
      timely.next models.paired w.m_sidCount label clock fresh b c present
    change c.OnTime now (label.event.cut b (w.waited now b) (lost b))
    rwa [models.waited]

end Runs

/-- Waits and runs callbacks in turn, as long as the event loop may. -/
def timedReplay (cfg : Option Configure) : List TimedLabel → World × Time → Option (World × Time)
  | [], state => some state
  | .delay d :: rest, (w, now) =>
    if ∀ b ∈ w.m_bsMap.keys, ∀ t ∈ w.due b, now + d ≤ t then timedReplay cfg rest (w, now + d) else none
  | .callback label :: rest, (w, now) =>
    if label.env.clock = now ∧ label.event.Timely w now ∧ label.event.Admissible w then
      match exec cfg label w with
      | .ok (_, w') => timedReplay cfg rest (w', now)
      | .error _ => none
    else none

theorem run_of_timedReplay {cfg : Option Configure} {w : World} {v : Relay} {now : Time}
    {last : World × Time} (models : w.Models cfg Phase.Fits v)
    (replayed : timedReplay cfg labels (w, now) = some last) :
    Run (TimedStep cfg) (w, now) labels last := by
  induction labels generalizing w v now with
  | nil =>
    obtain rfl := Option.some.inj replayed
    exact .refl
  | cons label rest ih =>
    cases label with
    | delay d =>
      simp only [timedReplay] at replayed
      split at replayed
      · rename_i idle
        refine (Run.single (.delay fun b t due => ?_)).trans (ih models replayed)
        -- a read timeout can be due only for a key of the container
        obtain ⟨x, live, _⟩ := Option.bind_eq_some_iff.mp due
        have key : b ∈ w.m_bsMap := by
          rw [models.represents.mem_iff, ← models.represents.live_iff, live, Option.isSome_some]
        exact idle b (Std.TreeMap.mem_keys.mpr key) t due
      · contradiction
    | callback label =>
      simp only [timedReplay] at replayed
      split at replayed
      · rename_i may
        obtain ⟨clock, timely, admissible⟩ := may
        split at replayed
        · rename_i first runs
          have step : Step cfg w label _ := ⟨admissible, runs⟩
          exact (Run.single (.callback clock timely step)).trans
            (ih (models.next Relay.fits_joins step) replayed)
        · contradiction
      · contradiction

/-- A raw connection is never older than its login timeout, one idle period, and
the idle time that its data has cut short, and the `int` that counts its idle time has
room for one more. -/
theorem raw_age_bounded {cfg : Option Configure} {w : World} {now : Time} {lost : BevPtr → Time}
    (nonneg : 0 ≤ loginTimeout cfg) (small : loginTimeout cfg ≤ 2147483640)
    (run : Run (cutShort.step (TimedStep cfg)) ((World.init, 0), fun _ => 0) labels ((w, now), lost))
    (session : w.sessionAt b = some s) (raw : s.m_state = .raw) (live : w.bevs b = some x) :
    (now : Int) ≤ x.accepted + (loginTimeout cfg + 40) * 1000000 + lost b ∧ s.Countable := by
  obtain ⟨v, models, counted, timely⟩ := onTime_kept run
  rw [models.represents.bevs] at live
  obtain ⟨c, present, rfl⟩ := Option.map_eq_some_iff.mp live
  rw [models.represents.sessionAt, present, Option.map_some] at session
  obtain rfl := Option.some.inj session
  obtain ⟨armed, age⟩ := timely b c present
  have phase : c.phase = .raw := Phase.state_eq_raw.mp raw
  have single : c.phase.peer = none := congrArg Phase.peer phase
  have limit : c.phase.limit cfg = loginTimeout cfg := congrArg (Phase.limit cfg) phase
  have started := age phase
  have spare := (counted b c present).spare single
  have within := armed.within
  rw [limit] at spare
  constructor
  · omega
  · exact (counted b c present).countable single (limit ▸ small) b

/-- A connection that is silent for 75 seconds. -/
def quietTalk : List TimedLabel :=
  [.callback ⟨.listenerCb (some 5) 3, .ideal 0⟩, .delay (seconds 40),
    .callback ⟨.connEventcb 5 (bevEventTimeout ||| bevEventReading), .ideal (seconds 40)⟩,
    .delay (seconds 35)]

theorem raw_age_bounded_quietTalk :
    ∃ w now lost, Run (cutShort.step (TimedStep (some .defaults))) ((World.init, 0), fun _ => 0) quietTalk
        ((w, now), lost) ∧ w.stateOf 5 = some .raw ∧ (now : Int) ≤ (50 + 40) * 1000000 + lost 5 := by
  have replays : (timedReplay (some .defaults) quietTalk (World.init, 0)).map (fun state =>
      (state.1.stateOf 5, (state.1.bevs 5).map (·.accepted))) = some (some .raw, some 0) := by
    decide +kernel
  obtain ⟨⟨w, now⟩, replayed, found⟩ := Option.map_eq_some_iff.mp replays
  obtain ⟨raw, accepted⟩ := Prod.mk.inj found
  obtain ⟨x, live, zero⟩ := Option.map_eq_some_iff.mp accepted
  obtain ⟨s, session, state⟩ := Option.map_eq_some_iff.mp raw
  obtain ⟨lost, recorded⟩ := cutShort.records (run_of_timedReplay .init replayed) fun _ => 0
  have bounded := (raw_age_bounded (by decide) (by decide) recorded session state live).1
  rw [zero] at bounded
  refine ⟨w, now, lost, recorded, raw, ?_⟩
  simpa [loginTimeout, Configure.defaults, serverLoginTimeout] using bounded

/-- The property that a deadline would give: no raw connection is older than its
login timeout and one idle period. -/
def DropsOnTime (cfg : Option Configure) : Prop :=
  ∀ labels w now b x, Run (TimedStep cfg) (World.init, 0) labels (w, now) → w.stateOf b = some .raw →
    w.bevs b = some x → (now : Int) ≤ x.accepted + (loginTimeout cfg + 40) * 1000000

/-- A byte every thirty seconds keeps the idle time at zero. -/
def junkTalk : List TimedLabel :=
  [.callback ⟨.listenerCb (some 5) 3, .ideal 0⟩, .delay (seconds 30),
    .callback ⟨.connReadcb 5 [0], .ideal (seconds 30)⟩, .delay (seconds 30),
    .callback ⟨.connReadcb 5 [0], .ideal (seconds 60)⟩, .delay (seconds 35)]

theorem not_dropsOnTime : ¬∀ cfg : Configure, 0 ≤ cfg.m_loginTimeout → DropsOnTime (some cfg) := by
  intro bounds
  have replays : (timedReplay (some .defaults) junkTalk (World.init, 0)).map (fun state =>
      (state.1.stateOf 5, (state.1.bevs 5).map (·.accepted), state.2)) =
        some (some .raw, some 0, seconds 95) := by
    decide +kernel
  obtain ⟨⟨w, now⟩, replayed, found⟩ := Option.map_eq_some_iff.mp replays
  obtain ⟨raw, found⟩ := Prod.mk.inj found
  obtain ⟨accepted, rfl⟩ := Prod.mk.inj found
  obtain ⟨x, live, zero⟩ := Option.map_eq_some_iff.mp accepted
  have bounded := bounds .defaults (by decide) _ _ _ 5 x (run_of_timedReplay .init replayed) raw live
  rw [zero] at bounded
  exact absurd bounded (by decide)

end RemoteServer
