import RemoteServer.Effect
import RemoteServer.Noninterference

/-! Reads from two connections commute, unless their ids bring them together. -/
namespace RemoteServer
open Bytes Transition PartialMap

namespace World

/-- What a read callback on `b` takes when `chunk` has arrived. -/
def pending (w : World) (b : BevPtr) (chunk : List UInt8) : List UInt8 :=
  ((w.bevs b).map fun x => (x.input ++ chunk).take 4096).getD []

/-- The card of the login in the chunk, if the session is raw and the login succeeds. -/
def loginOf (w : World) (b : BevPtr) (env : Env) (chunk : List UInt8) : Option UCard :=
  if w.stateOf b = some .raw ∧ env.outcome 0 = true then
    match loginPackage (w.pending b chunk) with
    | .ok card => card
    | .error _ => none
  else none

/-- The id string a connection carries: the one on its card, or the one it logs in with. -/
def carried (w : World) (b : BevPtr) (env : Env) (chunk : List UInt8) : Option (List UInt8) :=
  (w.idOf b).or ((w.loginOf b env chunk).map fun card => cstr card.id.val)

end World

/-- One of the two is bound, or they do not carry the same id, or both are raw and
nobody is waiting with an id they carry. -/
inductive Independent (w : World) (a : BevPtr) (ea : Env) (da : List UInt8) (b : BevPtr) (eb : Env)
    (db : List UInt8) : Prop where
  | bound : w.stateOf a = some .bind ∨ w.stateOf b = some .bind → Independent w a ea da b eb db
  | ids : (∀ id, w.carried a ea da = some id → w.carried b eb db ≠ some id) →
      Independent w a ea da b eb db
  | fresh : w.stateOf a = some .raw → w.stateOf b = some .raw →
      (∀ q id, w.stateOf q = some .login → w.idOf q = some id →
        w.carried a ea da ≠ some id ∧ w.carried b eb db ≠ some id) →
      ea.Mirrors eb → Independent w a ea da b eb db

section Reads
variable {cfg : Option Configure} {w : World} {v : Relay} {R : Phase → Phase → Prop} {a b q : BevPtr}
  {c d : Conn} {ea eb env : Env} {da db chunk : List UInt8} {x y : Card}

theorem World.Models.loginOf (models : w.Models cfg R v) (present : v b = some c) :
    w.loginOf b env chunk = (c.logs env chunk).map (·.val) := by
  obtain ⟨_, _, _, bev⟩ := models.represents.entry present
  have pending : w.pending b chunk = c.taken chunk := by
    rw [World.pending, bev, Option.map_some, Option.getD_some, Conn.taken]
  have found : (match loginPackage (c.taken chunk) with | .ok card => card | .error _ => none) =
      (Card.accepted (c.taken chunk)).map (·.val) := by
    cases accepted : Card.accepted (c.taken chunk) with
    | none => rw [(Card.accepted_eq_none_iff _).mp accepted, Option.map_none]
    | some card => rw [(Card.accepted_eq_some_iff _ _).mp accepted, Option.map_some]
  rw [World.loginOf, models.represents.stateOf, pending, Relay.state_present present, found,
    Conn.logs]
  cases c.phase with
  | raw => cases env.outcome 0 <;> simp [Phase.state]
  | waiting card => simp [Phase.state]
  | bound card p pc => simp [Phase.state]

theorem World.Models.carried (models : w.Models cfg R v) (present : v b = some c) :
    w.carried b env chunk = (c.phase.card.or (c.logs env chunk)).map Card.idString := by
  rw [World.carried, models.idOf, models.loginOf present, Relay.card_present present, Option.map_map,
    Option.map_or]
  rfl

theorem carried_logs (models : w.Models cfg R v) (present : v b = some c)
    (logs : c.logs env chunk = some x) : w.carried b env chunk = some x.idString := by
  rw [models.carried present, (Relay.logs_eq_some_iff.mp logs).1, logs]
  rfl

theorem carried_waits (models : w.Models cfg R v) (waits : v.Waits x b) :
    w.carried b env chunk = some x.idString := by
  obtain ⟨t, u, present, theirs, fit⟩ := waits
  rw [models.carried present, theirs, fit.2]
  rfl

theorem unmatched_of_bound (present : v a = some c) (bound : v.state a = some .bind) (β : Option Card) :
    v.Unmatched a (c.logs ea da) b β := by
  have phase : c.phase.state = .bind := by
    rw [Relay.state_present present] at bound
    exact Option.some.inj bound
  have drops : c.logs ea da = none := by
    rw [Option.eq_none_iff_forall_ne_some]
    intro x logs
    rw [(Relay.logs_single logs).1] at phase
    contradiction
  rw [drops]
  constructor
  · intro x y impossible
    contradiction
  · intro x impossible
    contradiction
  · rintro y _ ⟨t, u, found, theirs, _⟩
    obtain rfl := Option.some.inj (present.symm.trans found)
    rw [theirs] at phase
    contradiction

theorem unmatched_of_ids (models : w.Models cfg R v) (first : v a = some c) (second : v b = some d)
    (ids : ∀ id, w.carried a ea da = some id → w.carried b eb db ≠ some id) :
    v.Unmatched a (c.logs ea da) b (d.logs eb db) where
  cards := by
    intro x y logs logs'
    have differ : x.idString ≠ y.idString := by
      intro same
      exact ids _ (carried_logs models first logs) (same ▸ carried_logs models second logs')
    refine ⟨fun fit => differ fit.2, ?_⟩
    rintro q ⟨t, u, found, theirs, fit⟩ ⟨t', u', found', theirs', fit'⟩
    obtain rfl := Option.some.inj (found.symm.trans found')
    obtain rfl := Phase.waiting.inj (theirs.symm.trans theirs')
    exact differ (fit.2.trans fit'.2.symm)
  first := fun x logs waits => ids _ (carried_logs models first logs) (carried_waits models waits)
  second := fun y logs waits => ids _ (carried_waits models waits) (carried_logs models second logs)

theorem nobody_of_fresh (models : w.Models cfg R v) (present : v a = some c)
    (fresh : ∀ q id, w.stateOf q = some .login → w.idOf q = some id → w.carried a ea da ≠ some id)
    (logs : c.logs ea da = some x) (q : BevPtr) : ¬v.Waits x q := by
  rintro ⟨t, u, found, theirs, fit⟩
  apply fresh q x.idString
  · rw [models.represents.stateOf, Relay.state_present found, theirs]
    rfl
  · rw [models.idOf, Relay.card_present found, theirs, fit.2]
    rfl
  · exact carried_logs models present logs

theorem not_waits_raw (raw : v.state a = some .raw) : ¬v.Waits x a := by
  rintro ⟨t, u, found, theirs, _⟩
  rw [Relay.state_present found, theirs] at raw
  exact absurd (Option.some.inj raw) (by simp [Phase.state])

theorem Independent.read_comm (models : w.Models cfg Phase.Fits v) (first : v a = some c)
    (second : v b = some d) (apart : a ≠ b) (independent : Independent w a ea da b eb db) :
    Relay.read eb b db (v.read ea a da) = Relay.read ea a da (v.read eb b db) := by
  cases independent with
  | bound bound =>
    rw [models.represents.stateOf, models.represents.stateOf] at bound
    rcases bound with bound | bound
    · exact (unmatched_of_bound first bound _).read_comm models.paired first second apart
    · exact (unmatched_of_bound second bound _).symm.read_comm models.paired first second apart
  | ids ids => exact (unmatched_of_ids models first second ids).read_comm models.paired first second apart
  | fresh raw raw' fresh mirrors =>
    rw [models.represents.stateOf] at raw raw'
    have nobody {x : Card} := nobody_of_fresh (x := x) models first fun q id login own =>
      (fresh q id login own).1
    have nobody' {y : Card} := nobody_of_fresh (x := y) models second fun q id login own =>
      (fresh q id login own).2
    by_cases fits : ∃ x y, c.logs ea da = some x ∧ d.logs eb db = some y ∧ x.Fits y
    · obtain ⟨x, y, logs, logs', fit⟩ := fits
      exact Relay.meets_comm models.paired first second apart logs logs' fit (nobody logs) (nobody' logs')
        mirrors
    · have unmatched : v.Unmatched a (c.logs ea da) b (d.logs eb db) := by
        constructor
        · intro x y logs logs'
          exact ⟨fun fit => fits ⟨x, y, logs, logs', fit⟩, fun q waits => absurd waits (nobody logs q)⟩
        · exact fun x _ => not_waits_raw raw'
        · exact fun y _ => not_waits_raw raw
      exact unmatched.read_comm models.paired first second apart

/-- Logins of a device and a client that are independent bind them to each other. -/
theorem Independent.read_meets (models : w.Models cfg Phase.Fits v) (first : v a = some c)
    (second : v b = some d) (apart : a ≠ b) (independent : Independent w a ea da b eb db)
    (logs : c.logs ea da = some x) (logs' : d.logs eb db = some y) (fit : x.Fits y) :
    ∃ s t, Relay.read eb b db (v.read ea a da) a = some s ∧
      Relay.read eb b db (v.read ea a da) b = some t ∧
      s.phase = .bound x b (if eb.outcome 2 then some y else none) ∧
      t.phase = .bound y a (if eb.outcome 1 then some x else none) := by
  have raw := (Relay.logs_single logs).1
  have raw' := (Relay.logs_single logs').1
  cases independent with
  | bound bound =>
    rw [models.represents.stateOf, models.represents.stateOf, Relay.state_present first,
      Relay.state_present second, raw, raw'] at bound
    rcases bound with bound | bound <;> exact absurd (Option.some.inj bound) (by simp [Phase.state])
  | ids ids =>
    have carries := carried_logs models second logs'
    rw [← fit.2] at carries
    exact absurd carries (ids _ (carried_logs models first logs))
  | fresh _ _ fresh =>
    have nobody := nobody_of_fresh models first (fun q id login own => (fresh q id login own).1) logs
    have nobody' := nobody_of_fresh models second (fun q id login own => (fresh q id login own).2) logs'
    rw [Relay.read_meets models.paired second first apart.symm logs' logs fit.symm nobody' nobody]
    exact ⟨_, _, (Function.update_of_ne apart ..).trans (Function.update_self ..), Function.update_self ..,
      rfl, rfl⟩

theorem run_reads (ea eb : Env) (models : w.Models cfg Phase.Fits v) (first : v a = some c)
    (second : v b = some d) (chunkA : da ≠ []) (chunkB : db ≠ []) :
    ∃ w', Run (Step cfg) w [⟨.connReadcb a da, ea⟩, ⟨.connReadcb b db, eb⟩] w' ∧
      w'.Models cfg Phase.Fits (Relay.read eb b db (v.read ea a da)) := by
  have live {e : BevPtr} {t : Conn} (present : v e = some t) : (v e).isSome := by
    rw [present, Option.isSome_some]
  obtain ⟨w₁, step⟩ := models.progress ⟨.connReadcb a da, ea⟩
    ⟨models.represents.live_iff.mpr (live first), chunkA⟩
  have models₁ := models.next Relay.fits_joins step
  obtain ⟨w₂, step'⟩ := models₁.progress ⟨.connReadcb b db, eb⟩
    ⟨models₁.represents.live_iff.mpr ((Relay.read_isSome ea a da v b).trans (live second)), chunkB⟩
  exact ⟨w₂, (Run.single step).trans (.single step'), models₁.next Relay.fits_joins step'⟩

end Reads

/-- Independent reads commute: in both orders the keys, the sessions and the
bufferevents with all that was written to them end up the same. When they log a
device and a client in with the same id, these end up bound to each other. -/
theorem reads_commute {cfg : Option Configure} {w : World} (run : Run (Step cfg) World.init labels w)
    (apart : a ≠ b) (liveA : (w.bevs a).isSome) (liveB : (w.bevs b).isSome) (chunkA : da ≠ [])
    (chunkB : db ≠ []) (independent : Independent w a ea da b eb db) :
    ∃ w₁ w₂, Run (Step cfg) w [⟨.connReadcb a da, ea⟩, ⟨.connReadcb b db, eb⟩] w₁ ∧
      Run (Step cfg) w [⟨.connReadcb b db, eb⟩, ⟨.connReadcb a da, ea⟩] w₂ ∧
      (∀ q, (q ∈ w₁.m_bsMap ↔ q ∈ w₂.m_bsMap) ∧ w₁.sessionAt q = w₂.sessionAt q ∧
        w₁.bevs q = w₂.bevs q) ∧
      ∀ x y, w.loginOf a ea da = some x → w.loginOf b eb db = some y → x.Match y →
        ∃ s t, w₁.sessionAt a = some s ∧ w₁.sessionAt b = some t ∧ s.m_state = .bind ∧
          t.m_state = .bind ∧ s.m_meetee1.bev = some b ∧ t.m_meetee1.bev = some a := by
  obtain ⟨v, models⟩ := reachable run
  obtain ⟨c, first⟩ := models.represents.present liveA
  obtain ⟨d, second⟩ := models.represents.present liveB
  obtain ⟨w₁, run₁, models₁⟩ := run_reads ea eb models first second chunkA chunkB
  obtain ⟨w₂, run₂, models₂⟩ := run_reads eb ea models second first chunkB chunkA
  have same := independent.read_comm models first second apart
  refine ⟨w₁, w₂, run₁, run₂, ?_, ?_⟩
  · intro q
    rw [models₁.represents.mem_iff, models₂.represents.mem_iff, models₁.represents.sessionAt,
      models₂.represents.sessionAt, models₁.represents.bevs, models₂.represents.bevs, same]
    exact ⟨Iff.rfl, rfl, rfl⟩
  · intro x y login login' fit
    rw [models.loginOf first] at login
    rw [models.loginOf second] at login'
    obtain ⟨x, logs, rfl⟩ := Option.map_eq_some_iff.mp login
    obtain ⟨y, logs', rfl⟩ := Option.map_eq_some_iff.mp login'
    obtain ⟨s, t, atA, atB, phase, phase'⟩ :=
      independent.read_meets models first second apart logs logs' ((Card.match_iff x y).mp fit)
    refine ⟨s.session cfg a, t.session cfg b, ?_, ?_, ?_⟩
    · rw [models₁.represents.sessionAt, atA, Option.map_some]
    · rw [models₁.represents.sessionAt, atB, Option.map_some]
    · simp [Conn.session, phase, phase', Phase.state, Phase.peer]

def twoAccepts : List Label :=
  [⟨.listenerCb (some 7) 3, .ideal 0⟩, ⟨.listenerCb (some 5) 4, .ideal 0⟩]

/-- Both log in with the id `A`, which nobody else uses: whichever is first, they
are bound to each other. -/
theorem reads_commute_twoAccepts :
    ∃ w₁ w₂, Run (Step none) (World.after none twoAccepts)
        [⟨.connReadcb 7 (TelProxyLogin.packet 1 [65]), .ideal 0⟩,
          ⟨.connReadcb 5 (TelProxyLogin.packet 2 [65]), .ideal 0⟩] w₁ ∧
      Run (Step none) (World.after none twoAccepts)
        [⟨.connReadcb 5 (TelProxyLogin.packet 2 [65]), .ideal 0⟩,
          ⟨.connReadcb 7 (TelProxyLogin.packet 1 [65]), .ideal 0⟩] w₂ ∧
      w₁.sessionAt 7 = w₂.sessionAt 7 ∧ (w₂.sessionAt 7).map (·.m_meetee1.bev) = some (some 5) := by
  have run := run_after none twoAccepts (by decide +kernel)
  have raw : ∀ q ∈ (World.after none twoAccepts).m_bsMap.keys,
      (World.after none twoAccepts).stateOf q = some .raw := by decide +kernel
  have fresh : ∀ q, (World.after none twoAccepts).stateOf q ≠ some .login := by
    intro q login
    rw [raw q (World.mem_keys_of_stateOf login)] at login
    contradiction
  have mirrors := Env.Succeeds.mirrors (Env.ideal_succeeds 0) (Env.ideal_succeeds 0)
  obtain ⟨w₁, w₂, run₁, run₂, same, pair⟩ := reads_commute run (by decide : 7 ≠ 5) (by decide +kernel)
    (by decide +kernel) (by decide : TelProxyLogin.packet 1 [65] ≠ [])
    (by decide : TelProxyLogin.packet 2 [65] ≠ [])
    (.fresh (raw 7 (by decide +kernel)) (raw 5 (by decide +kernel))
      (fun q id login => absurd login (fresh q)) mirrors)
  obtain ⟨s, t, session, _, _, _, peer, _⟩ := pair ⟨1, strncpy 64 [65]⟩ ⟨2, strncpy 64 [65]⟩
    (by decide +kernel) (by decide +kernel) ⟨.inl ⟨rfl, rfl⟩, rfl⟩
  refine ⟨w₁, w₂, run₁, run₂, (same 7).2.1, ?_⟩
  rw [← (same 7).2.1, session, Option.map_some, peer]

end RemoteServer
