import RemoteServer.ConnStep
import RemoteServer.Pairing

/-! The relay ledger: what has been written to a connection, counted from the
chunks that were read. -/
namespace RemoteServer
open Transition PartialMap

def chunksOf (reads : List (BevPtr × List UInt8)) (b : BevPtr) : List UInt8 :=
  (reads.filter (·.1 = b)).flatMap (·.2)

/-- What was read from each connection while its session was bound, since its accept. -/
def takenBound : Monitor World Label (BevPtr → List UInt8) := fun w label w' taken b =>
  if label.event.accepts b then []
  else if w.stateOf b = some .bind then taken b ++ chunksOf w'.reads b
  else taken b

/-- The part of it that `Session::business` accepted: its write is the first
fallible call of the callback. -/
def accepted : Monitor World Label (BevPtr → List UInt8) := fun w label w' taken b =>
  if label.event.accepts b then []
  else if w.stateOf b = some .bind ∧ label.env.outcome 0 = true then taken b ++ chunksOf w'.reads b
  else taken b

theorem append_written (x : Bufferevent) (success : Bool) (data : List UInt8) :
    (x.append success data).written = x.written ++ if success then data else [] := by
  cases success <;> simp [Bufferevent.append, Bufferevent.written]

namespace Relay
variable {v : Relay} {R : Phase → Phase → Prop} {i p : BevPtr} {c : Conn} {cfg : Option Configure}
  {taken : BevPtr → List UInt8} {label : Label} {alone greeted : List UInt8 → Prop}

/-- `accepted`, as the relay sees it. -/
def takes (label : Label) (v : Relay) (taken : BevPtr → List UInt8) (b : BevPtr) : List UInt8 :=
  if label.event.accepts b then []
  else if v.state b = some .bind ∧ label.env.outcome 0 = true then taken b ++ chunksOf (v.reads label) b
  else taken b

/-- What the server may say on its own account with these outcomes: to a
connection it accepts, and to one it binds. -/
def Greets (cfg : Option Configure) (alone greeted : List UInt8 → Prop) (outcome : Nat → Bool) : Prop :=
  alone (if outcome 0 then Conn.banner cfg else []) ∧
    ∀ greeting told, alone greeting → (told = outcome 3 ∨ told = outcome 4) →
      greeted (greeting ++ if told then telproxyOk else [])

/-- A single connection has only been greeted, and nothing was accepted from it; a
bound one has been greeted and sent what was accepted from its peer. -/
structure Ledger (alone greeted : List UInt8 → Prop) (v : Relay) (taken : BevPtr → List UInt8) :
    Prop where
  single : ∀ {i c}, v i = some c → c.phase.peer = none → alone c.line.written ∧ taken i = []
  bound : ∀ {i c p}, v i = some c → c.phase.peer = some p →
    ∃ greeting, greeted greeting ∧ c.line.written = greeting ++ taken p

theorem takes_single (present : v i = some c) (single : c.phase.peer = none)
    (unaccepted : ¬label.event.accepts i) : v.takes label taken i = taken i := by
  have state : ¬(v.state i = some .bind ∧ label.env.outcome 0 = true) := by
    rintro ⟨bound, _⟩
    rw [state_present present, Option.some.injEq] at bound
    obtain ⟨q, linked⟩ := Phase.peer_of_bind bound
    rw [single] at linked
    contradiction
  rw [Relay.takes, if_neg unaccepted, if_neg state]

theorem takes_unread (unaccepted : ¬label.event.accepts p) (unread : ¬label.event.readsFrom p) :
    v.takes label taken p = taken p := by
  have none_read : chunksOf (v.reads label) p = [] := by
    obtain ⟨event, env⟩ := label
    cases event with
    | connReadcb b chunk =>
      have apart : b ≠ p := by simpa [Event.readsFrom] using unread
      cases present : v b <;> simp [Relay.reads, chunksOf, present, apart]
    | listenerCb => rfl
    | connEventcb => rfl
    | writeProgress => rfl
  rw [Relay.takes, if_neg unaccepted, none_read, List.append_nil, ite_self]

theorem takes_bound {env : Env} (present : v i = some c) (bound : c.phase.state = .bind) :
    v.takes ⟨.connReadcb i chunk, env⟩ taken i =
      taken i ++ if env.outcome 0 then c.taken chunk else [] := by
  have state : v.state i = some .bind := by rw [state_present present, bound]
  have chunks : chunksOf (v.reads ⟨.connReadcb i chunk, env⟩) i = c.taken chunk := by
    simp [Relay.reads, present, chunksOf]
  rw [takes, if_neg (by simp [Event.accepts]), chunks]
  cases success : env.outcome 0 <;> simp [state]

theorem Ledger.bound_unread (ledger : v.Ledger alone greeted taken) (paired : v.Paired R)
    (present : v i = some c) (linked : c.phase.peer = some p)
    (fresh : ∀ b fd, label.event = .listenerCb (some b) fd → v b = none)
    (unread : ¬label.event.readsFrom p) :
    ∃ greeting, greeted greeting ∧ c.line.written = greeting ++ v.takes label taken p := by
  obtain ⟨_, t, partner, _⟩ := paired i c p present linked
  rw [takes_unread (not_accepts partner fresh) unread]
  exact ledger.bound present linked

theorem Ledger.bound_first (ledger : v.Ledger alone greeted taken)
    (greets : Greets cfg alone greeted label.env.outcome) (present : v i = some c)
    (single : c.phase.peer = none) {t : Conn} (partner : v p = some t) (alone' : t.phase.peer = none)
    (fresh : ∀ b fd, label.event = .listenerCb (some b) fd → v b = none)
    (told : success = label.env.outcome 3 ∨ success = label.env.outcome 4) {x : Bufferevent}
    (same : x.written = c.line.written) :
    ∃ greeting, greeted greeting ∧
      (x.append success telproxyOk).written = greeting ++ v.takes label taken p := by
  refine ⟨_, greets.2 _ _ (ledger.single present single).1 told, ?_⟩
  rw [takes_single partner alone' (not_accepts partner fresh), (ledger.single partner alone').2,
    append_written, List.append_nil, same]

theorem Ledger.next (paired : v.Paired R) (ledger : v.Ledger alone greeted taken) (sid : Int)
    (label : Label) (greets : Greets cfg alone greeted label.env.outcome)
    (fresh : ∀ b fd, label.event = .listenerCb (some b) fd → v b = none) :
    (v.next cfg sid label).Ledger alone greeted (v.takes label taken) := by
  constructor
  · intro i new found single
    have step := conn_step paired cfg sid label found
    cases step with
    | accept accepts =>
      refine ⟨greets.1, ?_⟩
      rw [takes, if_pos]
      simp [Event.accepts, accepts]
    | stay present =>
      rw [takes_single present single (not_accepts present fresh)]
      exact ledger.single present single
    | drop present _ none_before =>
      rw [takes_single present none_before (not_accepts present fresh)]
      have kept := ledger.single present none_before
      exact kept
    | wait present _ raw =>
      have none_before := congrArg Phase.peer raw
      rw [takes_single present none_before (not_accepts present fresh)]
      have kept := ledger.single present none_before
      exact kept
    | «match» => contradiction
    | matched => contradiction
    | @relay c chunk card p pc present _ bound =>
      have none_after : c.phase.peer = none := single
      rw [bound] at none_after
      contradiction
    | @relayed b c chunk card pc t present linked =>
      have none_after : t.phase.peer = none := single
      rw [linked] at none_after
      contradiction
    | @idle c events present =>
      rw [takes_single present single (not_accepts present fresh)]
      have kept := ledger.single present single
      exact kept
    | @drain c n present =>
      have written : (c.drain n).line.written = c.line.written := by
        simp [Conn.drain, Bufferevent.written]
      rw [takes_single present single (not_accepts present fresh), written]
      exact ledger.single present single
  · intro i new p found linked
    have step := conn_step paired cfg sid label found
    cases step with
    | accept => contradiction
    | stay present unread =>
      apply ledger.bound_unread paired present linked fresh
      obtain ⟨_, t, partner, back, _⟩ := paired i new p present linked
      rw [Event.readsFrom_iff]
      rintro ⟨chunk, reads⟩
      exact (unread p chunk t reads partner).2 back
    | @drop c chunk present reads single =>
      have linked_before : c.phase.peer = some p := linked
      rw [single] at linked_before
      contradiction
    | wait => contradiction
    | «match» present reads raw _ _ _ _ partner theirs =>
      obtain rfl := Option.some.inj linked
      exact ledger.bound_first greets present (congrArg Phase.peer raw) partner
        (congrArg Phase.peer theirs) fresh (.inl rfl) rfl
    | matched present waiting reads other raw =>
      obtain rfl := Option.some.inj linked
      exact ledger.bound_first greets present (congrArg Phase.peer waiting) other
        (congrArg Phase.peer raw) fresh (.inr rfl) rfl
    | @relay c chunk card q pc present reads bound =>
      have linked_before : c.phase.peer = some p := linked
      apply ledger.bound_unread paired present linked_before fresh
      have apart := (paired i c p present linked_before).1
      simpa [Event.readsFrom, reads] using apart.symm
    | @relayed b c chunk card pc t present linked_before reads other bound apart =>
      obtain rfl := Option.some.inj (linked_before.symm.trans linked)
      obtain ⟨greeting, greets', written⟩ := ledger.bound present linked_before
      refine ⟨greeting, greets', ?_⟩
      obtain ⟨event, env⟩ := label
      obtain rfl : event = .connReadcb b chunk := reads
      change (t.line.append (env.outcome 0) (c.taken chunk)).written = _
      rw [append_written, written, takes_bound other (by rw [bound]; rfl), List.append_assoc]
    | @idle c events present times =>
      apply ledger.bound_unread paired present linked fresh
      simp [Event.readsFrom, times]
    | @drain c n present drains =>
      have written : (c.drain n).line.written = c.line.written := by
        simp [Conn.drain, Bufferevent.written]
      rw [written]
      apply ledger.bound_unread paired present linked fresh
      simp [Event.readsFrom, drains]

theorem greets_success {cfg : Configure} {outcome : Nat → Bool} (succeeds : ∀ n, outcome n = true) :
    Greets (some cfg) (· = cfg.m_host) (· = cfg.m_host ++ telproxyOk) outcome := by
  refine ⟨by simp [succeeds, Conn.banner], ?_⟩
  rintro greeting told rfl (rfl | rfl) <;> simp [succeeds]

end Relay

section Runs
variable {cfg : Option Configure} {w : World} {taken : BevPtr → List UInt8}
  {alone greeted : List UInt8 → Prop}

theorem accepted_next {w' : World} {taken' : BevPtr → List UInt8} {v : Relay} {label : Label}
    (models : w.Models cfg Phase.Fits v)
    (step : accepted.step (Step cfg) (w, taken) label (w', taken')) :
    w'.Models cfg Phase.Fits (v.next cfg w.m_sidCount label) ∧ taken' = v.takes label taken := by
  obtain ⟨step, records⟩ := step
  refine ⟨models.next Relay.fits_joins step, ?_⟩
  have reads : w'.reads = v.reads label := (models.represents.next models.paired step).2.1
  funext b
  rw [show taken' = accepted w label w' taken from records]
  simp only [accepted, Relay.takes, models.represents.stateOf, reads]

theorem ledger_kept (run : Run (accepted.step (Step cfg)) (World.init, fun _ => []) labels (w, taken))
    (greets : ∀ label ∈ labels, Relay.Greets cfg alone greeted label.env.outcome) :
    ∃ v, w.Models cfg Phase.Fits v ∧ v.Ledger alone greeted taken := by
  refine run.invariant_of
    (fun state => ∃ v, state.1.Models cfg Phase.Fits v ∧ v.Ledger alone greeted state.2) ?_ greets
    ⟨_, .init, ⟨(fun impossible => nomatch impossible), (fun impossible => nomatch impossible)⟩⟩
  rintro ⟨w, taken⟩ label ⟨w', taken'⟩ ⟨v, models, ledger⟩ greets step
  obtain ⟨models', rfl⟩ := accepted_next models step
  exact ⟨_, models', ledger.next models.paired w.m_sidCount label greets
    (models.represents.accepts_free step.1)⟩

theorem accepted_of_takenBound
    (run : Run (takenBound.step (Step cfg)) (World.init, fun _ => []) labels (w, taken))
    (succeeds : ∀ label ∈ labels, label.Succeeds) :
    Run (accepted.step (Step cfg)) (World.init, fun _ => []) labels (w, taken) := by
  refine takenBound.congr ?_ run succeeds
  intro w label w' taken succeeds
  funext b
  simp only [takenBound, accepted, succeeds 0, and_true]

end Runs

/-- All that was ever written to a connection in the container: the host banner
and, once it is bound, one `telnet-ok` and the chunks read from its peer while the
peer was bound, in order. -/
theorem relay_ledger {cfg : Configure} {w : World} {taken : BevPtr → List UInt8}
    (run : Run (takenBound.step (Step (some cfg))) (World.init, fun _ => []) labels (w, taken))
    (succeeds : ∀ label ∈ labels, label.Succeeds) (session : w.sessionAt b = some s) :
    ∃ x, w.bevs b = some x ∧
      (s.m_state ≠ .bind → x.written = cfg.m_host) ∧
      (s.m_state = .bind → ∃ p, s.m_meetee1.bev = some p ∧
        x.written = cfg.m_host ++ telproxyOk ++ taken p) := by
  obtain ⟨v, models, ledger⟩ := ledger_kept (accepted_of_takenBound run succeeds)
    fun label member => Relay.greets_success (succeeds label member)
  rw [models.represents.sessionAt] at session
  obtain ⟨c, present, rfl⟩ := Option.map_eq_some_iff.mp session
  obtain ⟨_, _, _, bev⟩ := models.represents.entry present
  refine ⟨c.line, bev, ?_, ?_⟩
  · intro single
    exact (ledger.single present (Phase.peer_of_single single)).1
  · intro bound
    obtain ⟨p, linked⟩ := Phase.peer_of_bind bound
    obtain ⟨greeting, rfl, written⟩ := ledger.bound present linked
    exact ⟨p, linked, written⟩

/-- A paired device sends three bytes, and its client has been sent the host, one
`telnet-ok` and those three bytes. -/
def pairTalk : List Label := pairLogin ++ [⟨.connReadcb 7 [1, 2, 3], .ideal 0⟩]

theorem relay_ledger_pairTalk :
    ∃ taken x p, Run (takenBound.step (Step (some .defaults))) (World.init, fun _ => []) pairTalk
        (World.after (some .defaults) pairTalk, taken) ∧
      (World.after (some .defaults) pairTalk).bevs 5 = some x ∧
      x.written = serverHost ++ telproxyOk ++ taken p := by
  obtain ⟨taken, recorded⟩ :=
    takenBound.records (run_after (some .defaults) pairTalk (by decide +kernel)) fun _ => []
  have succeeds : ∀ label ∈ pairTalk, label.Succeeds := by
    simp [pairTalk, pairLogin, Label.Succeeds, Env.Succeeds, Env.ideal]
  have state : ((World.after (some .defaults) pairTalk).sessionAt 5).map (·.m_state) = some .bind := by
    decide +kernel
  obtain ⟨s, session, bound⟩ := Option.map_eq_some_iff.mp state
  obtain ⟨x, live, _, written⟩ := relay_ledger recorded succeeds session
  obtain ⟨p, _, written⟩ := written bound
  exact ⟨taken, x, p, recorded, live, written⟩

end RemoteServer
