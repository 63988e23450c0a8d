import RemoteServer.Refinement

/-! Bound sessions come in pairs that agree on each other, and no two sessions
that fit are left waiting. -/
namespace RemoteServer
open Bytes Transition

/-- A device and a client, in either order, with the same id string. -/
def UCard.Match (a u : UCard) : Prop :=
  (a.type = 1 ∧ u.type = 2 ∨ a.type = 2 ∧ u.type = 1) ∧ cstr a.id.val = cstr u.id.val

theorem Card.match_iff (a u : Card) : a.val.Match u.val ↔ a.Fits u := by
  obtain ⟨a, ta⟩ := a
  obtain ⟨u, tu⟩ := u
  apply and_congr_left
  intro _
  rcases ta with ta | ta <;> rcases tu with tu | tu <;> simp [ta, tu]

theorem Card.compatible_iff_match (a u : Card) :
    Session.compatible a.val u.val = true ↔ a.val.Match u.val :=
  (Card.compatible_iff a u).trans (Card.match_iff a u).symm

theorem UCard.not_match_self (a : UCard) : ¬a.Match a := by
  rintro ⟨⟨one, two⟩ | ⟨two, one⟩, _⟩
  · exact absurd (one.symm.trans two) (by decide)
  · exact absurd (one.symm.trans two) (by decide)

/-- The session `s` of `b` and the session `t` of `q` are the ends of one link. -/
structure Session.Linked (b q : BevPtr) (s t : Session) : Prop where
  apart : q ≠ b
  bound : s.m_state = .bind ∧ t.m_state = .bind
  bevs : s.m_meetee1.bev = some q ∧ t.m_meetee1.bev = some b
  cards : ∃ a u, s.m_meetee0.userData = some a ∧ t.m_meetee0.userData = some u ∧ a.Match u
  copies : s.m_meetee1.userData = t.m_meetee0.userData ∧ t.m_meetee1.userData = s.m_meetee0.userData

namespace World.Models
variable {cfg : Option Configure} {w : World} {v : Relay} {b q : BevPtr} {p : SessionPtr} {c : Conn}
  {R : Phase → Phase → Prop}

/-- Each key has its own session, whose fields are those of its connection. -/
theorem entry (models : w.Models cfg R v) (entry : w.m_bsMap[b]? = some p) :
    ∃ c, v b = some c ∧ w.sessions p = some (c.session cfg b) ∧ w.bevs b = some c.line := by
  obtain ⟨c, present⟩ := models.represents.key entry
  exact ⟨c, present, models.represents.lookup present entry⟩

theorem linked (models : w.Models cfg Phase.Agrees v) (present : v b = some c)
    (peer : c.phase.peer = some q) :
    ∃ p' t, w.m_bsMap[q]? = some p' ∧ w.sessions p' = some (Conn.session cfg q t) ∧
      (w.bevs q).isSome ∧ (c.session cfg b).Linked b q (t.session cfg q) := by
  obtain ⟨apart, t, partner, back, ⟨card, u, mine, theirs, fit⟩, knows⟩ :=
    models.paired b c q present peer
  obtain ⟨_, _, found, _, _, knows'⟩ := models.paired q t b partner back
  obtain rfl := Option.some.inj (present.symm.trans found)
  obtain ⟨p', entry', live', bev'⟩ := models.represents.entry partner
  obtain ⟨_, _, phase⟩ := Relay.phase_of_peer peer
  obtain ⟨_, _, phase'⟩ := Relay.phase_of_peer back
  refine ⟨p', t, entry', live', by rw [bev', Option.isSome_some], ?_⟩
  constructor
  · exact apart
  · simp [Conn.session, phase, phase', Phase.state]
  · exact ⟨peer, back⟩
  · refine ⟨card.val, u.val, ?_, ?_, (Card.match_iff card u).mpr fit⟩
    · simp [Conn.session, mine]
    · simp [Conn.session, theirs]
  · exact ⟨congrArg (Option.map _) knows, congrArg (Option.map _) knows'⟩

/-- Two connections with the same peer are the same connection. -/
theorem peer_unique (models : w.Models cfg R v) (first : v b = some c) (second : v b' = some c')
    (peer : c.phase.peer = some q) (peer' : c'.phase.peer = some q) : b' = b := by
  obtain ⟨_, t, found, back, _⟩ := models.paired b c q first peer
  obtain ⟨_, t', found', back', _⟩ := models.paired b' c' q second peer'
  obtain rfl := Option.some.inj (found.symm.trans found')
  exact Option.some.inj (back'.symm.trans back)

end World.Models

variable {cfg : Option Configure} {w : World} {b q : BevPtr} {p p' : SessionPtr} {s t : Session}
  {a u : UCard}

theorem Phase.peer_of_bind {phase : Phase} (bound : phase.state = .bind) :
    ∃ q, phase.peer = some q := by
  cases phase with
  | raw => contradiction
  | waiting card => contradiction
  | bound card q pc => exact ⟨q, rfl⟩

theorem Phase.peer_of_single {phase : Phase} (single : phase.state ≠ .bind) : phase.peer = none := by
  cases phase with
  | raw => rfl
  | waiting card => rfl
  | bound card q pc => exact absurd rfl single

/-- Pairing is symmetric, irreflexive and consistent in types and ids in every
reachable state, and no session is in two pairs. -/
theorem sessions_paired (run : Run (Step cfg) World.init labels w)
    (succeeds : ∀ label ∈ labels, label.Succeeds) (entry : w.m_bsMap[b]? = some p) :
    ∃ s, w.sessions p = some s ∧ s.m_meetee0.bev = some b ∧
      (s.m_state = .bind → ∃ q p' t, w.m_bsMap[q]? = some p' ∧ w.sessions p' = some t ∧
        (w.bevs q).isSome ∧ s.Linked b q t ∧
        ∀ (b' : BevPtr) (p' : SessionPtr) (s' : Session), w.m_bsMap[b']? = some p' →
          w.sessions p' = some s' → s'.m_meetee1.bev = some q → b' = b) ∧
      (s.m_state ≠ .bind → s.m_meetee1.bev = none) := by
  obtain ⟨v, models⟩ := reachable_knows run succeeds
  obtain ⟨c, present, live, _⟩ := models.entry entry
  refine ⟨c.session cfg b, live, rfl, ?_, Phase.peer_of_single⟩
  · intro bound
    obtain ⟨q, peer⟩ := Phase.peer_of_bind bound
    obtain ⟨p', t, entry', live', bev', linked⟩ := models.linked present peer
    refine ⟨q, p', _, entry', live', bev', linked, ?_⟩
    intro b' p'' s' entry'' live'' peer''
    obtain ⟨c', present', same, _⟩ := models.entry entry''
    obtain rfl := Option.some.inj (same.symm.trans live'')
    exact models.peer_unique present present' peer peer''

/-- A device on connection 7 and a client on connection 5 log in with the id `A`. -/
def pairLogin : List Label :=
  [⟨.listenerCb (some 7) 3, .ideal 0⟩, ⟨.listenerCb (some 5) 4, .ideal 0⟩,
    ⟨.connReadcb 7 (TelProxyLogin.packet 1 [65]), .ideal 0⟩,
    ⟨.connReadcb 5 (TelProxyLogin.packet 2 [65]), .ideal 0⟩]

theorem pairLogin_succeeds : ∀ label ∈ pairLogin, label.Succeeds := by
  simp [pairLogin, Label.Succeeds, Env.Succeeds, Env.ideal]

theorem sessions_paired_pairLogin :
    ∃ s, (World.after none pairLogin).sessions 1 = some s ∧ s.m_meetee0.bev = some 5 ∧
      ∃ q t, s.Linked 5 q t := by
  have entry : (World.after none pairLogin).m_bsMap[5]? = some 1 := by decide +kernel
  obtain ⟨s, live, own, pairs, _⟩ :=
    sessions_paired (run_after none pairLogin (by decide +kernel)) pairLogin_succeeds entry
  have bound : ((World.after none pairLogin).sessions 1).map (·.m_state) = some .bind := by
    decide +kernel
  rw [live] at bound
  obtain ⟨q, _, t, _, _, _, linked, _⟩ := pairs (Option.some.inj bound)
  exact ⟨s, live, own, q, t, linked⟩

/-- No two waiting sessions fit each other, whatever the outcomes of the library
calls were. -/
theorem no_missed_match (run : Run (Step cfg) World.init labels w)
    (entry : w.m_bsMap[b]? = some p) (entry' : w.m_bsMap[q]? = some p')
    (live : w.sessions p = some s) (live' : w.sessions p' = some t)
    (waits : s.m_state = .login) (waits' : t.m_state = .login)
    (card : s.m_meetee0.userData = some a) (card' : t.m_meetee0.userData = some u) : ¬a.Match u := by
  obtain ⟨v, models⟩ := reachable run
  obtain ⟨c, present, same, _⟩ := models.entry entry
  obtain ⟨d, present', same', _⟩ := models.entry entry'
  obtain rfl := Option.some.inj (same.symm.trans live)
  obtain rfl := Option.some.inj (same'.symm.trans live')
  obtain ⟨mine, phase⟩ := Phase.state_eq_login.mp waits
  obtain ⟨theirs, phase'⟩ := Phase.state_eq_login.mp waits'
  simp only [Conn.session, phase, phase', Phase.card, Option.map_some, Option.some.injEq] at card card'
  subst card card'
  rw [Card.match_iff]
  intro fit
  exact models.settled b c mine present phase q ⟨d, theirs, present', phase', fit⟩

/-- Two devices with the same id wait beside each other. -/
def twoDevices : List Label :=
  [⟨.listenerCb (some 7) 3, .ideal 0⟩, ⟨.listenerCb (some 5) 4, .ideal 0⟩,
    ⟨.connReadcb 7 (TelProxyLogin.packet 1 [65]), .ideal 0⟩,
    ⟨.connReadcb 5 (TelProxyLogin.packet 1 [65]), .ideal 0⟩]

theorem no_missed_match_twoDevices :
    ∃ s t a u, (World.after none twoDevices).sessions 0 = some s ∧ s.m_state = .login ∧
      (World.after none twoDevices).sessions 1 = some t ∧ t.m_state = .login ∧
      s.m_meetee0.userData = some a ∧ t.m_meetee0.userData = some u ∧ ¬a.Match u := by
  let card : UCard := ⟨1, strncpy 64 [65]⟩
  have first : (World.after none twoDevices).sessions 0 =
      some ⟨1, 0, 360, .login, ⟨some 7, some card⟩, ⟨none, none⟩⟩ := by decide +kernel
  have second : (World.after none twoDevices).sessions 1 =
      some ⟨2, 0, 360, .login, ⟨some 5, some card⟩, ⟨none, none⟩⟩ := by decide +kernel
  have entry : (World.after none twoDevices).m_bsMap[7]? = some 0 := by decide +kernel
  have entry' : (World.after none twoDevices).m_bsMap[5]? = some 1 := by decide +kernel
  refine ⟨_, _, card, card, first, rfl, second, rfl, rfl, rfl, ?_⟩
  exact no_missed_match (run_after none twoDevices (by decide +kernel)) entry entry' first second
    rfl rfl rfl rfl

end RemoteServer
