import RemoteServer.Pairing

/-! `TcpContainer::match` from any state of the container, reachable or not: the
loop binds the first session that fits and changes nothing else. -/
namespace RemoteServer
open Bytes

variable {cfg : Option Configure} {w : World} {b q : BevPtr} {p se : SessionPtr} {s t : Session}
  {a : UCard}

/-- What `match` relies on: every key leads to a live session whose own bufferevent
it is, and a session that has logged in has the card it logged in with. -/
structure World.Indexed (w : World) : Prop where
  own : ∀ {b : BevPtr} {p : SessionPtr}, w.m_bsMap[b]? = some p →
    ∃ s, w.sessions p = some s ∧ s.m_meetee0.bev = some b
  carded : ∀ {b : BevPtr} {p : SessionPtr} {s : Session}, w.m_bsMap[b]? = some p →
    w.sessions p = some s → s.m_state = .login →
      ∃ card : Card, s.m_meetee0.userData = some card.val

/-- The key `q` leads to a session that waits with the opposite type and the id of `s`. -/
def World.Suits (w : World) (s : Session) (q : BevPtr) : Prop :=
  ∃ (p : SessionPtr) (t : Session) (a u : UCard), w.m_bsMap[q]? = some p ∧ w.sessions p = some t ∧
    t.m_state = .login ∧ s.m_meetee0.userData = some a ∧ t.m_meetee0.userData = some u ∧ a.Match u

theorem World.Suits.ne (suits : w.Suits s q) (entry : w.m_bsMap[b]? = some se)
    (session : w.sessions se = some s) : q ≠ b := by
  rintro rfl
  obtain ⟨p, t, a, u, found, live, waits, mine, theirs, matches'⟩ := suits
  obtain rfl := Option.some.inj (found.symm.trans entry)
  obtain rfl := Option.some.inj (live.symm.trans session)
  obtain rfl := Option.some.inj (mine.symm.trans theirs)
  exact a.not_match_self matches'

namespace World.Indexed

/-- Every reachable state is one. -/
theorem of_models {R : Phase → Phase → Prop} {v : Relay} (models : w.Models cfg R v) : w.Indexed where
  own entry := by
    obtain ⟨c, _, live, _⟩ := models.entry entry
    exact ⟨_, live, rfl⟩
  carded entry session waits := by
    obtain ⟨c, _, live, _⟩ := models.entry entry
    obtain rfl := Option.some.inj (live.symm.trans session)
    obtain ⟨card, phase⟩ := Phase.state_eq_login.mp waits
    exact ⟨card, by simp [Conn.session, phase, Phase.card]⟩

theorem card_eq (indexed : w.Indexed) (entry : w.m_bsMap[b]? = some se)
    (session : w.sessions se = some s) (waits : s.m_state = .login)
    (held : s.m_meetee0.userData = some a) : ∃ card : Card, card.val = a := by
  obtain ⟨card, same⟩ := indexed.carded entry session waits
  exact ⟨card, Option.some.inj (same.symm.trans held)⟩

/-- The tests of `Session::match` decide whether the two cards fit. -/
theorem meets_iff (indexed : w.Indexed) (entry : w.m_bsMap[b]? = some se)
    (session : w.sessions se = some s) (entry' : w.m_bsMap[q]? = some p)
    (session' : w.sessions p = some t) : s.Meets t ↔ s.m_state = .login ∧ w.Suits s q := by
  constructor
  · rintro ⟨waits, waits', a, u, mine, theirs, fit⟩
    obtain ⟨card, rfl⟩ := indexed.card_eq entry session waits mine
    obtain ⟨card', rfl⟩ := indexed.card_eq entry' session' waits' theirs
    have matches' := (Card.compatible_iff_match card card').mp fit
    exact ⟨waits, p, t, _, _, entry', session', waits', mine, theirs, matches'⟩
  · rintro ⟨waits, p', t', a, u, found, live, waits', mine, theirs, matches'⟩
    obtain rfl := Option.some.inj (found.symm.trans entry')
    obtain rfl := Option.some.inj (live.symm.trans session')
    obtain ⟨card, rfl⟩ := indexed.card_eq entry session waits mine
    obtain ⟨card', rfl⟩ := indexed.card_eq entry' session' waits' theirs
    have fit := (Card.compatible_iff_match card card').mpr matches'
    exact ⟨waits, waits', _, _, mine, theirs, fit⟩

theorem fails (indexed : w.Indexed) (entry : w.m_bsMap[b]? = some se)
    (session : w.sessions se = some s) (entry' : w.m_bsMap[q]? = some p)
    (unsuited : ¬(s.m_state = .login ∧ w.Suits s q)) : Session.match cfg se p w = .ok (-1, w) := by
  obtain ⟨t, session', _⟩ := indexed.own entry'
  apply Session.match_fails session session'
  · intro waits
    obtain ⟨card, mine⟩ := indexed.carded entry session waits
    simp [mine]
  · rwa [indexed.meets_iff entry session entry' session']

end World.Indexed

/-- The end of `match` when a partner was found: both sides are bound to each
other, with a copy of the other's card where its `calloc` succeeded, and no other
session, index or bufferevent has changed. -/
structure World.Binds (cfg : Option Configure) (w : World) (b q : BevPtr) (se p : SessionPtr)
    (s t : Session) (w' : World) : Prop where
  mine : w'.sessions se = some
    (s.bound cfg q (if w.env.outcome w.calls then t.m_meetee0.userData else none))
  theirs : w'.sessions p = some
    (t.bound cfg b (if w.env.outcome (w.calls + 1) then s.m_meetee0.userData else none))
  others : ∀ p', p' ≠ se → p' ≠ p → w'.sessions p' = w.sessions p'
  bsMap : w'.m_bsMap = w.m_bsMap
  fsMap : w'.m_fsMap = w.m_fsMap
  bevs : w'.bevs = w.bevs

theorem World.Indexed.binds (cfg : Option Configure) (indexed : w.Indexed) (entry : w.m_bsMap[b]? = some se)
    (session : w.sessions se = some s) (waits : s.m_state = .login) (suits : w.Suits s q) :
    ∃ p t w', w.m_bsMap[q]? = some p ∧ w.sessions p = some t ∧ p ≠ se ∧
      Session.match cfg se p w = .ok (0, w') ∧ w.Binds cfg b q se p s t w' := by
  obtain ⟨p, t, _, _, entry', session', _⟩ := id suits
  have meets := (indexed.meets_iff entry session entry' session').mpr ⟨waits, suits⟩
  obtain ⟨_, waits', a, u, mine, theirs, fit⟩ := meets
  obtain ⟨_, live, own⟩ := indexed.own entry
  obtain rfl := Option.some.inj (live.symm.trans session)
  obtain ⟨_, live', own'⟩ := indexed.own entry'
  obtain rfl := Option.some.inj (live'.symm.trans session')
  have distinct : p ≠ se := by
    rintro rfl
    obtain rfl := Option.some.inj (live'.symm.trans live)
    exact suits.ne entry session (Option.some.inj (own'.symm.trans own))
  refine ⟨p, _, _, entry', session', distinct,
    Session.match_succeeds cfg session session' distinct.symm ⟨waits, waits'⟩ mine theirs fit own own', ?_⟩
  constructor
  · rw [World.putSession_sessions, Function.update_of_ne distinct.symm, World.putSession_self, theirs]
  · rw [World.putSession_self, mine]
  · intro p' notMine notTheirs
    rw [World.putSession_sessions, Function.update_of_ne notTheirs, World.putSession_sessions,
      Function.update_of_ne notMine]
    rfl
  · rfl
  · rfl
  · rfl

/-- `match` binds a waiting session to the suitable one whose key is least, and
fails without any change when there is none or the session does not wait. -/
theorem match_least (cfg : Option Configure) (indexed : w.Indexed) (entry : w.m_bsMap[b]? = some se)
    (session : w.sessions se = some s) :
    (s.m_state = .login → (∃ q, w.Suits s q) →
      ∃ (q : BevPtr) (p : SessionPtr) (t : Session) (w' : World), IsLeast {q | w.Suits s q} q ∧
        w.m_bsMap[q]? = some p ∧ w.sessions p = some t ∧ q ≠ b ∧ p ≠ se ∧
        TcpContainer.match cfg se w = .ok (0, w') ∧ w.Binds cfg b q se p s t w') ∧
    (¬(s.m_state = .login ∧ ∃ q, w.Suits s q) → TcpContainer.match cfg se w = .ok (-1, w)) := by
  constructor
  · intro waits suited
    classical
    have least : IsLeast {q | w.Suits s q} (Nat.find suited) :=
      ⟨Nat.find_spec suited, fun i suits => Nat.find_min' suited suits⟩
    obtain ⟨p, t, w', entry', session', distinct, matches', binds⟩ :=
      indexed.binds cfg entry session waits least.1
    refine ⟨_, p, t, w', least, entry', session', least.1.ne entry session, distinct,
      TcpContainer.match_finds entry' ?_ matches' binds.mine binds.theirs, binds⟩
    intro q p' below entryI
    apply indexed.fails entry session entryI
    rintro ⟨_, suits⟩
    exact absurd (least.2 suits) (Nat.not_le.mpr below)
  · intro unsuited
    apply TcpContainer.match_fails
    intro q p entry'
    apply indexed.fails entry session entry'
    rintro ⟨waits, suits⟩
    exact unsuited ⟨waits, q, suits⟩

/-- A device at key 7 and clients at keys 5 and 9, all waiting with the id `A`. -/
def waitingRoom : World :=
  { World.init with
    sessions := fun p => ([(1, 7), (2, 5), (2, 9)] : List (UInt32 × BevPtr))[p]?.map fun entry =>
      ⟨p, 0, 360, .login, ⟨some entry.2, some ⟨entry.1, strncpy 64 [65]⟩⟩, ⟨none, none⟩⟩
    m_bsMap := Std.TreeMap.ofList [(7, 0), (5, 1), (9, 2)] }

theorem waitingRoom_entry (entry : waitingRoom.m_bsMap[q]? = some p) :
    (q, p) = (7, 0) ∨ (q, p) = (5, 1) ∨ (q, p) = (9, 2) := by
  have member := Std.TreeMap.mem_toList_iff_getElem?_eq_some.mpr entry
  have listed : waitingRoom.m_bsMap.toList = [(5, 1), (7, 0), (9, 2)] := by decide +kernel
  rw [listed] at member
  simp only [List.mem_cons, List.not_mem_nil, or_false] at member
  tauto

theorem waitingRoom_indexed : waitingRoom.Indexed where
  own entry := by
    obtain same | same | same := waitingRoom_entry entry <;> obtain ⟨rfl, rfl⟩ := Prod.mk.inj same <;>
      exact ⟨_, rfl, rfl⟩
  carded entry session _ := by
    obtain same | same | same := waitingRoom_entry entry <;> obtain ⟨rfl, rfl⟩ := Prod.mk.inj same <;>
      obtain rfl := Option.some.inj session
    · exact ⟨⟨⟨1, strncpy 64 [65]⟩, .inl rfl⟩, rfl⟩
    · exact ⟨⟨⟨2, strncpy 64 [65]⟩, .inr rfl⟩, rfl⟩
    · exact ⟨⟨⟨2, strncpy 64 [65]⟩, .inr rfl⟩, rfl⟩

/-- Once the two of `pairLogin` are bound to each other, a further `match` changes nothing. -/
theorem match_least_waitingRoom :
    (∃ s q p t w', waitingRoom.sessions 0 = some s ∧ q ≠ 7 ∧
      TcpContainer.match none 0 waitingRoom = .ok (0, w') ∧ waitingRoom.Binds none 7 q 0 p s t w') ∧
    TcpContainer.match none 1 (World.after none pairLogin) = .ok (-1, World.after none pairLogin) := by
  constructor
  · let card (type : UInt32) : UCard := ⟨type, strncpy 64 [65]⟩
    obtain ⟨binds, _⟩ := match_least none waitingRoom_indexed
      (show waitingRoom.m_bsMap[7]? = some 0 by decide +kernel) rfl
    obtain ⟨q, p, t, w', _, _, _, apart, _, matches', bound⟩ :=
      binds rfl ⟨5, 1, _, card 1, card 2, by decide +kernel, rfl, rfl, rfl, rfl, .inl ⟨rfl, rfl⟩, rfl⟩
    exact ⟨_, q, p, t, w', rfl, apart, matches', bound⟩
  · obtain ⟨v, models⟩ := reachable (run_after none pairLogin (by decide +kernel))
    have indexed := World.Indexed.of_models models
    have entry : (World.after none pairLogin).m_bsMap[5]? = some 1 := by decide +kernel
    obtain ⟨s, session, _⟩ := indexed.own entry
    have bound : ((World.after none pairLogin).sessions 1).map (·.m_state) = some .bind := by decide +kernel
    rw [session] at bound
    apply (match_least none indexed entry session).2
    rintro ⟨waits, _⟩
    simp [waits] at bound

end RemoteServer
