import RemoteServer.Session
import RemoteServer.Session.PacketProofs

/-! What each method of `Session` returns and leaves behind, given that the
objects it is called on are live. -/
namespace RemoteServer
open Bytes

variable {cfg : Option Configure} {w w' : World} {this se : SessionPtr} {s t : Session}
  {b : BevPtr} {x : Bufferevent}

theorem buffereventGetfd_apply (live : w.bevs b = some x) :
    buffereventGetfd b w = .ok (x.fd, w) := by
  rw [buffereventGetfd, Exec.bind_ok (derefBev_apply live)]
  rfl

theorem inputLength_apply (live : w.bevs b = some x) :
    inputLength b w = .ok (x.input.length, w) := by
  rw [inputLength, Exec.bind_ok (derefBev_apply live)]
  rfl

theorem buffereventWrite_apply (live : w.bevs b = some x) (data : List UInt8) :
    buffereventWrite b data w = .ok (if w.env.outcome w.calls then 0 else -1,
      w.tick.putBev b (x.append (w.env.outcome w.calls) data)) := by
  have same : w.tick.putBev b x = w.tick := by
    simp only [World.putBev, World.tick, ← live, Function.update_eq_self]
  rw [buffereventWrite, Exec.bind_ok (derefBev_apply live), Exec.bind_ok (a := w.env.outcome w.calls) rfl]
  cases success : w.env.outcome w.calls with
  | true =>
    rw [if_pos rfl, Exec.bind_ok (modifyBev_apply (by simpa using live) _)]
    rfl
  | false => simp [Bufferevent.append, same]

theorem buffereventRead_apply (live : w.bevs b = some x) (size : Nat) :
    buffereventRead b size w = .ok (x.input.take size,
      (w.putBev b { x with input := x.input.drop size }).logRead b (x.input.take size)) := by
  rw [buffereventRead, Exec.bind_ok (derefBev_apply live), Exec.bind_ok (modifyBev_apply live _)]
  rfl

theorem buffereventFree_apply (live : w.bevs b = some x) :
    buffereventFree b w = .ok ((), w.dropBev b x) := by
  rw [buffereventFree, Exec.bind_ok (derefBev_apply live)]
  rfl

theorem arrive_apply (live : w.bevs b = some x) (chunk : List UInt8) :
    arrive b chunk w =
      .ok ((), w.putBev b { x with input := x.input ++ chunk, timer := w.env.clock }) := by
  rw [arrive, Exec.get_bind, modifyBev_apply live]

theorem drain_apply (live : w.bevs b = some x) (n : Nat) :
    drain b n w = .ok ((), w.putBev b
      { x with sent := x.sent ++ x.output.take n, output := x.output.drop n }) :=
  modifyBev_apply live _

theorem buffereventSetTimeouts_apply (live : w.bevs b = some x) (timeoutRead : Time) :
    buffereventSetTimeouts b timeoutRead w =
      .ok ((), w.putBev b { x with readTimeout := some timeoutRead, timer := w.env.clock }) := by
  rw [buffereventSetTimeouts, Exec.get_bind, modifyBev_apply live]

theorem buffereventEnable_apply (live : w.bevs b = some x) (event : BitVec 16) :
    buffereventEnable b event w = .ok ((), w.putBev b
      (if event &&& evRead ≠ 0 then { x with timer := w.env.clock } else x)) := by
  rw [buffereventEnable, Exec.get_bind, modifyBev_apply live]

namespace Session

/-- The session after a successful `login`. -/
def loggedIn (cfg : Option Configure) (card : UCard) (s : Session) : Session :=
  { s with m_state := .login, m_inactive := 0, m_timeouts := matchTimeout cfg,
           m_meetee0 := { s.m_meetee0 with userData := some card } }

/-- The session after `match_done`. Without memory for the card it keeps none. -/
def bound (cfg : Option Configure) (bev : BevPtr) (card : Option UCard) (s : Session) : Session :=
  { s with m_state := .bind, m_inactive := 0, m_timeouts := activeTimeout cfg,
           m_meetee1 := ⟨some bev, card⟩ }

theorem delete_apply (live : w.sessions this = some s) (own : s.m_meetee0.bev = some b)
    (bev : w.bevs b = some x) :
    Session.delete this w = .ok ((), (w.dropBev b x).dropSession this) := by
  rw [Session.delete, Exec.bind_ok (derefSession_apply live)]
  simp only [own]
  rw [Exec.bind_ok (buffereventFree_apply bev)]
  rfl

theorem getBev_own (live : w.sessions this = some s) :
    getBev this 0 w = .ok (s.m_meetee0.bev, w) := by
  simp only [getBev]
  rw [if_neg (by decide), Exec.bind_ok (derefSession_apply live)]
  rfl

theorem getBev_peer (live : w.sessions this = some s) :
    getBev this 1 w = .ok (s.m_meetee1.bev, w) := by
  simp only [getBev]
  rw [if_neg (by decide), Exec.bind_ok (derefSession_apply live)]
  rfl

theorem getUserData_own (live : w.sessions this = some s) :
    getUserData this 0 uCardSize w = .ok (s.m_meetee0.userData, w) := by
  simp only [getUserData]
  rw [if_neg (by decide), if_neg (by decide), Exec.bind_ok (derefSession_apply live)]
  rfl

theorem getSessionState_apply (live : w.sessions this = some s) :
    getSessionState this w = .ok (s.m_state, w) := by
  rw [getSessionState, Exec.bind_ok (derefSession_apply live)]
  rfl

theorem dumpInfo_apply (live : w.sessions this = some s) : dumpInfo this w = .ok ((), w) := by
  rw [dumpInfo, Exec.bind_ok (derefSession_apply live)]
  rfl

theorem setBev_own (live : w.sessions this = some s) :
    setBev this 0 (some b) w = .ok (0,
      w.putSession this { s with m_meetee0 := { s.m_meetee0 with bev := some b } }) := by
  simp only [setBev]
  rw [if_neg (by decide), Exec.bind_ok (modifySession_apply live _)]
  rfl

theorem setBev_peer (live : w.sessions this = some s) :
    setBev this 1 (some b) w = .ok (0,
      w.putSession this { s with m_meetee1 := { s.m_meetee1 with bev := some b } }) := by
  simp only [setBev]
  rw [if_neg (by decide), Exec.bind_ok (modifySession_apply live _)]
  rfl

theorem setUserData_apply (live : w.sessions this = some s) (index : Int)
    (range : index = 0 ∨ index = 1) (card : UCard) {len : Int} (size : 0 < len) :
    setUserData this index (some card) len w =
      .ok (if w.env.outcome w.calls then 0 else -1,
        w.tick.putSession this (s.setMeetee index { s.meetee index with
          userData := if w.env.outcome w.calls then some card else none })) := by
  have inside : ¬(index < 0 ∨ index ≥ 2) := by omega
  simp only [setUserData]
  rw [if_neg (Int.not_le.mpr size), if_neg inside, Exec.bind_ok (modifySession_apply live _)]
  rw [Exec.bind_ok (a := w.env.outcome w.calls) rfl, World.tick_putSession]
  cases success : w.env.outcome w.calls with
  | true =>
    rw [if_pos rfl, Exec.bind_ok (modifySession_apply World.putSession_self _)]
    obtain rfl | rfl := range <;> simp [setMeetee, meetee]
  | false => simp

theorem inactive_apply (live : w.sessions this = some s) (interval : Int) :
    inactive this interval w =
      .ok (if s.m_inactive + interval ≥ s.m_timeouts then 1 else 0,
        w.putSession this { s with m_inactive := s.m_inactive + interval }) := by
  rw [inactive, Exec.bind_ok (modifySession_apply live _),
    Exec.bind_ok (derefSession_apply World.putSession_self)]
  rfl

theorem login_not_raw (live : w.sessions this = some s) (nonempty : data ≠ [])
    (state : s.m_state ≠ .raw) : login cfg this data w = .ok (-1, w) := by
  simp only [login, List.length_eq_zero_iff, if_neg nonempty]
  rw [Exec.bind_ok (derefSession_apply live), if_neg state]
  rfl

theorem login_rejected (live : w.sessions this = some s) (nonempty : data ≠ [])
    (state : s.m_state = .raw) (rejected : loginPackage data = .ok none) :
    login cfg this data w = .ok (-1, w) := by
  simp only [login, List.length_eq_zero_iff, if_neg nonempty]
  rw [Exec.bind_ok (derefSession_apply live), if_pos state, rejected, Exec.bind_ok (Exec.lift_ok _ _)]
  rfl

theorem login_accepted (cfg : Option Configure) (live : w.sessions this = some s)
    (nonempty : data ≠ []) (state : s.m_state = .raw) (accepted : loginPackage data = .ok (some card)) :
    login cfg this data w =
      if w.env.outcome w.calls then .ok (0, w.tick.putSession this (s.loggedIn cfg card))
      else .ok (-1, w.tick.putSession this
        { s with m_meetee0 := { s.m_meetee0 with userData := none } }) := by
  simp only [login, List.length_eq_zero_iff, if_neg nonempty]
  rw [Exec.bind_ok (derefSession_apply live), if_pos state, accepted, Exec.bind_ok (Exec.lift_ok _ _)]
  simp only
  rw [Exec.bind_ok (setUserData_apply live 0 (Or.inl rfl) card (by decide))]
  cases success : w.env.outcome w.calls with
  | true =>
    simp only [if_true, ne_eq, not_true_eq_false, if_false]
    rw [Exec.bind_ok (modifySession_apply World.putSession_self _), World.putSession_putSession,
      Exec.bind_ok (modifySession_apply World.putSession_self _), World.putSession_putSession,
      Exec.bind_ok (dumpInfo_apply World.putSession_self)]
    rfl
  | false =>
    simp only [Bool.false_eq_true, if_false]
    rfl

/-- A login that returns 0 has found a card in the data and recorded it. -/
theorem login_zero (live : w.sessions this = some s) (logsIn : login cfg this data w = .ok (0, w')) :
    ∃ card, s.m_state = .raw ∧ loginPackage data = .ok (some card) ∧ w.env.outcome w.calls = true ∧
      w' = w.tick.putSession this (s.loggedIn cfg card) := by
  have failed {u : World} (fails : login cfg this data w = .ok (-1, u)) : False := by
    rw [fails] at logsIn
    cases logsIn
  by_cases empty : data = []
  · subst data
    exact (failed (u := w) rfl).elim
  by_cases raw : s.m_state = .raw
  · obtain ⟨found, returns⟩ := loginPackage_returns data
    cases found with
    | none => exact (failed (login_rejected live empty raw returns)).elim
    | some card =>
      have runs := login_accepted cfg live empty raw returns
      cases success : w.env.outcome w.calls with
      | true =>
        rw [success, if_pos rfl] at runs
        obtain ⟨-, rfl⟩ := Prod.mk.inj (Except.ok.inj (runs.symm.trans logsIn))
        exact ⟨card, raw, returns, rfl, rfl⟩
      | false =>
        rw [success, if_neg Bool.false_ne_true] at runs
        exact (failed runs).elim
  · exact (failed (login_not_raw live empty raw)).elim

theorem matchDone_apply (live : w.sessions this = some s) (bev : BevPtr) (card : UCard) :
    matchDone cfg this (some bev) (some card) w =
      .ok (if w.env.outcome w.calls then 0 else -1,
        w.tick.putSession this (s.bound cfg bev
          (if w.env.outcome w.calls then some card else none))) := by
  simp only [matchDone]
  rw [if_neg (by simp), Exec.bind_ok (modifySession_apply live _),
    Exec.bind_ok (modifySession_apply World.putSession_self _), World.putSession_putSession,
    Exec.bind_ok (setBev_peer World.putSession_self), World.putSession_putSession]
  simp only [ne_eq, not_true_eq_false, if_false]
  rw [Exec.bind_ok (setUserData_apply World.putSession_self 1 (Or.inr rfl) card (by decide))]
  cases success : w.env.outcome w.calls with
  | true => simp [success, setMeetee, meetee, bound]
  | false => simp [success, setMeetee, meetee, bound]

/-- The tests of `match` decide: both sessions wait, and their cards fit. -/
def Meets (s t : Session) : Prop :=
  s.m_state = .login ∧ t.m_state = .login ∧
    ∃ my u, s.m_meetee0.userData = some my ∧ t.m_meetee0.userData = some u ∧ compatible my u = true

theorem match_fails (live : w.sessions this = some s) (other : w.sessions se = some t)
    (carded : s.m_state = .login → s.m_meetee0.userData ≠ none) (apart : ¬Meets s t) :
    Session.match cfg this se w = .ok (-1, w) := by
  rw [Session.match, Exec.bind_ok (getSessionState_apply live),
    Exec.bind_ok (getSessionState_apply other)]
  by_cases states : s.m_state = .login ∧ t.m_state = .login
  · rw [if_pos states, Exec.bind_ok (derefSession_apply live),
      Exec.bind_ok (getUserData_own other)]
    obtain ⟨my, own⟩ := Option.ne_none_iff_exists'.mp (carded states.1)
    cases theirs : t.m_meetee0.userData with
    | none => rfl
    | some u =>
      have unfit : compatible my u = false := by
        by_contra fit
        exact apart ⟨states.1, states.2, my, u, own, theirs, by simpa using fit⟩
      simp [own, unfit]
  · rw [if_neg states]
    rfl

/-- On success both sides are bound, each with the outcome of its own `calloc`. -/
theorem match_succeeds (cfg : Option Configure) (live : w.sessions this = some s)
    (other : w.sessions se = some t) (distinct : this ≠ se) (states : s.m_state = .login ∧ t.m_state = .login)
    (mine : s.m_meetee0.userData = some my) (theirs : t.m_meetee0.userData = some u)
    (fit : compatible my u = true) (ownBev : s.m_meetee0.bev = some b)
    (theirBev : t.m_meetee0.bev = some q) :
    Session.match cfg this se w = .ok (0,
      ((w.tick.tick).putSession this
        (s.bound cfg q (if w.env.outcome w.calls then some u else none))).putSession se
        (t.bound cfg b (if w.env.outcome (w.calls + 1) then some my else none))) := by
  have apart : (w.tick.putSession this (s.bound cfg q
      (if w.env.outcome w.calls then some u else none))).sessions se = some t := by
    rw [World.putSession_sessions, Function.update_of_ne distinct.symm, World.tick_sessions, other]
  rw [Session.match, Exec.bind_ok (getSessionState_apply live),
    Exec.bind_ok (getSessionState_apply other), if_pos states,
    Exec.bind_ok (derefSession_apply live), Exec.bind_ok (getUserData_own other)]
  simp only [mine, theirs, fit, Bool.not_true, Bool.false_eq_true, if_false]
  rw [Exec.bind_ok (getBev_own other), theirBev, Exec.bind_ok (matchDone_apply live q u),
    Exec.bind_ok (getBev_own World.putSession_self),
    show (s.bound cfg q _).m_meetee0.bev = some b from ownBev,
    Exec.bind_ok (matchDone_apply apart b my)]
  rfl

theorem business_bound (live : w.sessions this = some s) (nonempty : data ≠ [])
    (state : s.m_state = .bind) (peer : s.m_meetee1.bev = some b) (bev : w.bevs b = some x) :
    business this data w = .ok (if w.env.outcome w.calls then 0 else -1,
      (w.tick.putSession this { s with m_inactive := 0 }).putBev b
        (x.append (w.env.outcome w.calls) data)) := by
  simp only [business, List.length_eq_zero_iff, if_neg nonempty]
  rw [Exec.bind_ok (derefSession_apply live), if_pos state,
    Exec.bind_ok (modifySession_apply live _), Exec.bind_ok (derefSession_apply World.putSession_self)]
  simp only [peer]
  rw [Exec.bind_ok (buffereventWrite_apply (by simpa using bev) data)]
  cases success : w.env.outcome w.calls with
  | true => simp [success]
  | false => simp [success]

end Session
end RemoteServer
