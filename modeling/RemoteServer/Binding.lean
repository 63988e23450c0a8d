import RemoteServer.Login

/-! A bind that runs out of memory halfway: `match` reports success without a copy
of a card, and the two methods it is made of report a failure after they have
already written. Here is exactly when each of them keeps its word. -/
namespace RemoteServer
open Bytes

namespace Session

variable {cfg : Option Configure} {w : World} {this se : SessionPtr} {s t : Session} {b q : BevPtr}
  {a u : UCard}

/-- `match` either binds both sides, each with the other's bufferevent and card, or
returns -1 and changes no session. -/
def BindsBothOrNone (cfg : Option Configure) (this se : SessionPtr) (w : World) : Prop :=
  ∃ ret w', Session.match cfg this se w = .ok (ret, w') ∧
    (ret = 0 ∧ (∃ s t, w'.sessions this = some s ∧ w'.sessions se = some t ∧ s.m_state = .bind ∧
        t.m_state = .bind ∧ s.m_meetee1 = t.m_meetee0 ∧ t.m_meetee1 = s.m_meetee0) ∨
      ret = -1 ∧ w'.sessions = w.sessions)

/-- A call on a session that returns -1 leaves the session as it was. -/
def KeepsOnFailure (call : Program Int) (this : SessionPtr) (w : World) : Prop :=
  ∃ ret w', call w = .ok (ret, w') ∧ (ret = -1 → w'.sessions this = w.sessions this)

theorem match_binds_iff (live : w.sessions this = some s) (other : w.sessions se = some t)
    (first : s.Entered) (second : t.Entered) :
    BindsBothOrNone cfg this se w ↔
      (s.m_state = .login → t.m_state = .login →
        (∃ a u, s.m_meetee0.userData = some a ∧ t.m_meetee0.userData = some u ∧ a.Match u) →
        w.env.outcome w.calls = true ∧ w.env.outcome (w.calls + 1) = true) := by
  obtain ⟨⟨a, mine⟩, b, own⟩ := first
  obtain ⟨⟨u, theirs⟩, q, own'⟩ := second
  by_cases meets : s.Meets t
  · obtain ⟨waits, waits', a', u', mine', theirs', fit⟩ := id meets
    obtain rfl := Option.some.inj (mine.symm.trans mine')
    obtain rfl := Option.some.inj (theirs.symm.trans theirs')
    have matches' := (Card.compatible_iff_match a u).mp fit
    have distinct := distinct_of_match live other mine theirs matches'
    have binds := match_succeeds cfg live other distinct ⟨waits, waits'⟩ mine theirs fit own own'
    constructor
    · rintro ⟨ret, w', runs, ⟨_, s', t', atS, atT, _, _, copy, copy'⟩ | ⟨failed, _⟩⟩ _ _ _
      · obtain ⟨-, rfl⟩ := Prod.mk.inj (Except.ok.inj (binds.symm.trans runs))
        rw [World.putSession_self, Option.some.injEq] at atT
        rw [World.putSession_sessions, Function.update_of_ne distinct, World.putSession_self,
          Option.some.injEq] at atS
        subst atS atT
        have card := congrArg Meetee.userData copy
        have card' := congrArg Meetee.userData copy'
        simp only [bound, mine, theirs] at card card'
        constructor
        · by_contra failed
          simp [failed] at card
        · by_contra failed
          simp [failed] at card'
      · obtain ⟨zero, -⟩ := Prod.mk.inj (Except.ok.inj (binds.symm.trans runs))
        rw [← zero] at failed
        contradiction
    · intro enough
      obtain ⟨first, second⟩ := enough waits waits' ⟨_, _, mine, theirs, matches'⟩
      simp only [first, second, if_true] at binds
      refine ⟨0, _, binds, .inl ⟨rfl, s.bound cfg q (some u.val), t.bound cfg b (some a.val), ?_,
        World.putSession_self, rfl, rfl, ?_, ?_⟩⟩
      · exact (Function.update_of_ne distinct _ _).trans World.putSession_self
      · simp only [bound, ← own', ← theirs]
      · simp only [bound, ← own, ← mine]
  · have fails : Session.match cfg this se w = .ok (-1, w) :=
      match_fails live other (by simp [mine]) meets
    refine iff_of_true ⟨-1, w, fails, .inr ⟨rfl, rfl⟩⟩ ?_
    rintro waits waits' ⟨a', u', mine', theirs', fit⟩
    obtain rfl := Option.some.inj (mine.symm.trans mine')
    obtain rfl := Option.some.inj (theirs.symm.trans theirs')
    exact absurd ⟨waits, waits', _, _, mine, theirs, (Card.compatible_iff_match a u).mpr fit⟩ meets

theorem KeepsOnFailure.of_success {call : Program Int} {w' : World} (returns : call w = .ok (0, w')) :
    KeepsOnFailure call this w := ⟨0, w', returns, fun failed => by contradiction⟩

/-- A call that fails once it has written keeps the session only if the write
changed nothing. -/
theorem keepsOnFailure_iff {call : Program Int} {after : Session} (live : w.sessions this = some s)
    (returns : call w = .ok (-1, w.tick.putSession this after)) :
    KeepsOnFailure call this w ↔ after = s := by
  have same : (w.tick.putSession this after).sessions this = w.sessions this ↔ after = s := by
    rw [World.putSession_self, live, Option.some.injEq]
  constructor
  · rintro ⟨ret, w', runs, keeps⟩
    obtain ⟨rfl, rfl⟩ := Prod.mk.inj (Except.ok.inj (returns.symm.trans runs))
    exact same.mp (keeps rfl)
  · intro unchanged
    exact ⟨-1, _, returns, fun _ => same.mpr unchanged⟩

theorem matchDone_keeps_iff (live : w.sessions this = some s) (bev : Option BevPtr) (card : Option UCard) :
    KeepsOnFailure (matchDone cfg this bev card) this w ↔
      (∀ peer, bev = some peer → card ≠ none → w.env.outcome w.calls = false →
        s.m_state = .bind ∧ s.m_inactive = 0 ∧ s.m_timeouts = activeTimeout cfg ∧
          s.m_meetee1 = ⟨some peer, none⟩) := by
  by_cases null : bev = none ∨ card = none
  · have fails : matchDone cfg this bev card w = .ok (-1, w) := by
      simp only [matchDone]
      rw [if_pos null]
      rfl
    refine iff_of_true ⟨-1, w, fails, fun _ => rfl⟩ ?_
    rintro peer rfl given
    simp [given] at null
  · rw [not_or, ← ne_eq, ← ne_eq, Option.ne_none_iff_exists', Option.ne_none_iff_exists'] at null
    obtain ⟨⟨peer, rfl⟩, ⟨card, rfl⟩⟩ := null
    have done : matchDone cfg this (some peer) (some card) w = _ := matchDone_apply live peer card
    cases success : w.env.outcome w.calls with
    | true =>
      rw [success, if_pos rfl] at done
      refine iff_of_true (.of_success done) ?_
      intro _ _ _ failed
      contradiction
    | false =>
      rw [success, if_neg Bool.false_ne_true, if_neg Bool.false_ne_true] at done
      rw [keepsOnFailure_iff live done]
      constructor
      · rintro unchanged peer' given _ _
        obtain rfl := Option.some.inj given
        rw [← unchanged]
        exact ⟨rfl, rfl, rfl, rfl⟩
      · intro fields
        obtain ⟨state, idle, limit, peerSide⟩ := fields peer rfl (by simp) rfl
        rw [bound, ← state, ← idle, ← limit, ← peerSide]

theorem setUserData_keeps_iff (live : w.sessions this = some s) (index : Int) (userData : Option UCard)
    (len : Int) :
    KeepsOnFailure (setUserData this index userData len) this w ↔
      (userData ≠ none → 0 < len → 0 ≤ index → index < 2 → w.env.outcome w.calls = false →
        (s.meetee index).userData = none) := by
  cases userData with
  | none => exact iff_of_true ⟨-1, w, rfl, fun _ => rfl⟩ (by simp)
  | some card =>
    by_cases refused : len ≤ 0 ∨ index < 0 ∨ index ≥ 2
    · have fails : setUserData this index (some card) len w = .ok (-1, w) := by
        simp only [setUserData]
        rcases refused with empty | outside
        · rw [if_pos empty]
          rfl
        · rw [if_pos outside, ite_self]
          rfl
      exact iff_of_true ⟨-1, w, fails, fun _ => rfl⟩ (by omega)
    · have range : index = 0 ∨ index = 1 := by omega
      have size : 0 < len := by omega
      have sets := setUserData_apply live index range card size
      cases success : w.env.outcome w.calls with
      | true =>
        rw [success, if_pos rfl] at sets
        exact iff_of_true (.of_success sets) (by simp)
      | false =>
        rw [success, if_neg Bool.false_ne_true, if_neg Bool.false_ne_true] at sets
        have field : s.setMeetee index { s.meetee index with userData := none } = s ↔
            (s.meetee index).userData = none := by
          obtain ⟨_, _, _, _, ⟨_, _⟩, ⟨_, _⟩⟩ := s
          obtain rfl | rfl := range <;> simp [setMeetee, meetee, eq_comm]
        rw [keepsOnFailure_iff live sets, field]
        constructor
        · exact fun empty _ _ _ _ _ => empty
        · exact fun empty => empty (by simp) size (by omega) (by omega) rfl

/-- What the three methods promise whatever the outcomes of `calloc`. -/
def AllOrNothing (cfg : Option Configure) : Prop :=
  (∀ w this se s t, w.sessions this = some s → w.sessions se = some t → s.Entered → t.Entered →
    BindsBothOrNone cfg this se w) ∧
  (∀ w this s bev card, w.sessions this = some s → KeepsOnFailure (matchDone cfg this bev card) this w) ∧
  (∀ w this s index userData len, w.sessions this = some s →
    KeepsOnFailure (setUserData this index userData len) this w)

/-- `match` is all or nothing exactly when its tests fail or both copies find memory;
`match_done` keeps a session it fails on exactly when a pointer is NULL, its copy finds
memory, or the session already is what it leaves; `setUserData` exactly when it gets no
value, size or index it accepts, its copy finds memory, or there was no value to free. -/
theorem binding_all_or_nothing_iff (cfg : Option Configure) :
    (∀ w this se s t, w.sessions this = some s → w.sessions se = some t → s.Entered → t.Entered →
      (BindsBothOrNone cfg this se w ↔
        (s.m_state = .login → t.m_state = .login →
          (∃ a u, s.m_meetee0.userData = some a ∧ t.m_meetee0.userData = some u ∧ a.Match u) →
          w.env.outcome w.calls = true ∧ w.env.outcome (w.calls + 1) = true))) ∧
    (∀ w this s bev card, w.sessions this = some s →
      (KeepsOnFailure (matchDone cfg this bev card) this w ↔
        (∀ peer, bev = some peer → card ≠ none → w.env.outcome w.calls = false →
          s.m_state = .bind ∧ s.m_inactive = 0 ∧ s.m_timeouts = activeTimeout cfg ∧
            s.m_meetee1 = ⟨some peer, none⟩))) ∧
    (∀ w this s index userData len, w.sessions this = some s →
      (KeepsOnFailure (setUserData this index userData len) this w ↔
        (userData ≠ none → 0 < len → 0 ≤ index → index < 2 → w.env.outcome w.calls = false →
          (s.meetee index).userData = none))) := by
  refine ⟨?_, ?_, ?_⟩
  · intro w this se s t live other first second
    exact match_binds_iff live other first second
  · intro w this s bev card live
    exact matchDone_keeps_iff live bev card
  · intro w this s index userData len live
    exact setUserData_keeps_iff live index userData len

/-- A login as a device and one as a client, both with the id `A`. -/
def deviceAndClient : Program (Int × Int) := do
  let device ← login none 0 (TelProxyLogin.packet 1 [65])
  let client ← login none 1 (TelProxyLogin.packet 2 [65])
  return (device, client)

def loginPair : World := (deviceAndClient freshPair).toOption.elim freshPair Prod.snd

theorem deviceAndClient_returns : deviceAndClient freshPair = .ok ((0, 0), loginPair) := by
  have returned : (deviceAndClient freshPair).toOption.map Prod.fst = some (0, 0) := by decide +kernel
  simp only [loginPair]
  cases runs : deviceAndClient freshPair with
  | error fault =>
    rw [runs] at returned
    contradiction
  | ok after =>
    rw [runs] at returned
    exact congrArg Except.ok (Prod.ext (Option.some.inj returned) rfl)

theorem loginPair_sessions :
    loginPair.sessions 0 =
      some ⟨0, 0, 360, .login, ⟨some 7, some ⟨1, strncpy 64 [65]⟩⟩, ⟨none, none⟩⟩ ∧
    loginPair.sessions 1 =
      some ⟨1, 0, 360, .login, ⟨some 5, some ⟨2, strncpy 64 [65]⟩⟩, ⟨none, none⟩⟩ := by
  constructor <;> decide +kernel

theorem entered_pair (env : Env) :
    ∃ s t a u, (loginPair.start env).sessions 0 = some s ∧ (loginPair.start env).sessions 1 = some t ∧
      s.Entered ∧ t.Entered ∧ s.m_state = .login ∧ t.m_state = .login ∧
      s.m_meetee0.userData = some a ∧ t.m_meetee0.userData = some u ∧ a.Match u := by
  obtain ⟨device, w₁, first, rest⟩ := Exec.bind_eq_ok.mp deviceAndClient_returns
  obtain ⟨client, w₂, second, returns⟩ := Exec.bind_eq_ok.mp rest
  obtain ⟨both, rfl⟩ := Prod.mk.inj (Except.ok.inj returns)
  obtain ⟨rfl, rfl⟩ := Prod.mk.inj both
  obtain ⟨s, t, live, other, entered, entered', waits, waits'⟩ :=
    logins_enter rfl rfl (by decide) rfl rfl first second
  obtain ⟨atFirst, atSecond⟩ := loginPair_sessions
  obtain rfl := Option.some.inj (atFirst.symm.trans live)
  obtain rfl := Option.some.inj (atSecond.symm.trans other)
  exact ⟨_, _, _, _, live, other, entered, entered', waits, waits', rfl, rfl, .inl ⟨rfl, rfl⟩, rfl⟩

/-- Without any memory `match` still returns 0. -/
theorem not_allOrNothing : ¬AllOrNothing none := by
  rintro ⟨binds, _, _⟩
  obtain ⟨s, t, a, u, live, other, first, second, waits, waits', mine, theirs, fit⟩ :=
    entered_pair ⟨0, 0, fun _ => false⟩
  have kept := binds _ 0 1 s t live other first second
  have enough := (match_binds_iff live other first second).mp kept waits waits' ⟨a, u, mine, theirs, fit⟩
  exact absurd enough.1 (by decide)

/-- With memory for everything the three keep their word. With none for the second copy
`match` does not; with none at all `match_done` does not either, and `setUserData` only
where it has nothing to free or is given nothing to copy. -/
theorem binding_all_or_nothing_iff_loginPair :
    BindsBothOrNone none 0 1 (loginPair.start (.ideal 0)) ∧
    ¬BindsBothOrNone none 0 1 (loginPair.start ⟨0, 0, fun n => n = 0⟩) ∧
    KeepsOnFailure (matchDone none 0 (some 5) (some ⟨2, strncpy 64 [65]⟩)) 0 (loginPair.start (.ideal 0)) ∧
    ¬KeepsOnFailure (matchDone none 0 (some 5) (some ⟨2, strncpy 64 [65]⟩)) 0
      (loginPair.start ⟨0, 0, fun _ => false⟩) ∧
    KeepsOnFailure (setUserData 0 0 (some ⟨2, strncpy 64 [65]⟩) uCardSize) 0 (loginPair.start (.ideal 0)) ∧
    KeepsOnFailure (setUserData 0 1 (some ⟨2, strncpy 64 [65]⟩) uCardSize) 0
      (loginPair.start ⟨0, 0, fun _ => false⟩) ∧
    KeepsOnFailure (setUserData 0 0 (some ⟨2, strncpy 64 [65]⟩) 0) 0
      (loginPair.start ⟨0, 0, fun _ => false⟩) ∧
    ¬KeepsOnFailure (setUserData 0 0 (some ⟨2, strncpy 64 [65]⟩) uCardSize) 0
      (loginPair.start ⟨0, 0, fun _ => false⟩) := by
  obtain ⟨s, t, a, u, live, other, first, second, waits, waits', mine, theirs, fit⟩ := entered_pair (.ideal 0)
  obtain rfl := Option.some.inj (loginPair_sessions.1.symm.trans live)
  obtain ⟨binds, done, sets⟩ := binding_all_or_nothing_iff none
  have kept (env : Env) := binds (loginPair.start env) 0 1 _ t live other first second
  have finished (env : Env) := done (loginPair.start env) 0 _ (some 5) (some ⟨2, strncpy 64 [65]⟩) live
  have stored (env : Env) (index len : Int) :=
    sets (loginPair.start env) 0 _ index (some ⟨2, strncpy 64 [65]⟩) len live
  refine ⟨(kept _).mpr fun _ _ _ => ⟨rfl, rfl⟩, ?_, (finished _).mpr ?_, ?_, (stored _ _ _).mpr ?_,
    (stored _ _ _).mpr ?_, (stored _ _ _).mpr ?_, ?_⟩
  · intro whole
    exact absurd ((kept _).mp whole waits waits' ⟨a, u, mine, theirs, fit⟩).2 (by decide)
  · rintro peer _ _ failed
    exact absurd failed (by decide)
  · intro whole
    exact absurd ((finished _).mp whole 5 rfl (by simp) rfl).1 (by decide)
  · intro _ _ _ _ failed
    exact absurd failed (by decide)
  · exact fun _ _ _ _ _ => rfl
  · intro _ size
    exact absurd size (by decide)
  · intro whole
    exact absurd ((stored _ _ _).mp whole (by simp) (by decide) (by decide) (by decide) rfl) (by decide)

end Session
end RemoteServer
