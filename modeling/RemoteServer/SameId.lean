import RemoteServer.Login

/-! Which ids are joined. A card keeps 63 bytes of an id and a terminator, so two
ids are told apart by their first 63 bytes only. -/
namespace RemoteServer
open Bytes

theorem UCard.Match.symm {a u : UCard} (fit : a.Match u) : u.Match a := by
  obtain ⟨types, ids⟩ := fit
  exact ⟨types.elim (fun h => .inr ⟨h.2, h.1⟩) (fun h => .inl ⟨h.2, h.1⟩), ids.symm⟩

theorem cardAt_string (data : List UInt8) (k : Nat) :
    cstr (cardAt data k).id.val = (cstr (idField data k)).take 63 := by
  have fits := Session.cut_length (idField data k)
  simp only [cardAt]
  rw [cstr_strncpy _ (by rw [Session.cstr_cut]; omega), Session.cstr_cut]

/-- One packet of a device and one of a client, in either order, whose ids, as they
were sent, are related by `same`. -/
def PacketsJoin (same : List UInt8 → List UInt8 → Prop) (first second : List UInt8) (k j : Nat) : Prop :=
  (wordAt first (k + 16) = 1 ∧ wordAt second (j + 16) = 2 ∨
    wordAt first (k + 16) = 2 ∧ wordAt second (j + 16) = 1) ∧
  same (idField first k) (idField second j)

theorem cards_match_iff (packet : LoginPacket first k) (packet' : LoginPacket second j) :
    (cardAt first k).Match (cardAt second j) ↔
      PacketsJoin (fun field field' => (cstr field).take 63 = (cstr field').take 63) first second k j := by
  have type := Session.cardAt_type packet
  have type' := Session.cardAt_type packet'
  simp only [UCard.Match, PacketsJoin, cardAt_string, ← type, ← type', ← UInt32.toNat_inj]
  rfl

namespace Session

variable {cfg : Option Configure} {w : World} {this se : SessionPtr} {s t : Session} {a u : UCard}

/-- Two sessions that wait: `match` returns 0 or -1 as their cards decide. -/
theorem match_decides (cfg : Option Configure) (live : w.sessions this = some s)
    (other : w.sessions se = some t) (first : s.Entered) (second : t.Entered)
    (states : s.m_state = .login ∧ t.m_state = .login) (mine : s.m_meetee0.userData = some a)
    (theirs : t.m_meetee0.userData = some u) :
    ∃ ret w', Session.match cfg this se w = .ok (ret, w') ∧
      (a.Match u ∧ ret = 0 ∨ ¬a.Match u ∧ ret = -1) := by
  obtain ⟨⟨a', own⟩, b, bev⟩ := first
  obtain ⟨⟨u', own'⟩, q, bev'⟩ := second
  obtain rfl := Option.some.inj (own.symm.trans mine)
  obtain rfl := Option.some.inj (own'.symm.trans theirs)
  by_cases fit : a'.val.Match u'.val
  · have distinct := distinct_of_match live other mine theirs fit
    exact ⟨0, _, match_succeeds cfg live other distinct states mine theirs
      ((Card.compatible_iff_match a' u').mpr fit) bev bev', .inl ⟨fit, rfl⟩⟩
  · refine ⟨-1, w, match_fails live other (by simp [mine]) ?_, .inr ⟨fit, rfl⟩⟩
    rintro ⟨_, _, my, yours, held, held', passes⟩
    obtain rfl := Option.some.inj (mine.symm.trans held)
    obtain rfl := Option.some.inj (theirs.symm.trans held')
    exact fit ((Card.compatible_iff_match a' u').mp passes)

/-- After a login on each of two sessions, `match` in either direction returns 0
exactly when the packets are those of a device and a client whose sent ids are
related by `same`, and -1 otherwise. -/
def JoinsOn (cfg : Option Configure) (same : List UInt8 → List UInt8 → Prop) : Prop :=
  ∀ w this se s t b q first second w₁ w₂, this ≠ se → b ≠ q →
    w.sessions this = some s → s.m_meetee0.bev = some b →
    w.sessions se = some t → t.m_meetee0.bev = some q →
    login cfg this first w = .ok (0, w₁) → login cfg se second w₁ = .ok (0, w₂) →
    ∃ k j ret w₃ w₄, LoginPacket first k ∧ LoginPacket second j ∧
      Session.match cfg this se w₂ = .ok (ret, w₃) ∧ Session.match cfg se this w₂ = .ok (ret, w₄) ∧
      (PacketsJoin same first second k j ∧ ret = 0 ∨ ¬PacketsJoin same first second k j ∧ ret = -1)

/-- Ids are compared as the bytes before the first NUL among the first 63. -/
theorem ids_joined (cfg : Option Configure) :
    JoinsOn cfg fun field field' => (cstr field).take 63 = (cstr field').take 63 := by
  intro w this se s t b q first second w₁ w₂ distinct _ live own other own' logsIn logsIn'
  obtain ⟨card, _, accepted, _, rfl⟩ := login_zero live logsIn
  have other₁ : (w.tick.putSession this (s.loggedIn cfg card)).sessions se = some t :=
    (Function.update_of_ne distinct.symm _ _).trans other
  obtain ⟨card', _, accepted', _, rfl⟩ := login_zero other₁ logsIn'
  obtain ⟨_, k, packet, rfl⟩ := (loginPackage_eq_some_iff first card).mp accepted
  obtain ⟨_, j, packet', rfl⟩ := (loginPackage_eq_some_iff second card').mp accepted'
  have entered : (s.loggedIn cfg (cardAt first k)).Entered :=
    ⟨⟨⟨_, loginPackage_type accepted⟩, rfl⟩, b, own⟩
  have entered' : (t.loggedIn cfg (cardAt second j)).Entered :=
    ⟨⟨⟨_, loginPackage_type accepted'⟩, rfl⟩, q, own'⟩
  have live₂ := (Function.update_of_ne distinct (some (t.loggedIn cfg (cardAt second j)))
    (w.tick.putSession this (s.loggedIn cfg (cardAt first k))).tick.sessions).trans World.putSession_self
  obtain ⟨ret, w₃, matches', decides⟩ :=
    match_decides cfg live₂ World.putSession_self entered entered' ⟨rfl, rfl⟩ rfl rfl
  obtain ⟨ret', w₄, matches'', decides'⟩ :=
    match_decides cfg World.putSession_self live₂ entered' entered ⟨rfl, rfl⟩ rfl rfl
  have same : ret' = ret := by
    rcases decides with ⟨fit, rfl⟩ | ⟨unfit, rfl⟩ <;> rcases decides' with ⟨fit', rfl⟩ | ⟨unfit', rfl⟩
    · rfl
    · exact absurd fit.symm unfit'
    · exact absurd fit'.symm unfit
    · rfl
  subst same
  rw [cards_match_iff packet packet'] at decides
  exact ⟨k, j, ret', w₃, w₄, packet, packet', matches', matches'', decides⟩

theorem packet_starts (packet : List UInt8) (sync : telproxySyn <+: packet) (size : packet.length = 84)
    (type : wordAt packet 16 = 1 ∨ wordAt packet 16 = 2) (id : packet[20]? ≠ some 0) : LoginPacket packet 0 :=
  ⟨⟨sync, fun _ _ => Nat.zero_le _⟩, by rw [size]; decide, type, id⟩

theorem returned {call : Program Int} {ret : Int} (value : (call w).toOption.map Prod.fst = some ret) :
    ∃ w', call w = .ok (ret, w') := by
  cases runs : call w with
  | error fault =>
    rw [runs] at value
    contradiction
  | ok after =>
    rw [runs] at value
    obtain rfl := Option.some.inj value
    exact ⟨after.2, rfl⟩

theorem toOption_bind {α β : Type} (a : α) (f : α → Option β) :
    (Except.ok a : Except Fault α).toOption.bind f = f a := rfl

/-- Both logins of a fresh pair, from what they return. -/
theorem freshPair_logins (first second : List UInt8)
    (twice : ((login none 0 first freshPair).toOption.bind fun after =>
      (login none 1 second after.2).toOption.map Prod.fst) = some 0)
    (once : (login none 0 first freshPair).toOption.map Prod.fst = some 0) :
    ∃ w₁ w₂, login none 0 first freshPair = .ok (0, w₁) ∧ login none 1 second w₁ = .ok (0, w₂) := by
  obtain ⟨w₁, logsIn⟩ := returned once
  simp only [logsIn, toOption_bind] at twice
  obtain ⟨w₂, logsIn'⟩ := returned twice
  exact ⟨w₁, w₂, logsIn, logsIn'⟩

theorem ids_joined_freshPair :
    ∃ w₂ w₃ w₄, Session.match none 0 1 w₂ = .ok (0, w₃) ∧ Session.match none 1 0 w₂ = .ok (0, w₄) := by
  let first := TelProxyLogin.packet 1 [65]
  let second := TelProxyLogin.packet 2 [65]
  have packet : LoginPacket first 0 := packet_starts _ (by decide) (by decide) (by decide) (by decide)
  have packet' : LoginPacket second 0 := packet_starts _ (by decide) (by decide) (by decide) (by decide)
  obtain ⟨w₁, w₂, logsIn, logsIn'⟩ :=
    freshPair_logins first second (by decide +kernel) (by decide +kernel)
  obtain ⟨k, j, ret, w₃, w₄, starts, starts', matches', matches'', decides⟩ :=
    ids_joined none freshPair 0 1 _ _ 7 5 first second w₁ w₂ (by decide) (by decide) rfl rfl rfl rfl
      logsIn logsIn'
  obtain rfl := packet.unique starts
  obtain rfl := packet'.unique starts'
  rcases decides with ⟨_, rfl⟩ | ⟨apart, _⟩
  · exact ⟨w₂, w₃, w₄, matches', matches''⟩
  · exact absurd (show PacketsJoin _ first second 0 0 from ⟨by decide, by decide⟩) apart

/-- Two ids of 64 bytes without a NUL that differ in the last byte are joined. -/
theorem not_joinsOn_sent : ¬JoinsOn none fun field field' => cstr field = cstr field' := by
  intro joins
  let first := TelProxyLogin.packet 1 (List.replicate 64 65)
  let second := TelProxyLogin.packet 2 (List.replicate 63 65 ++ [66])
  have packet : LoginPacket first 0 := packet_starts _ (by decide +kernel) (by decide +kernel)
    (by decide +kernel) (by decide +kernel)
  have packet' : LoginPacket second 0 := packet_starts _ (by decide +kernel) (by decide +kernel)
    (by decide +kernel) (by decide +kernel)
  obtain ⟨w₁, w₂, logsIn, logsIn'⟩ :=
    freshPair_logins first second (by decide +kernel) (by decide +kernel)
  have matched : ((login none 0 first freshPair).toOption.bind fun after =>
      (login none 1 second after.2).toOption.bind fun after =>
        (Session.match none 0 1 after.2).toOption.map Prod.fst) = some 0 := by decide +kernel
  simp only [logsIn, logsIn', toOption_bind] at matched
  obtain ⟨k, j, ret, w₃, w₄, starts, starts', matches', _, decides⟩ :=
    joins freshPair 0 1 _ _ 7 5 first second w₁ w₂ (by decide) (by decide) rfl rfl rfl rfl logsIn
      logsIn'
  obtain rfl := packet.unique starts
  obtain rfl := packet'.unique starts'
  have zero : ret = 0 := by
    rw [matches'] at matched
    exact Option.some.inj matched
  rcases decides with ⟨⟨_, same⟩, _⟩ | ⟨_, failed⟩
  · exact absurd same (by decide +kernel)
  · exact absurd (zero.symm.trans failed) (by decide)

end Session
end RemoteServer
