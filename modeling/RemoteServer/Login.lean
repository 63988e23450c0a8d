import RemoteServer.Pairing
import RemoteServer.Session.Grammar

/-! `Session::login` against the grammar of its packet: it accepts nothing else and
records what the packet says, but a buffer that begins with a NUL is never searched. -/
namespace RemoteServer
open Bytes

namespace Session

variable {cfg : Option Configure} {w : World} {this se : SessionPtr} {s t : Session} {b : BevPtr}
  {data data' : List UInt8} {a u : UCard} {w₁ w₂ : World} {q : BevPtr}

/-- The string of a sent id, cut after 63 bytes, in an array of 64. -/
def paddedId (field : List UInt8) : List UInt8 :=
  (cstr field).take 63 ++ List.replicate (64 - ((cstr field).take 63).length) 0

/-- On this buffer `login` returns 0 exactly for a raw session and a packet of the
grammar, then records type and id of the packet, and otherwise changes no field. -/
def FollowsGrammar (cfg : Option Configure) (this : SessionPtr) (s : Session) (data : List UInt8)
    (w : World) : Prop :=
  ∃ ret w', login cfg this data w = .ok (ret, w') ∧
    (ret = 0 ↔ s.m_state = .raw ∧ ∃ k, LoginPacket data k) ∧
    (ret = 0 → ∀ k, LoginPacket data k → ∃ card, w'.sessions this = some (s.loggedIn cfg card) ∧
      card.type.toNat = wordAt data (k + 16) ∧ card.id.val = paddedId (idField data k)) ∧
    (ret ≠ 0 → w'.sessions this = some s)

theorem cardAt_type (packet : LoginPacket data k) :
    (cardAt data k).type.toNat = wordAt data (k + 16) := by
  have small : wordAt data (k + 16) < UInt32.size := by
    rcases packet.type with type | type <;> rw [type] <;> decide
  exact UInt32.toNat_ofNat_of_lt' small

theorem cstr_cut (field : List UInt8) : cstr ((cstr field).take 63) = (cstr field).take 63 :=
  cstr_of_nul_free _ fun byte member => cstr_nul_free _ byte (List.mem_of_mem_take member)

theorem cut_length (field : List UInt8) : ((cstr field).take 63).length ≤ 63 := by
  rw [List.length_take]
  omega

theorem cardAt_id (data : List UInt8) (k : Nat) : (cardAt data k).id.val = paddedId (idField data k) := by
  have fits := cut_length (idField data k)
  simp only [cardAt, strncpy, cstr_cut, paddedId]
  rw [List.take_of_length_le (by omega)]

/-- A session that has logged in and has its own bufferevent. -/
structure Entered (s : Session) : Prop where
  card : ∃ card : Card, s.m_meetee0.userData = some card.val
  bev : ∃ b, s.m_meetee0.bev = some b

theorem distinct_of_match (live : w.sessions this = some s) (other : w.sessions se = some t)
    (mine : s.m_meetee0.userData = some a) (theirs : t.m_meetee0.userData = some u) (fit : a.Match u) :
    this ≠ se := by
  rintro rfl
  obtain rfl := Option.some.inj (live.symm.trans other)
  obtain rfl := Option.some.inj (mine.symm.trans theirs)
  exact a.not_match_self fit

theorem login_enters (live : w.sessions this = some s) (own : s.m_meetee0.bev = some b)
    (logsIn : login cfg this data w = .ok (0, w')) :
    ∃ t, w'.sessions this = some t ∧ t.Entered ∧ t.m_state = .login := by
  obtain ⟨card, _, accepted, _, rfl⟩ := login_zero live logsIn
  exact ⟨_, World.putSession_self, ⟨⟨⟨card, loginPackage_type accepted⟩, rfl⟩, b, own⟩, rfl⟩

/-- Two sessions that log in one after the other have both entered. -/
theorem logins_enter (live : w.sessions this = some s) (other : w.sessions se = some t)
    (distinct : this ≠ se) (own : s.m_meetee0.bev = some b) (own' : t.m_meetee0.bev = some q)
    (first : login cfg this data w = .ok (0, w₁)) (second : login cfg se data' w₁ = .ok (0, w₂)) :
    ∃ s t, w₂.sessions this = some s ∧ w₂.sessions se = some t ∧ s.Entered ∧ t.Entered ∧
      s.m_state = .login ∧ t.m_state = .login := by
  obtain ⟨s', atThis, entered, waits⟩ := login_enters live own first
  have stays : w₁.sessions se = some t := by
    obtain ⟨card, _, _, _, rfl⟩ := login_zero live first
    exact (Function.update_of_ne distinct.symm _ _).trans other
  obtain ⟨t', atSe, entered', waits'⟩ := login_enters stays own' second
  refine ⟨s', t', ?_, atSe, entered, entered', waits, waits'⟩
  obtain ⟨card, _, _, _, rfl⟩ := login_zero stays second
  exact (Function.update_of_ne distinct _ _).trans atThis

theorem followsGrammar_of_failure (live : w.sessions this = some s)
    (fails : login cfg this data w = .ok (-1, w)) (outside : ¬(s.m_state = .raw ∧ ∃ k, LoginPacket data k)) :
    FollowsGrammar cfg this s data w :=
  ⟨-1, w, fails, iff_of_false (by decide) outside, fun success => by contradiction, fun _ => live⟩

/-- Whenever memory for the card is found, `login` follows the grammar except on a
packet that comes after a NUL at the very beginning of the buffer. -/
theorem login_grammar_iff (cfg : Option Configure) (live : w.sessions this = some s) (nonempty : data ≠ [])
    (memory : w.env.outcome w.calls = true) :
    FollowsGrammar cfg this s data w ↔
      ¬(s.m_state = .raw ∧ data.head? = some 0 ∧ ∃ k, LoginPacket data k) := by
  by_cases raw : s.m_state = .raw
  · obtain ⟨found, returns⟩ := loginPackage_returns data
    cases found with
    | none =>
      have rejected : ¬(data.head? ≠ some 0 ∧ ∃ k, LoginPacket data k) := by
        rintro ⟨head, k, packet⟩
        have accepted := (loginPackage_eq_some_iff data _).mpr ⟨head, k, packet, rfl⟩
        rw [returns] at accepted
        cases accepted
      have fails : login cfg this data w = .ok (-1, w) := login_rejected live nonempty raw returns
      by_cases packet : ∃ k, LoginPacket data k
      · refine iff_of_false ?_ ?_
        · rintro ⟨ret, w', runs, accepts, _⟩
          obtain ⟨rfl, -⟩ := Prod.mk.inj (Except.ok.inj (fails.symm.trans runs))
          exact absurd (accepts.mpr ⟨raw, packet⟩) (by decide)
        · rw [not_not]
          exact ⟨raw, by_contra fun head => rejected ⟨head, packet⟩, packet⟩
      · exact iff_of_true (followsGrammar_of_failure live fails fun accepts => packet accepts.2)
          fun nul => packet nul.2.2
    | some card =>
      obtain ⟨head, k, packet, same⟩ := (loginPackage_eq_some_iff data card).mp returns
      have logsIn := login_accepted cfg live nonempty raw returns
      rw [if_pos memory] at logsIn
      refine iff_of_true ?_ fun nul => head nul.2.1
      refine ⟨0, _, logsIn, iff_of_true rfl ⟨raw, k, packet⟩, fun _ j packet' => ?_,
        fun failed => absurd rfl failed⟩
      obtain rfl := packet.unique packet'
      exact ⟨card, World.putSession_self, same ▸ cardAt_type packet, same ▸ cardAt_id data _⟩
  · exact iff_of_true
      (followsGrammar_of_failure live (login_not_raw live nonempty raw) fun accepts => raw accepts.1)
      fun nul => raw nul.1

def freshPair : World :=
  { World.init with sessions := fun p => ([7, 5] : List BevPtr)[p]?.map fun b =>
      { Session.new none p with m_meetee0 := ⟨some b, none⟩ } }

theorem login_grammar_iff_freshPair :
    ∃ s, freshPair.sessions 0 = some s ∧
      FollowsGrammar none 0 s (TelProxyLogin.packet 1 [65]) freshPair := by
  refine ⟨_, rfl, (login_grammar_iff none rfl (by decide) rfl).mpr ?_⟩
  rintro ⟨_, nul, _⟩
  exact absurd nul (by decide)

theorem loginPacket_behind_nul : LoginPacket (0 :: TelProxyLogin.packet 1 [65]) 1 where
  sync := first_at_one (by decide) (by decide)
  room := by decide
  type := by decide
  id := by decide

/-- The packet is the one of the grammar, and `login` does not find it. -/
theorem not_followsGrammar :
    ¬∀ w this s data, w.sessions this = some s → data ≠ [] → w.env.outcome w.calls = true →
      FollowsGrammar none this s data w := by
  intro follows
  obtain ⟨ret, w', runs, accepts, _⟩ :=
    follows freshPair 0 _ (0 :: TelProxyLogin.packet 1 [65]) rfl (by decide) rfl
  have returned : (login none 0 (0 :: TelProxyLogin.packet 1 [65]) freshPair).toOption.map Prod.fst =
      some (-1) := by decide +kernel
  rw [runs] at returned
  obtain rfl : ret = -1 := Option.some.inj returned
  exact absurd (accepts.mpr ⟨rfl, 1, loginPacket_behind_nul⟩) (by decide)

end Session
end RemoteServer
