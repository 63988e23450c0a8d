import RemoteServer.ContainerProofs
import RemoteServer.RelayProofs

/-! `Represents` says that the heap and the index hold exactly the connections of
a relay, and each kind of write to them is an update of the relay. -/
namespace RemoteServer
open PartialMap

/-- Keys of `m_bsMap` and live bufferevents are the connections, its values and
the live sessions are their session objects, one each. -/
structure Represents (cfg : Option Configure) (w : World) (v : Relay) : Prop where
  entry : ∀ {b c}, v b = some c → ∃ p : SessionPtr, w.m_bsMap[b]? = some p ∧
    w.sessions p = some (c.session cfg b) ∧ w.bevs b = some c.line
  key : ∀ {b : BevPtr} {p : SessionPtr}, w.m_bsMap[b]? = some p → ∃ c, v b = some c
  bev : ∀ {b x}, w.bevs b = some x → ∃ c, v b = some c
  session : ∀ {p s}, w.sessions p = some s → ∃ b : BevPtr, w.m_bsMap[b]? = some p
  fresh : ∀ {p s}, w.sessions p = some s → p < w.nextSession

namespace Represents
variable {cfg : Option Configure} {w w' : World} {v : Relay} {b q : BevPtr} {p peer : SessionPtr}
  {c t : Conn} {card u : Card}

theorem init : Represents cfg World.init (fun _ => none) where
  entry present := by contradiction
  key entry := by simp [World.init] at entry
  bev live := by contradiction
  session live := by contradiction
  fresh live := by contradiction

/-- Only the heap and the index by bufferevent matter. -/
theorem congr (r : Represents cfg w v) (bevs : w'.bevs = w.bevs) (sessions : w'.sessions = w.sessions)
    (bsMap : w'.m_bsMap = w.m_bsMap) (next : w'.nextSession = w.nextSession) :
    Represents cfg w' v where
  entry := by rw [bevs, sessions, bsMap]; exact r.entry
  key := by rw [bsMap]; exact r.key
  bev := by rw [bevs]; exact r.bev
  session := by rw [sessions, bsMap]; exact r.session
  fresh := by rw [sessions, next]; exact r.fresh

theorem lookup (r : Represents cfg w v) (present : v b = some c) (entry : w.m_bsMap[b]? = some p) :
    w.sessions p = some (c.session cfg b) ∧ w.bevs b = some c.line := by
  obtain ⟨p', entry', live, bev⟩ := r.entry present
  obtain rfl := Option.some.inj (entry.symm.trans entry')
  exact ⟨live, bev⟩

/-- A session is reached through one key only. -/
theorem key_unique (r : Represents cfg w v) (first : w.m_bsMap[b]? = some p)
    (second : w.m_bsMap[q]? = some p) : b = q := by
  obtain ⟨c, present⟩ := r.key first
  obtain ⟨t, present'⟩ := r.key second
  have same := (r.lookup present first).1.symm.trans (r.lookup present' second).1
  have own := congrArg (fun s => s.map fun s : Session => s.m_meetee0.bev) same
  exact Option.some.inj (Option.some.inj own)

theorem absent (r : Represents cfg w v) (free : v b = none) : w.m_bsMap[b]? = none := by
  by_contra entry
  obtain ⟨p, entry⟩ := Option.ne_none_iff_exists'.mp entry
  obtain ⟨c, present⟩ := r.key entry
  rw [free] at present
  contradiction

theorem sessionAt (r : Represents cfg w v) (b : BevPtr) :
    w.sessionAt b = (v b).map (Conn.session cfg b) := by
  cases present : v b with
  | none => rw [World.sessionAt, r.absent present, Option.bind_none, Option.map_none]
  | some c =>
    obtain ⟨p, entry, live, _⟩ := r.entry present
    rw [World.sessionAt, entry, Option.bind_some, live, Option.map_some]

theorem stateOf (r : Represents cfg w v) (b : BevPtr) : w.stateOf b = v.state b := by
  rw [World.stateOf, r.sessionAt, Option.map_map]
  rfl

theorem mem_iff (r : Represents cfg w v) : b ∈ w.m_bsMap ↔ (v b).isSome := by
  rw [Std.TreeMap.mem_iff_isSome_getElem?, Option.isSome_iff_exists, Option.isSome_iff_exists]
  constructor
  · rintro ⟨p, entry⟩
    exact r.key entry
  · rintro ⟨c, present⟩
    obtain ⟨p, entry, _⟩ := r.entry present
    exact ⟨p, entry⟩

theorem live_iff (r : Represents cfg w v) : (w.bevs b).isSome ↔ (v b).isSome := by
  rw [Option.isSome_iff_exists, Option.isSome_iff_exists]
  constructor
  · rintro ⟨x, live⟩
    exact r.bev live
  · rintro ⟨c, present⟩
    obtain ⟨p, _, _, bev⟩ := r.entry present
    exact ⟨_, bev⟩

theorem free_iff (r : Represents cfg w v) : w.bevs b = none ↔ v b = none := by
  rw [← Option.not_isSome_iff_eq_none, ← Option.not_isSome_iff_eq_none, r.live_iff]

theorem bevs (r : Represents cfg w v) (b : BevPtr) : w.bevs b = (v b).map (·.line) := by
  cases present : v b with
  | none => rw [r.free_iff.mpr present, Option.map_none]
  | some c =>
    obtain ⟨_, _, _, bev⟩ := r.entry present
    rw [bev, Option.map_some]

/-- A write to the session object. -/
theorem putSession (r : Represents cfg w v) (present : v b = some c)
    (entry : w.m_bsMap[b]? = some p) (f : Conn → Conn) (line : (f c).line = c.line) :
    Represents cfg (w.putSession p ((f c).session cfg b)) (modify v b f) where
  entry := by
    intro i d found
    obtain ⟨old, before, rfl⟩ := modify_eq_some found
    by_cases here : i = b
    · subst i
      obtain rfl := Option.some.inj (present.symm.trans before)
      rw [if_pos rfl, line]
      exact ⟨p, entry, World.putSession_self, (r.lookup present entry).2⟩
    · obtain ⟨p', entry', live, bev⟩ := r.entry before
      have other : p' ≠ p := by
        rintro rfl
        exact here (r.key_unique entry' entry)
      refine ⟨p', entry', ?_, ?_⟩
      · rw [World.putSession_sessions, Function.update_of_ne other, if_neg here, live]
      · rw [if_neg here]
        exact bev
  key := by
    intro i p' found
    rw [← Option.isSome_iff_exists, modify_isSome, Option.isSome_iff_exists]
    exact r.key found
  bev := by
    intro i x found
    rw [← Option.isSome_iff_exists, modify_isSome, Option.isSome_iff_exists]
    exact r.bev found
  session := by
    intro p' s found
    by_cases here : p' = p
    · exact ⟨b, here ▸ entry⟩
    · rw [World.putSession_sessions, Function.update_of_ne here] at found
      exact r.session found
  fresh := by
    intro p' s found
    by_cases here : p' = p
    · subst here
      exact r.fresh (r.lookup present entry).1
    · rw [World.putSession_sessions, Function.update_of_ne here] at found
      exact r.fresh found

/-- A write to the bufferevent. -/
theorem putBev (r : Represents cfg w v) (present : v b = some c) (f : Conn → Conn)
    (same : (f c).session cfg b = c.session cfg b) :
    Represents cfg (w.putBev b (f c).line) (modify v b f) where
  entry := by
    intro i d found
    obtain ⟨old, before, rfl⟩ := modify_eq_some found
    obtain ⟨p', entry, live, bev⟩ := r.entry before
    by_cases here : i = b
    · subst i
      obtain rfl := Option.some.inj (present.symm.trans before)
      rw [if_pos rfl, same]
      exact ⟨p', entry, live, World.putBev_self⟩
    · rw [if_neg here]
      refine ⟨p', entry, live, ?_⟩
      rw [World.putBev_bevs, Function.update_of_ne here, bev]
  key := by
    intro i p' found
    rw [← Option.isSome_iff_exists, modify_isSome, Option.isSome_iff_exists]
    exact r.key found
  bev := by
    intro i x found
    rw [← Option.isSome_iff_exists, modify_isSome, Option.isSome_iff_exists]
    by_cases here : i = b
    · exact ⟨c, here ▸ present⟩
    · rw [World.putBev_bevs, Function.update_of_ne here] at found
      exact r.bev found
  session := r.session
  fresh := r.fresh

/-- The removal of one connection. -/
theorem dropConn (r : Represents cfg w v) (present : v b = some c)
    (entry : w.m_bsMap[b]? = some p) :
    Represents cfg (w.dropConn b c.line p) (Function.update v b none) where
  entry := by
    intro i d found
    have other : i ≠ b := by
      rintro rfl
      rw [Function.update_self] at found
      contradiction
    rw [Function.update_of_ne other] at found
    obtain ⟨p', entry', live, bev⟩ := r.entry found
    have apart : p' ≠ p := by
      rintro rfl
      exact other (r.key_unique entry' entry)
    refine ⟨p', ?_, ?_, ?_⟩
    · rw [World.dropConn_bsMap, Std.TreeMap.getElem?_erase, if_neg, entry']
      simpa [Nat.compare_eq_eq] using other.symm
    · rw [World.dropConn_sessions, Function.update_of_ne apart, live]
    · rw [World.dropConn_bevs, Function.update_of_ne other, bev]
  key := by
    intro i p' found
    rw [World.dropConn_bsMap, Std.TreeMap.getElem?_erase] at found
    split at found
    · contradiction
    · rename_i kept
      have other : i ≠ b := by
        rintro rfl
        exact kept (by simp)
      rw [Function.update_of_ne other]
      exact r.key found
  bev := by
    intro i x found
    rw [World.dropConn_bevs] at found
    by_cases here : i = b
    · rw [here, Function.update_self] at found
      contradiction
    · rw [Function.update_of_ne here] at found ⊢
      exact r.bev found
  session := by
    intro p' s found
    rw [World.dropConn_sessions] at found
    by_cases here : p' = p
    · rw [here, Function.update_self] at found
      contradiction
    · rw [Function.update_of_ne here] at found
      obtain ⟨i, entry'⟩ := r.session found
      refine ⟨i, ?_⟩
      have other : b ≠ i := by
        rintro rfl
        exact here (Option.some.inj (entry'.symm.trans entry))
      rw [World.dropConn_bsMap, Std.TreeMap.getElem?_erase, if_neg, entry']
      simpa [Nat.compare_eq_eq] using other
  fresh := by
    intro p' s found
    rw [World.dropConn_sessions] at found
    by_cases here : p' = p
    · rw [here, Function.update_self] at found
      contradiction
    · rw [Function.update_of_ne here] at found
      rw [World.dropConn_nextSession]
      exact r.fresh found

/-- A new connection, with its session at the next free address. -/
theorem insert (r : Represents cfg w v) (free : v b = none)
    (bevs : w'.bevs = Function.update w.bevs b (some c.line))
    (sessions : w'.sessions = Function.update w.sessions w.nextSession (some (c.session cfg b)))
    (bsMap : w'.m_bsMap = w.m_bsMap.insertIfNew b w.nextSession)
    (next : w'.nextSession = w.nextSession + 1) :
    Represents cfg w' (Function.update v b (some c)) := by
  have lookups (i : BevPtr) :
      w'.m_bsMap[i]? = if i = b then some w.nextSession else w.m_bsMap[i]? := by
    have unused : b ∉ w.m_bsMap := by
      rw [Std.TreeMap.mem_iff_isSome_getElem?, r.absent free]
      decide
    rw [bsMap, Std.TreeMap.getElem?_insertIfNew]
    simp only [unused, not_false_eq_true, and_true, Nat.compare_eq_eq, eq_comm (a := b)]
  have apart {i : BevPtr} {d : Conn} {p : SessionPtr} (found : v i = some d)
      (entry : w.m_bsMap[i]? = some p) : p ≠ w.nextSession :=
    Nat.ne_of_lt (r.fresh (r.lookup found entry).1)
  constructor
  · intro i d found
    by_cases here : i = b
    · subst i
      rw [Function.update_self, Option.some.injEq] at found
      subst found
      refine ⟨w.nextSession, ?_, ?_, ?_⟩
      · rw [lookups, if_pos rfl]
      · rw [sessions, Function.update_self]
      · rw [bevs, Function.update_self]
    · rw [Function.update_of_ne here] at found
      obtain ⟨p, entry, live, bev⟩ := r.entry found
      refine ⟨p, ?_, ?_, ?_⟩
      · rw [lookups, if_neg here, entry]
      · rw [sessions, Function.update_of_ne (apart found entry), live]
      · rw [bevs, Function.update_of_ne here, bev]
  · intro i p found
    by_cases here : i = b
    · exact ⟨c, by rw [here, Function.update_self]⟩
    · rw [lookups, if_neg here] at found
      rw [Function.update_of_ne here]
      exact r.key found
  · intro i x found
    by_cases here : i = b
    · exact ⟨c, by rw [here, Function.update_self]⟩
    · rw [bevs, Function.update_of_ne here] at found
      rw [Function.update_of_ne here]
      exact r.bev found
  · intro p s found
    by_cases here : p = w.nextSession
    · exact ⟨b, by rw [lookups, if_pos rfl, here]⟩
    · rw [sessions, Function.update_of_ne here] at found
      obtain ⟨i, entry⟩ := r.session found
      have other : i ≠ b := by
        rintro rfl
        rw [r.absent free] at entry
        contradiction
      exact ⟨i, by rw [lookups, if_neg other, entry]⟩
  · intro p s found
    rw [next]
    by_cases here : p = w.nextSession
    · exact here ▸ Nat.lt_succ_self _
    · rw [sessions, Function.update_of_ne here] at found
      exact Nat.lt_succ_of_lt (r.fresh found)

end Represents
end RemoteServer
