import RemoteServer.Container
import RemoteServer.SessionProofs

/-! What the operations of `TcpContainer` return and leave behind. -/
namespace RemoteServer

variable {cfg : Option Configure} {w w' : World} {b q : BevPtr} {p se peer : SessionPtr}
  {s t : Session} {x y : Bufferevent}

namespace World

/-- `m_fsMap` loses the descriptor, unless it is not positive. -/
def forgetFd (w : World) (fd : Int) : World := if fd > 0 then w.eraseFd fd else w

/-- The store without one connection: index entries, session and bufferevent. -/
def dropConn (w : World) (b : BevPtr) (x : Bufferevent) (p : SessionPtr) : World :=
  (((w.forgetFd x.fd).dropBev b x).dropSession p).eraseKey b

@[simp] theorem forgetFd_bevs (w : World) (fd : Int) : (w.forgetFd fd).bevs = w.bevs := by
  unfold forgetFd; split <;> rfl

@[simp] theorem forgetFd_sessions (w : World) (fd : Int) :
    (w.forgetFd fd).sessions = w.sessions := by
  unfold forgetFd; split <;> rfl

@[simp] theorem forgetFd_bsMap (w : World) (fd : Int) :
    (w.forgetFd fd).m_bsMap = w.m_bsMap := by
  unfold forgetFd; split <;> rfl

@[simp] theorem forgetFd_nextSession (w : World) (fd : Int) :
    (w.forgetFd fd).nextSession = w.nextSession := by
  unfold forgetFd; split <;> rfl

@[simp] theorem forgetFd_freed (w : World) (fd : Int) : (w.forgetFd fd).freed = w.freed := by
  unfold forgetFd; split <;> rfl

@[simp] theorem dropConn_bevs (w : World) (b : BevPtr) (x : Bufferevent) (p : SessionPtr) :
    (w.dropConn b x p).bevs = Function.update w.bevs b none := by
  unfold dropConn forgetFd; split <;> rfl

@[simp] theorem dropConn_sessions (w : World) (b : BevPtr) (x : Bufferevent) (p : SessionPtr) :
    (w.dropConn b x p).sessions = Function.update w.sessions p none := by
  unfold dropConn forgetFd; split <;> rfl

@[simp] theorem dropConn_bsMap (w : World) (b : BevPtr) (x : Bufferevent) (p : SessionPtr) :
    (w.dropConn b x p).m_bsMap = w.m_bsMap.erase b := by
  simp [dropConn]

theorem dropConn_lookup (w : World) (b : BevPtr) (x : Bufferevent) (p : SessionPtr) (i : BevPtr) :
    (w.dropConn b x p).m_bsMap[i]? = if i = b then none else w.m_bsMap[i]? := by
  rw [dropConn_bsMap, Std.TreeMap.getElem?_erase]
  simp only [Nat.compare_eq_eq, eq_comm (a := b)]

@[simp] theorem dropConn_nextSession (w : World) (b : BevPtr) (x : Bufferevent)
    (p : SessionPtr) : (w.dropConn b x p).nextSession = w.nextSession := by
  simp [dropConn]

@[simp] theorem dropConn_reads (w : World) (b : BevPtr) (x : Bufferevent) (p : SessionPtr) :
    (w.dropConn b x p).reads = w.reads := by
  unfold dropConn forgetFd; split <;> rfl

@[simp] theorem dropConn_freed (w : World) (b : BevPtr) (x : Bufferevent) (p : SessionPtr) :
    (w.dropConn b x p).freed = w.freed ++ [(b, x)] := by
  simp [dropConn]

end World

namespace TcpContainer

theorem find_apply (b : BevPtr) (w : World) : find b w = .ok (w.m_bsMap[b]?, w) := rfl

theorem getPeer_apply (live : w.sessions se = some s) :
    getPeer (some se) w = .ok (s.m_meetee1.bev.bind fun bf => w.m_bsMap[bf]?, w) := by
  simp only [getPeer]
  rw [Exec.bind_ok (Session.getBev_peer live)]
  cases s.m_meetee1.bev <;> rfl

theorem eraseFd_apply (fd : Int) (w : World) : eraseFd fd w = .ok ((), w.forgetFd fd) := by
  unfold eraseFd World.forgetFd
  split <;> rfl

theorem insert_apply (se : SessionPtr) (fresh : w.m_bsMap[b]? = none) (live : w.bevs b = some x) :
    insert b se w = .ok (0, { w with
      m_bsMap := w.m_bsMap.insertIfNew b se, m_fsMap := w.m_fsMap.insertIfNew x.fd se }) := by
  have absent : w.m_bsMap.contains b = false := by
    rw [Std.TreeMap.contains_eq_isSome_getElem?, fresh, Option.isSome_none]
  simp only [insert, Exec.get_bind, absent, Bool.false_eq_true, if_false, Exec.modify_bind]
  rw [Exec.bind_ok (buffereventGetfd_apply (by simpa using live))]
  rfl

theorem matchLoop_fails (fails : ∀ it ∈ its, Session.match cfg se it.2 w = .ok (-1, w)) :
    matchLoop cfg se (-1) its w = .ok (-1, w) := by
  induction its with
  | nil => rfl
  | cons it rest ih =>
    rw [matchLoop, Exec.bind_ok (fails it List.mem_cons_self), if_neg (by decide)]
    exact ih fun other member => fails other (List.mem_cons_of_mem _ member)

/-- The loop stops at the first entry that `Session::match` binds. -/
theorem matchLoop_finds (fails : ∀ it ∈ before, Session.match cfg se it.2 w = .ok (-1, w))
    (binds : Session.match cfg se it.2 w = .ok (0, w')) (own : w'.sessions se = some s)
    (other : w'.sessions it.2 = some t) (ret : Int) :
    matchLoop cfg se ret (before ++ it :: after) w = .ok (0, w') := by
  induction before generalizing ret with
  | nil =>
    rw [List.nil_append, matchLoop, Exec.bind_ok binds, if_pos rfl,
      Exec.bind_ok (Session.dumpInfo_apply own), Exec.bind_ok (Session.dumpInfo_apply other)]
    rfl
  | cons first rest ih =>
    rw [List.cons_append, matchLoop, Exec.bind_ok (fails first List.mem_cons_self),
      if_neg (by decide)]
    exact ih (fun later member => fails later (List.mem_cons_of_mem _ member)) (-1)

theorem match_fails (fails : ∀ (b : BevPtr) (p : SessionPtr), w.m_bsMap[b]? = some p →
      Session.match cfg se p w = .ok (-1, w)) :
    TcpContainer.match cfg se w = .ok (-1, w) := by
  rw [TcpContainer.match, Exec.get_bind]
  apply matchLoop_fails
  rintro ⟨b, p⟩ member
  exact fails b p (Std.TreeMap.mem_toList_iff_getElem?_eq_some.mp member)

/-- Keys before `q` are tried first and fail; nothing after `q` is tried. -/
theorem match_finds (entry : w.m_bsMap[q]? = some peer)
    (fails : ∀ (b : BevPtr) (p : SessionPtr), b < q → w.m_bsMap[b]? = some p →
      Session.match cfg se p w = .ok (-1, w))
    (binds : Session.match cfg se peer w = .ok (0, w')) (own : w'.sessions se = some s)
    (other : w'.sessions peer = some t) :
    TcpContainer.match cfg se w = .ok (0, w') := by
  obtain ⟨before, after, split⟩ :=
    List.append_of_mem (Std.TreeMap.mem_toList_iff_getElem?_eq_some.mpr entry)
  have ordered := Std.TreeMap.ordered_keys_toList (t := w.m_bsMap)
  rw [split, List.pairwise_append] at ordered
  rw [TcpContainer.match, Exec.get_bind, split]
  refine matchLoop_finds ?_ binds own other (-1)
  rintro ⟨b, p⟩ member
  have below : b < q := by
    simpa [Nat.compare_eq_lt] using ordered.2.2 (b, p) member (q, peer) List.mem_cons_self
  apply fails b p below
  rw [← Std.TreeMap.mem_toList_iff_getElem?_eq_some, split]
  exact List.mem_append_left _ member

/-- What is left of `removeSession` once its own connection is gone. -/
def removePeer (peerBev : Option BevPtr) : Program Int := do
  match peerBev with
  | none => return 0
  | some peerBev =>
    eraseFd (← buffereventGetfd peerBev)
    match (← Exec.get).m_bsMap[peerBev]? with
    | none =>
      buffereventFree peerBev
      return 0
    | some se =>
      let _ ← Session.getUserData se 0 Session.uCardSize
      Session.delete se
      Exec.modify fun w => w.eraseKey peerBev
      return 0

theorem removeSession_first (entry : w.m_bsMap[b]? = some p) (live : w.sessions p = some s)
    (bev : w.bevs b = some x) (own : s.m_meetee0.bev = some b) :
    removeSession b w = removePeer s.m_meetee1.bev (w.dropConn b x p) := by
  simp only [removeSession]
  rw [Exec.bind_ok (buffereventGetfd_apply bev), Exec.bind_ok (eraseFd_apply _ _), Exec.get_bind]
  simp only [World.forgetFd_bsMap, entry]
  rw [Exec.bind_ok (Session.getBev_peer (by simpa using live)),
    Exec.bind_ok (Session.getUserData_own (by simpa using live)),
    Exec.bind_ok (Session.delete_apply (by simpa using live) own (by simpa using bev))]
  simp only [Exec.modify_bind]
  rfl

theorem removeSession_single (entry : w.m_bsMap[b]? = some p) (live : w.sessions p = some s)
    (bev : w.bevs b = some x) (own : s.m_meetee0.bev = some b) (single : s.m_meetee1.bev = none) :
    removeSession b w = .ok (0, w.dropConn b x p) := by
  rw [removeSession_first entry live bev own, single]
  rfl

theorem removeSession_pair (entry : w.m_bsMap[b]? = some p) (live : w.sessions p = some s)
    (bev : w.bevs b = some x) (own : s.m_meetee0.bev = some b) (linked : s.m_meetee1.bev = some q)
    (entry' : w.m_bsMap[q]? = some peer) (live' : w.sessions peer = some t)
    (bev' : w.bevs q = some y) (own' : t.m_meetee0.bev = some q) (apart : q ≠ b) (apart' : peer ≠ p) :
    removeSession b w = .ok (0, (w.dropConn b x p).dropConn q y peer) := by
  have restBev : (w.dropConn b x p).bevs q = some y := by
    rw [World.dropConn_bevs, Function.update_of_ne apart, bev']
  have restSession : (w.dropConn b x p).sessions peer = some t := by
    rw [World.dropConn_sessions, Function.update_of_ne apart', live']
  have restEntry : (w.dropConn b x p).m_bsMap[q]? = some peer := by
    rw [World.dropConn_lookup, if_neg apart, entry']
  rw [removeSession_first entry live bev own, linked]
  simp only [removePeer]
  rw [Exec.bind_ok (buffereventGetfd_apply restBev), Exec.bind_ok (eraseFd_apply _ _), Exec.get_bind]
  simp only [World.forgetFd_bsMap, restEntry]
  rw [Exec.bind_ok (Session.getUserData_own (by simpa using restSession)),
    Exec.bind_ok (Session.delete_apply (by simpa using restSession) own' (by simpa using restBev))]
  rfl

end TcpContainer
end RemoteServer
