import RemoteServer.Refinement.Read

/-! The event callback and the listener refine the relay. -/
namespace RemoteServer
open PartialMap

variable {cfg : Option Configure} {w w' : World} {v : Relay} {b q : BevPtr} {p peer : SessionPtr}
  {c t : Conn} {card u : Card} {R : Phase → Phase → Prop}

/-- The two ways in which `removeSession` ends for a connection that is there. -/
inductive World.Removes (w : World) (v : Relay) (b : BevPtr) (c : Conn) (p : SessionPtr) : World → Prop where
  | single : c.phase.peer = none → Removes w v b c p (w.dropConn b c.line p)
  | pair {q : BevPtr} {t : Conn} {peer : SessionPtr} : c.phase.peer = some q → q ≠ b → v q = some t →
      w.m_bsMap[q]? = some peer → peer ≠ p →
      Removes w v b c p ((w.dropConn b c.line p).dropConn q t.line peer)

/-- A bufferevent just accepted. -/
def Bufferevent.fresh (fd : Int) (clock : Time) : Bufferevent where
  fd := fd
  input := []
  output := []
  sent := []
  readTimeout := none
  timer := clock
  accepted := clock

/-- The state in which the listener has entered an accepted connection in the container. -/
def World.entered (w : World) (cfg : Option Configure) (b : BevPtr) (fd : Int) : World :=
  { (w.putBev b (.fresh fd w.env.clock)).putSession w.nextSession
      { Session.new cfg w.m_sidCount with m_meetee0 := ⟨some b, none⟩ } with
    nextSession := w.nextSession + 1
    m_sidCount := w.m_sidCount + 1
    m_bsMap := w.m_bsMap.insertIfNew b w.nextSession
    m_fsMap := w.m_fsMap.insertIfNew fd w.nextSession }

namespace Represents

theorem removes (r : Represents cfg w v) (paired : v.Paired R) (present : v b = some c)
    (entry : w.m_bsMap[b]? = some p) :
    ∃ w', TcpContainer.removeSession b w = .ok (0, w') ∧ w.Removes v b c p w' := by
  obtain ⟨live, bev⟩ := r.lookup present entry
  cases linked : c.phase.peer with
  | none => exact ⟨_, TcpContainer.removeSession_single entry live bev rfl linked, .single linked⟩
  | some q =>
    obtain ⟨apart, t, partner, _⟩ := paired b c q present linked
    obtain ⟨peer, entry', live', bev'⟩ := r.entry partner
    have distinct : peer ≠ p := by
      rintro rfl
      exact apart (r.key_unique entry' entry)
    exact ⟨_, TcpContainer.removeSession_pair entry live bev rfl linked entry' live' bev' rfl apart distinct,
      .pair linked apart partner entry' distinct⟩

theorem removed (r : Represents cfg w v) (present : v b = some c) (entry : w.m_bsMap[b]? = some p)
    (removes : w.Removes v b c p w') :
    Represents cfg w' (v.remove b) ∧ w'.reads = w.reads ∧ w'.freed = w.freed ++ v.lines b := by
  have dropped := r.dropConn present entry
  cases removes with
  | single linked =>
    refine ⟨?_, by simp, ?_⟩
    · simpa only [Relay.remove, PartialMap.remove, present, Option.bind_some, linked] using dropped
    · simp only [World.dropConn_freed, Relay.lines, present, linked]
  | @pair q t peer linked apart partner entry' =>
    have partner₁ : Function.update v b none q = some t := by
      rw [Function.update_of_ne apart, partner]
    have entry₁ : (w.dropConn b c.line p).m_bsMap[q]? = some peer := by
      rw [World.dropConn_lookup, if_neg apart, entry']
    refine ⟨?_, by simp, ?_⟩
    · simpa only [Relay.remove, PartialMap.remove, present, Option.bind_some, linked] using
        dropped.dropConn partner₁ entry₁
    · simp only [World.dropConn_freed, Relay.lines, present, linked, partner, List.append_assoc]
      rfl

theorem removeSession (r : Represents cfg w v) (paired : v.Paired R) (present : v b = some c) :
    ∃ w', TcpContainer.removeSession b w = .ok (0, w') ∧ Represents cfg w' (v.remove b) ∧
      w'.reads = w.reads ∧ w'.freed = w.freed ++ v.lines b := by
  obtain ⟨p, entry, _⟩ := r.entry present
  obtain ⟨w', runs, removes⟩ := r.removes paired present entry
  exact ⟨w', runs, r.removed present entry removes⟩

/-- The peer `getPeer` finds is a live session. -/
theorem peer_live (r : Represents cfg w v) (paired : v.Paired R) (present : v b = some c)
    (linked : c.phase.peer = some q) :
    ∃ t peer, q ≠ b ∧ v q = some t ∧ w.m_bsMap[q]? = some peer ∧
      w.sessions peer = some (t.session cfg q) := by
  obtain ⟨apart, t, partner, _⟩ := paired b c q present linked
  obtain ⟨peer, entry, live, _⟩ := r.entry partner
  exact ⟨t, peer, apart, partner, entry, live⟩

/-- A close takes the connection and its peer out. -/
theorem closeConnection_removes (r : Represents cfg w v) (paired : v.Paired R) (present : v b = some c)
    (entry : w.m_bsMap[b]? = some p) :
    ∃ w', RemoteServer.closeConnection b p (c.phase.peer.bind fun q => w.m_bsMap[q]?) w = .ok ((), w') ∧
      w.Removes v b c p w' := by
  obtain ⟨w', runs, removes⟩ := r.removes paired present entry
  refine ⟨w', ?_, removes⟩
  rw [RemoteServer.closeConnection, Exec.bind_ok (Session.dumpInfo_apply (r.lookup present entry).1)]
  cases linked : c.phase.peer with
  | none =>
    simp only [Option.bind_none]
    rw [Exec.bind_ok runs]
    rfl
  | some q =>
    obtain ⟨t, peer, _, _, entry', live'⟩ := r.peer_live paired present linked
    simp only [Option.bind_some, entry']
    rw [Exec.bind_ok (Session.dumpInfo_apply live'), Exec.bind_ok runs]
    rfl

theorem closeConnection (r : Represents cfg w v) (paired : v.Paired R) (present : v b = some c)
    (entry : w.m_bsMap[b]? = some p) :
    ∃ w', RemoteServer.closeConnection b p (c.phase.peer.bind fun q => w.m_bsMap[q]?) w = .ok ((), w') ∧
      Represents cfg w' (v.remove b) ∧ w'.reads = w.reads ∧ w'.freed = w.freed ++ v.lines b := by
  obtain ⟨w', closes, removes⟩ := r.closeConnection_removes paired present entry
  exact ⟨w', closes, r.removed present entry removes⟩

/-- The idle test answers what the relay's does, and counts forty seconds. -/
theorem timedOut (r : Represents cfg w v) (paired : v.Paired R) (present : v b = some c)
    (entry : w.m_bsMap[b]? = some p) :
    ∃ w', RemoteServer.timedOut p (c.phase.peer.bind fun q => w.m_bsMap[q]?) w =
        .ok (decide (Relay.TimedOut cfg (modify v b (Conn.inactive w.env)) b), w') ∧
      Represents cfg w' (modify v b fun c => { c with idle := c.idle + 40 }) ∧ w.After 0 w' := by
  have live := (r.lookup present entry).1
  have aged := r.putSession present entry (fun c => { c with idle := c.idle + 40 }) rfl
  have test := Relay.timedOut_inactive_iff paired present cfg w.env
  simp only [RemoteServer.timedOut]
  rw [Exec.bind_ok (Session.inactive_apply live 40)]
  cases linked : c.phase.peer with
  | none =>
    refine ⟨_, ?_, aged, ⟨rfl, rfl, rfl, rfl, rfl⟩⟩
    have decides : Relay.TimedOut cfg (modify v b (Conn.inactive w.env)) b ↔
        c.phase.limit cfg ≤ c.idle + 40 := by
      rw [test, linked]
      simp
    by_cases expired : c.phase.limit cfg ≤ c.idle + 40
    · simp [decides, expired, Conn.session]
    · simp [decides, expired, Conn.session]
  | some q =>
    obtain ⟨t, peer, apart, partner, entry', live'⟩ := r.peer_live paired present linked
    have distinct : peer ≠ p := by
      rintro rfl
      exact apart (r.key_unique entry' entry)
    have stays : (w.putSession p { c.session cfg b with
        m_inactive := (c.session cfg b).m_inactive + 40 }).sessions peer = some (t.session cfg q) := by
      rw [World.putSession_sessions, Function.update_of_ne distinct, live']
    have peek := Session.inactive_apply stays 0
    rw [Int.add_zero] at peek
    have same := aged.putSession ((modify_of_ne apart v _).trans partner) entry' id rfl
    rw [modify_id] at same
    simp only [Option.bind_some, entry']
    rw [Exec.bind_ok peek]
    refine ⟨_, ?_, same, ⟨rfl, rfl, rfl, rfl, rfl⟩⟩
    have decides : Relay.TimedOut cfg (modify v b (Conn.inactive w.env)) b ↔
        c.phase.limit cfg ≤ c.idle + 40 ∧ t.phase.limit cfg ≤ t.idle := by
      rw [test, linked]
      apply and_congr_right
      intro _
      constructor
      · exact fun expired => expired q t rfl partner
      · intro expired q' t' toQ found
        obtain rfl := Option.some.inj toQ
        obtain rfl := Option.some.inj (partner.symm.trans found)
        exact expired
    by_cases own : c.phase.limit cfg ≤ c.idle + 40
    · by_cases other : t.phase.limit cfg ≤ t.idle
      · simp [decides, own, other, Conn.session]
      · simp [decides, own, other, Conn.session]
    · simp [decides, own, Conn.session]

theorem or_reading (events : BitVec 16) : events ||| bevEventReading ≠ 0 := by
  intro zero
  simpa [bevEventReading] using congrArg (fun x : BitVec 16 => x.getLsbD 0) zero

theorem or_writing (events : BitVec 16) : events ||| bevEventWriting ≠ 0 := by
  intro zero
  simpa [bevEventWriting] using congrArg (fun x : BitVec 16 => x.getLsbD 1) zero

/-- After the idle test both directions are enabled again, whatever the mask. -/
theorem rearm (r : Represents cfg w v) (present : v b = some c) :
    ∃ w₁ w₂, buffereventEnable b evRead w = .ok ((), w₁) ∧
      buffereventEnable b evWrite w₁ = .ok ((), w₂) ∧
      Represents cfg w₂ (modify v b fun c => { c with line := { c.line with timer := w.env.clock } }) ∧
      w.After 0 w₂ := by
  obtain ⟨p, entry, live, bev⟩ := r.entry present
  let x : Bufferevent := { c.line with timer := w.env.clock }
  have again : buffereventEnable b evWrite (w.putBev b x) = .ok ((), (w.putBev b x).putBev b x) :=
    buffereventEnable_apply World.putBev_self evWrite
  rw [World.putBev_putBev] at again
  have armed :=
    r.putBev present (fun c => { c with line := { c.line with timer := w.env.clock } }) rfl
  exact ⟨_, _, buffereventEnable_apply bev evRead, again, armed, ⟨rfl, rfl, rfl, rfl, rfl⟩⟩

/-- What the timeout branch does before it closes: the idle time of the connection,
and of it alone, is counted. -/
theorem ages (r : Represents cfg w v) (paired : v.Paired R) (present : v b = some c)
    (entry : w.m_bsMap[b]? = some p) :
    ∃ w₁ w₂ w₃, RemoteServer.timedOut p (c.phase.peer.bind fun q => w.m_bsMap[q]?) w =
        .ok (decide (Relay.TimedOut cfg (modify v b (Conn.inactive w.env)) b), w₁) ∧
      buffereventEnable b evRead w₁ = .ok ((), w₂) ∧ buffereventEnable b evWrite w₂ = .ok ((), w₃) ∧
      Represents cfg w₃ (modify v b (Conn.inactive w.env)) ∧ w.After 0 w₃ := by
  obtain ⟨w₁, tests, r₁, after₁⟩ := r.timedOut paired present entry
  obtain ⟨w₂, w₃, enablesRead, enablesWrite, r₃, after₃⟩ := r₁.rearm (modify_present present _)
  refine ⟨w₁, w₂, w₃, tests, enablesRead, enablesWrite, ?_, after₁.trans after₃⟩
  rw [modify_modify, after₁.env] at r₃
  exact r₃

/-- What `conn_eventcb` does once the session and its peer are looked up. -/
theorem handles (r : Represents cfg w v) (present : v b = some c)
    (entry : w.m_bsMap[b]? = some p) (events : BitVec 16)
    (called : Relay.closes events = true ∨ has events bevEventTimeout = true) :
    RemoteServer.connEventcb b events w =
      (if Relay.closes events then
        RemoteServer.closeConnection b p (c.phase.peer.bind fun q => w.m_bsMap[q]?)
      else do
        let close ← RemoteServer.timedOut p (c.phase.peer.bind fun q => w.m_bsMap[q]?)
        buffereventEnable b evRead
        buffereventEnable b evWrite
        if close then
          RemoteServer.closeConnection b p (c.phase.peer.bind fun q => w.m_bsMap[q]?)) w := by
  have live := (r.lookup present entry).1
  have entered : (has events bevEventEof || has events bevEventError || has events bevEventTimeout) = true := by
    simpa [Relay.closes] using called
  simp only [RemoteServer.connEventcb]
  rw [if_pos entered, Exec.bind_ok (TcpContainer.find_apply b w), entry,
    Exec.bind_ok (TcpContainer.getPeer_apply live)]
  simp only
  rw [Exec.bind_ok (Session.getUserData_own live)]
  simp only [if_pos (or_reading events), if_pos (or_writing events)]
  by_cases eof : has events bevEventEof = true
  · rw [if_pos eof, if_pos (show Relay.closes events = true by rw [Relay.closes, eof, Bool.true_or])]
    rfl
  · by_cases error : has events bevEventError = true
    · rw [if_neg eof, if_pos error,
        if_pos (show Relay.closes events = true by rw [Relay.closes, error, Bool.or_true])]
      rfl
    · rw [if_neg eof, if_neg error,
        if_neg (show ¬Relay.closes events = true by simp [Relay.closes, eof, error])]
      rfl

theorem connEventcb (r : Represents cfg w v) (paired : v.Paired R) (present : v b = some c)
    (events : BitVec 16) :
    ∃ w', RemoteServer.connEventcb b events w = .ok ((), w') ∧
      Represents cfg w' (v.event cfg w.env b events) ∧ w'.reads = w.reads ∧
      w'.freed = w.freed ++ v.frees cfg ⟨.connEventcb b events, w.env⟩ := by
  obtain ⟨p, entry, _, _⟩ := r.entry present
  by_cases closes : Relay.closes events = true
  · rw [r.handles present entry events (.inl closes), if_pos closes]
    simp only [Relay.event, Relay.frees, if_pos closes]
    exact r.closeConnection paired present entry
  by_cases timeout : has events bevEventTimeout = true
  · rw [r.handles present entry events (.inr timeout), if_neg closes]
    simp only [Relay.event, Relay.frees, if_neg closes, if_pos timeout]
    obtain ⟨_, _, w₃, tests, enablesRead, enablesWrite, aged, after⟩ := r.ages paired present entry
    rw [Exec.bind_ok tests, Exec.bind_ok enablesRead, Exec.bind_ok enablesWrite]
    by_cases expired : Relay.TimedOut cfg (modify v b (Conn.inactive w.env)) b
    · rw [if_pos (decide_eq_true expired), if_pos expired, if_pos expired, ← after.bsMap, ← after.reads,
        ← after.freed]
      have closed := aged.closeConnection (paired.modify _ fun _ => rfl)
        (modify_present present (Conn.inactive w.env)) (after.bsMap ▸ entry)
      exact closed
    · rw [if_neg (by simpa using expired), if_neg expired, if_neg expired, List.append_nil]
      exact ⟨w₃, rfl, aged, after.reads, after.freed⟩
  · refine ⟨w, ?_, ?_, rfl, ?_⟩
    · simp only [RemoteServer.connEventcb]
      rw [if_neg]
      · rfl
      · simpa [Relay.closes, timeout] using closes
    · simpa only [Relay.event, if_neg closes, if_neg timeout] using r
    · simp only [Relay.frees, if_neg closes, if_neg timeout, List.append_nil]

theorem newSession_apply (cfg : Option Configure) (w : World) :
    newSession cfg w = .ok (w.nextSession,
      { w.putSession w.nextSession (Session.new cfg w.m_sidCount) with
        nextSession := w.nextSession + 1, m_sidCount := w.m_sidCount + 1 }) := rfl

theorem listenerCb_entered (absent : w.m_bsMap[b]? = none) (fd : Int) :
    RemoteServer.listenerCb cfg (some b) fd w = (do
      buffereventSetTimeouts b (seconds 40)
      buffereventEnable b (evWrite ||| evRead)
      match cfg with
      | none => return ()
      | some cfg =>
        let _ ← buffereventWrite b cfg.m_host
        return ()) (w.entered cfg b fd) := by
  let w₁ := w.putBev b (.fresh fd w.env.clock)
  let w₂ : World := { w₁.putSession w.nextSession (Session.new cfg w.m_sidCount) with
    nextSession := w.nextSession + 1, m_sidCount := w.m_sidCount + 1 }
  let w₃ := w₂.putSession w.nextSession
    { Session.new cfg w.m_sidCount with m_meetee0 := ⟨some b, none⟩ }
  have creates : newSession cfg w₁ = .ok (w.nextSession, w₂) := newSession_apply cfg w₁
  have owns : Session.setBev w.nextSession 0 (some b) w₂ = .ok (0, w₃) :=
    Session.setBev_own World.putSession_self
  have inserts := TcpContainer.insert_apply w.nextSession (show w₃.m_bsMap[b]? = none from absent)
    (show w₃.bevs b = some (.fresh fd w.env.clock) from World.putBev_self)
  have twice : w₃.sessions = (w.entered cfg b fd).sessions := Function.update_idem ..
  have after : { w₃ with
      m_bsMap := w₃.m_bsMap.insertIfNew b w.nextSession,
      m_fsMap := w₃.m_fsMap.insertIfNew fd w.nextSession } = w.entered cfg b fd := by
    rw [twice]
    rfl
  simp only [RemoteServer.listenerCb]
  rw [Exec.bind_ok (show buffereventSocketNew b fd w = .ok ((), w₁) from rfl), Exec.bind_ok creates,
    Exec.bind_ok owns, Exec.bind_ok inserts, if_neg (by decide)]
  exact congrArg _ after

/-- An accepted connection starts raw, with the banner queued if the write succeeds. -/
theorem listenerCb (r : Represents cfg w v) (start : w.calls = 0) (free : w.bevs b = none) (fd : Int) :
    ∃ w', RemoteServer.listenerCb cfg (some b) fd w = .ok ((), w') ∧
      Represents cfg w' (Function.update v b (some (Conn.fresh cfg w.env w.m_sidCount fd))) ∧
      w'.reads = w.reads ∧ w'.freed = w.freed := by
  have absent := r.free_iff.mp free
  rw [listenerCb_entered (r.absent absent)]
  let x : Bufferevent := .fresh fd w.env.clock
  let y : Bufferevent := { x with readTimeout := some (seconds 40) }
  let w₄ := w.entered cfg b fd
  have limits : buffereventSetTimeouts b (seconds 40) w₄ = .ok ((), w₄.putBev b y) :=
    buffereventSetTimeouts_apply (show w₄.bevs b = some x from World.putBev_self (w := w)) _
  have enables : buffereventEnable b (evWrite ||| evRead) (w₄.putBev b y) =
      .ok ((), (w₄.putBev b y).putBev b y) :=
    buffereventEnable_apply World.putBev_self _
  rw [World.putBev_putBev] at enables
  rw [Exec.bind_ok limits, Exec.bind_ok enables]
  have accepted (line : Bufferevent) (w' : World)
      (bevs : w'.bevs = Function.update w.bevs b (some line)) (sessions : w'.sessions = w₄.sessions)
      (bsMap : w'.m_bsMap = w₄.m_bsMap) (next : w'.nextSession = w.nextSession + 1) :
      Represents cfg w' (Function.update v b (some ⟨w.m_sidCount, .raw, 0, line⟩)) :=
    r.insert absent bevs sessions bsMap next
  cases cfg with
  | none =>
    refine ⟨_, rfl, ?_, rfl, rfl⟩
    have r' := accepted y (w₄.putBev b y) (Function.update_idem ..) rfl rfl rfl
    simpa only [Conn.fresh, Conn.banner, ite_self, y, x, Bufferevent.fresh] using r'
  | some cfg =>
    have writes := buffereventWrite_apply (show (w₄.putBev b y).bevs b = some y from World.putBev_self)
      cfg.m_host
    rw [show (w₄.putBev b y).calls = 0 from start] at writes
    simp only
    rw [Exec.bind_ok writes]
    refine ⟨_, rfl, ?_, rfl, rfl⟩
    have bevs : Function.update (Function.update (Function.update w.bevs b (some x)) b (some y)) b
        (some (y.append (w.env.outcome 0) cfg.m_host)) =
        Function.update w.bevs b (some (y.append (w.env.outcome 0) cfg.m_host)) := by
      rw [Function.update_idem, Function.update_idem]
    have conn : Conn.fresh (some cfg) w.env w.m_sidCount fd =
        ⟨w.m_sidCount, .raw, 0, y.append (w.env.outcome 0) cfg.m_host⟩ := by
      cases success : w.env.outcome 0 <;> simp [Bufferevent.append, Bufferevent.fresh, Conn.fresh, Conn.banner, success, y, x]
    rw [conn]
    exact accepted _ _ bevs rfl rfl rfl

end Represents
end RemoteServer
