import RemoteServer.Container
import RemoteServer.Lib.Transition

/-! The callbacks the server registers with libevent, and the runs they make. -/
namespace RemoteServer
open Transition

def bevEventReading : BitVec 16 := 0x01
def bevEventWriting : BitVec 16 := 0x02
def bevEventEof : BitVec 16 := 0x10
def bevEventError : BitVec 16 := 0x20
def bevEventTimeout : BitVec 16 := 0x40

/-- `events & flag`, as a condition. -/
def has (events flag : BitVec 16) : Bool := events &&& flag ≠ 0

/-- Both ends of a new pair are told. -/
def announce (se : SessionPtr) : Program Unit := do
  let bf0 ← Session.getBev se 0
  let bf1 ← Session.getBev se 1
  match bf0, bf1 with
  | some bf0, some bf1 =>
    let _ ← buffereventWrite bf0 telproxyOk
    let _ ← buffereventWrite bf1 telproxyOk
    return ()
  | _, _ => return ()

/-- What `processMessage` does with the data it has read. -/
def dispatch (cfg : Option Configure) (se : SessionPtr) (data : List UInt8) : Program Int := do
  match ← Session.getSessionState se with
  | .raw =>
    let ret ← Session.login cfg se data
    if ret = 0 then
      let ret ← TcpContainer.match cfg se
      if ret = 0 then announce se
    return 0
  | .bind =>
    let _ ← Session.business se data
    return 0
  | .login | .die | .err => return 0

/-- `TcpServerMsgHandler::processMessage`. -/
def handleMessage (cfg : Option Configure) (bev : BevPtr) : Program Int := do
  match ← TcpContainer.find bev with
  | none => return -1
  | some se =>
    let data ← buffereventRead bev 4096
    if data.length = 0 then return -1
    dispatch cfg se data

/-- The condition under which `TcpServer::processMessage` pauses. -/
def overloaded (cfg : Option Configure) (m : ConnectionManager) : Bool :=
  match cfg with
  | none => false
  | some cfg =>
    let conn := m.getConnections.toInt32.toInt
    let reqPer := m.getCurrentRequest.toInt32.toInt
    (cfg.m_maxConnect ≠ -1 && conn ≥ cfg.m_maxConnect) ||
      (cfg.m_maxQps ≠ -1 && reqPer ≥ cfg.m_maxQps)

/-- `TcpServer::processMessage`. -/
def processMessage (cfg : Option Configure) (bev : BevPtr) : Program Int := do
  let w ← Exec.get
  let cmg := (ConnectionManager.getInstance w.connManager w.env.time).requestInc w.env.time
  Exec.modify fun w => { w with connManager := some cmg }
  if overloaded cfg cmg then
    Exec.modify fun w => { w with sleeps := w.sleeps ++ [10] }
  handleMessage cfg bev

def connReadcb (cfg : Option Configure) (bev : BevPtr) : Program Unit := do
  if (← inputLength bev) = 0 then
    buffereventFree bev
  let _ ← processMessage cfg bev
  return ()

/-- The `close` branch of `conn_eventcb`, once the log lines are written. -/
def closeConnection (bev : BevPtr) (se : SessionPtr) (peerSe : Option SessionPtr) : Program Unit := do
  Session.dumpInfo se
  match peerSe with
  | some peerSe => Session.dumpInfo peerSe
  | none => pure ()
  let _ ← TcpContainer.removeSession bev
  return ()

/-- The idle test of the timeout branch: either session can veto the close, the
connection's own after 40 more seconds. -/
def timedOut (se : SessionPtr) (peerSe : Option SessionPtr) : Program Bool := do
  let own ← Session.inactive se 40
  match peerSe with
  | some peerSe =>
    let peer ← Session.inactive peerSe 0
    return own ≠ 0 && peer ≠ 0
  | none => return own ≠ 0

def connEventcb (bev : BevPtr) (events : BitVec 16) : Program Unit := do
  if has events bevEventEof || has events bevEventError || has events bevEventTimeout then
    let se ← TcpContainer.find bev
    let peerSe ← TcpContainer.getPeer se
    match se with
    | none => buffereventFree bev
    | some se =>
      let _ ← Session.getUserData se 0 Session.uCardSize
      if has events bevEventEof then closeConnection bev se peerSe
      else if has events bevEventError then closeConnection bev se peerSe
      else
        let close ← timedOut se peerSe
        -- the source tests events | BEV_EVENT_READING and events | BEV_EVENT_WRITING
        if events ||| bevEventReading ≠ 0 then buffereventEnable bev evRead
        if events ||| bevEventWriting ≠ 0 then buffereventEnable bev evWrite
        if close then closeConnection bev se peerSe

/-- `new Session()`. -/
def newSession (cfg : Option Configure) : Program SessionPtr := do
  let w ← Exec.get
  Exec.modify fun w => { w.putSession w.nextSession (Session.new cfg w.m_sidCount) with
    nextSession := w.nextSession + 1, m_sidCount := w.m_sidCount + 1 }
  return w.nextSession

/-- `bev` is what `bufferevent_socket_new` returned for the accepted `fd`. -/
def listenerCb (cfg : Option Configure) (bev : Option BevPtr) (fd : Int) : Program Unit := do
  match bev with
  | none => eventBaseLoopbreak
  | some bev =>
    buffereventSocketNew bev fd
    let se ← newSession cfg
    let _ ← Session.setBev se 0 (some bev)
    let ret ← TcpContainer.insert bev se
    if ret ≠ 0 then
      Session.delete se
      return ()
    buffereventSetTimeouts bev (seconds 40)
    buffereventEnable bev (evWrite ||| evRead)
    match cfg with
    | none => return ()
    | some cfg =>
      let _ ← buffereventWrite bev cfg.m_host
      return ()

/-- What the event loop does next: a callback of the server, or progress of a
write that no callback is registered for. -/
inductive Event where
  | listenerCb (bev : Option BevPtr) (fd : Int)
  | connReadcb (bev : BevPtr) (chunk : List UInt8)
  | connEventcb (bev : BevPtr) (events : BitVec 16)
  | writeProgress (bev : BevPtr) (n : Nat)

namespace Event

/-- The bufferevent of the connection the event is about. -/
def bev : Event → Option BevPtr
  | .listenerCb bev _ => bev
  | .connReadcb bev _ | .connEventcb bev _ | .writeProgress bev _ => some bev

def accepts (event : Event) (b : BevPtr) : Bool :=
  match event with
  | .listenerCb bev _ => bev = some b
  | _ => false

def readsFrom (event : Event) (b : BevPtr) : Bool :=
  match event with
  | .connReadcb bev _ => bev = b
  | _ => false

/-- The listener breaks the loop. -/
def breaks : Event → Bool
  | .listenerCb none _ => true
  | _ => false

theorem accepts_iff {event : Event} : event.accepts b ↔ ∃ fd, event = .listenerCb (some b) fd := by
  cases event <;> simp [accepts]

theorem readsFrom_iff {event : Event} : event.readsFrom b ↔ ∃ chunk, event = .connReadcb b chunk := by
  cases event <;> simp [readsFrom]

end Event

structure Label where
  event : Event
  env : Env

def Event.run (cfg : Option Configure) : Event → Program Unit
  | .listenerCb bev fd => RemoteServer.listenerCb cfg bev fd
  | .connReadcb bev chunk => do
    arrive bev chunk
    RemoteServer.connReadcb cfg bev
  | .connEventcb bev events => RemoteServer.connEventcb bev events
  | .writeProgress bev n => drain bev n

/-- What the event loop guarantees: a new bufferevent lies at an address no live
one has, and the other callbacks are for a live bufferevent, the read callback
only when data has arrived. -/
def Event.Admissible (w : World) : Event → Prop
  | .listenerCb bev _ => ∀ b, bev = some b → w.bevs b = none
  | .connReadcb bev chunk => (w.bevs bev).isSome ∧ chunk ≠ []
  | .connEventcb bev _ => (w.bevs bev).isSome
  | .writeProgress bev _ => (w.bevs bev).isSome

instance (w : World) : (event : Event) → Decidable (event.Admissible w)
  | .listenerCb none _ => .isTrue fun _ impossible => nomatch impossible
  | .listenerCb (some b) _ => decidable_of_iff (w.bevs b = none) (by simp [Event.Admissible])
  | .connReadcb b chunk => inferInstanceAs (Decidable ((w.bevs b).isSome ∧ chunk ≠ []))
  | .connEventcb b _ => inferInstanceAs (Decidable ((w.bevs b).isSome = true))
  | .writeProgress b _ => inferInstanceAs (Decidable ((w.bevs b).isSome = true))

def exec (cfg : Option Configure) (label : Label) (w : World) : Except Fault (Unit × World) :=
  label.event.run cfg (w.start label.env)

/-- One callback of the server, whether or not a loop is there to raise it. -/
def Step (cfg : Option Configure) (w : World) (label : Label) (w' : World) : Prop :=
  label.event.Admissible w ∧ exec cfg label w = .ok ((), w')

/-- A callback that the event loop raises: once broken it raises none. -/
def LoopStep (cfg : Option Configure) (w : World) (label : Label) (w' : World) : Prop :=
  w.broken = false ∧ Step cfg w label w'

/-- Runs the callbacks in turn, as long as the event loop may raise them. -/
def replay (cfg : Option Configure) : List Label → World → Option World
  | [], w => some w
  | label :: rest, w =>
    if label.event.Admissible w then
      match exec cfg label w with
      | .ok (_, w') => replay cfg rest w'
      | .error _ => none
    else none

/-- The state in which a schedule leaves the server. -/
def World.after (cfg : Option Configure) (labels : List Label) : World :=
  (replay cfg labels World.init).getD World.init

/-- The history a monitor records along a schedule. -/
def historyOf (monitor : Monitor World Label H) (cfg : Option Configure) : List Label → World → H → H
  | [], _, history => history
  | label :: rest, w, history =>
    match exec cfg label w with
    | .ok (_, w') => historyOf monitor cfg rest w' (monitor w label w' history)
    | .error _ => history

theorem recorded_of_replay (monitor : Monitor World Label H) (history : H)
    (replayed : replay cfg labels w = some w') :
    Run (monitor.step (Step cfg)) (w, history) labels (w', historyOf monitor cfg labels w history) := by
  induction labels generalizing w history with
  | nil =>
    obtain rfl := Option.some.inj replayed
    exact .refl
  | cons label rest ih =>
    simp only [replay] at replayed
    split at replayed
    · rename_i admissible
      split at replayed
      · rename_i first runs
        simp only [historyOf, runs]
        exact (Run.single ⟨⟨admissible, runs⟩, rfl⟩).trans (ih _ replayed)
      · contradiction
    · contradiction

theorem recorded_after (monitor : Monitor World Label H) (cfg : Option Configure) (labels : List Label)
    (history : H) (replays : (replay cfg labels World.init).isSome) :
    Run (monitor.step (Step cfg)) (World.init, history) labels
      (World.after cfg labels, historyOf monitor cfg labels World.init history) := by
  obtain ⟨w, replayed⟩ := Option.isSome_iff_exists.mp replays
  rw [World.after, replayed]
  exact recorded_of_replay monitor history replayed

theorem run_after (cfg : Option Configure) (labels : List Label)
    (replays : (replay cfg labels World.init).isSome) :
    Run (Step cfg) World.init labels (World.after cfg labels) :=
  Monitor.forget (fun _ _ _ history => history) (recorded_after _ cfg labels () replays)

abbrev Label.Succeeds (label : Label) : Prop := label.env.Succeeds

end RemoteServer
