import RemoteServer.Session

/-! `TcpContainer`: the index of sessions by bufferevent and by descriptor. -/
namespace RemoteServer
namespace TcpContainer

def find (bev : BevPtr) : Program (Option SessionPtr) := do
  return (← Exec.get).m_bsMap[bev]?

def findFd (fd : Int) : Program (Option SessionPtr) := do
  return (← Exec.get).m_fsMap[fd]?

def getPeer (se : Option SessionPtr) : Program (Option SessionPtr) := do
  match se with
  | none => return none
  | some se =>
    match ← Session.getBev se 1 with
    -- NULL is never a key of the map
    | none => return none
    | some bf => return (← Exec.get).m_bsMap[bf]?

def insert (bev : BevPtr) (se : SessionPtr) : Program Int := do
  let w ← Exec.get
  if w.m_bsMap.contains bev then return -1
  Exec.modify fun w => { w with m_bsMap := w.m_bsMap.insertIfNew bev se }
  let fd ← buffereventGetfd bev
  -- a failure here is logged and otherwise ignored
  Exec.modify fun w => { w with m_fsMap := w.m_fsMap.insertIfNew fd se }
  return 0

/-- The loop of `match` over the entries that are still to come. -/
def matchLoop (cfg : Option Configure) (se : SessionPtr) (ret : Int) :
    List (BevPtr × SessionPtr) → Program Int
  | [] => return ret
  | it :: rest => do
    let ret ← Session.match cfg se it.2
    if ret = 0 then
      Session.dumpInfo se
      Session.dumpInfo it.2
      return ret
    else matchLoop cfg se ret rest

/-- `if (fd > 0) m_fsMap.erase(fd)`. -/
def eraseFd (fd : Int) : Program Unit := do
  if fd > 0 then
    Exec.modify fun w => w.eraseFd fd

def removeSession (bev : BevPtr) : Program Int := do
  eraseFd (← buffereventGetfd bev)
  match (← Exec.get).m_bsMap[bev]? with
  | none =>
    buffereventFree bev
    return 0
  | some se =>
    let peerBev ← Session.getBev se 1
    let _ ← Session.getUserData se 0 Session.uCardSize
    Session.delete se
    Exec.modify fun w => w.eraseKey bev
    match peerBev with
    | none => return 0
    | some peerBev =>
      eraseFd (← buffereventGetfd peerBev)
      match (← Exec.get).m_bsMap[peerBev]? with
      | none =>
        buffereventFree peerBev
        return 0
      | some se =>
        let _ ← Session.getUserData se 0 Session.uCardSize
        Session.delete se
        Exec.modify fun w => w.eraseKey peerBev
        return 0

def deleteAll : List (BevPtr × SessionPtr) → Program Unit
  | [] => return ()
  | it :: rest => do
    Session.delete it.2
    deleteAll rest

def removeSessionAll : Program Unit := do
  deleteAll (← Exec.get).m_bsMap.toList
  Exec.modify fun w => { w with m_bsMap := ∅, m_fsMap := ∅ }

end TcpContainer

def TcpContainer.match (cfg : Option Configure) (se : SessionPtr) : Program Int := do
  TcpContainer.matchLoop cfg se (-1) (← Exec.get).m_bsMap.toList

end RemoteServer
