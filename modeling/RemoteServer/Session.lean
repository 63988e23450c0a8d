import RemoteServer.Bufferevent
import RemoteServer.Configure
import RemoteServer.Session.Packet

/-! The methods of `Session`. Each runs on the session `this` points to. The
parameter `cfg` is what the parameterless `Configure::readConfigFile` returns. -/
namespace RemoteServer
open Bytes

namespace Session

def meetee (s : Session) (index : Int) : Meetee :=
  if index = 0 then s.m_meetee0 else s.m_meetee1

def setMeetee (s : Session) (index : Int) (m : Meetee) : Session :=
  if index = 0 then { s with m_meetee0 := m } else { s with m_meetee1 := m }

/-- `sizeof(UCard)`. -/
def uCardSize : Int := 68

/-- The constructor. -/
def new (cfg : Option Configure) (sid : Int) : Session where
  m_sid := sid
  m_inactive := 0
  m_timeouts := loginTimeout cfg
  m_state := .raw
  m_meetee0 := ⟨none, none⟩
  m_meetee1 := ⟨none, none⟩

/-- The destructor and the release of the object's storage: `delete this`. The
session owns its own bufferevent and not its peer's. -/
def delete (this : SessionPtr) : Program Unit := do
  let s ← derefSession this
  match s.m_meetee0.bev with
  | some b => buffereventFree b
  | none => pure ()
  Exec.modify fun w => w.dropSession this

def setBev (this : SessionPtr) (index : Int) (bev : Option BevPtr) : Program Int := do
  match bev with
  | none => return -1
  | some bev =>
    if index < 0 ∨ index ≥ 2 then return -1
    modifySession this fun s => s.setMeetee index { s.meetee index with bev := some bev }
    return 0

/-- `userData` is what the `len` bytes hold that are copied. The callers give a card and
`sizeof(UCard)`. -/
def setUserData (this : SessionPtr) (index : Int) (userData : Option UCard) (len : Int) :
    Program Int := do
  match userData with
  | none => return -1
  | some card =>
    if len ≤ 0 then return -1
    if index < 0 ∨ index ≥ 2 then return -1
    -- the old value is freed before the new one is known to have room
    modifySession this fun s => s.setMeetee index { s.meetee index with userData := none }
    if ← calloc then
      modifySession this fun s => s.setMeetee index { s.meetee index with userData := some card }
      return 0
    else return -1

def getBev (this : SessionPtr) (index : Int) : Program (Option BevPtr) := do
  if index < 0 ∨ index ≥ 2 then return none
  return ((← derefSession this).meetee index).bev

/-- `none` is the return value -1, which leaves the caller's buffer alone. The buffer is
a card, and `len` its size. -/
def getUserData (this : SessionPtr) (index : Int) (len : Int) : Program (Option UCard) := do
  if len ≤ 0 then return none
  if index < 0 ∨ index ≥ 2 then return none
  return ((← derefSession this).meetee index).userData

def getSessionState (this : SessionPtr) : Program SessionState := do
  return (← derefSession this).m_state

def inactive (this : SessionPtr) (interval : Int) : Program Int := do
  modifySession this fun s => { s with m_inactive := s.m_inactive + interval }
  let s ← derefSession this
  return if s.m_inactive ≥ s.m_timeouts then 1 else 0

/-- The log line aside, `dump_info` only reads the session. -/
def dumpInfo (this : SessionPtr) : Program Unit := do
  let _ ← derefSession this
  return ()

def login (cfg : Option Configure) (this : SessionPtr) (data : List UInt8) : Program Int := do
  if data.length = 0 then return -1
  if (← derefSession this).m_state = .raw then
    match ← Exec.lift (loginPackage data) with
    | none => return -1
    | some ucard =>
      let ret ← setUserData this 0 (some ucard) uCardSize
      if ret ≠ 0 then return -1
      modifySession this fun s => { s with m_state := .login, m_inactive := 0 }
      modifySession this fun s => { s with m_timeouts := matchTimeout cfg }
      dumpInfo this
      return 0
  else return -1

def matchDone (cfg : Option Configure) (this : SessionPtr) (bev : Option BevPtr)
    (card : Option UCard) : Program Int := do
  if bev = none ∨ card = none then return -1
  modifySession this fun s => { s with m_state := .bind }
  modifySession this fun s => { s with m_timeouts := activeTimeout cfg, m_inactive := 0 }
  let ret ← setBev this 1 bev
  if ret ≠ 0 then return -1
  let ret ← setUserData this 1 card uCardSize
  if ret ≠ 0 then return -1
  return 0

/-- The two tests of `Session::match` on the cards. -/
def compatible (myCard uCard : UCard) : Bool :=
  !((myCard.type = 1 ∧ uCard.type ≠ 2) ∨ (myCard.type = 2 ∧ uCard.type ≠ 1)) &&
    strncmp myCard.id uCard.id = 0

def business (this : SessionPtr) (data : List UInt8) : Program Int := do
  if data.length = 0 then return -1
  if (← derefSession this).m_state = .bind then
    modifySession this fun s => { s with m_inactive := 0 }
    match (← derefSession this).m_meetee1.bev with
    | none => return -1
    | some bev =>
      let ret ← buffereventWrite bev data
      return if ret ≠ 0 then -1 else ret
  else return -1

end Session

/-- `this->match(se)`; `se` may be `this` itself. -/
def Session.match (cfg : Option Configure) (this se : SessionPtr) : Program Int := do
  let state ← Session.getSessionState this
  let other ← Session.getSessionState se
  if state = .login ∧ other = .login then
    let myCard := (← derefSession this).m_meetee0.userData
    match ← Session.getUserData se 0 uCardSize with
    | none => return -1
    | some uCard =>
      match myCard with
      | none => Exec.throw .nullPointer
      | some card =>
        if !Session.compatible card uCard then return -1
        -- the two results are dropped, as in the source
        let _ ← Session.matchDone cfg this (← Session.getBev se 0) (some uCard)
        let _ ← Session.matchDone cfg se (← Session.getBev this 0) (some card)
        return 0
  else return -1

end RemoteServer
