/-! The counters behind the overload throttle. -/
namespace RemoteServer

/-- The members of `ConnectionManager` that a callback reads or writes. Its
`unsigned int` members wrap. -/
structure ConnectionManager where
  curTime : Int
  requestPerSecond : UInt32
  totalRequest : Int
  connections : UInt32

namespace ConnectionManager

/-- The private constructor, at the clock reading `time`. -/
def new (time : Int) : ConnectionManager :=
  { curTime := time, requestPerSecond := 0, totalRequest := 0, connections := 0 }

/-- `getInstance`: the one manager, made by the first caller. -/
def getInstance (connManager : Option ConnectionManager) (time : Int) : ConnectionManager :=
  connManager.getD (new time)

def updateRequestsPerSecond (m : ConnectionManager) (time : Int) : ConnectionManager :=
  if time > m.curTime then { m with requestPerSecond := 1, curTime := time }
  else { m with requestPerSecond := m.requestPerSecond + 1 }

def requestInc (m : ConnectionManager) (time : Int) : ConnectionManager :=
  let m := m.updateRequestsPerSecond time
  { m with totalRequest := m.totalRequest + 1 }

def getConnections (m : ConnectionManager) : UInt32 := m.connections

def getCurrentRequest (m : ConnectionManager) : UInt32 := m.requestPerSecond

def getTotalRequests (m : ConnectionManager) : Int := m.totalRequest

end ConnectionManager
end RemoteServer
