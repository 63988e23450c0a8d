/-! The configuration values the server reads while it runs. -/
namespace RemoteServer

/-- The public members of `Configure`. Strings are byte lists; an `int` member
never takes part in arithmetic, so it is an integer. -/
structure Configure where
  m_host : List UInt8
  m_loginTimeout : Int
  m_matchTimeout : Int
  m_activeTimeout : Int
  m_maxQps : Int
  m_maxConnect : Int

/-! The defaults. `Session` falls back on those of the timeouts when no
configuration is loaded. -/

def serverLoginTimeout : Int := 50
def serverMatchTimeout : Int := 360
def serverActiveTimeout : Int := 1800

/-- `"192.168.99.117"`. -/
def serverHost : List UInt8 :=
  ['1', '9', '2', '.', '1', '6', '8', '.', '9', '9', '.', '1', '1', '7'].map fun c => c.toNat.toUInt8

def serverMaxQps : Int := 100
def serverMaxConnect : Int := 100

/-- The members after a file that sets none of them. -/
def Configure.defaults : Configure where
  m_host := serverHost
  m_loginTimeout := serverLoginTimeout
  m_matchTimeout := serverMatchTimeout
  m_activeTimeout := serverActiveTimeout
  m_maxQps := serverMaxQps
  m_maxConnect := serverMaxConnect

def loginTimeout : Option Configure → Int
  | some cfg => cfg.m_loginTimeout
  | none => serverLoginTimeout

def matchTimeout : Option Configure → Int
  | some cfg => cfg.m_matchTimeout
  | none => serverMatchTimeout

def activeTimeout : Option Configure → Int
  | some cfg => cfg.m_activeTimeout
  | none => serverActiveTimeout

end RemoteServer
