import Mathlib.Logic.Function.Basic
import RemoteServer.Configure
import RemoteServer.Lib.Bytes
import RemoteServer.Lib.Decimal
import RemoteServer.Lib.InputStream
import RemoteServer.Lib.Loop
import RemoteServer.Lib.StdString

/-! The loader of the configuration file. What may loop for ever is computed by fuel. -/
namespace RemoteServer
open StdString

/-- The bytes of an ASCII literal. -/
def chars (s : String) : List UInt8 := s.toList.map fun c => c.toNat.toUInt8

/-- `m_info`. Reading a key it does not have enters the empty string. -/
abbrev Info := List UInt8 → Option (List UInt8)

namespace Info

def put (m_info : Info) (key value : List UInt8) : Info := Function.update m_info key (some value)

def get (m_info : Info) (key : String) : List UInt8 := (m_info (chars key)).getD []

def touch (m_info : Info) (key : String) : Info :=
  if (m_info (chars key)).isSome then m_info else m_info.put (chars key) []

end Info

/-- A `Configure` with all its members. -/
structure Configuration extends Configure where
  m_staticPort : UInt16
  m_sleepMill : Int
  m_loglevel : Int
  m_info : Info

namespace Configure

/-- The keys the constructor enters, and what it enters. -/
def serverDefaults : List (String × String) :=
  [("host", "192.168.99.117"), ("static_port", "50000"), ("login_timeout", "50"),
    ("match_timeout", "360"), ("active_timeout", "1800"), ("max_qps", "100"), ("max_connect", "100"),
    ("sleep_mill", "200"), ("log_level", "3")]

def new : Info :=
  serverDefaults.foldl (fun m_info entry => m_info.put (chars entry.1) (chars entry.2)) fun _ => none

def toInt (val : List UInt8) : Int := Decimal.atoi (Bytes.cstr val)

/-- The conversion to `unsigned short`. -/
def toShort (val : List UInt8) : UInt16 := UInt16.ofInt (toInt val)

def initMember (m_info : Info) : Configuration where
  m_host := m_info.get "host"
  m_staticPort := toShort (m_info.get "static_port")
  m_loginTimeout := toInt (m_info.get "login_timeout")
  m_matchTimeout := toInt (m_info.get "match_timeout")
  m_activeTimeout := toInt (m_info.get "active_timeout")
  m_maxQps := toInt (m_info.get "max_qps")
  m_maxConnect := toInt (m_info.get "max_connect")
  m_sleepMill := toInt (m_info.get "sleep_mill")
  m_loglevel := toInt (m_info.get "log_level")
  m_info := (serverDefaults.map Prod.fst).foldl Info.touch m_info

/-- The characters that `repaceTab` turns into spaces: tab, backspace, vertical tab
and carriage return. -/
def isTab (b : UInt8) : Bool := b = 9 || b = 8 || b = 11 || b = 13

def space : UInt8 := 32

/-- The body of the loop of `repaceTab`, and its `i++`. -/
def repaceChar : UInt32 × List UInt8 → UInt32 × List UInt8
  | (i, str) => (i + 1, if isTab (str.getD i.toNat 0) then str.set i.toNat space else str)

/-- The index is an `unsigned int`, the length is not. -/
def repaceTab (str : List UInt8) (fuel : Nat) : Option (List UInt8) :=
  (Loop.run (fun s => s.1.toNat < s.2.length) (fun _ s => some (repaceChar s)) fuel (0, str)).map Prod.snd

def trim (str : List UInt8) : List UInt8 :=
  let str := erase str (next (findLastNotOf space str)) npos
  erase str 0 (findFirstNotOf space str)

def readCommonConfig (m_info : Info) (line : List UInt8) : Info :=
  let index := findFirstOf space line
  let key := substr line 0 index
  let value := substr line (next index) npos
  m_info.put (trim key) (trim value)

/-- The stream and the map as the loop of `readConfigFile` finds them. -/
structure Reading where
  ios : InputStream
  m_info : Info

def readLine (fuel : Nat) (r : Reading) : Option Reading :=
  let (line, ios) := r.ios.getline
  (repaceTab line fuel).map fun line => ⟨ios, readCommonConfig r.m_info line⟩

def readLines (r : Reading) (fuel : Nat) : Option Reading :=
  Loop.run (fun r : Reading => !r.ios.eofbit) readLine fuel r

end Configure

abbrev ConfigurePtr := Nat

/-- What opening a path gives: the bytes, and how they end. -/
abbrev FileSystem := List UInt8 → Option (List UInt8 × InputStream.Ending)

/-- The static members of `Configure`, and the objects allocated. -/
structure Statics where
  m_cfg : Option ConfigurePtr
  m_confFilePath : List UInt8
  objects : ConfigurePtr → Option Configuration
  nextObject : ConfigurePtr

namespace Statics

/-- The process before the first call. -/
def init : Statics where
  m_cfg := none
  m_confFilePath := []
  objects := fun _ => none
  nextObject := 0

def load (statics : Statics) (cfg : Configuration) : Statics where
  m_cfg := some statics.nextObject
  m_confFilePath := statics.m_confFilePath
  objects := Function.update statics.objects statics.nextObject (some cfg)
  nextObject := statics.nextObject + 1

theorem load_self (statics : Statics) (cfg : Configuration) :
    (statics.load cfg).objects statics.nextObject = some cfg := Function.update_self ..

end Statics

/-- `Configure::readConfigFile(filePath)`: the object it returns. -/
def readConfigFile (files : FileSystem) (filePath : List UInt8) (statics : Statics) (fuel : Nat) :
    Option (ConfigurePtr × Statics) :=
  match statics.m_cfg with
  | some cfg => some (cfg, statics)
  | none =>
    match files filePath with
    | none => some (statics.nextObject, statics.load (Configure.initMember Configure.new))
    | some (bytes, ending) =>
      (Configure.readLines ⟨.start bytes ending, Configure.new⟩ fuel).map fun r =>
        (statics.nextObject,
          { statics.load (Configure.initMember r.m_info) with m_confFilePath := filePath })

end RemoteServer
