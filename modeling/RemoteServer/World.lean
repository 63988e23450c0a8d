import RemoteServer.ConnectionManager
import RemoteServer.Lib.Bytes
import RemoteServer.Lib.Exec
import Mathlib.Logic.Function.Basic
import Mathlib.Tactic.Simps.Basic
import Std.Data.TreeMap.Lemmas

/-! The memory of the server process: the objects it allocates, the container's
two indexes, and what the event loop supplies to a callback. Nullable pointers
are `Option`; a pointer its caller has already tested is not. -/
namespace RemoteServer
open Bytes

abbrev BevPtr := Nat
abbrev SessionPtr := Nat

/-- The event loop keeps time in `struct timeval`, that is in microseconds. -/
abbrev Time := Nat

def seconds (n : Nat) : Time := n * 1000000

structure UCard where
  type : UInt32
  id : CharArray 64
  deriving DecidableEq

inductive SessionState where
  | err | raw | login | bind | die
  deriving DecidableEq

structure Meetee where
  bev : Option BevPtr
  userData : Option UCard
  deriving DecidableEq

/-- `m_meetee[0]` is the session's own side, `m_meetee[1]` its peer's. The source's `int`s
are unbounded here; what depends on their range asks for it. -/
structure Session where
  m_sid : Int
  m_inactive : Int
  m_timeouts : Int
  m_state : SessionState
  m_meetee0 : Meetee
  m_meetee1 : Meetee
  deriving DecidableEq

/-- A socket bufferevent. `sent` is what the socket has already taken from the
output buffer, `accepted` the time of its creation, and `timer` the last time
its read timeout started afresh. -/
structure Bufferevent where
  fd : Int
  input : List UInt8
  output : List UInt8
  sent : List UInt8
  readTimeout : Option Time
  timer : Time
  accepted : Time
  deriving DecidableEq

/-- Everything ever appended to the output buffer. -/
def Bufferevent.written (x : Bufferevent) : List UInt8 := x.sent ++ x.output

/-- A write queues its bytes, or fails and changes nothing. -/
def Bufferevent.append (x : Bufferevent) (success : Bool) (data : List UInt8) : Bufferevent :=
  if success then { x with output := x.output ++ data } else x

/-- What the event loop supplies to one callback: its clock, the wall clock that
`time(NULL)` reads, and the outcome of the callback's n-th fallible library
call (`calloc` or `bufferevent_write`). -/
structure Env where
  clock : Time
  time : Int
  outcome : Nat → Bool

def Env.Succeeds (env : Env) : Prop := ∀ n, env.outcome n = true

/-- A callback at the given time in which every library call succeeds. -/
def Env.ideal (clock : Time) : Env := ⟨clock, 0, fun _ => true⟩

theorem Env.ideal_succeeds (clock : Time) : (Env.ideal clock).Succeeds := fun _ => rfl

inductive Fault where
  | freedBufferevent (b : BevPtr)
  | freedSession (p : SessionPtr)
  | nullPointer
  | outOfBounds
  deriving DecidableEq

/-- The process state. An address is mapped to its object while the object is
live. `calls`, `reads`, `freed` and `sleeps` record the current callback: the
fallible calls made, the chunks `bufferevent_read` took, the bufferevents freed
(as they were then) and the pauses taken. `broken` is what `event_base_loopbreak` sets.
Like the numbers of the sessions, `m_sidCount` is an `int` in the source. -/
structure World where
  bevs : BevPtr → Option Bufferevent
  sessions : SessionPtr → Option Session
  nextSession : SessionPtr
  m_sidCount : Int
  m_bsMap : Std.TreeMap BevPtr SessionPtr
  m_fsMap : Std.TreeMap Int SessionPtr
  connManager : Option ConnectionManager
  env : Env
  calls : Nat
  reads : List (BevPtr × List UInt8)
  freed : List (BevPtr × Bufferevent)
  sleeps : List Nat
  broken : Bool

abbrev Program := Exec World Fault

namespace World

/-- The process before its first callback. -/
def init : World where
  bevs := fun _ => none
  sessions := fun _ => none
  nextSession := 0
  m_sidCount := 1
  m_bsMap := ∅
  m_fsMap := ∅
  connManager := none
  env := ⟨0, 0, fun _ => true⟩
  calls := 0
  reads := []
  freed := []
  sleeps := []
  broken := false

@[simps] def start (w : World) (env : Env) : World :=
  { w with env := env, calls := 0, reads := [], freed := [], sleeps := [] }

@[simps] def tick (w : World) : World := { w with calls := w.calls + 1 }

@[simps] def putSession (w : World) (p : SessionPtr) (s : Session) : World :=
  { w with sessions := Function.update w.sessions p (some s) }

@[simps] def dropSession (w : World) (p : SessionPtr) : World :=
  { w with sessions := Function.update w.sessions p none }

@[simps] def putBev (w : World) (b : BevPtr) (x : Bufferevent) : World :=
  { w with bevs := Function.update w.bevs b (some x) }

@[simps] def dropBev (w : World) (b : BevPtr) (x : Bufferevent) : World :=
  { w with bevs := Function.update w.bevs b none, freed := w.freed ++ [(b, x)] }

@[simps] def logRead (w : World) (b : BevPtr) (chunk : List UInt8) : World :=
  { w with reads := w.reads ++ [(b, chunk)] }

@[simps] def eraseKey (w : World) (b : BevPtr) : World :=
  { w with m_bsMap := w.m_bsMap.erase b }

@[simps] def eraseFd (w : World) (fd : Int) : World :=
  { w with m_fsMap := w.m_fsMap.erase fd }

/-- The session the container has for a bufferevent. -/
def sessionAt (w : World) (b : BevPtr) : Option Session := (w.m_bsMap[b]?).bind w.sessions

def stateOf (w : World) (b : BevPtr) : Option SessionState := (w.sessionAt b).map (·.m_state)

theorem mem_keys {w : World} {b : BevPtr} {p : SessionPtr} (entry : w.m_bsMap[b]? = some p) :
    b ∈ w.m_bsMap.keys := by
  rw [Std.TreeMap.mem_keys, Std.TreeMap.mem_iff_isSome_getElem?, entry, Option.isSome_some]

theorem mem_keys_of_stateOf {w : World} {b : BevPtr} {state : SessionState}
    (found : w.stateOf b = some state) : b ∈ w.m_bsMap.keys := by
  obtain ⟨s, session, _⟩ := Option.map_eq_some_iff.mp found
  obtain ⟨p, entry, _⟩ := Option.bind_eq_some_iff.mp session
  exact mem_keys entry

@[simp] theorem putSession_putSession (w : World) (p : SessionPtr) (s t : Session) :
    (w.putSession p s).putSession p t = w.putSession p t := by
  simp [putSession]

@[simp] theorem putBev_putBev (w : World) (b : BevPtr) (x y : Bufferevent) :
    (w.putBev b x).putBev b y = w.putBev b y := by
  simp [putBev]

theorem putSession_self {w : World} {p : SessionPtr} {s : Session} :
    (w.putSession p s).sessions p = some s := Function.update_self ..

theorem putBev_self {w : World} {b : BevPtr} {x : Bufferevent} :
    (w.putBev b x).bevs b = some x := Function.update_self ..

@[simp] theorem tick_putSession (w : World) (p : SessionPtr) (s : Session) :
    (w.putSession p s).tick = w.tick.putSession p s := rfl

@[simp] theorem tick_putBev (w : World) (b : BevPtr) (x : Bufferevent) :
    (w.putBev b x).tick = w.tick.putBev b x := rfl

end World

/-! Reads and writes through a pointer fault once the object is freed. -/

def derefSession (p : SessionPtr) : Program Session where
  run w := match w.sessions p with
    | some s => .ok (s, w)
    | none => .error (.freedSession p)

def modifySession (p : SessionPtr) (f : Session → Session) : Program Unit := do
  let s ← derefSession p
  Exec.modify fun w => w.putSession p (f s)

def derefBev (b : BevPtr) : Program Bufferevent where
  run w := match w.bevs b with
    | some x => .ok (x, w)
    | none => .error (.freedBufferevent b)

def modifyBev (b : BevPtr) (f : Bufferevent → Bufferevent) : Program Unit := do
  let x ← derefBev b
  Exec.modify fun w => w.putBev b (f x)

/-- The outcome of the next fallible library call. -/
def nextOutcome : Program Bool where
  run w := .ok (w.env.outcome w.calls, w.tick)

def calloc : Program Bool := nextOutcome

section Rules
variable {w : World} {p : SessionPtr} {s : Session} {b : BevPtr} {x : Bufferevent}

theorem derefSession_apply (h : w.sessions p = some s) : derefSession p w = .ok (s, w) := by
  simp only [derefSession, h]

theorem modifySession_apply (h : w.sessions p = some s) (f : Session → Session) :
    modifySession p f w = .ok ((), w.putSession p (f s)) := by
  rw [modifySession, Exec.bind_ok (derefSession_apply h)]
  rfl

theorem derefBev_apply (h : w.bevs b = some x) : derefBev b w = .ok (x, w) := by
  simp only [derefBev, h]

theorem modifyBev_apply (h : w.bevs b = some x) (f : Bufferevent → Bufferevent) :
    modifyBev b f w = .ok ((), w.putBev b (f x)) := by
  rw [modifyBev, Exec.bind_ok (derefBev_apply h)]
  rfl

end Rules
end RemoteServer
