import RemoteServer.World

/-! The part of libevent the server calls, as `event2/bufferevent.h` documents
it: buffers that grow and drain, a read timeout that starts afresh when data
arrives or the bufferevent is enabled, and `bufferevent_free`, which discards
whatever the socket has not yet taken. -/
namespace RemoteServer

def evRead : BitVec 16 := 0x02
def evWrite : BitVec 16 := 0x04

/-- `bufferevent_socket_new` for the address the allocator returned. -/
def buffereventSocketNew (b : BevPtr) (fd : Int) : Program Unit :=
  Exec.modify fun w => w.putBev b
    { fd, input := [], output := [], sent := [], readTimeout := none,
      timer := w.env.clock, accepted := w.env.clock }

def buffereventGetfd (b : BevPtr) : Program Int := do
  return (← derefBev b).fd

/-- `evbuffer_get_length(bufferevent_get_input(b))`. -/
def inputLength (b : BevPtr) : Program Nat := do
  return (← derefBev b).input.length

def buffereventWrite (b : BevPtr) (data : List UInt8) : Program Int := do
  let x ← derefBev b
  if ← nextOutcome then
    modifyBev b fun _ => { x with output := x.output ++ data }
    return 0
  else return -1

/-- Takes at most `size` bytes off the front of the input buffer. -/
def buffereventRead (b : BevPtr) (size : Nat) : Program (List UInt8) := do
  let x ← derefBev b
  modifyBev b fun _ => { x with input := x.input.drop size }
  Exec.modify fun w => w.logRead b (x.input.take size)
  return x.input.take size

def buffereventFree (b : BevPtr) : Program Unit := do
  let x ← derefBev b
  Exec.modify fun w => w.dropBev b x

def buffereventSetTimeouts (b : BevPtr) (timeoutRead : Time) : Program Unit := do
  let w ← Exec.get
  modifyBev b fun x => { x with readTimeout := some timeoutRead, timer := w.env.clock }

def buffereventEnable (b : BevPtr) (event : BitVec 16) : Program Unit := do
  let w ← Exec.get
  modifyBev b fun x => if event &&& evRead ≠ 0 then { x with timer := w.env.clock } else x

/-- The loop ends once the callback that is running returns. -/
def eventBaseLoopbreak : Program Unit := Exec.modify fun w => { w with broken := true }

/-! What libevent does on its own between two calls of the server. -/

/-- Bytes read from the socket reach the input buffer. -/
def arrive (b : BevPtr) (chunk : List UInt8) : Program Unit := do
  let w ← Exec.get
  modifyBev b fun x => { x with input := x.input ++ chunk, timer := w.env.clock }

/-- The socket takes up to `n` bytes of the output buffer. -/
def drain (b : BevPtr) (n : Nat) : Program Unit :=
  modifyBev b fun x => { x with sent := x.sent ++ x.output.take n, output := x.output.drop n }

end RemoteServer
