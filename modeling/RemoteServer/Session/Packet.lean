import RemoteServer.World

/-! The login packet: the sync search and the packed `TelProxyLogin` layout. -/
namespace RemoteServer
open Bytes

/-- `"remote-login"`. -/
def telproxySyn : List UInt8 :=
  ['r', 'e', 'm', 'o', 't', 'e', '-', 'l', 'o', 'g', 'i', 'n'].map fun c => c.toNat.toUInt8

/-- `"telnet-ok"`. -/
def telproxyOk : List UInt8 :=
  ['t', 'e', 'l', 'n', 'e', 't', '-', 'o', 'k'].map fun c => c.toNat.toUInt8

def readByte (buf : List UInt8) (i : Nat) : Except Fault UInt8 :=
  match buf[i]? with
  | some byte => .ok byte
  | none => .error .outOfBounds

/-- `memcmp(buf + p, substr, n) == 0`. -/
def memcmpEq (buf : List UInt8) (p : Nat) (substr : List UInt8) (n : Nat) : Except Fault Bool :=
  if p + n ≤ buf.length ∧ n ≤ substr.length then
    .ok ((buf.drop p).take n == substr.take n)
  else .error .outOfBounds

/-- The `while (p < pend)` loop of `strnstr`, with `rounds = pend - p`. -/
def strnstrLoop (src substr : List UInt8) (substrLen : Nat) : Nat → Nat → Except Fault (Option Nat)
  | 0, _ => .ok none
  | rounds + 1, p => do
    let ch ← readByte src p
    let first ← readByte substr 0
    if ch = first then
      if ← memcmpEq src p substr substrLen then return some p
    strnstrLoop src substr substrLen rounds (p + 1)

/-- The search of `session.h`: the offset of the match, if there is one. The
first byte of the buffer is tested for NUL before anything else. -/
def strnstr (src : List UInt8) (srcLen : Int) (substr : List UInt8) (substrLen : Nat) :
    Except Fault (Option Nat) := do
  if (← readByte src 0) = 0 then return none
  if (← readByte substr 0) = 0 then return none
  if srcLen ≤ 0 then return none
  -- pend = src + src_len - substr_len, which may lie before src
  strnstrLoop src substr substrLen (srcLen - substrLen).toNat 0

structure TelProxyLogin where
  sync : CharArray 12
  len : CharArray 4
  type : CharArray 4
  id : CharArray 64

def telProxyLoginSize : Nat := 84

/-- `memcpy(&package, sync, sizeof(TelProxyLogin))` from the bytes at `sync`. -/
def TelProxyLogin.memcpy (bytes : List UInt8) (h : telProxyLoginSize ≤ bytes.length) :
    TelProxyLogin where
  sync := ⟨bytes.take 12, by simp only [List.length_take, telProxyLoginSize] at *; omega⟩
  len := ⟨(bytes.drop 12).take 4, by
    simp only [List.length_take, List.length_drop, telProxyLoginSize] at *; omega⟩
  type := ⟨(bytes.drop 16).take 4, by
    simp only [List.length_take, List.length_drop, telProxyLoginSize] at *; omega⟩
  id := ⟨(bytes.drop 20).take 64, by
    simp only [List.length_take, List.length_drop, telProxyLoginSize] at *; omega⟩

/-- The value of four bytes in network order. -/
def ntohl (bytes : CharArray 4) : UInt32 :=
  UInt32.ofNat (bytes.val.foldl (fun value byte => value * 256 + byte.toNat) 0)

/-- The bytes of a login packet for an id of at most 64 bytes, as a client sends
them; the `len` field is not used. -/
def TelProxyLogin.packet (type : UInt8) (id : List UInt8) : List UInt8 :=
  telproxySyn ++ [0, 0, 0, 0] ++ [0, 0, 0, type] ++ id ++ List.replicate (64 - id.length) 0

/-- `id[sizeof(id) - 1] = '\0'`. -/
def terminate (id : CharArray 64) : CharArray 64 :=
  ⟨id.val.set 63 0, by rw [List.length_set]; exact id.property⟩

/-- The part of `Session::login` between its state test and its first write: the
card of the packet found in `data`, or `none` where the function returns -1. -/
def loginPackage (data : List UInt8) : Except Fault (Option UCard) := do
  if data.length < telProxyLoginSize then return none
  match ← strnstr data data.length telproxySyn telproxySyn.length with
  | none => return none
  | some sync =>
    if h : telProxyLoginSize ≤ (data.drop sync).length then
      let package := TelProxyLogin.memcpy (data.drop sync) h
      let type := ntohl package.type
      if type ≠ 1 ∧ type ≠ 2 then return none
      let id := terminate package.id
      if id.val.head? = some 0 then return none
      return some { type, id := strncpy 64 id.val }
    else return none

end RemoteServer
