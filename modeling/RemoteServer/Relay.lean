import RemoteServer.Server
import RemoteServer.Session.PacketProofs
import RemoteServer.Lib.PartialMap
import Mathlib.Order.Bounds.Basic
import Mathlib.Order.Nat

/-! What the server is for, without heap, indexes or pointers to sessions: a map
from connections to their phase, idle time and buffers. A phase carries exactly
what a session in it has, so that no half-bound connection can be written down. -/
namespace RemoteServer
open Bytes PartialMap

/-- A card of one of the two types `Session::login` lets through. -/
abbrev Card := { card : UCard // card.type = 1 ∨ card.type = 2 }

namespace Card

def idString (c : Card) : List UInt8 := cstr c.val.id.val

/-- A device and a client with the same id string. -/
def Fits (a b : Card) : Prop := a.val.type ≠ b.val.type ∧ a.idString = b.idString

theorem Fits.symm {a b : Card} (fit : a.Fits b) : b.Fits a := ⟨fit.1.symm, fit.2.symm⟩

theorem Fits.client {a b : Card} (fit : a.Fits b) (device : a.val.type = 1) : b.val.type = 2 :=
  b.property.resolve_left fun one => fit.1 (device.trans one.symm)

theorem Fits.device {a b : Card} (fit : a.Fits b) (client : a.val.type = 2) : b.val.type = 1 :=
  b.property.resolve_right fun two => fit.1 (client.trans two.symm)

theorem not_fits_self (a : Card) : ¬a.Fits a := fun fit => fit.1 rfl

/-- On cards that logged in, the tests of `Session::match` decide `Fits`. -/
theorem compatible_iff (a b : Card) : Session.compatible a.val b.val = true ↔ a.Fits b := by
  obtain ⟨a, ta⟩ := a
  obtain ⟨b, tb⟩ := b
  simp only [Session.compatible, Bool.and_eq_true, Bool.not_eq_true', decide_eq_false_iff_not,
    decide_eq_true_eq, strncmp_eq_zero_iff, Fits, idString]
  refine and_congr_left fun _ => ?_
  rcases ta with ta | ta <;> rcases tb with tb | tb <;> simp [ta, tb]

/-- The card of the login packet found in a chunk, if the chunk is accepted. -/
def accepted (data : List UInt8) : Option Card :=
  match loginPackage data with
  | .ok (some card) => if h : card.type = 1 ∨ card.type = 2 then some ⟨card, h⟩ else none
  | _ => none

theorem accepted_eq_none_iff (data : List UInt8) :
    accepted data = none ↔ loginPackage data = .ok none := by
  obtain ⟨found, returns⟩ := loginPackage_returns data
  cases found with
  | none => simp [accepted, returns]
  | some card => simp [accepted, returns, loginPackage_type returns]

theorem accepted_eq_some_iff (data : List UInt8) (card : Card) :
    accepted data = some card ↔ loginPackage data = .ok (some card.val) := by
  obtain ⟨found, returns⟩ := loginPackage_returns data
  cases found with
  | none => simp [accepted, returns]
  | some found =>
    simp only [accepted, returns, loginPackage_type returns, dite_true, Option.some.injEq,
      Except.ok.injEq]
    exact Subtype.ext_iff

end Card

inductive Phase where
  | raw
  | waiting (card : Card)
  | bound (card : Card) (peer : BevPtr) (peerCard : Option Card)

namespace Phase

def state : Phase → SessionState
  | raw => .raw
  | waiting _ => .login
  | bound .. => .bind

def card : Phase → Option Card
  | raw => none
  | waiting card | bound card _ _ => some card

def peer : Phase → Option BevPtr
  | raw | waiting _ => none
  | bound _ peer _ => some peer

def peerCard : Phase → Option Card
  | raw | waiting _ => none
  | bound _ _ peerCard => peerCard

def limit (cfg : Option Configure) : Phase → Int
  | raw => loginTimeout cfg
  | waiting _ => matchTimeout cfg
  | bound .. => activeTimeout cfg

def bind (peer : BevPtr) (peerCard : Option Card) : Phase → Phase
  | waiting card => bound card peer peerCard
  | phase => phase

theorem state_eq_raw {phase : Phase} : phase.state = .raw ↔ phase = .raw := by
  cases phase <;> simp [state]

theorem state_eq_login {phase : Phase} : phase.state = .login ↔ ∃ card, phase = .waiting card := by
  cases phase <;> simp [state]

end Phase

structure Conn where
  sid : Int
  phase : Phase
  idle : Int
  line : Bufferevent

namespace Conn

/-- The session object of the connection `b`. -/
def session (cfg : Option Configure) (b : BevPtr) (c : Conn) : Session where
  m_sid := c.sid
  m_inactive := c.idle
  m_timeouts := c.phase.limit cfg
  m_state := c.phase.state
  m_meetee0 := ⟨some b, c.phase.card.map (·.val)⟩
  m_meetee1 := ⟨c.phase.peer, c.phase.peerCard.map (·.val)⟩

def banner : Option Configure → List UInt8
  | some cfg => cfg.m_host
  | none => []

def fresh (cfg : Option Configure) (env : Env) (sid fd : Int) : Conn where
  sid := sid
  phase := .raw
  idle := 0
  line := { fd, input := [], output := if env.outcome 0 then banner cfg else [], sent := [],
            readTimeout := some (seconds 40), timer := env.clock, accepted := env.clock }

/-- What a read callback takes when `chunk` has arrived. -/
def taken (c : Conn) (chunk : List UInt8) : List UInt8 := (c.line.input ++ chunk).take 4096

def receive (env : Env) (chunk : List UInt8) (c : Conn) : Conn :=
  { c with line := { c.line with
      input := (c.line.input ++ chunk).drop 4096, timer := env.clock } }

def send (success : Bool) (data : List UInt8) (c : Conn) : Conn :=
  { c with line := c.line.append success data }

def login (card : Card) (c : Conn) : Conn := { c with phase := .waiting card, idle := 0 }

def bind (peer : BevPtr) (peerCard : Option Card) (c : Conn) : Conn :=
  { c with phase := c.phase.bind peer peerCard, idle := 0 }

/-- The connection as a match leaves it. -/
def met (card : Card) (peer : BevPtr) (peerCard : Option Card) (told : Bool) (c : Conn) : Conn :=
  { c with phase := .bound card peer peerCard, idle := 0, line := c.line.append told telproxyOk }

def active (c : Conn) : Conn := { c with idle := 0 }

/-- Forty more idle seconds; the timeout starts afresh. -/
def inactive (env : Env) (c : Conn) : Conn :=
  { c with idle := c.idle + 40, line := { c.line with timer := env.clock } }

def drain (n : Nat) (c : Conn) : Conn :=
  { c with line := { c.line with
      sent := c.line.sent ++ c.line.output.take n, output := c.line.output.drop n } }

end Conn

abbrev Relay := BevPtr → Option Conn

namespace Relay
variable {v : Relay} {b q : BevPtr} {c : Conn}

def card (v : Relay) (b : BevPtr) : Option Card := (v b).bind (·.phase.card)

def state (v : Relay) (b : BevPtr) : Option SessionState := (v b).map (·.phase.state)

def peer (v : Relay) (b : BevPtr) : Option BevPtr := (v b).bind (·.phase.peer)

theorem card_present (present : v b = some c) : v.card b = c.phase.card := by
  rw [Relay.card, present, Option.bind_some]

theorem state_present (present : v b = some c) : v.state b = some c.phase.state := by
  rw [Relay.state, present, Option.map_some]

theorem peer_present (present : v b = some c) : v.peer b = c.phase.peer := by
  rw [Relay.peer, present, Option.bind_some]

/-- A connection that waits for a partner with this card. -/
def Waits (v : Relay) (card : Card) (q : BevPtr) : Prop :=
  ∃ t u, v q = some t ∧ t.phase = .waiting u ∧ card.Fits u

open Classical in
/-- The least connection, in map order, that waits for the card. -/
noncomputable def partner (v : Relay) (card : Card) : Option BevPtr :=
  if h : ∃ q, v.Waits card q then some (Nat.find h) else none

theorem partner_eq_some_iff {card : Card} : partner v card = some q ↔ IsLeast {q | v.Waits card q} q := by
  classical
  by_cases waits : ∃ q, v.Waits card q
  · simp only [partner, dif_pos waits, Option.some.injEq]
    constructor
    · rintro rfl
      exact ⟨Nat.find_spec waits, fun i found => Nat.find_min' waits found⟩
    · intro least
      exact le_antisymm (Nat.find_min' waits least.1) (least.2 (Nat.find_spec waits))
  · simp only [partner, dif_neg waits, reduceCtorEq, false_iff]
    exact fun least => waits ⟨q, least.1⟩

theorem partner_eq_none_iff {card : Card} : partner v card = none ↔ ∀ q, ¬v.Waits card q := by
  by_cases waits : ∃ q, v.Waits card q
  · simpa only [partner, dif_pos waits, reduceCtorEq, false_iff, not_forall, not_not] using waits
  · simpa only [partner, dif_neg waits, true_iff] using not_exists.mp waits

/-- Binds `b` and `q` to each other and tells both. `outcome` is that of the two
copies of a card and of the two writes, in the order they are made. -/
def join (v : Relay) (outcome : Nat → Bool) (b q : BevPtr) : Relay :=
  modify (modify v b fun c =>
      (c.bind q (if outcome 1 then v.card q else none)).send (outcome 3) telproxyOk)
    q fun t => (t.bind b (if outcome 2 then v.card b else none)).send (outcome 4) telproxyOk

/-- Records the login of `b` and binds it to whoever waits for it. -/
noncomputable def login (v : Relay) (outcome : Nat → Bool) (b : BevPtr) (card : Card) : Relay :=
  let v : Relay := modify v b (Conn.login card)
  match v.partner card with
  | none => v
  | some q => v.join outcome b q

/-- The two effects of data taken from a bound connection. -/
def forward (v : Relay) (success : Bool) (b p : BevPtr) (data : List UInt8) : Relay :=
  modify (modify v b Conn.active) p (Conn.send success data)

/-- What becomes of data taken from `b` in the given phase. -/
noncomputable def dispatch (v : Relay) (outcome : Nat → Bool) (b : BevPtr) (phase : Phase)
    (data : List UInt8) : Relay :=
  match phase with
  | .raw =>
    match Card.accepted data with
    | none => v
    | some card => if outcome 0 then v.login outcome b card else v
  | .waiting _ => v
  | .bound _ p _ => v.forward (outcome 0) b p data

noncomputable def read (env : Env) (b : BevPtr) (chunk : List UInt8) (v : Relay) : Relay :=
  match v b with
  | none => v
  | some c =>
    Relay.dispatch (modify v b (Conn.receive env chunk)) env.outcome b c.phase (c.taken chunk)

/-- The chunk does not log a raw connection in. -/
def Rejects (env : Env) (c : Conn) (chunk : List UInt8) : Prop :=
  Card.accepted (c.taken chunk) = none ∨ env.outcome 0 = false

/-- Everything a read callback can do to the connections. -/
inductive ReadStep (env : Env) (b : BevPtr) (chunk : List UInt8) (v : Relay) : Relay → Prop where
  | absent : v b = none → ReadStep env b chunk v v
  | ignored {c : Conn} : v b = some c → c.phase.peer = none → (c.phase = .raw → Rejects env c chunk) →
      ReadStep env b chunk v (modify v b (Conn.receive env chunk))
  | login {c : Conn} {card : Card} : v b = some c → c.phase = .raw →
      Card.accepted (c.taken chunk) = some card → env.outcome 0 = true →
      ReadStep env b chunk v (Relay.login (modify v b (Conn.receive env chunk)) env.outcome b card)
  | forward {c : Conn} {card : Card} {p : BevPtr} {pc : Option Card} : v b = some c →
      c.phase = .bound card p pc →
      ReadStep env b chunk v
        (Relay.forward (modify v b (Conn.receive env chunk)) (env.outcome 0) b p (c.taken chunk))

theorem read_step (env : Env) (b : BevPtr) (chunk : List UInt8) (v : Relay) :
    ReadStep env b chunk v (v.read env b chunk) := by
  unfold read
  split
  · exact .absent ‹_›
  · rename_i c present
    unfold dispatch
    split
    · rename_i raw
      split
      · rename_i rejected
        exact .ignored present (by rw [raw]; rfl) fun _ => .inl rejected
      · rename_i card accepted
        split
        · exact .login present raw accepted ‹_›
        · rename_i failed
          exact .ignored present (by rw [raw]; rfl) fun _ => .inr (by simpa using failed)
    · rename_i waiting
      exact .ignored present (by rw [waiting]; rfl) fun raw => by rw [waiting] at raw; contradiction
    · rename_i bound
      exact .forward present bound

def remove (v : Relay) (b : BevPtr) : Relay := PartialMap.remove (·.phase.peer) v b

theorem remove_self (v : Relay) (b : BevPtr) : v.remove b b = none := by
  rw [Relay.remove, PartialMap.Paired.remove_apply, if_pos (.inl rfl)]

def Expired (cfg : Option Configure) (v : Relay) (b : BevPtr) : Prop :=
  ∀ c, v b = some c → c.phase.limit cfg ≤ c.idle

instance (cfg : Option Configure) (v : Relay) (b : BevPtr) : Decidable (v.Expired cfg b) :=
  match h : v b with
  | none => .isTrue fun c present => by rw [h] at present; contradiction
  | some c => decidable_of_iff (c.phase.limit cfg ≤ c.idle) (by simp [Expired, h])

/-- Neither the connection nor the one it is bound to has been active of late. -/
def TimedOut (cfg : Option Configure) (v : Relay) (b : BevPtr) : Prop :=
  v.Expired cfg b ∧ ∀ p, v.peer b = some p → v.Expired cfg p

instance (cfg : Option Configure) (v : Relay) (b : BevPtr) : Decidable (v.TimedOut cfg b) :=
  match h : v.peer b with
  | none => decidable_of_iff (v.Expired cfg b) (by simp [TimedOut, h])
  | some p => decidable_of_iff (v.Expired cfg b ∧ v.Expired cfg p) (by simp [TimedOut, h])

def closes (events : BitVec 16) : Bool := has events bevEventEof || has events bevEventError

def event (cfg : Option Configure) (env : Env) (b : BevPtr) (events : BitVec 16) (v : Relay) :
    Relay :=
  if closes events then v.remove b
  else if has events bevEventTimeout then
    let v : Relay := modify v b (Conn.inactive env)
    if v.TimedOut cfg b then v.remove b else v
  else v

/-- Everything an event callback can do to the connections. -/
inductive EventStep (cfg : Option Configure) (env : Env) (b : BevPtr) (events : BitVec 16)
    (v : Relay) : Relay → Prop where
  | quiet : closes events = false → has events bevEventTimeout = false →
      EventStep cfg env b events v v
  | closed : closes events = true → EventStep cfg env b events v (v.remove b)
  | idle : closes events = false → has events bevEventTimeout = true →
      ¬Relay.TimedOut cfg (modify v b (Conn.inactive env)) b →
      EventStep cfg env b events v (modify v b (Conn.inactive env))
  | expired : closes events = false → has events bevEventTimeout = true →
      Relay.TimedOut cfg (modify v b (Conn.inactive env)) b →
      EventStep cfg env b events v (Relay.remove (modify v b (Conn.inactive env)) b)

theorem event_step (cfg : Option Configure) (env : Env) (b : BevPtr) (events : BitVec 16)
    (v : Relay) : EventStep cfg env b events v (v.event cfg env b events) := by
  unfold event
  split
  · exact .closed ‹_›
  · rename_i open'
    split
    · dsimp only
      split
      · exact .expired (by simpa using open') ‹_› ‹_›
      · exact .idle (by simpa using open') ‹_› ‹_›
    · rename_i untimed
      exact .quiet (by simpa using open') (by simpa using untimed)

/-- The effect of one step on the connections; `sid` is the next session number. -/
noncomputable def next (cfg : Option Configure) (sid : Int) (label : Label) (v : Relay) : Relay :=
  match label.event with
  | .listenerCb none _ => v
  | .listenerCb (some b) fd => Function.update v b (some (Conn.fresh cfg label.env sid fd))
  | .connReadcb b chunk => v.read label.env b chunk
  | .connEventcb b events => v.event cfg label.env b events
  | .writeProgress b n => modify v b (Conn.drain n)

/-- The buffers discarded when `b` is removed. -/
def lines (v : Relay) (b : BevPtr) : List (BevPtr × Bufferevent) :=
  match v b with
  | none => []
  | some c => (b, c.line) :: match c.phase.peer with
    | none => []
    | some p => match v p with
      | none => []
      | some t => [(p, t.line)]

/-- The bufferevents a step frees, as they are when they are freed. -/
def frees (cfg : Option Configure) (label : Label) (v : Relay) : List (BevPtr × Bufferevent) :=
  match label.event with
  | .connEventcb b events =>
    if closes events then v.lines b
    else if has events bevEventTimeout then
      let v : Relay := modify v b (Conn.inactive label.env)
      if v.TimedOut cfg b then v.lines b else []
    else []
  | _ => []

/-- The chunks a step takes from input buffers. -/
def reads (label : Label) (v : Relay) : List (BevPtr × List UInt8) :=
  match label.event with
  | .connReadcb b chunk => ((v b).map fun c => (b, c.taken chunk)).toList
  | _ => []

end Relay
end RemoteServer
