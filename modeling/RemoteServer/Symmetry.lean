import Mathlib.Order.Hom.Basic
import RemoteServer.Lib.Renaming
import RemoteServer.Traces

/-! What the server does not depend on. Other addresses for the bufferevents, as long as
they lie in the same order, other descriptors and other clocks give the same run, with
these values in place of the old ones. -/
namespace RemoteServer
open Transition PartialMap

/-- New addresses in the order of the old ones, and any new descriptors and clocks. -/
structure Symmetry where
  bev : BevPtr ↪o BevPtr
  fd : Int → Int
  clock : Time → Time
  time : Int → Int

namespace Symmetry

/-! What a symmetry does to the values of the model. -/

section Action
variable (σ : Symmetry)

def line (x : Bufferevent) : Bufferevent :=
  { x with fd := σ.fd x.fd, timer := σ.clock x.timer, accepted := σ.clock x.accepted }

def meetee (m : Meetee) : Meetee := { m with bev := m.bev.map σ.bev }

def session (s : Session) : Session :=
  { s with m_meetee0 := σ.meetee s.m_meetee0, m_meetee1 := σ.meetee s.m_meetee1 }

def env (env : Env) : Env := { env with clock := σ.clock env.clock, time := σ.time env.time }

def event : Event → Event
  | .listenerCb bev fd => .listenerCb (bev.map σ.bev) (σ.fd fd)
  | .connReadcb bev chunk => .connReadcb (σ.bev bev) chunk
  | .connEventcb bev events => .connEventcb (σ.bev bev) events
  | .writeProgress bev n => .writeProgress (σ.bev bev) n

def label (label : Label) : Label := ⟨σ.event label.event, σ.env label.env⟩

def phase : Phase → Phase
  | .raw => .raw
  | .waiting card => .waiting card
  | .bound card peer peerCard => .bound card (σ.bev peer) peerCard

def conn (c : Conn) : Conn := { c with phase := σ.phase c.phase, line := σ.line c.line }

noncomputable def relay (v : Relay) : Relay := rename σ.bev σ.conn v

noncomputable def state (s : Relay.State) : Relay.State := ⟨σ.relay s.conns, s.sid, s.broken⟩

noncomputable def sight (sight : Sight) : Sight where
  label := σ.label sight.label
  reads := sight.reads.map fun (b, chunk) => (σ.bev b, chunk)
  freed := sight.freed.map fun (b, x) => (σ.bev b, σ.line x)
  sessions := rename σ.bev σ.session sight.sessions
  lines := rename σ.bev σ.line sight.lines

end Action

variable {σ : Symmetry} {v : Relay} {b q : BevPtr} {card : Card} {cfg : Option Configure}

section Values

theorem relay_apply (v : Relay) (b : BevPtr) : σ.relay v (σ.bev b) = (v b).map σ.conn :=
  rename_apply σ.bev.injective v b

theorem relay_empty : σ.relay (fun _ => none) = fun _ => none :=
  (eq_rename σ.bev.injective (fun _ => rfl) fun _ _ => rfl).symm

theorem relay_modify (f f' : Conn → Conn) (comm : ∀ c, f' (σ.conn c) = σ.conn (f c)) (v : Relay)
    (b : BevPtr) : modify (σ.relay v) (σ.bev b) f' = σ.relay (modify v b f) :=
  rename_modify σ.bev.injective comm v b

theorem phase_card (phase : Phase) : (σ.phase phase).card = phase.card := by
  cases phase <;> rfl

theorem phase_peer (phase : Phase) : (σ.phase phase).peer = phase.peer.map σ.bev := by
  cases phase <;> rfl

theorem phase_limit (phase : Phase) : (σ.phase phase).limit cfg = phase.limit cfg := by
  cases phase <;> rfl

theorem relay_card (v : Relay) (b : BevPtr) : (σ.relay v).card (σ.bev b) = v.card b := by
  rw [Relay.card, Relay.card, relay_apply]
  cases v b with
  | none => rfl
  | some c => exact phase_card c.phase

theorem relay_peer (v : Relay) (b : BevPtr) : (σ.relay v).peer (σ.bev b) = (v.peer b).map σ.bev := by
  rw [Relay.peer, Relay.peer, relay_apply]
  cases v b with
  | none => rfl
  | some c => exact phase_peer c.phase

theorem session_conn (b : BevPtr) (c : Conn) :
    (σ.conn c).session cfg (σ.bev b) = σ.session (c.session cfg b) := by
  obtain ⟨sid, phase, idle, line⟩ := c
  cases phase <;> rfl

theorem conn_send (success : Bool) (data : List UInt8) (c : Conn) :
    Conn.send success data (σ.conn c) = σ.conn (Conn.send success data c) := by
  cases success <;> rfl

theorem conn_bind (p : BevPtr) (peerCard : Option Card) (c : Conn) :
    Conn.bind (σ.bev p) peerCard (σ.conn c) = σ.conn (Conn.bind p peerCard c) := by
  obtain ⟨sid, phase, idle, line⟩ := c
  cases phase <;> rfl

end Values

/-! Every operation of the relay follows the renaming. The choice of a partner is the
one that needs the order. -/

section Operations

theorem waits_iff : (σ.relay v).Waits card q ↔ ∃ p, σ.bev p = q ∧ v.Waits card p := by
  constructor
  · rintro ⟨t, u, found, waiting, fit⟩
    obtain ⟨p, c, rfl, present, rfl⟩ := (rename_eq_some_iff σ.bev.injective).mp found
    refine ⟨p, rfl, c, u, present, ?_, fit⟩
    cases phase : c.phase with
    | raw => simp [conn, Symmetry.phase, phase] at waiting
    | bound => simp [conn, Symmetry.phase, phase] at waiting
    | waiting own => simpa [conn, Symmetry.phase, phase] using waiting
  · rintro ⟨p, rfl, c, u, present, waiting, fit⟩
    refine ⟨σ.conn c, u, ?_, ?_, fit⟩
    · rw [relay_apply, present, Option.map_some]
    · rw [conn, waiting]
      rfl

theorem partner : (σ.relay v).partner card = (v.partner card).map σ.bev := by
  cases chosen : v.partner card with
  | none =>
    rw [Relay.partner_eq_none_iff] at chosen
    rw [Option.map_none, Relay.partner_eq_none_iff]
    intro q waits
    obtain ⟨p, _, waits⟩ := waits_iff.mp waits
    exact chosen p waits
  | some p =>
    rw [Relay.partner_eq_some_iff] at chosen
    rw [Option.map_some, Relay.partner_eq_some_iff]
    constructor
    · exact waits_iff.mpr ⟨p, rfl, chosen.1⟩
    · intro q waits
      obtain ⟨p', rfl, also⟩ := waits_iff.mp waits
      exact σ.bev.monotone (chosen.2 also)

theorem join (outcome : Nat → Bool) (b q : BevPtr) :
    (σ.relay v).join outcome (σ.bev b) (σ.bev q) = σ.relay (v.join outcome b q) := by
  simp only [Relay.join, relay_card]
  have bound (p : BevPtr) (peerCard : Option Card) (success : Bool) (c : Conn) :
      ((σ.conn c).bind (σ.bev p) peerCard).send success telproxyOk =
        σ.conn ((c.bind p peerCard).send success telproxyOk) := by
    rw [conn_bind, conn_send]
  rw [relay_modify _ _ (bound q _ _), relay_modify _ _ (bound b _ _)]

theorem login (outcome : Nat → Bool) (b : BevPtr) (card : Card) :
    (σ.relay v).login outcome (σ.bev b) card = σ.relay (v.login outcome b card) := by
  have entered : modify (σ.relay v) (σ.bev b) (Conn.login card) = σ.relay (modify v b (Conn.login card)) :=
    relay_modify (Conn.login card) (Conn.login card) (fun _ => rfl) v b
  simp only [Relay.login, entered, partner]
  cases Relay.partner (modify v b (Conn.login card)) card with
  | none => rfl
  | some q => exact join outcome b q

theorem forward (success : Bool) (b p : BevPtr) (data : List UInt8) :
    (σ.relay v).forward success (σ.bev b) (σ.bev p) data = σ.relay (v.forward success b p data) := by
  simp only [Relay.forward]
  rw [relay_modify Conn.active Conn.active fun _ => rfl, relay_modify _ _ (conn_send success data)]

theorem dispatch (outcome : Nat → Bool) (b : BevPtr) (phase : Phase) (data : List UInt8) :
    (σ.relay v).dispatch outcome (σ.bev b) (σ.phase phase) data =
      σ.relay (v.dispatch outcome b phase data) := by
  cases phase with
  | raw =>
    simp only [Relay.dispatch, Symmetry.phase]
    cases Card.accepted data with
    | none => rfl
    | some card =>
      dsimp only
      split
      · exact login outcome b card
      · rfl
  | waiting => rfl
  | bound card p peerCard => exact forward (outcome 0) b p data

theorem read (env : Env) (b : BevPtr) (chunk : List UInt8) :
    (σ.relay v).read (σ.env env) (σ.bev b) chunk = σ.relay (v.read env b chunk) := by
  simp only [Relay.read, relay_apply]
  cases v b with
  | none => rfl
  | some c =>
    have received : modify (σ.relay v) (σ.bev b) (Conn.receive (σ.env env) chunk) =
        σ.relay (modify v b (Conn.receive env chunk)) :=
      relay_modify (Conn.receive env chunk) _ (fun _ => rfl) v b
    simp only [Option.map_some, received]
    exact dispatch env.outcome b c.phase (c.taken chunk)

theorem remove (v : Relay) (b : BevPtr) : (σ.relay v).remove (σ.bev b) = σ.relay (v.remove b) := by
  have links (c : Conn) : (σ.conn c).phase.peer = c.phase.peer.map σ.bev := phase_peer c.phase
  exact rename_remove σ.bev.injective (fun c : Conn => c.phase.peer) (fun c : Conn => c.phase.peer) links v b

theorem expired_iff : (σ.relay v).Expired cfg (σ.bev b) ↔ v.Expired cfg b := by
  rw [Relay.Expired, Relay.Expired, relay_apply]
  constructor
  · intro expired c present
    have late := expired (σ.conn c) (by rw [present, Option.map_some])
    rwa [conn, phase_limit] at late
  · intro expired c' found
    obtain ⟨c, present, rfl⟩ := Option.map_eq_some_iff.mp found
    rw [conn, phase_limit]
    exact expired c present

theorem timedOut_iff : (σ.relay v).TimedOut cfg (σ.bev b) ↔ v.TimedOut cfg b := by
  rw [Relay.TimedOut, Relay.TimedOut, expired_iff, relay_peer]
  refine and_congr_right fun _ => ?_
  cases v.peer b with
  | none => simp
  | some p => simp [expired_iff]

theorem inactive (env : Env) (v : Relay) (b : BevPtr) :
    modify (σ.relay v) (σ.bev b) (Conn.inactive (σ.env env)) = σ.relay (modify v b (Conn.inactive env)) :=
  relay_modify (Conn.inactive env) _ (fun _ => rfl) v b

theorem timeout (env : Env) (b : BevPtr) (events : BitVec 16) :
    (σ.relay v).event cfg (σ.env env) (σ.bev b) events = σ.relay (v.event cfg env b events) := by
  simp only [Relay.event, inactive, remove, timedOut_iff]
  split
  · rfl
  · split
    · split <;> rfl
    · rfl

theorem next (sid : Int) (label : Label) :
    (σ.relay v).next cfg sid (σ.label label) = σ.relay (v.next cfg sid label) := by
  obtain ⟨event, env⟩ := label
  cases event with
  | listenerCb bev fd =>
    cases bev with
    | none => rfl
    | some b => exact rename_update σ.bev.injective v b (some (Conn.fresh cfg env sid fd))
  | connReadcb b chunk => exact read env b chunk
  | connEventcb b events => exact timeout env b events
  | writeProgress b n => exact relay_modify (Conn.drain n) (Conn.drain n) (fun _ => rfl) v b

theorem lines (v : Relay) (b : BevPtr) :
    (σ.relay v).lines (σ.bev b) = (v.lines b).map fun (b, x) => (σ.bev b, σ.line x) := by
  simp only [Relay.lines, relay_apply]
  cases v b with
  | none => rfl
  | some c =>
    simp only [Option.map_some, List.map_cons, conn, phase_peer]
    cases c.phase.peer with
    | none => rfl
    | some p =>
      simp only [Option.map_some, relay_apply]
      cases v p <;> rfl

theorem frees (label : Label) :
    (σ.relay v).frees cfg (σ.label label) = (v.frees cfg label).map fun (b, x) => (σ.bev b, σ.line x) := by
  obtain ⟨event, env⟩ := label
  cases event with
  | listenerCb bev fd => rfl
  | connReadcb b chunk => rfl
  | writeProgress b n => rfl
  | connEventcb b events =>
    simp only [Relay.frees, Symmetry.label, Symmetry.event, inactive, timedOut_iff, lines]
    split
    · rfl
    · split
      · split <;> rfl
      · rfl

theorem reads (label : Label) :
    (σ.relay v).reads (σ.label label) = (v.reads label).map fun (b, chunk) => (σ.bev b, chunk) := by
  obtain ⟨event, env⟩ := label
  cases event with
  | connReadcb b chunk =>
    simp only [Relay.reads, Symmetry.label, Symmetry.event, relay_apply]
    cases v b <;> rfl
  | listenerCb bev fd => rfl
  | connEventcb b events => rfl
  | writeProgress b n => rfl

theorem admits {event : Event} (admits : v.Admits event) : (σ.relay v).Admits (σ.event event) := by
  cases event with
  | listenerCb bev fd =>
    intro b' renamed
    obtain ⟨b, accepts, rfl⟩ := Option.map_eq_some_iff.mp renamed
    rw [relay_apply, admits b accepts, Option.map_none]
  | connReadcb b chunk =>
    simpa only [Relay.Admits, Symmetry.event, relay_apply, Option.isSome_map] using admits
  | connEventcb b events =>
    simpa only [Relay.Admits, Symmetry.event, relay_apply, Option.isSome_map] using admits
  | writeProgress b n =>
    simpa only [Relay.Admits, Symmetry.event, relay_apply, Option.isSome_map] using admits

end Operations

theorem state_conns (s : Relay.State) : (σ.state s).conns = σ.relay s.conns := rfl

theorem state_next (label : Label) (s : Relay.State) :
    (σ.state s).next cfg (σ.label label) = σ.state (s.next cfg label) := by
  have opens : (σ.event label.event).opens = label.event.opens := by
    obtain ⟨event, env⟩ := label
    cases event with
    | listenerCb bev fd => cases bev <;> rfl
    | connReadcb | connEventcb | writeProgress => rfl
  have breaks : (σ.event label.event).breaks = label.event.breaks := by
    obtain ⟨event, env⟩ := label
    cases event with
    | listenerCb bev fd => cases bev <;> rfl
    | connReadcb | connEventcb | writeProgress => rfl
  simp only [Relay.State.next, Symmetry.state, next]
  rw [Symmetry.label, opens, breaks]

/-- A step of the relay is one of the renamed relay as well. -/
theorem shows {s s' : Relay.State} {sight : Sight} (step : Relay.Shows cfg s sight s') :
    Relay.Shows cfg (σ.state s) (σ.sight sight) (σ.state s') := by
  obtain ⟨loop, admitted, rfl, shown⟩ := step
  refine ⟨loop, admits admitted, (state_next sight.label s).symm, ?_⟩
  rw [shown]
  have sessions : (fun b => ((σ.state (s.next cfg sight.label)).conns b).map (Conn.session cfg b)) =
      rename σ.bev σ.session fun b => ((s.next cfg sight.label).conns b).map (Conn.session cfg b) := by
    apply eq_rename σ.bev.injective
    · intro b
      rw [state_conns, relay_apply, Option.map_map, Option.map_map]
      exact congrArg (Option.map · _) (funext (session_conn b))
    · intro i outside
      rw [state_conns, relay, rename_outside outside, Option.map_none]
  have lines : (fun b => ((σ.state (s.next cfg sight.label)).conns b).map (·.line)) =
      rename σ.bev σ.line fun b => ((s.next cfg sight.label).conns b).map (·.line) := by
    apply eq_rename σ.bev.injective
    · intro b
      rw [state_conns, relay_apply, Option.map_map, Option.map_map]
      rfl
    · intro i outside
      rw [state_conns, relay, rename_outside outside, Option.map_none]
  simp only [Symmetry.sight, sessions, lines]
  rw [state_conns, reads, frees]

end Symmetry

/-- Whatever the server shows it also shows with other addresses in the same order, other
descriptors and other clocks: it goes by the order of the addresses and by nothing else
of the kind. -/
theorem traces_symmetric (σ : Symmetry) (shown : ServerTrace cfg trace) :
    ServerTrace cfg (trace.map σ.sight) := by
  obtain ⟨s, run⟩ := ((bisimulation cfg).traces_iff .init trace).mp shown
  refine ((bisimulation cfg).traces_iff .init _).mpr ⟨σ.state s, ?_⟩
  have renamed := run.map σ.state σ.sight Symmetry.shows
  have start : σ.state .init = .init := by
    rw [Symmetry.state, Relay.State.init, Symmetry.relay_empty]
  rwa [start] at renamed

/-- The addresses are doubled, the descriptors forgotten and the clocks stopped. -/
def doubled : Symmetry where
  bev := OrderEmbedding.ofStrictMono (2 * ·) fun _ _ less => Nat.mul_lt_mul_of_pos_left less (by decide)
  fd _ := 0
  clock _ := 0
  time _ := 0

theorem traces_symmetric_doubled : ∃ sight : Sight,
    sight.label.event = .listenerCb (some 5) 3 ∧ ServerTrace none [sight] ∧
      ServerTrace none [doubled.sight sight] := by
  obtain ⟨w, step⟩ := (World.Models.init (R := Phase.Fits)).progress ⟨.listenerCb (some 5) 3, .ideal 0⟩
    fun _ _ => rfl
  have shown : ServerTrace none [⟨_, w.reads, w.freed, w.sessionAt, w.bevs⟩] :=
    ⟨w, .single ⟨⟨rfl, step⟩, rfl⟩⟩
  exact ⟨_, rfl, shown, traces_symmetric doubled shown⟩

end RemoteServer
