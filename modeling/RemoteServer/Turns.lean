import RemoteServer.Codec
import RemoteServer.SessionNumbers

/-! Who waits for how long. Partners are chosen by address: where addresses only grow,
connections are served in the order they came, and where they do not, one may be passed
over any number of times. -/
namespace RemoteServer
open Bytes Transition PartialMap

/-- A new bufferevent lies above every live one. -/
def Event.Rises (w : World) (event : Event) : Prop :=
  ∀ b fd, event = .listenerCb (some b) fd → ∀ q ∈ w.m_bsMap.keys, q < b

instance (w : World) : (event : Event) → Decidable (event.Rises w)
  | .listenerCb none _ => .isTrue (by simp [Event.Rises])
  | .listenerCb (some b) _ => decidable_of_iff (∀ q ∈ w.m_bsMap.keys, q < b) (by simp [Event.Rises])
  | .connReadcb .. => .isTrue (by simp [Event.Rises])
  | .connEventcb .. => .isTrue (by simp [Event.Rises])
  | .writeProgress .. => .isTrue (by simp [Event.Rises])

def RisingStep (cfg : Option Configure) (w : World) (label : Label) (w' : World) : Prop :=
  Step cfg w label w' ∧ label.event.Rises w

/-- Whether the addresses have grown so far. -/
def rises : Monitor World Label Bool := fun w label _ rose => rose && decide (label.event.Rises w)

theorem rising_run {before after : World × Bool} (run : Run (rises.step (Step cfg)) before labels after)
    (rose : after.2 = true) : Run (RisingStep cfg) before.1 labels after.1 := by
  induction run with
  | refl => exact .refl
  | snoc _ last ih =>
    obtain ⟨step, records⟩ := last
    rw [records, rises, Bool.and_eq_true, decide_eq_true_eq] at rose
    exact (ih rose.1).snoc ⟨step, rose.2⟩

def Card.Alike (a u : Card) : Prop := a.val.type = u.val.type ∧ a.idString = u.idString

theorem Card.Alike.symm {a u : Card} (alike : a.Alike u) : u.Alike a := ⟨alike.1.symm, alike.2.symm⟩

theorem Card.Alike.trans {a u x : Card} (first : a.Alike u) (second : u.Alike x) : a.Alike x :=
  ⟨first.1.trans second.1, first.2.trans second.2⟩

theorem Card.Fits.both {card a u : Card} (first : card.Fits a) (second : card.Fits u) : a.Alike u := by
  refine ⟨?_, first.2.symm.trans second.2⟩
  rcases card.property with type | type
  · rw [first.client type, second.client type]
  · rw [first.device type, second.device type]

theorem Card.Fits.alike {card a u : Card} (fit : card.Fits u) (alike : a.Alike u) : card.Fits a :=
  ⟨alike.1.symm ▸ fit.1, fit.2.trans alike.2.symm⟩

theorem Phase.Becomes.stays_bound {phase phase' : Phase} (becomes : phase.Becomes phase')
    (bound : phase.state = .bind) : phase'.state = .bind := by
  cases becomes with
  | same => exact bound
  | login => contradiction
  | loginBind => contradiction
  | bind => rfl

/-- A connection that waits goes on waiting, or it is the least that waits for a login. -/
theorem ConnStep.of_waiting {v : Relay} {c new : Conn} {u : Card} (step : ConnStep cfg sid label v i new)
    (present : v i = some c) (waiting : c.phase = .waiting u) (unaccepted : ¬label.event.accepts i) :
    new.phase = .waiting u ∨
      new.phase.state = .bind ∧ ∃ card, card.Fits u ∧ IsLeast {q | v.Waits card q} i := by
  have old {d : Conn} (found : v i = some d) : d.phase = .waiting u := by
    rw [Option.some.inj (found.symm.trans present), waiting]
  cases step with
  | accept accepts => exact absurd (Event.accepts_iff.mpr ⟨_, accepts⟩) unaccepted
  | stay found => exact .inl (old found :)
  | drop found => exact .inl (old found :)
  | wait found _ raw =>
    rw [old found] at raw
    contradiction
  | «match» found _ raw =>
    rw [old found] at raw
    contradiction
  | matched found theirs _ _ _ _ _ least _ fit =>
    obtain rfl := Phase.waiting.inj (theirs.symm.trans (old found))
    exact .inr ⟨rfl, _, fit, least⟩
  | relay found _ bound =>
    rw [old found] at bound
    contradiction
  | relayed found => exact .inl (old found :)
  | idle found => exact .inl (old found :)
  | drain found => exact .inl (old found :)

namespace Relay
variable {cfg : Option Configure} {v : Relay} {R : Phase → Phase → Prop} {label : Label} {sid σ τ : Int}
  {a b : BevPtr}

def Ranked (v : Relay) : Prop :=
  ∀ b c b' c', v b = some c → v b' = some c' → b < b' → c.sid < c'.sid

theorem Ranked.next (ranked : v.Ranked) (numbered : v.Numbered sid) (paired : v.Paired R)
    (rises : ∀ b fd, label.event = .listenerCb (some b) fd → ∀ q, (v q).isSome → q < b) :
    (v.next cfg sid label).Ranked := by
  intro b c b' c' found found' below
  rcases sid_step paired found with ⟨accepts, same⟩ | ⟨old, present, same⟩ <;>
    rcases sid_step paired found' with ⟨accepts', same'⟩ | ⟨old', present', same'⟩
  · obtain ⟨fd, event⟩ := Event.accepts_iff.mp accepts
    obtain ⟨fd', event'⟩ := Event.accepts_iff.mp accepts'
    rw [event] at event'
    cases event'
    exact absurd below (Nat.lt_irrefl b)
  · -- the new connection would lie below an old one
    obtain ⟨fd, event⟩ := Event.accepts_iff.mp accepts
    have above := rises b fd event b' (by rw [present', Option.isSome_some])
    exact absurd below (Nat.lt_asymm above)
  · have before := numbered.below present
    omega
  · have before := ranked b old b' old' present present' below
    omega

/-- Of the sessions `σ` at `a` and `τ` at `b`, the first is bound, or both wait with
cards of one kind. -/
def Before (v : Relay) (a b : BevPtr) (σ τ : Int) : Prop :=
  ∀ c d, v a = some c → c.sid = σ → v b = some d → d.sid = τ →
    c.phase.state = .bind ∨
      ∃ card u : Card, c.phase = .waiting card ∧ d.phase = .waiting u ∧ card.Alike u

theorem Before.next (before : v.Before a b σ τ) (paired : v.Paired R) (ranked : v.Ranked)
    (fresh : ∀ q fd, label.event = .listenerCb (some q) fd → v q = none) (earlier : σ < τ)
    (old : τ < sid) : (v.next cfg sid label).Before a b σ τ := by
  intro c' d' found first found' second
  rcases sid_step paired found with ⟨_, new⟩ | ⟨c, present, same⟩
  · omega
  rcases sid_step paired found' with ⟨_, new⟩ | ⟨d, present', same'⟩
  · omega
  have step := conn_step paired cfg sid label found
  have step' := conn_step paired cfg sid label found'
  have unaccepted := not_accepts present fresh
  have unaccepted' := not_accepts present' fresh
  rcases before c d present (by omega) present' (by omega) with bound | ⟨card, u, waiting, waiting', alike⟩
  · left
    obtain ⟨becomes, _⟩ := step.becomes present unaccepted
    exact becomes.stays_bound bound
  · rcases step.of_waiting present waiting unaccepted with waits | ⟨bound, _⟩
    · rcases step'.of_waiting present' waiting' unaccepted' with waits' | ⟨_, mine, fit, least⟩
      · exact .inr ⟨card, u, waits, waits', alike⟩
      · -- the second would have been chosen although the first waits at a lower address
        have low : b ≤ a := least.2 ⟨c, card, present, waiting, fit.alike alike⟩
        rcases Nat.lt_or_eq_of_le low with lower | rfl
        · have := ranked b d a c present' present lower
          omega
        · obtain rfl := Option.some.inj (present.symm.trans present')
          omega
    · exact .inl bound

end Relay

/-- A state that a run with growing addresses reaches. -/
structure World.Rising (cfg : Option Configure) (w : World) (v : Relay) : Prop where
  models : w.Models cfg Phase.Fits v
  positive : 1 ≤ w.m_sidCount
  numbered : v.Numbered w.m_sidCount
  ranked : v.Ranked

namespace World.Rising
variable {cfg : Option Configure} {w w' : World} {v : Relay} {label : Label}

theorem init : World.init.Rising cfg (fun _ => none) where
  models := .init
  positive := by decide
  numbered := ⟨(fun impossible => nomatch impossible), (fun impossible => nomatch impossible),
    (fun impossible => nomatch impossible)⟩
  ranked := fun _ _ _ _ impossible => nomatch impossible

theorem next (rising : w.Rising cfg v) (step : RisingStep cfg w label w') :
    w'.Rising cfg (v.next cfg w.m_sidCount label) where
  models := rising.models.next Relay.fits_joins step.1
  positive := by
    have positive := rising.positive
    rw [rising.models.sidCount_next step.1]
    split <;> omega
  numbered := by
    rw [rising.models.sidCount_next step.1]
    exact rising.numbered.next rising.models.paired rising.positive
  ranked := by
    refine rising.ranked.next rising.numbered rising.models.paired fun b fd accepts q live => ?_
    refine step.2 b fd accepts q ?_
    rw [Std.TreeMap.mem_keys]
    exact rising.models.represents.mem_iff.mpr live

end World.Rising

section Queue
variable {cfg : Option Configure} {w w' : World} {labels more : List Label} {a b : BevPtr} {s t : Session}
  {x y : UCard}

/-- As long as addresses grow, nobody is overtaken: of two connections that wait with the
same type and id, the later one is not bound before the earlier one. -/
theorem not_overtaken (run : Run (RisingStep cfg) World.init labels w)
    (first : w.sessionAt a = some s) (second : w.sessionAt b = some t) (earlier : s.m_sid < t.m_sid)
    (waits : s.m_state = .login) (waits' : t.m_state = .login) (card : s.m_meetee0.userData = some x)
    (card' : t.m_meetee0.userData = some y) (alike : x.type = y.type ∧ cstr x.id.val = cstr y.id.val)
    (later : Run (RisingStep cfg) w more w') (found : w'.sessionAt b = some t')
    (same : t'.m_sid = t.m_sid) (bound : t'.m_state = .bind) :
    ∀ s', w'.sessionAt a = some s' → s'.m_sid = s.m_sid → s'.m_state = .bind := by
  obtain ⟨v, rising⟩ : ∃ v, w.Rising cfg v :=
    run.invariant (fun w => ∃ v, w.Rising cfg v) (fun ⟨_, rising⟩ step => ⟨_, rising.next step⟩)
      ⟨_, .init⟩
  rw [rising.models.represents.sessionAt] at first second
  obtain ⟨c, present, rfl⟩ := Option.map_eq_some_iff.mp first
  obtain ⟨d, present', rfl⟩ := Option.map_eq_some_iff.mp second
  obtain ⟨mine, phase⟩ := Phase.state_eq_login.mp waits
  obtain ⟨theirs, phase'⟩ := Phase.state_eq_login.mp waits'
  have start : v.Before a b c.sid d.sid := by
    rintro c' d' found - found' -
    obtain rfl := Option.some.inj (present.symm.trans found)
    obtain rfl := Option.some.inj (present'.symm.trans found')
    simp only [Conn.session, phase, phase', Phase.card, Option.map_some, Option.some.injEq] at card card'
    subst card card'
    exact .inr ⟨mine, theirs, phase, phase', alike⟩
  obtain ⟨v', rising', before, _⟩ : ∃ v', w'.Rising cfg v' ∧ v'.Before a b c.sid d.sid ∧
      d.sid < w'.m_sidCount := by
    refine later.invariant (fun w => ∃ v, w.Rising cfg v ∧ v.Before a b c.sid d.sid ∧ d.sid < w.m_sidCount)
      ?_ ⟨v, rising, start, rising.numbered.below present'⟩
    rintro w label w' ⟨v, rising, before, old⟩ step
    refine ⟨_, rising.next step, ?_, ?_⟩
    · exact before.next rising.models.paired rising.ranked (rising.models.represents.accepts_free step.1)
        earlier old
    · rw [rising.models.sidCount_next step.1]
      split <;> omega
  intro s' found' same'
  rw [rising'.models.represents.sessionAt] at found found'
  obtain ⟨d', present₁, rfl⟩ := Option.map_eq_some_iff.mp found
  obtain ⟨c', present₂, rfl⟩ := Option.map_eq_some_iff.mp found'
  rcases before c' d' present₂ same' present₁ same with served | ⟨_, _, _, waiting, _⟩
  · exact served
  · change d'.phase.state = _ at bound
    rw [waiting] at bound
    contradiction

end Queue

def waitingDevices : List Label :=
  [⟨.listenerCb (some 3) 3, .ideal 0⟩, ⟨.listenerCb (some 5) 4, .ideal 0⟩,
    ⟨.connReadcb 3 (TelProxyLogin.packet 1 [65]), .ideal 0⟩,
    ⟨.connReadcb 5 (TelProxyLogin.packet 1 [65]), .ideal 0⟩]

def comingClients : List Label :=
  [⟨.listenerCb (some 7) 5, .ideal 0⟩, ⟨.connReadcb 7 (TelProxyLogin.packet 2 [65]), .ideal 0⟩,
    ⟨.listenerCb (some 9) 6, .ideal 0⟩, ⟨.connReadcb 9 (TelProxyLogin.packet 2 [65]), .ideal 0⟩]

theorem not_overtaken_waitingDevices :
    ∃ w', Run (RisingStep none) (World.after none waitingDevices) comingClients w' ∧
      w'.stateOf 5 = some .bind ∧ w'.stateOf 3 = some .bind := by
  have run : Run (RisingStep none) World.init waitingDevices (World.after none waitingDevices) :=
    rising_run (recorded_after rises none waitingDevices true (by decide +kernel)) (by decide +kernel)
  have replays : (replay none comingClients (World.after none waitingDevices)).isSome := by decide +kernel
  obtain ⟨w', replayed⟩ := Option.isSome_iff_exists.mp replays
  have rose : historyOf rises none comingClients (World.after none waitingDevices) true = true := by
    decide +kernel
  have later : Run (RisingStep none) (World.after none waitingDevices) comingClients w' :=
    rising_run (recorded_of_replay rises true replayed) rose
  let card : UCard := ⟨1, strncpy 64 [65]⟩
  have first : (World.after none waitingDevices).sessionAt 3 =
      some ⟨1, 0, 360, .login, ⟨some 3, some card⟩, ⟨none, none⟩⟩ := by decide +kernel
  have second : (World.after none waitingDevices).sessionAt 5 =
      some ⟨2, 0, 360, .login, ⟨some 5, some card⟩, ⟨none, none⟩⟩ := by decide +kernel
  have after : (replay none comingClients (World.after none waitingDevices)).map (fun w =>
      (w.sessionAt 5).map fun s => (s.m_sid, s.m_state)) = some (some (2, .bind)) := by decide +kernel
  have there : (replay none comingClients (World.after none waitingDevices)).map (fun w =>
      (w.sessionAt 3).map (·.m_sid)) = some (some 1) := by decide +kernel
  rw [replayed, Option.map_some, Option.some.injEq] at after there
  obtain ⟨t', found, bound⟩ := Option.map_eq_some_iff.mp after
  obtain ⟨s', found', same⟩ := Option.map_eq_some_iff.mp there
  rw [Prod.mk.injEq] at bound
  refine ⟨w', later, by rw [World.stateOf, found, Option.map_some, bound.2], ?_⟩
  rw [World.stateOf, found', Option.map_some, not_overtaken run first second (by decide) rfl rfl rfl rfl
    ⟨rfl, rfl⟩ later found bound.1 bound.2 s' found' same]

namespace Relay
variable {cfg : Option Configure} {v : Relay} {R : Phase → Phase → Prop} {label : Label} {sid : Int}
  {b p q : BevPtr} {c : Conn} {card u : Card} {env : Env} {chunk : List UInt8}

def Named (v : Relay) : Prop :=
  ∀ b c card, v b = some c → c.phase.card = some card → card.idString ≠ [] ∧ card.idString.length ≤ 63

theorem Named.next (named : v.Named) (paired : v.Paired R) : (v.next cfg sid label).Named := by
  intro i new card found holds
  have step := conn_step paired cfg sid label found
  cases step with
  | accept => contradiction
  | stay present => exact named i _ card present holds
  | drop present => exact named i _ card present holds
  | wait _ _ _ accepted =>
    obtain rfl := Option.some.inj holds
    exact Card.accepted_id accepted
  | «match» _ _ _ accepted =>
    obtain rfl := Option.some.inj holds
    exact Card.accepted_id accepted
  | matched present waiting =>
    obtain rfl := Option.some.inj holds
    exact named i _ _ present (by rw [waiting]; rfl)
  | relay present => exact named i _ card present holds
  | relayed present => exact named i _ card present holds
  | idle present => exact named i _ card present holds
  | drain present => exact named i _ card present holds

theorem read_logs (present : v b = some c) (raw : c.phase = .raw)
    (accepted : Card.accepted (c.taken chunk) = some card) (recorded : env.outcome 0 = true) :
    LoginStep env.outcome b card v (c.receive env chunk) (v.read env b chunk) := by
  have logs : v.read env b chunk =
      Relay.login (modify v b (Conn.receive env chunk)) env.outcome b card := by
    simp only [Relay.read, present, raw, Relay.dispatch, accepted, recorded, if_true]
  rw [logs]
  exact received_login_step env chunk card present raw

theorem waits_accepted (free : v b = none) (raw : c.phase = .raw) :
    Waits (Function.update v b (some c)) card q ↔ v.Waits card q := by
  by_cases here : q = b
  · subst q
    apply iff_of_false
    · intro waits
      exact Waits.ne waits (Function.update_self ..) raw rfl
    · rintro ⟨t, u, found, _⟩
      rw [free] at found
      contradiction
  · simp only [Waits, Function.update_of_ne here]

end Relay

/-- How often a login with the id has ended in a pair. -/
def pairings (id : List UInt8) : Monitor World Label Nat := fun w label w' n =>
  match label.event with
  | .connReadcb b _ =>
    if w.stateOf b = some .raw ∧ w'.stateOf b = some .bind ∧ w'.idOf b = some id then n + 1 else n
  | _ => n

/-- One of the card's kind comes to `p` and its counterpart to `q`; they meet and leave. -/
def visit (p q : BevPtr) (f g : Int) (x : UCard) : List Label :=
  [⟨.listenerCb (some p) f, .ideal 0⟩,
    ⟨.connReadcb p (TelProxyLogin.packet x.type.toUInt8 (cstr x.id.val)), .ideal 0⟩,
    ⟨.listenerCb (some q) g, .ideal 0⟩,
    ⟨.connReadcb q (TelProxyLogin.packet (3 - x.type).toUInt8 (cstr x.id.val)), .ideal 0⟩,
    ⟨.connEventcb p bevEventEof, .ideal 0⟩]

section Visits
variable {cfg : Option Configure} {w w' : World} {v : Relay} {b p q : BevPtr} {c : Conn} {card : Card}

theorem Card.accepted_packet {id : List UInt8} {type : UInt8} (typed : type = 1 ∨ type = 2)
    (nonempty : id ≠ []) (free : 0 ∉ id) (fits : id.length ≤ 63) :
    ∃ u, Card.accepted (TelProxyLogin.packet type id) = some u ∧ u.val.type.toNat = type.toNat ∧
      u.idString = id := by
  have quiet : ¬telproxySyn <:+: [] := by decide
  obtain ⟨u, decodes, isType, isId⟩ :=
    TelProxyLogin.packet_decodes [] (by decide) quiet typed nonempty free (by omega)
  rw [List.nil_append, List.append_nil] at decodes
  refine ⟨⟨u, loginPackage_type decodes⟩, (accepted_eq_some_iff ..).mpr decodes, isType, ?_⟩
  rw [Card.idString, isId, List.take_of_length_le fits]

/-- Two packets with the id of a card, one of its own type and one of the other: the cards
they are taken for are like it and fit each other. -/
theorem Card.packets_fit (card : Card) (named : card.idString ≠ [] ∧ card.idString.length ≤ 63)
    {own other : UInt8} (typed : own = 1 ∨ own = 2) (typed' : other = 1 ∨ other = 2) (apart : other ≠ own)
    (same : card.val.type.toNat = own.toNat) :
    ∃ mine theirs : Card, Card.accepted (TelProxyLogin.packet own card.idString) = some mine ∧
      Card.accepted (TelProxyLogin.packet other card.idString) = some theirs ∧
      mine.Alike card ∧ theirs.Fits mine := by
  have free : 0 ∉ card.idString := fun member => cstr_nul_free _ 0 member rfl
  obtain ⟨mine, found, isType, isId⟩ := Card.accepted_packet typed named.1 free named.2
  obtain ⟨theirs, found', isType', isId'⟩ := Card.accepted_packet typed' named.1 free named.2
  refine ⟨mine, theirs, found, found', ⟨?_, isId⟩, ?_, isId'.trans isId.symm⟩
  · rw [← UInt32.toNat_inj, isType, same]
  · intro equal
    rw [equal, isType, UInt8.toNat_inj] at isType'
    exact apart isType'.symm

theorem Card.visit_packets (card : Card) (named : card.idString ≠ [] ∧ card.idString.length ≤ 63) :
    ∃ mine theirs : Card,
      Card.accepted (TelProxyLogin.packet card.val.type.toUInt8 card.idString) = some mine ∧
      Card.accepted (TelProxyLogin.packet (3 - card.val.type).toUInt8 card.idString) = some theirs ∧
      mine.Alike card ∧ theirs.Fits mine := by
  rcases card.property with type | type
  · rw [type]
    exact card.packets_fit named (.inl rfl) (.inr rfl) (by decide) (by rw [type]; rfl)
  · rw [type]
    exact card.packets_fit named (.inr rfl) (.inl rfl) (by decide) (by rw [type]; rfl)

theorem Relay.remove_visitors (free : v p = none) (free' : v q = none) (new theirs : Conn) {mine : Conn}
    (linked : mine.phase.peer = some q) :
    Relay.remove (Function.update (Function.update (Function.update v p (some new)) q (some theirs)) p
      (some mine)) p = v := by
  funext i
  rw [Relay.remove, PartialMap.Paired.remove_apply, Function.update_self, Option.bind_some, linked]
  by_cases isP : i = p
  · rw [if_pos (.inl isP), isP, free]
  · by_cases isQ : i = q
    · rw [isQ, if_pos (.inr rfl), free']
    · rw [if_neg (by simp [isP, Ne.symm isQ]), Function.update_of_ne isP, Function.update_of_ne isQ,
        Function.update_of_ne isP]

/-- A loop that goes on can raise any callback that is admissible, and goes on unless it is
a failed accept. -/
theorem World.Models.follow (models : w.Models cfg Phase.Fits v) (loop : w.broken = false) (label : Label)
    (admissible : label.event.Admissible w) (keeps : label.event.breaks = false) :
    ∃ w', LoopStep cfg w label w' ∧ w'.broken = false ∧
      w'.Models cfg Phase.Fits (v.next cfg w.m_sidCount label) := by
  obtain ⟨w', step⟩ := models.progress label admissible
  refine ⟨w', ⟨loop, step⟩, ?_, models.next Relay.fits_joins step⟩
  rw [models.represents.broken_next step, loop, keeps]
  rfl

theorem World.Models.comes (models : w.Models cfg Phase.Fits v) (loop : w.broken = false)
    (free : v p = none) (f : Int) {packet : List UInt8} (size : packet.length = 84)
    (accepted : Card.accepted packet = some card) :
    ∃ w₁ w₂ c v₂, LoopStep cfg w ⟨.listenerCb (some p) f, .ideal 0⟩ w₁ ∧ w₁.stateOf p = some .raw ∧
      LoopStep cfg w₁ ⟨.connReadcb p packet, .ideal 0⟩ w₂ ∧ w₂.broken = false ∧
      w₂.Models cfg Phase.Fits v₂ ∧ c.phase = .raw ∧
      Relay.LoginStep (fun _ => true) p card (Function.update v p (some c))
        (c.receive (.ideal 0) packet) v₂ := by
  obtain ⟨w₁, step₁, loop₁, models₁⟩ := models.follow loop ⟨.listenerCb (some p) f, .ideal 0⟩ (by
    rintro _ ⟨⟩
    exact models.represents.free_iff.mpr free) rfl
  let c := Conn.fresh cfg (.ideal 0) w.m_sidCount f
  change w₁.Models cfg Phase.Fits (Function.update v p (some c)) at models₁
  have present := Function.update_self p (some c) v
  obtain ⟨w₂, step₂, loop₂, models₂⟩ := models₁.follow loop₁ ⟨.connReadcb p packet, .ideal 0⟩ (by
    refine ⟨models₁.represents.live_iff.mpr ?_, List.ne_nil_of_length_pos (by omega)⟩
    rw [present, Option.isSome_some]) rfl
  have taken : c.taken packet = packet :=
    List.take_of_length_le (show packet.length ≤ 4096 by omega)
  refine ⟨w₁, w₂, c, _, step₁, ?_, step₂, loop₂, models₂, rfl, ?_⟩
  · rw [models₁.represents.stateOf, Relay.state_present present]
    rfl
  · exact Relay.read_logs present rfl (taken.symm ▸ accepted) (Env.ideal_succeeds 0 0)

/-- A visit below everybody who waits with the card's kind ends in a pair and leaves the
relay as it was. -/
theorem visited (models : w.Models cfg Phase.Fits v) (loop : w.broken = false) (present : v b = some c)
    (waiting : c.phase = .waiting card) (named : card.idString ≠ [] ∧ card.idString.length ≤ 63)
    (free : v p = none) (free' : v q = none) (apart : p ≠ q)
    (low : ∀ i t u, v i = some t → t.phase = .waiting u → u.Alike card → p < i) (f g : Int) (n : Nat) :
    ∃ w', Run ((pairings card.idString).step (LoopStep cfg)) (w, n) (visit p q f g card.val) (w', n + 1) ∧
      w'.broken = false ∧ w'.Models cfg Phase.Fits v := by
  obtain ⟨mine, theirs, logs, logs', alike, fit⟩ := card.visit_packets named
  -- the first waits, since anybody who waited for it would have met the card
  obtain ⟨w₁, w₂, c₁, v₂, step₁, raw₁, step₂, loop₂, models₂, raw, login⟩ :=
    models.comes loop free f (TelProxyLogin.packet_length _ (by omega)) logs
  obtain ⟨new, at₂, waits⟩ : ∃ new, v₂ = Function.update v p (some new) ∧ new.phase = .waiting mine := by
    cases login with
    | waits nobody => exact ⟨_, Function.update_idem .., rfl⟩
    | binds least =>
      obtain ⟨t, u, found, theirs, fits⟩ := (Relay.waits_accepted free raw).mp least.1
      exact absurd ⟨t, u, found, theirs, (fits.symm.alike alike.symm).symm⟩
        (models.settled b c card present waiting _)
  subst at₂
  -- the second meets the first, which lies below everybody else who waits
  have free₂ : Function.update v p (some new) q = none := by rw [Function.update_of_ne apart.symm, free']
  obtain ⟨w₃, w₄, c₃, v₄, step₃, raw₃, step₄, loop₄, models₄, fresh, login⟩ :=
    models₂.comes loop₂ free₂ g (TelProxyLogin.packet_length _ (by omega)) logs'
  have least : IsLeast
      {r | Relay.Waits (Function.update (Function.update v p (some new)) q (some c₃)) theirs r} p := by
    constructor
    · exact (Relay.waits_accepted free₂ fresh).mpr ⟨new, mine, Function.update_self .., waits, fit⟩
    · intro r rival
      obtain ⟨t, u, found, waits', fits⟩ := (Relay.waits_accepted free₂ fresh).mp rival
      by_cases here : r = p
      · rw [here]
      · rw [Function.update_of_ne here] at found
        exact (low r t u found waits' ((fits.both fit).trans alike)).le
  obtain ⟨mine', theirs', at₄, bound, card₄, linked⟩ : ∃ mine' theirs' : Conn,
      v₄ = Function.update (Function.update (Function.update v p (some new)) q (some theirs')) p
          (some mine') ∧
        theirs'.phase.state = .bind ∧ theirs'.phase.card = some theirs ∧ mine'.phase.peer = some q := by
    cases login with
    | waits nobody => exact absurd least.1 (nobody p)
    | binds least' =>
      obtain rfl := least.unique least'
      exact ⟨_, _, by rw [Function.update_idem], rfl, rfl, rfl⟩
  subst at₄
  have atP : Function.update (Function.update (Function.update v p (some new)) q (some theirs')) p
      (some mine') p = some mine' := Function.update_self ..
  have atQ : Function.update (Function.update (Function.update v p (some new)) q (some theirs')) p
      (some mine') q = some theirs' := by rw [Function.update_of_ne apart.symm, Function.update_self]
  -- and both leave
  obtain ⟨w₅, step₅, loop₅, models₅⟩ := models₄.follow loop₄ ⟨.connEventcb p bevEventEof, .ideal 0⟩ (by
    refine models₄.represents.live_iff.mpr ?_
    rw [atP, Option.isSome_some]) rfl
  have models' : w₅.Models cfg Phase.Fits v := by
    rw [← Relay.remove_visitors free free' new theirs' linked]
    exact models₅
  have counts₂ : n = pairings card.idString w₁
      ⟨.connReadcb p (TelProxyLogin.packet card.val.type.toUInt8 card.idString), .ideal 0⟩ w₂ n := by
    have state : w₂.stateOf p = some .login := by
      rw [models₂.represents.stateOf, Relay.state_present (Function.update_self ..), waits]
      rfl
    simp [pairings, state]
  have counts₄ : n + 1 = pairings card.idString w₃
      ⟨.connReadcb q (TelProxyLogin.packet (3 - card.val.type).toUInt8 card.idString), .ideal 0⟩ w₄ n := by
    have state : w₄.stateOf q = some .bind := by
      rw [models₄.represents.stateOf, Relay.state_present atQ, bound]
    have id : w₄.idOf q = some card.idString := by
      rw [models₄.idOf, Relay.card_present atQ, card₄, Option.map_some, fit.2, alike.2]
    exact (if_pos ⟨raw₃, state, id⟩).symm
  have comes₁ : Run ((pairings card.idString).step (LoopStep cfg)) (w, n) _ (w₁, n) := .single ⟨step₁, rfl⟩
  have waits₂ := comes₁.snoc (u := (w₂, n)) ⟨step₂, counts₂⟩
  have comes₃ := waits₂.snoc (u := (w₃, n)) ⟨step₃, rfl⟩
  have meets₄ := comes₃.snoc (u := (w₄, n + 1)) ⟨step₄, counts₄⟩
  exact ⟨w₅, meets₄.snoc ⟨step₅, rfl⟩, loop₅, models'⟩

theorem visits (models : w.Models cfg Phase.Fits v) (loop : w.broken = false) (present : v b = some c)
    (waiting : c.phase = .waiting card) (named : card.idString ≠ [] ∧ card.idString.length ≤ 63)
    (free : v p = none) (free' : v q = none) (apart : p ≠ q)
    (low : ∀ i t u, v i = some t → t.phase = .waiting u → u.Alike card → p < i) (f g : Int) (n k : Nat) :
    ∃ w', Run ((pairings card.idString).step (LoopStep cfg)) (w, k)
        (List.replicate n (visit p q f g card.val)).flatten (w', k + n) ∧ w'.Models cfg Phase.Fits v := by
  induction n generalizing w k with
  | zero => exact ⟨w, .refl, models⟩
  | succ n ih =>
    obtain ⟨w₁, once, loop₁, models₁⟩ := visited models loop present waiting named free free' apart low f g k
    obtain ⟨w', more, models'⟩ := ih models₁ loop₁ (k + 1)
    refine ⟨w', ?_, models'⟩
    rw [List.replicate_succ, List.flatten_cons, show k + (n + 1) = k + 1 + n by omega]
    exact once.trans more

/-- Where addresses come back, no number of matches is enough: whoever waits can see any
number of pairs with its own id come, meet and leave at addresses below it, and everything
is then as it was, as long as the loop is not broken. -/
theorem passed_over {s : Session} {x : UCard} (run : Run (Step cfg) World.init labels w)
    (loop : w.broken = false) (found : w.sessionAt b = some s) (waits : s.m_state = .login)
    (held : s.m_meetee0.userData = some x) (free : p ∉ w.m_bsMap) (free' : q ∉ w.m_bsMap) (apart : p ≠ q)
    (low : ∀ i t y, w.sessionAt i = some t → t.m_state = .login → t.m_meetee0.userData = some y →
      y.type = x.type → cstr y.id.val = cstr x.id.val → p < i) (f g : Int) (n : Nat) :
    ∃ w', Run ((pairings (cstr x.id.val)).step (LoopStep cfg)) (w, 0)
        (List.replicate n (visit p q f g x)).flatten (w', n) ∧
      ∀ i, w'.observe i = w.observe i := by
  obtain ⟨v, models, named⟩ : ∃ v, w.Models cfg Phase.Fits v ∧ v.Named := by
    refine run.invariant (fun w => ∃ v, w.Models cfg Phase.Fits v ∧ v.Named) ?_
      ⟨_, .init, fun _ _ _ impossible => nomatch impossible⟩
    rintro w label w' ⟨v, models, named⟩ step
    exact ⟨_, models.next Relay.fits_joins step, named.next models.paired⟩
  have absent {i : BevPtr} (out : i ∉ w.m_bsMap) : v i = none := by
    rwa [models.represents.mem_iff, Option.not_isSome_iff_eq_none] at out
  rw [models.represents.sessionAt] at found
  obtain ⟨c, present, rfl⟩ := Option.map_eq_some_iff.mp found
  obtain ⟨card, waiting⟩ := Phase.state_eq_login.mp waits
  simp only [Conn.session, waiting, Phase.card, Option.map_some, Option.some.injEq] at held
  subst held
  have below : ∀ i t u, v i = some t → t.phase = .waiting u → u.Alike card → p < i := by
    intro i t u there waits' alike
    refine low i (t.session cfg i) u.val ?_ ?_ ?_ alike.1 alike.2
    · rw [models.represents.sessionAt, there, Option.map_some]
    · rw [Conn.session, waits']
      rfl
    · rw [Conn.session, waits']
      rfl
  have names := named b c card present (by rw [waiting]; rfl)
  obtain ⟨w', more, models'⟩ :=
    visits models loop present waiting names (absent free) (absent free') apart below f g n 0
  refine ⟨w', by rwa [Nat.zero_add] at more, fun i => ?_⟩
  rw [models'.observe, models.observe]

end Visits

theorem passed_over_waitingDevices : ∃ w', Run ((pairings [65]).step (LoopStep none))
    (World.after none waitingDevices, 0)
    (List.replicate 1000 (visit 1 2 7 8 ⟨1, strncpy 64 [65]⟩)).flatten (w', 1000) ∧
      w'.observe 5 = (World.after none waitingDevices).observe 5 := by
  have run := run_after none waitingDevices (by decide +kernel)
  have waits : (World.after none waitingDevices).sessionAt 5 =
      some ⟨2, 0, 360, .login, ⟨some 5, some ⟨1, strncpy 64 [65]⟩⟩, ⟨none, none⟩⟩ := by decide +kernel
  have above : ∀ i ∈ (World.after none waitingDevices).m_bsMap.keys, 1 < i := by decide +kernel
  have free : 1 ∉ (World.after none waitingDevices).m_bsMap := by decide +kernel
  have free' : 2 ∉ (World.after none waitingDevices).m_bsMap := by decide +kernel
  have loop : (World.after none waitingDevices).broken = false := by decide +kernel
  obtain ⟨w', more, same⟩ := passed_over run loop waits rfl rfl free free' (by decide) (by
    intro i t y found _ _ _ _
    obtain ⟨entry, there, _⟩ := Option.bind_eq_some_iff.mp found
    exact above i (World.mem_keys there)) 7 8 1000
  exact ⟨w', more, same 5⟩

end RemoteServer
