import RemoteServer.Relay

/-! The two invariants of the relay: bound connections come in pairs whose
records agree, and no two connections wait for each other. -/
namespace RemoteServer
open PartialMap

/-- What the connections satisfy between callbacks; `R` relates the phases of a
bound pair. -/
def Relay.Paired (R : Phase → Phase → Prop) (v : Relay) : Prop :=
  PartialMap.Paired (·.phase.peer) (fun c d => R c.phase d.phase) v

/-- The cards of the two phases fit. -/
def Phase.Fits (a b : Phase) : Prop := ∃ card u, a.card = some card ∧ b.card = some u ∧ card.Fits u

/-- The first phase holds a copy of the second one's card. -/
def Phase.Knows (a b : Phase) : Prop := a.peerCard = b.card

/-- Fitting cards, each end with a copy of the other's. -/
def Phase.Agrees (a b : Phase) : Prop := a.Fits b ∧ a.Knows b

namespace Relay
variable {v : Relay} {R : Phase → Phase → Prop} {b q : BevPtr} {c t : Conn} {card u : Card}
  {outcome : Nat → Bool}

/-- `R` holds between the two records that a match writes. -/
def Joins (R : Phase → Phase → Prop) (outcome : Nat → Bool) : Prop :=
  ∀ card u b q, Card.Fits card u →
    R (.bound card q (if outcome 1 then some u else none))
      (.bound u b (if outcome 2 then some card else none)) ∧
    R (.bound u b (if outcome 2 then some card else none))
      (.bound card q (if outcome 1 then some u else none))

theorem fits_joins : Joins Phase.Fits outcome := fun card u _ _ fit =>
  ⟨⟨card, u, rfl, rfl, fit⟩, ⟨u, card, rfl, rfl, fit.symm⟩⟩

theorem knows_joins (succeeds : ∀ n, outcome n = true) : Joins Phase.Knows outcome := by
  intro card u b q _
  simp [Phase.Knows, Phase.peerCard, Phase.card, succeeds]

theorem agrees_joins (succeeds : ∀ n, outcome n = true) : Joins Phase.Agrees outcome := by
  intro card u b q fit
  have fits := @fits_joins outcome card u b q fit
  have knows := knows_joins succeeds card u b q fit
  exact ⟨⟨fits.1, knows.1⟩, fits.2, knows.2⟩

theorem append_input (x : Bufferevent) (success : Bool) (data : List UInt8) :
    (x.append success data).input = x.input := by
  cases success <;> rfl

theorem phase_of_peer {phase : Phase} (linked : phase.peer = some q) :
    ∃ card pc, phase = .bound card q pc := by
  cases phase with
  | raw => contradiction
  | waiting card => contradiction
  | bound card p pc =>
    obtain rfl := Option.some.inj linked
    exact ⟨card, pc, rfl⟩

theorem Paired.modify (paired : v.Paired R) (f : Conn → Conn)
    (same : ∀ c, (f c).phase = c.phase) : Relay.Paired R (modify v b f) := by
  refine PartialMap.Paired.modify paired f (fun c => ?_) (fun c d h => ?_) (fun c d h => ?_)
  · rw [same]
  · rwa [same]
  · rwa [same]

/-- A live connection is not being accepted. -/
theorem not_accepts {event : Event} (present : v b = some c)
    (fresh : ∀ q fd, event = .listenerCb (some q) fd → v q = none) : ¬event.accepts b := by
  rw [Event.accepts_iff]
  rintro ⟨fd, accepts⟩
  rw [fresh b fd accepts] at present
  contradiction

theorem Paired.fresh (paired : v.Paired R) (free : v b = none) (cfg : Option Configure) (env : Env)
    (sid fd : Int) : Relay.Paired R (Function.update v b (some (Conn.fresh cfg env sid fd))) :=
  PartialMap.Paired.insert paired free rfl

/-- `join` on two waiting connections, spelled out. -/
theorem join_eq (outcome : Nat → Bool) (first : v b = some c) (second : v q = some t) (apart : b ≠ q) :
    v.join outcome b q = Function.update (Function.update v b
        (some ((c.bind q (if outcome 1 then t.phase.card else none)).send (outcome 3) telproxyOk)))
      q (some ((t.bind b (if outcome 2 then c.phase.card else none)).send (outcome 4) telproxyOk)) := by
  have other : PartialMap.modify v b (fun c =>
      (c.bind q (if outcome 1 then v.card q else none)).send (outcome 3) telproxyOk) q = some t := by
    rw [modify_of_ne apart.symm, second]
  rw [join, modify_some other, modify_some first]
  simp only [Relay.card, first, second, Option.bind_some]

/-- Whoever is chosen as a partner waits, for a card that fits. -/
theorem partner_waits (chosen : v.partner card = some q) : v.Waits card q :=
  (partner_eq_some_iff.mp chosen).1

/-- Whether a connection waits for a card can be read off its phase. -/
theorem waits_iff : v.Waits card q ↔ ∃ u, (v q).map (·.phase) = some (.waiting u) ∧ card.Fits u := by
  constructor
  · rintro ⟨t, u, found, theirs, fit⟩
    exact ⟨u, by rw [found, Option.map_some, theirs], fit⟩
  · rintro ⟨u, phase, fit⟩
    obtain ⟨t, found, theirs⟩ := Option.map_eq_some_iff.mp phase
    exact ⟨t, u, found, theirs, fit⟩

theorem phase_modify (f : Conn → Conn) (same : ∀ c, (f c).phase = c.phase) (q : BevPtr) :
    (PartialMap.modify v b f q).map (·.phase) = (v q).map (·.phase) := by
  rw [modify_apply]
  split
  · rename_i here
    rw [here, Option.map_map, show (fun c : Conn => c.phase) ∘ f = fun c => c.phase from funext same]
  · rfl

theorem waits_modify (f : Conn → Conn) (same : ∀ c, (f c).phase = c.phase) :
    Waits (PartialMap.modify v b f) card q ↔ v.Waits card q := by
  rw [waits_iff, waits_iff, phase_modify f same]

theorem peer_modify (f : Conn → Conn) (same : ∀ c, (f c).phase = c.phase) (q : BevPtr) :
    Relay.peer (PartialMap.modify v b f) q = v.peer q := by
  have phases := congrArg (Option.bind · Phase.peer) (phase_modify (v := v) (b := b) f same q)
  simpa only [Relay.peer, Option.bind_map, Function.comp_def] using phases

theorem waits_login_iff (present : v b = some c) (raw : c.phase = .raw) :
    Waits (PartialMap.modify v b (Conn.login card)) card q ↔ v.Waits card q := by
  by_cases here : q = b
  · subst q
    apply iff_of_false
    · rintro ⟨t, u, found, theirs, fit⟩
      obtain rfl := Option.some.inj ((modify_present present _).symm.trans found)
      obtain rfl := Phase.waiting.inj theirs
      exact Card.not_fits_self _ fit
    · rintro ⟨t, u, found, theirs, _⟩
      obtain rfl := Option.some.inj (present.symm.trans found)
      rw [raw] at theirs
      contradiction
  · simp only [Waits, modify_of_ne here]

theorem Waits.ne (waits : v.Waits card q) (present : v b = some c) (raw : c.phase = .raw) : q ≠ b := by
  rintro rfl
  obtain ⟨t, u, found, theirs, _⟩ := waits
  obtain rfl := Option.some.inj (present.symm.trans found)
  rw [raw] at theirs
  contradiction

/-- Everything a login can do to the connections: the new one waits when nobody
waits for it, and is bound to the least connection that does otherwise. -/
inductive LoginStep (outcome : Nat → Bool) (b : BevPtr) (card : Card) (v : Relay) (c : Conn) :
    Relay → Prop where
  | waits : (∀ q, ¬v.Waits card q) →
      LoginStep outcome b card v c (Function.update v b (some (c.login card)))
  | binds {q : BevPtr} {t : Conn} {u : Card} : IsLeast {q | v.Waits card q} q → q ≠ b →
      v q = some t → t.phase = .waiting u → card.Fits u →
      LoginStep outcome b card v c (Function.update (Function.update v b
          (some (c.met card q (if outcome 1 then some u else none) (outcome 3))))
        q (some (t.met u b (if outcome 2 then some card else none) (outcome 4))))

theorem login_step (outcome : Nat → Bool) (card : Card) (present : v b = some c)
    (raw : c.phase = .raw) :
    LoginStep outcome b card v c (v.login outcome b card) := by
  cases chosen : Relay.partner (PartialMap.modify v b (Conn.login card)) card with
  | none =>
    have nobody := partner_eq_none_iff.mp chosen
    simp only [waits_login_iff present raw] at nobody
    have waits : v.login outcome b card = PartialMap.modify v b (Conn.login card) := by
      simp only [Relay.login, chosen]
    rw [waits, modify_some present]
    exact .waits nobody
  | some q =>
    have least := partner_eq_some_iff.mp chosen
    simp only [waits_login_iff present raw] at least
    have apart := Waits.ne least.1 present raw
    obtain ⟨t, u, found, theirs, fit⟩ := least.1
    have joined := join_eq outcome (modify_present present (Conn.login card))
      ((modify_of_ne apart v _).trans found) apart.symm
    have mine : ((c.login card).bind q (if outcome 1 then t.phase.card else none)).send (outcome 3)
        telproxyOk = c.met card q (if outcome 1 then some u else none) (outcome 3) := by
      rw [theirs]
      rfl
    have yours : (t.bind b (if outcome 2 then (c.login card).phase.card else none)).send (outcome 4)
        telproxyOk = t.met u b (if outcome 2 then some card else none) (outcome 4) := by
      simp only [Conn.bind, Conn.send, Conn.met, theirs]
      rfl
    have binds : v.login outcome b card =
        Relay.join (PartialMap.modify v b (Conn.login card)) outcome b q := by
      simp only [Relay.login, chosen]
    rw [binds, joined, mine, yours, modify_some present, Function.update_idem]
    exact .binds least apart found theirs fit

/-- As `login_step`, for a login that has just been received. -/
theorem received_login_step (env : Env) (chunk : List UInt8) (card : Card) (present : v b = some c)
    (raw : c.phase = .raw) :
    LoginStep env.outcome b card v (c.receive env chunk)
      (Relay.login (PartialMap.modify v b (Conn.receive env chunk)) env.outcome b card) := by
  have waits (q : BevPtr) :
      Waits (PartialMap.modify v b (Conn.receive env chunk)) card q ↔ v.Waits card q :=
    waits_modify _ fun _ => rfl
  have step := login_step env.outcome card (modify_present present (Conn.receive env chunk)) raw
  rw [modify_some present] at step waits ⊢
  generalize Relay.login _ env.outcome b card = w at step ⊢
  cases step with
  | waits nobody =>
    simp only [waits] at nobody
    rw [Function.update_idem]
    exact .waits nobody
  | binds least apart partner theirs fit =>
    simp only [waits] at least
    rw [Function.update_of_ne apart] at partner
    rw [Function.update_idem]
    exact .binds least apart partner theirs fit

theorem Paired.login (paired : v.Paired R) (joins : Joins R outcome) (present : v b = some c)
    (raw : c.phase = .raw) : Relay.Paired R (v.login outcome b card) := by
  have step := login_step outcome card present raw
  generalize v.login outcome b card = w at step
  have single : c.phase.peer = none := by rw [raw]; rfl
  cases step with
  | waits => exact PartialMap.Paired.update_single paired present single rfl
  | @binds q t u _ apart found theirs fit =>
    have related := joins card u b q fit
    exact PartialMap.Paired.join paired present found apart.symm single (by rw [theirs]; rfl) rfl rfl
      related.1 related.2

theorem Paired.forward (paired : v.Paired R) (success : Bool) (b p : BevPtr) (data : List UInt8) :
    Relay.Paired R (v.forward success b p data) :=
  Paired.modify (paired.modify Conn.active fun _ => rfl) (Conn.send success data) fun _ => rfl

theorem Paired.read (paired : v.Paired R) (env : Env) (joins : Joins R env.outcome)
    (b : BevPtr) (chunk : List UInt8) : Relay.Paired R (v.read env b chunk) := by
  have received : Relay.Paired R (PartialMap.modify v b (Conn.receive env chunk)) :=
    paired.modify _ fun _ => rfl
  have step := v.read_step env b chunk
  generalize v.read env b chunk = w at step
  cases step with
  | absent => exact paired
  | ignored => exact received
  | login present raw => exact received.login joins (modify_present present _) raw
  | forward => exact received.forward _ _ _ _

/-- The idle test of a timeout: forty seconds count for the connection itself,
none for its peer. -/
theorem timedOut_inactive_iff (paired : v.Paired R) (present : v b = some c) (cfg : Option Configure)
    (env : Env) :
    TimedOut cfg (PartialMap.modify v b (Conn.inactive env)) b ↔
      c.phase.limit cfg ≤ c.idle + 40 ∧
        ∀ q t, c.phase.peer = some q → v q = some t → t.phase.limit cfg ≤ t.idle := by
  have mine := modify_present present (Conn.inactive env)
  have linked : Relay.peer (PartialMap.modify v b (Conn.inactive env)) b = c.phase.peer := by
    rw [Relay.peer, mine, Option.bind_some]
    rfl
  rw [TimedOut, linked]
  apply and_congr
  · simp [Expired, mine, Conn.inactive]
  · constructor
    · intro expired q t toQ found
      have apart := (paired b c q present toQ).1
      exact expired q toQ t ((modify_of_ne apart _ _).trans found)
    · intro expired q toQ t found
      have apart := (paired b c q present toQ).1
      exact expired q t toQ ((modify_of_ne apart _ _).symm.trans found)

theorem Paired.event (paired : v.Paired R) (cfg : Option Configure) (env : Env) (b : BevPtr)
    (events : BitVec 16) : Relay.Paired R (v.event cfg env b events) := by
  have kept : Relay.Paired R (PartialMap.modify v b (Conn.inactive env)) :=
    paired.modify _ fun _ => rfl
  have step := v.event_step cfg env b events
  generalize v.event cfg env b events = w at step
  cases step with
  | quiet => exact paired
  | closed => exact PartialMap.Paired.remove paired b
  | idle => exact kept
  | expired => exact PartialMap.Paired.remove kept b

theorem Paired.next (paired : v.Paired R) (cfg : Option Configure) (sid : Int) (label : Label)
    (joins : Joins R label.env.outcome)
    (fresh : ∀ b fd, label.event = .listenerCb (some b) fd → v b = none) :
    Relay.Paired R (v.next cfg sid label) := by
  unfold Relay.next
  split
  · exact paired
  · rename_i b fd accepts
    exact paired.fresh (fresh b fd accepts) _ _ _ _
  · exact paired.read _ joins _ _
  · exact paired.event _ _ _ _
  · exact paired.modify _ fun _ => rfl

/-- No two connections wait for each other. -/
def Settled (v : Relay) : Prop :=
  ∀ b c card, v b = some c → c.phase = .waiting card → ∀ q, ¬v.Waits card q

theorem Settled.of_waiting {w : Relay} (settled : v.Settled)
    (old : ∀ b c card, w b = some c → c.phase = .waiting card →
      ∃ c', v b = some c' ∧ c'.phase = .waiting card) : w.Settled := by
  rintro b c card present waits q ⟨t, u, found, theirs, fit⟩
  obtain ⟨c', before, waits'⟩ := old b c card present waits
  obtain ⟨t', before', theirs'⟩ := old q t u found theirs
  exact settled b c' card before waits' q ⟨t', u, before', theirs', fit⟩

theorem Settled.modify (settled : v.Settled) (b : BevPtr) (f : Conn → Conn)
    (same : ∀ c, (f c).phase = c.phase) : Relay.Settled (modify v b f) := by
  apply settled.of_waiting
  intro i c card present waits
  obtain ⟨old, before, rfl⟩ := modify_eq_some present
  refine ⟨old, before, ?_⟩
  split at waits
  · rwa [same] at waits
  · exact waits

theorem Settled.remove (settled : v.Settled) (b : BevPtr) : (v.remove b).Settled := by
  apply settled.of_waiting
  intro i c card present waits
  rw [Relay.remove, Paired.remove_apply] at present
  split at present
  · contradiction
  · exact ⟨c, present, waits⟩

/-- A login leaves nobody waiting for anybody: it ends in a pair whenever there is
someone to pair with. -/
theorem Settled.login (settled : v.Settled) (present : v b = some c) (raw : c.phase = .raw) :
    (v.login outcome b card).Settled := by
  have step := login_step outcome card present raw
  generalize v.login outcome b card = w at step
  cases step with
  | waits nobody =>
    intro i a other found waits q rival
    obtain ⟨t, u, atQ, theirs, fit⟩ := rival
    by_cases isB : i = b
    · subst i
      rw [Function.update_self, Option.some.injEq] at found
      subst found
      obtain rfl := Phase.waiting.inj waits
      have apart : q ≠ b := by
        rintro rfl
        rw [Function.update_self, Option.some.injEq] at atQ
        subst atQ
        obtain rfl := Phase.waiting.inj theirs
        exact Card.not_fits_self _ fit
      rw [Function.update_of_ne apart] at atQ
      exact nobody q ⟨t, u, atQ, theirs, fit⟩
    · rw [Function.update_of_ne isB] at found
      by_cases qIsB : q = b
      · subst q
        rw [Function.update_self, Option.some.injEq] at atQ
        subst atQ
        obtain rfl := Phase.waiting.inj theirs
        exact nobody i ⟨a, other, found, waits, fit.symm⟩
      · rw [Function.update_of_ne qIsB] at atQ
        exact settled i a other found waits q ⟨t, u, atQ, theirs, fit⟩
  | @binds q =>
    apply settled.of_waiting
    intro i a other found waits
    by_cases isQ : i = q
    · subst i
      rw [Function.update_self, Option.some.injEq] at found
      subst found
      contradiction
    · rw [Function.update_of_ne isQ] at found
      by_cases isB : i = b
      · subst i
        rw [Function.update_self, Option.some.injEq] at found
        subst found
        contradiction
      · rw [Function.update_of_ne isB] at found
        exact ⟨a, found, waits⟩

theorem Settled.forward (settled : v.Settled) (success : Bool) (b p : BevPtr)
    (data : List UInt8) : Relay.Settled (v.forward success b p data) :=
  Settled.modify (settled.modify b Conn.active fun _ => rfl) p (Conn.send success data) fun _ => rfl

theorem Settled.read (settled : v.Settled) (env : Env) (b : BevPtr) (chunk : List UInt8) :
    Relay.Settled (v.read env b chunk) := by
  have received : Relay.Settled (PartialMap.modify v b (Conn.receive env chunk)) :=
    settled.modify _ _ fun _ => rfl
  have step := v.read_step env b chunk
  generalize v.read env b chunk = w at step
  cases step with
  | absent => exact settled
  | ignored => exact received
  | login present raw => exact received.login (modify_present present _) raw
  | forward => exact received.forward _ _ _ _

theorem Settled.event (settled : v.Settled) (cfg : Option Configure) (env : Env) (b : BevPtr)
    (events : BitVec 16) : Relay.Settled (v.event cfg env b events) := by
  have kept : Relay.Settled (PartialMap.modify v b (Conn.inactive env)) :=
    settled.modify _ _ fun _ => rfl
  have step := v.event_step cfg env b events
  generalize v.event cfg env b events = w at step
  cases step with
  | quiet => exact settled
  | closed => exact settled.remove b
  | idle => exact kept
  | expired => exact kept.remove b

theorem Settled.next (settled : v.Settled) (cfg : Option Configure) (sid : Int) (label : Label) :
    Relay.Settled (v.next cfg sid label) := by
  unfold Relay.next
  split
  · exact settled
  · rename_i b fd accepts
    apply settled.of_waiting
    intro i c card present waits
    by_cases new : i = b
    · subst i
      rw [Function.update_self, Option.some.injEq] at present
      subst present
      contradiction
    · rw [Function.update_of_ne new] at present
      exact ⟨c, present, waits⟩
  · exact settled.read _ _ _
  · exact settled.event _ _ _ _
  · exact settled.modify _ _ fun _ => rfl

end Relay
end RemoteServer
