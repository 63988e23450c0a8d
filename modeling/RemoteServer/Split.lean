import RemoteServer.Ledger
import RemoteServer.Ownership

/-! How the outcome of a login depends on the way TCP cuts the stream. Nothing is
carried from one read to the next but the session, so a packet counts only if one
chunk holds all of it, and the rest of that chunk is dropped. -/
namespace RemoteServer
open Bytes Transition PartialMap

/-- Successive read callbacks on `b`, with nothing in between and no failing call. -/
inductive Reads (cfg : Option Configure) (b : BevPtr) : World → List (List UInt8) → World → Prop where
  | nil {w : World} : Reads cfg b w [] w
  | cons {first second last : World} {chunk : List UInt8} {rest : List (List UInt8)} {env : Env} :
      Step cfg first ⟨.connReadcb b chunk, env⟩ second → env.Succeeds → chunk.length ≤ 4096 →
      Reads cfg b second rest last → Reads cfg b first (chunk :: rest) last

/-- No chunk is longer than one `bufferevent_read` takes. -/
def Event.Bounded : Event → Prop
  | .connReadcb _ chunk => chunk.length ≤ 4096
  | _ => True

/-- The card of the first chunk that by itself is a login, and the bytes after it. -/
def loginSplit : List (List UInt8) → Option (UCard × List UInt8)
  | [] => none
  | chunk :: rest =>
    match loginPackage chunk with
    | .ok (some card) => some (card, rest.flatten)
    | _ => loginSplit rest

/-- A session that waits for a partner with this card. -/
def World.Waits (w : World) (card : UCard) (q : BevPtr) : Prop :=
  ∃ t u, w.sessionAt q = some t ∧ t.m_state = .login ∧ t.m_meetee0.userData = some u ∧ card.Match u

/-- Between the two states every connection has been sent these bytes, whether or not its
socket has taken them. -/
def World.Sent (w w' : World) (sent : BevPtr → List UInt8) : Prop :=
  ∀ q x, w.bevs q = some x →
    ∃ x', w'.bevs q = some x' ∧ x'.sent ++ x'.output = x.sent ++ x.output ++ sent q

/-- The state, card and peer of a session that was raw, and what every connection has
been sent, after a stream with the given login. -/
inductive SplitOutcome (w : World) (b : BevPtr) : Option (UCard × List UInt8) → SessionState →
    Option UCard → Option BevPtr → (BevPtr → List UInt8) → Prop where
  | raw : SplitOutcome w b none .raw none none fun _ => []
  | waits {card : UCard} {rest : List UInt8} : (∀ q, ¬w.Waits card q) →
      SplitOutcome w b (some (card, rest)) .login (some card) none fun _ => []
  | binds {card : UCard} {rest : List UInt8} {q : BevPtr} : IsLeast {q | w.Waits card q} q →
      SplitOutcome w b (some (card, rest)) .bind (some card) (some q) fun i =>
        if i = q then telproxyOk ++ rest else if i = b then telproxyOk else []

namespace Relay
variable {v v₁ v' : Relay} {R : Phase → Phase → Prop} {b q : BevPtr} {c : Conn} {cfg : Option Configure}
  {sent sent' : BevPtr → List UInt8} {data chunk : List UInt8} {env : Env}

def Drained (v : Relay) : Prop := ∀ b c, v b = some c → c.line.input = []

theorem Drained.taken (drained : v.Drained) (present : v b = some c) (short : chunk.length ≤ 4096) :
    c.taken chunk = chunk := by
  rw [Conn.taken, drained b c present, List.nil_append, List.take_of_length_le short]

theorem Drained.next (paired : v.Paired R) (drained : v.Drained) (sid : Int) (label : Label)
    (bounded : label.event.Bounded) : (v.next cfg sid label).Drained := by
  intro i new found
  have received {c : Conn} {chunk : List UInt8} (present : v i = some c)
      (reads : label.event = .connReadcb i chunk) : (c.receive label.env chunk).line.input = [] := by
    rw [reads] at bounded
    simp only [Conn.receive, drained i c present, List.nil_append]
    exact List.drop_eq_nil_of_le bounded
  have step := conn_step paired cfg sid label found
  cases step with
  | accept => rfl
  | stay present => exact drained i new present
  | drop present reads => exact received present reads
  | wait present reads => exact received present reads
  | «match» present reads => exact (append_input ..).trans (received present reads)
  | matched present => exact (append_input ..).trans (drained i _ present)
  | relay present reads => exact received present reads
  | relayed present => exact (append_input ..).trans (drained i _ present)
  | @idle c events present =>
    have kept := drained i c present
    exact kept
  | @drain c n present =>
    have kept := drained i c present
    exact kept

/-- `World.Sent`, as the relay sees it. -/
def Sent (v v' : Relay) (sent : BevPtr → List UInt8) : Prop :=
  ∀ q c, v q = some c → ∃ c', v' q = some c' ∧ c'.line.written = c.line.written ++ sent q

theorem Sent.refl : v.Sent v fun _ => [] := by
  intro q c present
  exact ⟨c, present, (List.append_nil _).symm⟩

theorem Sent.trans (first : v.Sent v₁ sent) (second : v₁.Sent v' sent') :
    v.Sent v' fun q => sent q ++ sent' q := by
  intro q c present
  obtain ⟨c₁, present₁, written₁⟩ := first q c present
  obtain ⟨c', present', written⟩ := second q c₁ present₁
  refine ⟨c', present', ?_⟩
  rw [written, written₁, List.append_assoc]

theorem Sent.modify {f : Conn → Conn} (v : Relay) (b : BevPtr)
    (writes : ∀ c, (f c).line.written = c.line.written ++ data) :
    v.Sent (modify v b f) fun q => if q = b then data else [] := by
  intro q c present
  by_cases here : q = b
  · subst here
    refine ⟨f c, modify_present present f, ?_⟩
    simp only [if_true, writes]
  · refine ⟨c, (modify_of_ne here v f).trans present, ?_⟩
    simp only [if_neg here, List.append_nil]

theorem Sent.receive (env : Env) (chunk : List UInt8) (v : Relay) (b : BevPtr) :
    v.Sent (PartialMap.modify v b (Conn.receive env chunk)) fun _ => [] := by
  have received : v.Sent (PartialMap.modify v b (Conn.receive env chunk)) fun q => if q = b then [] else [] :=
    Sent.modify v b fun c => (List.append_nil c.line.written).symm
  simpa only [ite_self] using received

theorem Sent.forward (v : Relay) (b q : BevPtr) (data : List UInt8) :
    v.Sent (v.forward true b q data) fun i => if i = q then data else [] := by
  have activated : v.Sent (PartialMap.modify v b Conn.active) fun i => if i = b then [] else [] :=
    Sent.modify v b fun c => (List.append_nil c.line.written).symm
  have written : Sent (PartialMap.modify v b Conn.active) (v.forward true b q data) fun i =>
      if i = q then data else [] := Sent.modify _ q fun c => append_written c.line true data
  simpa only [ite_self, List.nil_append] using activated.trans written

theorem Sent.login (present : v b = some c) (card : Card) (env : Env) (chunk : List UInt8) :
    v.Sent (Function.update v b (some ((c.receive env chunk).login card))) fun _ => [] := by
  intro i t there
  by_cases here : i = b
  · subst here
    obtain rfl := Option.some.inj (present.symm.trans there)
    exact ⟨_, Function.update_self .., (List.append_nil _).symm⟩
  · exact ⟨t, (Function.update_of_ne here ..).trans there, (List.append_nil _).symm⟩

theorem Sent.met {t : Conn} (present : v b = some c) (partner : v q = some t) (card u : Card)
    (mine yours : Option Card) (env : Env) (chunk : List UInt8) :
    v.Sent (Function.update (Function.update v b (some ((c.receive env chunk).met card q mine true))) q
      (some (t.met u b yours true))) fun i => if i = q then telproxyOk else if i = b then telproxyOk else [] := by
  intro i d there
  by_cases isQ : i = q
  · subst isQ
    obtain rfl := Option.some.inj (partner.symm.trans there)
    refine ⟨_, Function.update_self .., ?_⟩
    simp only [if_true]
    exact append_written t.line true telproxyOk
  · by_cases isB : i = b
    · subst isB
      obtain rfl := Option.some.inj (present.symm.trans there)
      refine ⟨_, (Function.update_of_ne isQ ..).trans (Function.update_self ..), ?_⟩
      simp only [if_neg isQ, if_true]
      exact append_written (c.receive env chunk).line true telproxyOk
    · refine ⟨d, ?_, ?_⟩
      · rw [Function.update_of_ne isQ, Function.update_of_ne isB, there]
      · simp only [if_neg isQ, if_neg isB, List.append_nil]

/-- Only a raw connection changes phase when it is read, and only what a bound one sends
is sent on. -/
theorem read_kept (paired : v.Paired R) (drained : v.Drained) (present : v b = some c)
    (short : chunk.length ≤ 4096) (succeeds : env.Succeeds) (logged : c.phase ≠ .raw) :
    ∃ c', v.read env b chunk b = some c' ∧ c'.phase = c.phase ∧
      v.Sent (v.read env b chunk) fun q => if c.phase.peer = some q then chunk else [] := by
  have step := v.read_step env b chunk
  generalize v.read env b chunk = w at step
  cases step with
  | absent missing => rw [present] at missing; contradiction
  | @ignored a found single =>
    obtain rfl := Option.some.inj (present.symm.trans found)
    refine ⟨_, modify_present present _, rfl, ?_⟩
    simpa only [single, reduceCtorEq, if_false] using Sent.receive env chunk v b
  | @login a card found raw =>
    obtain rfl := Option.some.inj (present.symm.trans found)
    exact absurd raw logged
  | @forward a card p pc found bound =>
    obtain rfl := Option.some.inj (present.symm.trans found)
    have apart := (paired b c p present (congrArg Phase.peer bound)).1
    refine ⟨(c.receive env chunk).active, ?_, rfl, ?_⟩
    · rw [forward, modify_modify]
      exact modify_first present apart.symm _ _
    · rw [drained.taken present short, succeeds 0, bound]
      have relayed := (Sent.receive env chunk v b).trans (Sent.forward _ b p chunk)
      simpa only [List.nil_append, Phase.peer, Option.some.injEq, eq_comm] using relayed

end Relay

variable {cfg : Option Configure} {w w' first last : World} {b q : BevPtr} {v v' : Relay}
  {chunks : List (List UInt8)} {c : Conn} {sent sent' : BevPtr → List UInt8}
  {split : Option (UCard × List UInt8)}

theorem World.Models.waits_iff {R : Phase → Phase → Prop} (models : w.Models cfg R v) (card : Card) :
    w.Waits card.val q ↔ v.Waits card q := by
  constructor
  · rintro ⟨t, u, session, waits, own, fit⟩
    rw [models.represents.sessionAt] at session
    obtain ⟨d, present, rfl⟩ := Option.map_eq_some_iff.mp session
    obtain ⟨theirs, phase⟩ := Phase.state_eq_login.mp waits
    simp only [Conn.session, phase, Phase.card, Option.map_some, Option.some.injEq] at own
    subst own
    exact ⟨d, theirs, present, phase, (Card.match_iff card theirs).mp fit⟩
  · rintro ⟨d, u, present, phase, fit⟩
    refine ⟨d.session cfg q, u.val, ?_, ?_, ?_, (Card.match_iff card u).mpr fit⟩
    · rw [models.represents.sessionAt, present, Option.map_some]
    · rw [Conn.session, phase]
      rfl
    · rw [Conn.session, phase]
      rfl

theorem World.Models.sends {R : Phase → Phase → Prop} (models : w.Models cfg R v)
    (models' : w'.Models cfg R v') (sends : v.Sent v' sent) : w.Sent w' sent := by
  intro q x live
  rw [models.represents.bevs] at live
  obtain ⟨c, present, rfl⟩ := Option.map_eq_some_iff.mp live
  obtain ⟨c', present', written⟩ := sends q c present
  exact ⟨c'.line, by rw [models'.represents.bevs, present', Option.map_some], written⟩

theorem World.waits_congr (same : w.sessionAt q = w'.sessionAt q) (card : UCard) :
    w.Waits card q ↔ w'.Waits card q := by
  rw [World.Waits, World.Waits, same]

theorem SplitOutcome.congr (same : ∀ q, w.sessionAt q = w'.sessionAt q)
    (outcome : SplitOutcome w' b split state card peer sent) : SplitOutcome w b split state card peer sent := by
  cases outcome with
  | raw => exact .raw
  | waits nobody => exact .waits fun q => (World.waits_congr (same q) _).not.mpr (nobody q)
  | binds least =>
    apply SplitOutcome.binds
    simpa only [World.waits_congr (same _)] using least

/-- A connection that has logged in keeps its phase, and all of its input is sent to its
peer from the moment it is bound. -/
theorem Reads.kept (reads : Reads cfg b first chunks last) (models : first.Models cfg Phase.Fits v)
    (drained : v.Drained) (present : v b = some c) (logged : c.phase ≠ .raw) :
    ∃ v' c', last.Models cfg Phase.Fits v' ∧ v' b = some c' ∧ c'.phase = c.phase ∧
      v.Sent v' fun q => if c.phase.peer = some q then chunks.flatten else [] := by
  induction reads generalizing v c with
  | nil =>
    refine ⟨v, c, models, present, rfl, ?_⟩
    simpa only [List.flatten_nil, ite_self] using Relay.Sent.refl
  | @cons first second last chunk rest env step succeeds short _ ih =>
    have models' : second.Models cfg Phase.Fits (v.read env b chunk) := models.next Relay.fits_joins step
    have drained' : Relay.Drained (v.read env b chunk) :=
      @Relay.Drained.next v _ cfg models.paired drained first.m_sidCount ⟨.connReadcb b chunk, env⟩ short
    obtain ⟨c₁, present₁, same, sends⟩ :=
      Relay.read_kept models.paired drained present short succeeds logged
    obtain ⟨v', c', models'', present', phase, sends'⟩ := ih models' drained' present₁ (by rwa [same])
    refine ⟨v', c', models'', present', phase.trans same, ?_⟩
    have both := sends.trans sends'
    rw [same] at both
    have joined : (fun q => (if c.phase.peer = some q then chunk else []) ++
        if c.phase.peer = some q then rest.flatten else []) =
        fun q => if c.phase.peer = some q then (chunk :: rest).flatten else [] := by
      funext q
      split <;> rfl
    rwa [joined] at both

/-- What becomes of a raw connection depends on the cut only through `loginSplit`. -/
theorem Reads.outcome (reads : Reads cfg b first chunks last) (models : first.Models cfg Phase.Fits v)
    (drained : v.Drained) (present : v b = some c) (raw : c.phase = .raw) :
    ∃ v' c' sent, last.Models cfg Phase.Fits v' ∧ v' b = some c' ∧ v.Sent v' sent ∧
      SplitOutcome first b (loginSplit chunks) c'.phase.state (c'.phase.card.map (·.val)) c'.phase.peer
        sent := by
  induction reads generalizing v c with
  | nil =>
    refine ⟨v, c, _, models, present, .refl, ?_⟩
    rw [raw]
    exact .raw
  | @cons first second last chunk rest env step succeeds short later ih =>
    have models' : second.Models cfg Phase.Fits (v.read env b chunk) := models.next Relay.fits_joins step
    have drained' : Relay.Drained (v.read env b chunk) :=
      @Relay.Drained.next v _ cfg models.paired drained first.m_sidCount ⟨.connReadcb b chunk, env⟩ short
    have step := v.read_step env b chunk
    generalize v.read env b chunk = v₁ at step models' drained'
    cases step with
    | absent missing => rw [present] at missing; contradiction
    | @ignored a found single rejects =>
      obtain rfl := Option.some.inj (present.symm.trans found)
      have rejected : loginPackage chunk = .ok none := by
        rcases rejects raw with rejected | failed
        · rwa [drained.taken present short, Card.accepted_eq_none_iff] at rejected
        · rw [succeeds 0] at failed
          contradiction
      obtain ⟨v', c', sent, models'', present', sends, outcome⟩ :=
        ih models' drained' (modify_present present _) raw
      have sends' : v.Sent v' sent := by
        simpa only [List.nil_append] using (Relay.Sent.receive env chunk v b).trans sends
      refine ⟨v', c', sent, models'', present', sends', ?_⟩
      rw [loginSplit, rejected]
      refine outcome.congr fun q => ?_
      rw [models.represents.sessionAt, models'.represents.sessionAt, modify_apply]
      split
      · rename_i here
        subst here
        rw [Option.map_map]
        rfl
      · rfl
    | @login a card found _ accepted recorded =>
      obtain rfl := Option.some.inj (present.symm.trans found)
      rw [drained.taken present short, Card.accepted_eq_some_iff] at accepted
      have split : loginSplit (chunk :: rest) = some (card.val, rest.flatten) := by
        rw [loginSplit, accepted]
      have login := Relay.received_login_step env chunk card present raw
      generalize Relay.login _ env.outcome b card = v₂ at login models' drained'
      have waits (q : BevPtr) : v.Waits card q ↔ first.Waits card.val q := (models.waits_iff card).symm
      rw [split]
      cases login with
      | waits nobody =>
        obtain ⟨v', c', models'', present', phase, sends⟩ :=
          later.kept models' drained' (Function.update_self ..) (by simp [Conn.login])
        have sends' : v.Sent v' fun _ => [] := by
          simpa [Conn.login, Phase.peer] using (Relay.Sent.login present card env chunk).trans sends
        refine ⟨v', c', _, models'', present', sends', ?_⟩
        rw [phase]
        exact .waits fun q => (waits q).not.mp (nobody q)
      | @binds q t u least apart partner theirs fit =>
        obtain ⟨v', c', models'', present', phase, sends⟩ :=
          later.kept models' drained' ((Function.update_of_ne apart.symm ..).trans (Function.update_self ..))
            (by simp [Conn.met])
        simp only [succeeds 3, succeeds 4] at sends
        have told := (Relay.Sent.met present partner card u _ _ env chunk).trans sends
        have joined : (fun i => (if i = q then telproxyOk else if i = b then telproxyOk else []) ++
            if some q = some i then rest.flatten else []) =
            fun i => if i = q then telproxyOk ++ rest.flatten else if i = b then telproxyOk else [] := by
          funext i
          by_cases isQ : i = q
          · simp [isQ]
          · simp [isQ, Ne.symm isQ]
        refine ⟨v', c', _, models'', present', joined ▸ told, ?_⟩
        rw [phase]
        simp only [waits] at least
        exact .binds least
    | @forward a card p pc found bound =>
      obtain rfl := Option.some.inj (present.symm.trans found)
      rw [raw] at bound
      contradiction

theorem SplitOutcome.unique (one : SplitOutcome w b split state card peer sent)
    (two : SplitOutcome w b split state' card' peer' sent') :
    state = state' ∧ card = card' ∧ peer = peer' ∧ sent = sent' := by
  cases one with
  | raw => cases two; exact ⟨rfl, rfl, rfl, rfl⟩
  | waits nobody =>
    cases two with
    | waits => exact ⟨rfl, rfl, rfl, rfl⟩
    | binds least => exact absurd least.1 (nobody _)
  | binds least =>
    cases two with
    | waits nobody => exact absurd least.1 (nobody _)
    | binds least' =>
      obtain rfl := least.unique least'
      exact ⟨rfl, rfl, rfl, rfl⟩

theorem SplitOutcome.state_raw_iff (outcome : SplitOutcome w b split state card peer sent) :
    state = .raw ↔ split = none := by
  cases outcome <;> simp

theorem reachable_drained (run : Run (Step cfg) World.init labels w)
    (bounded : ∀ label ∈ labels, label.event.Bounded) :
    ∃ v, w.Models cfg Phase.Fits v ∧ v.Drained := by
  refine run.invariant_of (fun w => ∃ v, w.Models cfg Phase.Fits v ∧ v.Drained) ?_ bounded
    ⟨_, .init, fun _ _ impossible => nomatch impossible⟩
  rintro w label w' ⟨v, models, drained⟩ bounded step
  exact ⟨_, models.next Relay.fits_joins step, drained.next models.paired w.m_sidCount label bounded⟩

theorem split_outcome (run : Run (Step cfg) World.init labels w)
    (bounded : ∀ label ∈ labels, label.event.Bounded) (state : w.stateOf b = some .raw)
    (reads : Reads cfg b w chunks w') :
    ∃ s sent, w'.sessionAt b = some s ∧ w.Sent w' sent ∧ SplitOutcome w b (loginSplit chunks) s.m_state
      s.m_meetee0.userData s.m_meetee1.bev sent := by
  obtain ⟨v, models, drained⟩ := reachable_drained run bounded
  rw [models.represents.stateOf] at state
  obtain ⟨c, present, raw⟩ := Option.map_eq_some_iff.mp state
  have raw : c.phase = .raw := Phase.state_eq_raw.mp raw
  obtain ⟨v', c', sent, models', present', sends, outcome⟩ := reads.outcome models drained present raw
  refine ⟨c'.session cfg b, sent, ?_, models.sends models' sends, outcome⟩
  rw [models'.represents.sessionAt, present', Option.map_some]

/-- Two ways of cutting what a raw connection sends lead to the same state, card and
peer, and to the same bytes for every connection, if their first chunks that are logins
by themselves have the same card and the same bytes after them. The peer is sent
`telnet-ok` and these bytes. -/
theorem same_login_same_outcome (run : Run (Step cfg) World.init labels w)
    (bounded : ∀ label ∈ labels, label.event.Bounded) (state : w.stateOf b = some .raw)
    (one : Reads cfg b w chunks w₁) (two : Reads cfg b w chunks' w₂)
    (same : loginSplit chunks = loginSplit chunks') :
    ∃ s₁ s₂ sent, w₁.sessionAt b = some s₁ ∧ w₂.sessionAt b = some s₂ ∧
      SplitOutcome w b (loginSplit chunks) s₁.m_state s₁.m_meetee0.userData s₁.m_meetee1.bev sent ∧
      w.Sent w₁ sent ∧ w.Sent w₂ sent ∧ s₁.m_state = s₂.m_state ∧
      s₁.m_meetee0.userData = s₂.m_meetee0.userData ∧ s₁.m_meetee1.bev = s₂.m_meetee1.bev := by
  obtain ⟨s₁, sent₁, session₁, sends₁, outcome₁⟩ := split_outcome run bounded state one
  obtain ⟨s₂, sent₂, session₂, sends₂, outcome₂⟩ := split_outcome run bounded state two
  obtain ⟨states, cards, peers, rfl⟩ := outcome₁.unique (same ▸ outcome₂)
  exact ⟨s₁, s₂, sent₁, session₁, session₂, outcome₁, sends₁, sends₂, states, cards, peers⟩

theorem reads_exist (cfg : Option Configure) (b : BevPtr) (first : World) (chunks : List (List UInt8))
    (models : first.Models cfg Phase.Fits v) (live : (v b).isSome)
    (sized : ∀ chunk ∈ chunks, chunk ≠ [] ∧ chunk.length ≤ 4096) :
    ∃ last, Reads cfg b first chunks last := by
  induction chunks generalizing first v with
  | nil => exact ⟨first, .nil⟩
  | cons chunk rest ih =>
    obtain ⟨nonempty, short⟩ := sized chunk List.mem_cons_self
    obtain ⟨second, step⟩ := models.progress ⟨.connReadcb b chunk, .ideal 0⟩
      ⟨models.represents.live_iff.mpr live, nonempty⟩
    have models' : second.Models cfg Phase.Fits (v.read (.ideal 0) b chunk) :=
      models.next Relay.fits_joins step
    have live' : (v.read (.ideal 0) b chunk b).isSome := by rwa [Relay.read_isSome]
    obtain ⟨last, reads⟩ :=
      ih second models' live' fun other member => sized other (List.mem_cons_of_mem _ member)
    exact ⟨last, .cons step (fun _ => rfl) short reads⟩

/-- The client 5 waits with the id `A`, and the connection 7 is new. -/
def clientWaits : List Label :=
  [⟨.listenerCb (some 5) 3, .ideal 0⟩, ⟨.connReadcb 5 (TelProxyLogin.packet 2 [65]), .ideal 0⟩,
    ⟨.listenerCb (some 7) 4, .ideal 0⟩]

theorem clientWaits_run : Run (Step none) World.init clientWaits (World.after none clientWaits) :=
  run_after none clientWaits (by decide +kernel)

theorem clientWaits_bounded : ∀ label ∈ clientWaits, label.event.Bounded := by
  simp [clientWaits, Event.Bounded]
  decide

theorem clientWaits_raw : (World.after none clientWaits).stateOf 7 = some .raw := by
  decide +kernel

theorem clientWaits_reads (chunks : List (List UInt8))
    (sized : ∀ chunk ∈ chunks, chunk ≠ [] ∧ chunk.length ≤ 4096) :
    ∃ last, Reads none 7 (World.after none clientWaits) chunks last := by
  obtain ⟨v, models, _⟩ := reachable_drained clientWaits_run clientWaits_bounded
  have live : (v 7).isSome := by
    rw [← models.represents.live_iff]
    decide +kernel
  exact reads_exist none 7 (World.after none clientWaits) chunks models live sized

theorem clientWaits_least : IsLeast {q | (World.after none clientWaits).Waits ⟨1, strncpy 64 [65]⟩ q} 5 := by
  have client : (World.after none clientWaits).sessionAt 5 =
      some ⟨1, 0, 360, .login, ⟨some 5, some ⟨2, strncpy 64 [65]⟩⟩, ⟨none, none⟩⟩ := by decide +kernel
  have keys : ∀ q ∈ (World.after none clientWaits).m_bsMap.keys, 5 ≤ q := by decide +kernel
  constructor
  · exact ⟨_, _, client, rfl, rfl, .inl ⟨rfl, rfl⟩, rfl⟩
  · rintro q ⟨t, _, session, _⟩
    obtain ⟨p, entry, _⟩ := Option.bind_eq_some_iff.mp session
    exact keys q (World.mem_keys entry)

/-- One byte rides with the device's packet and is dropped. Two more follow, in one chunk
or in two, and reach the client after its `telnet-ok`. -/
theorem same_login_same_outcome_clientWaits :
    ∃ w₁ w₂ x x₁ x₂,
      Reads none 7 (World.after none clientWaits) [TelProxyLogin.packet 1 [65] ++ [1], [2, 3]] w₁ ∧
      Reads none 7 (World.after none clientWaits) [TelProxyLogin.packet 1 [65] ++ [1], [2], [3]] w₂ ∧
      (World.after none clientWaits).bevs 5 = some x ∧ w₁.bevs 5 = some x₁ ∧ w₂.bevs 5 = some x₂ ∧
      x₁.sent ++ x₁.output = x.sent ++ x.output ++ (telproxyOk ++ [2, 3]) ∧
      x₂.sent ++ x₂.output = x.sent ++ x.output ++ (telproxyOk ++ [2, 3]) := by
  obtain ⟨w₁, one⟩ := clientWaits_reads [TelProxyLogin.packet 1 [65] ++ [1], [2, 3]] (by decide)
  obtain ⟨w₂, two⟩ := clientWaits_reads [TelProxyLogin.packet 1 [65] ++ [1], [2], [3]] (by decide)
  obtain ⟨s₁, s₂, sent, _, _, outcome, sends₁, sends₂, _⟩ :=
    same_login_same_outcome clientWaits_run clientWaits_bounded clientWaits_raw one two (by decide +kernel)
  have split : loginSplit [TelProxyLogin.packet 1 [65] ++ [1], [2, 3]] =
      some (⟨1, strncpy 64 [65]⟩, [2, 3]) := by decide +kernel
  obtain ⟨x, live⟩ : ∃ x, (World.after none clientWaits).bevs 5 = some x :=
    Option.isSome_iff_exists.mp (by decide +kernel)
  obtain ⟨x₁, live₁, written₁⟩ := sends₁ 5 x live
  obtain ⟨x₂, live₂, written₂⟩ := sends₂ 5 x live
  have relayed : sent 5 = telproxyOk ++ [2, 3] := by
    rw [split] at outcome
    generalize s₁.m_state = state, s₁.m_meetee0.userData = card, s₁.m_meetee1.bev = peer at outcome
    cases outcome with
    | waits nobody => exact absurd clientWaits_least.1 (nobody 5)
    | binds least =>
      obtain rfl := least.unique clientWaits_least
      rfl
  rw [relayed] at written₁ written₂
  exact ⟨w₁, w₂, x, x₁, x₂, one, two, live, live₁, live₂, written₁, written₂⟩

/-- The outcome depends on the byte stream, not on how it is cut. -/
def SplitInvariant (cfg : Option Configure) : Prop :=
  ∀ labels w b chunks chunks' w₁ w₂ s₁ s₂, Run (Step cfg) World.init labels w →
    (∀ label ∈ labels, label.event.Bounded) → w.stateOf b = some .raw →
    Reads cfg b w chunks w₁ → Reads cfg b w chunks' w₂ → chunks.flatten = chunks'.flatten →
    w₁.sessionAt b = some s₁ → w₂.sessionAt b = some s₂ →
    s₁.m_state = s₂.m_state ∧ s₁.m_meetee0.userData = s₂.m_meetee0.userData ∧
      s₁.m_meetee1.bev = s₂.m_meetee1.bev ∧
      ∀ q x₁ x₂, s₁.m_meetee1.bev = some q → w₁.bevs q = some x₁ → w₂.bevs q = some x₂ →
        x₁.sent ++ x₁.output = x₂.sent ++ x₂.output

theorem not_splitInvariant : ¬SplitInvariant none := by
  intro invariant
  let packet := TelProxyLogin.packet 1 [65]
  obtain ⟨w₁, whole⟩ := clientWaits_reads [packet] (by decide)
  obtain ⟨w₂, pieces⟩ := clientWaits_reads [packet.take 50, packet.drop 50] (by decide)
  obtain ⟨s₁, _, session₁, _, outcome₁⟩ :=
    split_outcome clientWaits_run clientWaits_bounded clientWaits_raw whole
  obtain ⟨s₂, _, session₂, _, outcome₂⟩ :=
    split_outcome clientWaits_run clientWaits_bounded clientWaits_raw pieces
  have same := invariant _ _ 7 _ _ w₁ w₂ s₁ s₂ clientWaits_run clientWaits_bounded clientWaits_raw whole
    pieces (by decide) session₁ session₂
  have stays : s₂.m_state = .raw := outcome₂.state_raw_iff.mpr (by decide +kernel)
  have logs : loginSplit [packet] = none := outcome₁.state_raw_iff.mp (same.1.trans stays)
  revert logs
  decide +kernel

end RemoteServer
