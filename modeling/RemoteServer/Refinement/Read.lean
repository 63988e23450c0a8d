import RemoteServer.Representation

/-! The server refines the relay: on a state that represents a relay every
callback runs to its end without touching anything freed, and what it leaves
represents the relay's next state. -/
namespace RemoteServer
open PartialMap

/-- `w'` comes after `n` more fallible calls that read and free nothing. -/
structure World.After (n : Nat) (w w' : World) : Prop where
  env : w'.env = w.env
  calls : w'.calls = w.calls + n
  reads : w'.reads = w.reads
  freed : w'.freed = w.freed
  bsMap : w'.m_bsMap = w.m_bsMap

theorem World.After.trans {w₁ w₂ w₃ : World} (first : After n w₁ w₂) (second : After m w₂ w₃) :
    After (n + m) w₁ w₃ where
  env := second.env.trans first.env
  calls := by rw [second.calls, first.calls, Nat.add_assoc]
  reads := second.reads.trans first.reads
  freed := second.freed.trans first.freed
  bsMap := second.bsMap.trans first.bsMap

/-- The session-level test of `Session::match` on two connections. -/
theorem Conn.meets_iff (cfg : Option Configure) (b q : BevPtr) (c t : Conn) :
    (c.session cfg b).Meets (t.session cfg q) ↔
      ∃ card u, c.phase = .waiting card ∧ t.phase = .waiting u ∧ card.Fits u := by
  simp only [Session.Meets, Conn.session, Phase.state_eq_login]
  constructor
  · rintro ⟨⟨card, mine⟩, ⟨u, theirs⟩, my, their, own, other, fit⟩
    simp only [mine, theirs, Phase.card, Option.map_some, Option.some.injEq] at own other
    subst own other
    exact ⟨card, u, mine, theirs, (Card.compatible_iff card u).mp fit⟩
  · rintro ⟨card, u, mine, theirs, fit⟩
    refine ⟨⟨card, mine⟩, ⟨u, theirs⟩, card.val, u.val, ?_, ?_, (Card.compatible_iff card u).mpr fit⟩
    · rw [mine]; rfl
    · rw [theirs]; rfl

namespace Represents
variable {cfg : Option Configure} {w w' : World} {v : Relay} {b q : BevPtr} {p peer : SessionPtr}
  {c t : Conn} {card u : Card} {R : Phase → Phase → Prop}

theorem tick (r : Represents cfg w v) : Represents cfg w.tick v := r.congr rfl rfl rfl rfl

theorem write (r : Represents cfg w v) (present : v b = some c) (data : List UInt8) :
    ∃ ret w', buffereventWrite b data w = .ok (ret, w') ∧
      Represents cfg w' (modify v b (Conn.send (w.env.outcome w.calls) data)) ∧ w.After 1 w' := by
  obtain ⟨p, entry, live, bev⟩ := r.entry present
  refine ⟨_, _, buffereventWrite_apply bev data, ?_, ⟨rfl, rfl, rfl, rfl, rfl⟩⟩
  exact r.tick.putBev present (Conn.send (w.env.outcome w.calls) data) rfl

theorem announce (r : Represents cfg w v) (present : v b = some c) (entry : w.m_bsMap[b]? = some p)
    (linked : c.phase.peer = some q) (apart : q ≠ b) (partner : v q = some t) :
    ∃ w', RemoteServer.announce p w = .ok ((), w') ∧
      Represents cfg w' (modify (modify v b (Conn.send (w.env.outcome w.calls) telproxyOk))
        q (Conn.send (w.env.outcome (w.calls + 1)) telproxyOk)) ∧ w.After 2 w' := by
  have live := (r.lookup present entry).1
  obtain ⟨_, w₁, first, r₁, after₁⟩ := r.write present telproxyOk
  have partner₁ : modify v b (Conn.send (w.env.outcome w.calls) telproxyOk) q = some t := by
    rw [modify_of_ne apart, partner]
  obtain ⟨_, w₂, second, r₂, after₂⟩ := r₁.write partner₁ telproxyOk
  rw [after₁.env, after₁.calls] at r₂
  refine ⟨w₂, ?_, r₂, after₁.trans after₂⟩
  rw [RemoteServer.announce, Exec.bind_ok (Session.getBev_own live),
    Exec.bind_ok (Session.getBev_peer live)]
  simp only [Conn.session, linked]
  rw [Exec.bind_ok first, Exec.bind_ok second]
  rfl

/-- Nobody waits for the card: `TcpContainer::match` tries everyone and fails. -/
theorem match_alone (r : Represents cfg w v) (present : v b = some c)
    (entry : w.m_bsMap[b]? = some p) (waits : c.phase = .waiting card)
    (alone : v.partner card = none) : TcpContainer.match cfg p w = .ok (-1, w) := by
  apply TcpContainer.match_fails
  intro i p' entry'
  obtain ⟨t, found⟩ := r.key entry'
  apply Session.match_fails (r.lookup present entry).1 (r.lookup found entry').1
  · simp [Conn.session, waits, Phase.card]
  · rw [Conn.meets_iff]
    rintro ⟨card', u, mine, theirs, fit⟩
    obtain rfl := Phase.waiting.inj (waits.symm.trans mine)
    exact Relay.partner_eq_none_iff.mp alone i ⟨t, u, found, theirs, fit⟩

/-- The least connection that waits for the card is bound. -/
theorem match_partner (r : Represents cfg w v) (present : v b = some c)
    (entry : w.m_bsMap[b]? = some p) (waits : c.phase = .waiting card)
    (chosen : v.partner card = some q) :
    ∃ w', TcpContainer.match cfg p w = .ok (0, w') ∧
      Represents cfg w' (modify
        (modify v b (Conn.bind q (if w.env.outcome w.calls then v.card q else none)))
        q (Conn.bind b (if w.env.outcome (w.calls + 1) then v.card b else none))) ∧ w.After 2 w' := by
  have least := Relay.partner_eq_some_iff.mp chosen
  obtain ⟨t, u, found, theirs, fit⟩ := least.1
  obtain ⟨peer, entry', live', _⟩ := r.entry found
  have live := (r.lookup present entry).1
  have cardB : v.card b = some card := by rw [Relay.card_present present, waits]; rfl
  have cardQ : v.card q = some u := by rw [Relay.card_present found, theirs]; rfl
  have apart : q ≠ b := by
    rintro rfl
    obtain rfl := Option.some.inj (present.symm.trans found)
    obtain rfl := Phase.waiting.inj (waits.symm.trans theirs)
    exact Card.not_fits_self _ fit
  have distinct : p ≠ peer := by
    rintro rfl
    exact apart (r.key_unique entry' entry)
  have binds := Session.match_succeeds cfg live live' distinct
    ⟨by simp [Conn.session, waits, Phase.state], by simp [Conn.session, theirs, Phase.state]⟩
    (show (c.session cfg b).m_meetee0.userData = some card.val by simp [Conn.session, waits, Phase.card])
    (show (t.session cfg q).m_meetee0.userData = some u.val by simp [Conn.session, theirs, Phase.card])
    ((Card.compatible_iff card u).mpr fit) rfl rfl
  have bound₁ := r.tick.tick.putSession present entry
    (Conn.bind q (if w.env.outcome w.calls then v.card q else none)) rfl
  have found₁ : modify v b (Conn.bind q (if w.env.outcome w.calls then v.card q else none)) q =
      some t := by
    rw [modify_of_ne apart, found]
  have bound₂ := bound₁.putSession found₁ entry'
    (Conn.bind b (if w.env.outcome (w.calls + 1) then v.card b else none)) rfl
  have mine : (c.bind q (if w.env.outcome w.calls then v.card q else none)).session cfg b =
      (c.session cfg b).bound cfg q (if w.env.outcome w.calls then some u.val else none) := by
    rw [cardQ]
    cases w.env.outcome w.calls <;> simp [Conn.bind, Conn.session, waits, Phase.bind, Session.bound,
      Phase.limit, Phase.state, Phase.card, Phase.peer, Phase.peerCard]
  have yours : (t.bind b (if w.env.outcome (w.calls + 1) then v.card b else none)).session cfg q =
      (t.session cfg q).bound cfg b
        (if w.env.outcome (w.calls + 1) then some card.val else none) := by
    rw [cardB]
    cases w.env.outcome (w.calls + 1) <;> simp [Conn.bind, Conn.session, theirs, Phase.bind,
      Session.bound, Phase.limit, Phase.state, Phase.card, Phase.peer, Phase.peerCard]
  rw [mine, yours] at bound₂
  refine ⟨_, ?_, bound₂, ⟨rfl, rfl, rfl, rfl, rfl⟩⟩
  have ownAfter := Function.update_of_ne distinct
    (some ((t.session cfg q).bound cfg b (if w.env.outcome (w.calls + 1) then some card.val else none)))
    (Function.update w.tick.tick.sessions p (some ((c.session cfg b).bound cfg q
      (if w.env.outcome w.calls then some u.val else none))))
  rw [Function.update_self] at ownAfter
  refine TcpContainer.match_finds entry' ?_ binds ownAfter World.putSession_self
  intro i p' below entryI
  obtain ⟨d, foundI⟩ := r.key entryI
  apply Session.match_fails live (r.lookup foundI entryI).1
  · simp [Conn.session, waits, Phase.card]
  · rw [Conn.meets_iff]
    rintro ⟨card', u', mine', theirs', fit'⟩
    obtain rfl := Phase.waiting.inj (waits.symm.trans mine')
    exact absurd (least.2 ⟨d, u', foundI, theirs', fit'⟩) (Nat.not_le.mpr below)

/-- `join` binds both sides first and tells them afterwards. -/
theorem join_split (v : Relay) (outcome : Nat → Bool) (apart : q ≠ b) :
    v.join outcome b q = modify (modify (modify
        (modify v b (Conn.bind q (if outcome 1 then v.card q else none)))
        q (Conn.bind b (if outcome 2 then v.card b else none)))
      b (Conn.send (outcome 3) telproxyOk)) q (Conn.send (outcome 4) telproxyOk) := by
  rw [modify_comm apart, modify_modify, modify_modify]
  rfl

theorem login (r : Represents cfg w v) (present : v b = some c) (entry : w.m_bsMap[b]? = some p)
    (raw : c.phase = .raw) (start : w.calls = 0) (nonempty : data ≠ [])
    (accepted : Card.accepted data = some card) (recorded : w.env.outcome 0 = true) :
    ∃ w', RemoteServer.dispatch cfg p data w = .ok (0, w') ∧
      Represents cfg w' (v.login w.env.outcome b card) ∧
      w'.reads = w.reads ∧ w'.freed = w.freed := by
  have live := (r.lookup present entry).1
  have state : (c.session cfg b).m_state = .raw := by simp [Conn.session, raw, Phase.state]
  have package := (Card.accepted_eq_some_iff data card).mp accepted
  have logsIn := Session.login_accepted cfg live nonempty state package
  rw [start, recorded, if_pos rfl] at logsIn
  have same : (c.login card).session cfg b = (c.session cfg b).loggedIn cfg card.val := by
    simp [Conn.login, Conn.session, raw, Session.loggedIn, Phase.limit, Phase.state, Phase.card,
      Phase.peer, Phase.peerCard]
  have r₁ := r.tick.putSession present entry (Conn.login card) rfl
  rw [same] at r₁
  have present₁ := modify_present present (Conn.login card)
  simp only [RemoteServer.dispatch]
  rw [Exec.bind_ok (Session.getSessionState_apply live), state]
  simp only
  rw [Exec.bind_ok logsIn, if_pos rfl]
  cases chosen : Relay.partner (modify v b (Conn.login card)) card with
  | none =>
    rw [Exec.bind_ok (r₁.match_alone present₁ entry rfl chosen)]
    refine ⟨_, rfl, ?_, rfl, rfl⟩
    simpa only [Relay.login, chosen] using r₁
  | some q =>
    obtain ⟨t, u, found, theirs, fit⟩ := Relay.partner_waits chosen
    have apart : q ≠ b := by
      rintro rfl
      obtain rfl := Option.some.inj (present₁.symm.trans found)
      obtain rfl := Phase.waiting.inj theirs
      exact Card.not_fits_self _ fit
    obtain ⟨w₂, matches', r₂, after₂⟩ := r₁.match_partner present₁ entry rfl chosen
    simp only [World.putSession_env, World.tick_env, World.putSession_calls, World.tick_calls,
      start] at r₂ after₂
    have present₂ := modify_first present₁ apart.symm
      (Conn.bind q (if w.env.outcome 1 then Relay.card (modify v b (Conn.login card)) q else none))
      (Conn.bind b (if w.env.outcome 2 then Relay.card (modify v b (Conn.login card)) b else none))
    have found₂ := modify_second found apart.symm
      (Conn.bind q (if w.env.outcome 1 then Relay.card (modify v b (Conn.login card)) q else none))
      (Conn.bind b (if w.env.outcome 2 then Relay.card (modify v b (Conn.login card)) b else none))
    obtain ⟨w₃, tells, r₃, after₃⟩ :=
      r₂.announce present₂ (after₂.bsMap ▸ entry) rfl apart found₂
    have env : w₂.env = w.env := after₂.env
    have calls : w₂.calls = 3 := after₂.calls.trans (congrArg (· + 1 + 2) start)
    rw [env, calls] at r₃
    rw [Exec.bind_ok matches', if_pos rfl, Exec.bind_ok tells]
    refine ⟨w₃, rfl, ?_, after₃.reads.trans after₂.reads, after₃.freed.trans after₂.freed⟩
    simp only [Relay.login, chosen]
    rw [join_split _ _ apart]
    exact r₃

/-- A login that is rejected, or whose card finds no memory, changes nothing. -/
theorem reject (r : Represents cfg w v) (present : v b = some c) (entry : w.m_bsMap[b]? = some p)
    (raw : c.phase = .raw) (start : w.calls = 0) (nonempty : data ≠ [])
    (rejected : Card.accepted data = none ∨ w.env.outcome 0 = false) :
    ∃ w', RemoteServer.dispatch cfg p data w = .ok (0, w') ∧ Represents cfg w' v ∧
      w'.reads = w.reads ∧ w'.freed = w.freed := by
  have live := (r.lookup present entry).1
  have state : (c.session cfg b).m_state = .raw := by simp [Conn.session, raw, Phase.state]
  simp only [RemoteServer.dispatch]
  rw [Exec.bind_ok (Session.getSessionState_apply live), state]
  simp only
  cases accepted : Card.accepted data with
  | none =>
    have package := (Card.accepted_eq_none_iff data).mp accepted
    rw [Exec.bind_ok (Session.login_rejected live nonempty state package)]
    exact ⟨w, rfl, r, rfl, rfl⟩
  | some card =>
    have package := (Card.accepted_eq_some_iff data card).mp accepted
    have failed : w.env.outcome 0 = false := rejected.resolve_left (by rw [accepted]; simp)
    have fails := Session.login_accepted cfg live nonempty state package
    rw [start, failed, if_neg Bool.false_ne_true] at fails
    rw [Exec.bind_ok fails]
    refine ⟨_, rfl, ?_, rfl, rfl⟩
    have same := r.tick.putSession present entry id rfl
    rw [modify_id] at same
    simpa [Conn.session, raw, Phase.card] using same

theorem forward (r : Represents cfg w v) (present : v b = some c) (entry : w.m_bsMap[b]? = some p)
    (bound : c.phase = .bound card q pc) (apart : q ≠ b) (partner : v q = some t)
    (start : w.calls = 0) (nonempty : data ≠ []) :
    ∃ w', RemoteServer.dispatch cfg p data w = .ok (0, w') ∧
      Represents cfg w' (v.forward (w.env.outcome 0) b q data) ∧
      w'.reads = w.reads ∧ w'.freed = w.freed := by
  have live := (r.lookup present entry).1
  have state : (c.session cfg b).m_state = .bind := by simp [Conn.session, bound, Phase.state]
  obtain ⟨peer, entry', live', bev'⟩ := r.entry partner
  have relays := Session.business_bound live nonempty state
    (show (c.session cfg b).m_meetee1.bev = some q by simp [Conn.session, bound, Phase.peer]) bev'
  rw [start] at relays
  have active := r.tick.putSession present entry Conn.active rfl
  have sent := active.putBev ((modify_of_ne apart v _).trans partner)
    (Conn.send (w.env.outcome 0) data) rfl
  simp only [RemoteServer.dispatch]
  rw [Exec.bind_ok (Session.getSessionState_apply live), state]
  simp only
  rw [Exec.bind_ok relays]
  exact ⟨_, rfl, sent, rfl, rfl⟩

/-- What `processMessage` does with the data it has read. -/
theorem dispatch (r : Represents cfg w v) (paired : v.Paired R) (present : v b = some c)
    (entry : w.m_bsMap[b]? = some p) (start : w.calls = 0) (nonempty : data ≠ []) :
    ∃ w', RemoteServer.dispatch cfg p data w = .ok (0, w') ∧
      Represents cfg w' (v.dispatch w.env.outcome b c.phase data) ∧
      w'.reads = w.reads ∧ w'.freed = w.freed := by
  cases phase : c.phase with
  | raw =>
    simp only [Relay.dispatch]
    cases accepted : Card.accepted data with
    | none => exact r.reject present entry phase start nonempty (.inl accepted)
    | some card =>
      cases recorded : w.env.outcome 0 with
      | false => exact r.reject present entry phase start nonempty (.inr recorded)
      | true => exact r.login present entry phase start nonempty accepted recorded
  | waiting card =>
    have live := (r.lookup present entry).1
    simp only [RemoteServer.dispatch]
    rw [Exec.bind_ok (Session.getSessionState_apply live)]
    simp only [Conn.session, phase, Phase.state]
    exact ⟨w, rfl, r, rfl, rfl⟩
  | bound card q pc =>
    obtain ⟨apart, t, partner, _⟩ := paired b c q present (show c.phase.peer = some q by rw [phase]; rfl)
    exact r.forward present entry phase apart partner start nonempty

theorem processMessage_counts (cfg : Option Configure) (b : BevPtr) (w : World) :
    ∃ m sleeps, processMessage cfg b w =
      handleMessage cfg b { w with connManager := m, sleeps := sleeps } := by
  simp only [processMessage, Exec.get_bind, Exec.modify_bind]
  split
  · exact ⟨_, _, rfl⟩
  · exact ⟨_, w.sleeps, rfl⟩

theorem handleMessage_apply (entry : w.m_bsMap[b]? = some p) (live : w.bevs b = some x)
    (nonempty : x.input ≠ []) :
    handleMessage cfg b w = RemoteServer.dispatch cfg p (x.input.take 4096)
      ((w.putBev b { x with input := x.input.drop 4096 }).logRead b (x.input.take 4096)) := by
  simp only [handleMessage]
  rw [Exec.bind_ok (TcpContainer.find_apply b w), entry]
  simp only
  rw [Exec.bind_ok (buffereventRead_apply live 4096), if_neg (by simp [nonempty])]

/-- A read callback for a chunk that has arrived. -/
theorem connReadcb (r : Represents cfg w v) (paired : v.Paired R) (present : v b = some c)
    (start : w.calls = 0) (nonempty : chunk ≠ []) :
    ∃ w', (Event.connReadcb b chunk).run cfg w = .ok ((), w') ∧
      Represents cfg w' (v.read w.env b chunk) ∧
      w'.reads = w.reads ++ [(b, c.taken chunk)] ∧ w'.freed = w.freed := by
  obtain ⟨p, entry, _, bev⟩ := r.entry present
  have taken : c.taken chunk ≠ [] := by simp [Conn.taken, nonempty]
  let x : Bufferevent := { c.line with input := c.line.input ++ chunk, timer := w.env.clock }
  have input : x.input ≠ [] := by simp [x, nonempty]
  obtain ⟨m, sleeps, counts⟩ := processMessage_counts cfg b (w.putBev b x)
  have reached : (Event.connReadcb b chunk).run cfg w =
      (processMessage cfg b >>= fun _ => pure ()) (w.putBev b x) := by
    simp only [Event.run, RemoteServer.connReadcb]
    rw [Exec.bind_ok (arrive_apply bev chunk)]
    rw [Exec.bind_ok (inputLength_apply World.putBev_self), if_neg (by simp [nonempty])]
  let w₁ : World := { w.putBev b x with connManager := m, sleeps := sleeps }
  have handles := counts.trans (handleMessage_apply (w := w₁) entry World.putBev_self input)
  have received : Represents cfg ((w₁.putBev b (c.receive w.env chunk).line).logRead b (c.taken chunk))
      (modify v b (Conn.receive w.env chunk)) := by
    refine (r.putBev present (Conn.receive w.env chunk) rfl).congr ?_ rfl rfl rfl
    change ((w.putBev b x).putBev b (c.receive w.env chunk).line).bevs = _
    rw [World.putBev_putBev]
  obtain ⟨w₂, returns, r₂, reads, freed⟩ := received.dispatch (paired.modify _ fun _ => rfl)
    (modify_present present _) entry start taken
  refine ⟨w₂, ?_, ?_, reads, freed⟩
  · rw [reached, Exec.bind_ok (handles.trans returns)]
    rfl
  · rw [Relay.read, present]
    exact r₂

end Represents
end RemoteServer
