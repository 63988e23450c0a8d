import RemoteServer.Ledger

/-! What is lost when one side of a pair finishes: the close frees the other side
at once, with whatever its socket has not yet taken. -/
namespace RemoteServer
open Transition

/-- At the end of file of a bound connection its peer's output queue is empty by
the time it is freed. -/
def FlushesOnEof (cfg : Option Configure) : Prop :=
  ∀ labels w w' b events env s q x, Run (Step cfg) World.init labels w →
    Step cfg w ⟨.connEventcb b events, env⟩ w' → has events bevEventEof → w.sessionAt b = some s →
    s.m_meetee1.bev = some q → (q, x) ∈ w'.freed → x.output = []

namespace Relay
variable {v : Relay} {R : Phase → Phase → Prop} {b q : BevPtr} {c : Conn}

theorem lines_peer (paired : v.Paired R) (present : v b = some c) (linked : c.phase.peer = some q) :
    ∃ t, v q = some t ∧ v.lines b = [(b, c.line), (q, t.line)] := by
  obtain ⟨_, t, partner, _⟩ := paired b c q present linked
  refine ⟨t, partner, ?_⟩
  simp only [lines, present, linked, partner]

theorem closes_of_eof (eof : has events bevEventEof) : closes events = true := by
  rw [closes, eof, Bool.true_or]

theorem frees_closes (cfg : Option Configure) (env : Env) (closed : closes events = true) (v : Relay) :
    v.frees cfg ⟨.connEventcb b events, env⟩ = v.lines b := by
  simp only [frees, if_pos closed]

theorem next_closes (cfg : Option Configure) (sid : Int) (env : Env) (closed : closes events = true)
    (v : Relay) : v.next cfg sid ⟨.connEventcb b events, env⟩ = v.remove b := by
  simp only [next, event, if_pos closed]

theorem greets_any (cfg : Option Configure) (outcome : Nat → Bool) :
    Greets cfg (fun greeting => greeting = [] ∨ greeting = Conn.banner cfg)
      (fun greeting => ∃ host ok, (host = [] ∨ host = Conn.banner cfg) ∧ (ok = [] ∨ ok = telproxyOk) ∧
        greeting = host ++ ok) outcome := by
  constructor
  · cases outcome 0
    · exact .inl rfl
    · exact .inr rfl
  · intro host told hosted _
    cases told
    · exact ⟨host, [], hosted, .inl rfl, rfl⟩
    · exact ⟨host, telproxyOk, hosted, .inr rfl, rfl⟩

end Relay

variable {cfg : Option Configure} {w w' : World} {accept : BevPtr → List UInt8}

/-- What a socket has taken of the bytes after a greeting, and what it has not. -/
theorem after_greeting {greeting data sent output : List UInt8} (whole : sent ++ output = greeting ++ data) :
    data = sent.drop greeting.length ++ output.drop (greeting.length - sent.length) ∧
      (output.drop (greeting.length - sent.length) = [] ↔ output = [] ∨ data = []) := by
  constructor
  · rw [← List.drop_append, whole, List.drop_left]
  · have lengths := congrArg List.length whole
    simp only [List.length_append] at lengths
    rw [List.drop_eq_nil_iff, ← List.length_eq_zero_iff, ← List.length_eq_zero_iff]
    omega

/-- End of file on a bound connection frees it and its peer in the same callback, the
peer as it stood when the callback began. Of the bytes accepted for the peer its socket
had taken what it had sent after the greetings, and the rest is discarded with the
output queue; so none is lost if and only if the queue was empty or none was accepted. -/
theorem eof_discards_queue
    (run : Run (accepted.step (Step cfg)) (World.init, fun _ => []) labels (w, accept))
    (step : Step cfg w ⟨.connEventcb b events, env⟩ w') (eof : has events bevEventEof)
    (session : w.sessionAt b = some s) (bound : s.m_state = .bind) :
    ∃ q x y host ok, s.m_meetee1.bev = some q ∧ w.bevs q = some x ∧ w.bevs b = some y ∧
      (q, x) ∈ w'.freed ∧ (b, y) ∈ w'.freed ∧ w'.bevs q = none ∧ w'.bevs b = none ∧
      (host = [] ∨ host = Conn.banner cfg) ∧ (ok = [] ∨ ok = telproxyOk) ∧
      x.sent ++ x.output = host ++ ok ++ accept b ∧
      accept b = x.sent.drop (host ++ ok).length ++ x.output.drop ((host ++ ok).length - x.sent.length) ∧
      (x.output.drop ((host ++ ok).length - x.sent.length) = [] ↔ x.output = [] ∨ accept b = []) := by
  obtain ⟨v, models, ledger⟩ := ledger_kept run fun label _ => Relay.greets_any cfg label.env.outcome
  obtain ⟨r', _, freed⟩ := models.represents.next models.paired step
  rw [models.represents.sessionAt] at session
  obtain ⟨c, present, rfl⟩ := Option.map_eq_some_iff.mp session
  obtain ⟨q, linked⟩ := Phase.peer_of_bind bound
  obtain ⟨t, partner, lines⟩ := Relay.lines_peer models.paired present linked
  obtain ⟨_, _, _, bev⟩ := models.represents.entry partner
  obtain ⟨_, _, _, own⟩ := models.represents.entry present
  have back : t.phase.peer = some b := by
    obtain ⟨_, t', partner', back, _⟩ := models.paired b c q present linked
    obtain rfl := Option.some.inj (partner.symm.trans partner')
    exact back
  obtain ⟨_, ⟨host, ok, hosted, told, rfl⟩, written⟩ := ledger.bound partner back
  have inLog : w'.freed = [(b, c.line), (q, t.line)] := by
    rw [freed, Relay.frees_closes cfg env (Relay.closes_of_eof eof), lines]
  have gone (i : BevPtr) (either : i = b ∨ i = q) : w'.bevs i = none := by
    rw [r'.free_iff, Relay.next_closes cfg _ env (Relay.closes_of_eof eof), Relay.remove,
      PartialMap.Paired.remove_apply, present, Option.bind_some, if_pos]
    rcases either with rfl | rfl
    · exact .inl rfl
    · exact .inr linked
  obtain ⟨parts, lost⟩ := after_greeting written
  exact ⟨q, t.line, c.line, host, ok, linked, bev, own, by simp [inLog], by simp [inLog], gone q (.inr rfl),
    gone b (.inl rfl), hosted, told, written, parts, lost⟩

/-- Both sockets have taken the greetings, but the client's has not yet taken the
device's last three bytes. -/
def slowReader : List Label :=
  pairLogin ++ [⟨.writeProgress 5 100, .ideal 0⟩, ⟨.writeProgress 7 100, .ideal 0⟩,
    ⟨.connReadcb 7 [1, 2, 3], .ideal 0⟩]

theorem eof_discards_queue_slowReader :
    ∃ accept w' x y n, Run (accepted.step (Step (some .defaults))) (World.init, fun _ => []) slowReader
        (World.after (some .defaults) slowReader, accept) ∧
      Step (some .defaults) (World.after (some .defaults) slowReader)
        ⟨.connEventcb 7 bevEventEof, .ideal 0⟩ w' ∧
      (5, x) ∈ w'.freed ∧ (7, y) ∈ w'.freed ∧ x.output = [1, 2, 3] ∧
      accept 7 = x.sent.drop n ++ x.output.drop (n - x.sent.length) ∧
      x.output.drop (n - x.sent.length) ≠ [] := by
  have run := run_after (some .defaults) slowReader (by decide +kernel)
  obtain ⟨accept, recorded⟩ := accepted.records run fun _ => []
  obtain ⟨w', step⟩ := progress run ⟨.connEventcb 7 bevEventEof, .ideal 0⟩ (by decide +kernel)
  have state : ((World.after (some .defaults) slowReader).sessionAt 7).map
      (fun s => (s.m_state, s.m_meetee1.bev)) = some (.bind, some 5) := by decide +kernel
  have queue : ((World.after (some .defaults) slowReader).bevs 5).map (fun x => (x.sent, x.output)) =
      some (serverHost ++ telproxyOk, [1, 2, 3]) := by decide +kernel
  obtain ⟨s, session, fields⟩ := Option.map_eq_some_iff.mp state
  obtain ⟨bound, peer⟩ := Prod.mk.inj fields
  obtain ⟨q, x, y, host, ok, linked, live, _, freed, freed', _, _, hosted, told, whole, parts, lost⟩ :=
    eof_discards_queue recorded step (by decide) session bound
  obtain rfl := Option.some.inj (linked.symm.trans peer)
  rw [live] at queue
  obtain ⟨sent, output⟩ := Prod.mk.inj (Option.some.inj queue)
  refine ⟨accept, w', x, y, _, recorded, step, freed, freed', output, parts, ?_⟩
  rw [Ne, lost, output, or_iff_right (by decide)]
  intro nothing
  -- the greetings are too short for all that was written
  have lengths := congrArg List.length whole
  have most : (host ++ ok).length ≤ (serverHost ++ telproxyOk).length := by
    rcases hosted with rfl | rfl <;> rcases told with rfl | rfl <;> decide
  rw [sent, output, nothing, List.append_nil, List.length_append] at lengths
  simp only [List.length_cons, List.length_nil] at lengths
  omega

theorem not_flushesOnEof : ¬FlushesOnEof (some .defaults) := by
  intro flushes
  have run := run_after (some .defaults) slowReader (by decide +kernel)
  obtain ⟨w', step⟩ := progress run ⟨.connEventcb 7 bevEventEof, .ideal 0⟩ (by decide +kernel)
  have linked : ((World.after (some .defaults) slowReader).sessionAt 7).map (·.m_meetee1.bev) =
      some (some 5) := by decide +kernel
  obtain ⟨s, session, peer⟩ := Option.map_eq_some_iff.mp linked
  have discards : (exec (some .defaults) ⟨.connEventcb 7 bevEventEof, .ideal 0⟩
      (World.after (some .defaults) slowReader)).toOption.map
        (fun after => after.2.freed.map fun entry => (entry.1, entry.2.output)) =
      some [(7, []), (5, [1, 2, 3])] := by decide +kernel
  rw [step.2] at discards
  have discards' : w'.freed.map (fun entry => (entry.1, entry.2.output)) = [(7, []), (5, [1, 2, 3])] :=
    Option.some.inj discards
  have queued : (5, [1, 2, 3]) ∈ w'.freed.map fun entry => (entry.1, entry.2.output) := by
    rw [discards']
    simp
  obtain ⟨⟨q, x⟩, freed, same⟩ := List.mem_map.mp queued
  obtain ⟨rfl, output⟩ := Prod.mk.inj same
  have empty := flushes _ _ _ _ _ _ _ _ x run step (by decide) session peer freed
  rw [empty] at output
  contradiction

end RemoteServer
