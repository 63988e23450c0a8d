import RemoteServer.Ledger
import RemoteServer.Lib.Backlog
import RemoteServer.Lifetime

/-! The byte stream from one end of a pair to the other. A read takes at most 4096
bytes of what has arrived, so the rest of a longer chunk stays unread until more
arrives; nothing is lost or changed on the way from one socket to the other. -/
namespace RemoteServer
open Transition PartialMap

/-- The chunks from a connection since its accept, once the event has happened. -/
def Event.deliver (event : Event) (b : BevPtr) (chunks : List (List UInt8)) : List (List UInt8) :=
  match event with
  | .listenerCb bev _ => if bev = some b then [] else chunks
  | .connReadcb bev chunk => if bev = b then chunks ++ [chunk] else chunks
  | .connEventcb _ _ | .writeProgress _ _ => chunks

def arrivals : Monitor World Label (BevPtr → List (List UInt8)) :=
  fun _ label _ arrived b => label.event.deliver b (arrived b)

/-- The number of bytes read from a connection while its session was not bound. -/
def unrelayed : Monitor World Label (BevPtr → Nat) := fun w label w' spent b =>
  if label.event.accepts b then 0
  else if w.stateOf b = some .bind then spent b
  else spent b + (chunksOf w'.reads b).length

namespace Event
variable {event : Event} {b : BevPtr} {chunks : List (List UInt8)}

theorem deliver_accepts (accepts : event.accepts b) : event.deliver b chunks = [] := by
  obtain ⟨fd, rfl⟩ := accepts_iff.mp accepts
  exact if_pos rfl

theorem deliver_other (unaccepted : ¬event.accepts b) (unread : ¬event.readsFrom b) :
    event.deliver b chunks = chunks := by
  cases event with
  | listenerCb bev fd => exact if_neg (by simpa [accepts] using unaccepted)
  | connReadcb bev chunk => exact if_neg (by simpa [readsFrom] using unread)
  | connEventcb => rfl
  | writeProgress => rfl

theorem deliver_reads (reads : event = .connReadcb b chunk) : event.deliver b chunks = chunks ++ [chunk] := by
  rw [reads]
  exact if_pos rfl

end Event

/-- The input buffer of a connection is touched by nothing but its own reads. -/
inductive InputStep (label : Label) (v : Relay) (i : BevPtr) (new : Conn) : Prop where
  | accept : label.event.accepts i → new.line.input = [] → InputStep label v i new
  | read {c : Conn} {chunk : List UInt8} : v i = some c → label.event = .connReadcb i chunk →
      new.line.input = (c.line.input ++ chunk).drop 4096 → InputStep label v i new
  | other {c : Conn} : v i = some c → ¬label.event.accepts i → ¬label.event.readsFrom i →
      new.line.input = c.line.input → InputStep label v i new

namespace Relay
variable {v : Relay} {R : Phase → Phase → Prop} {b i : BevPtr} {c new : Conn} {cfg : Option Configure}
  {sid : Int} {label : Label} {arrived : BevPtr → List (List UInt8)} {spent : BevPtr → Nat}
  {taken : BevPtr → List UInt8}

theorem input_step (paired : v.Paired R) (fresh : ∀ b fd, label.event = .listenerCb (some b) fd → v b = none)
    (found : v.next cfg sid label i = some new) : InputStep label v i new := by
  have step := conn_step paired cfg sid label found
  cases step with
  | accept accepts => exact .accept (Event.accepts_iff.mpr ⟨_, accepts⟩) rfl
  | stay present unread _ unaccepted =>
    refine .other present (not_accepts present fresh) ?_ rfl
    rw [Event.readsFrom_iff]
    rintro ⟨chunk, reads⟩
    exact (unread i chunk new reads present).1 rfl
  | drop present reads => exact .read present reads rfl
  | wait present reads => exact .read present reads rfl
  | «match» present reads => exact .read present reads (append_input ..)
  | @matched b c chunk card u t present waiting reads other raw =>
    refine .other present (not_accepts present fresh) ?_ (append_input ..)
    have apart : b ≠ i := by
      rintro rfl
      obtain rfl := Option.some.inj (present.symm.trans other)
      rw [raw] at waiting
      contradiction
    simpa [Event.readsFrom, reads] using apart
  | relay present reads => exact .read present reads rfl
  | relayed present _ reads _ _ apart =>
    refine .other present (not_accepts present fresh) ?_ (append_input ..)
    simpa [Event.readsFrom, reads] using apart.symm
  | idle present times =>
    refine .other present (not_accepts present fresh) ?_ rfl
    simp [Event.readsFrom, times]
  | drain present drains =>
    refine .other present (not_accepts present fresh) ?_ rfl
    simp [Event.readsFrom, drains]

/-- The input buffers hold the last bytes that arrived, as many as the reads so far
have left over. -/
def Backlogged (v : Relay) (arrived : BevPtr → List (List UInt8)) : Prop :=
  ∀ i c, v i = some c → c.line.input <:+ (arrived i).flatten ∧
    c.line.input.length = Backlog.left 4096 ((arrived i).map List.length)

theorem Backlogged.next (paired : v.Paired R) (backlogged : v.Backlogged arrived)
    (fresh : ∀ b fd, label.event = .listenerCb (some b) fd → v b = none) :
    (v.next cfg sid label).Backlogged fun b => label.event.deliver b (arrived b) := by
  intro i new found
  change new.line.input <:+ (label.event.deliver i (arrived i)).flatten ∧
    new.line.input.length = Backlog.left 4096 ((label.event.deliver i (arrived i)).map List.length)
  cases input_step paired fresh found with
  | accept accepts empty =>
    rw [empty, Event.deliver_accepts accepts]
    exact ⟨List.nil_suffix, rfl⟩
  | @read c chunk present reads input =>
    obtain ⟨suffix, size⟩ := backlogged i _ present
    rw [input, Event.deliver_reads reads, List.flatten_append, List.flatten_singleton, List.map_append,
      List.map_singleton, Backlog.left_snoc, ← size, List.length_drop, List.length_append]
    obtain ⟨read, whole⟩ := suffix
    have arrives : c.line.input ++ chunk <:+ (arrived i).flatten ++ chunk :=
      ⟨read, by rw [← List.append_assoc, whole]⟩
    exact ⟨(List.drop_suffix _ _).trans arrives, rfl⟩
  | other present unaccepted unread input =>
    rw [input, Event.deliver_other unaccepted unread]
    exact backlogged i _ present

/-- `unrelayed`, as the relay sees it. -/
def spends (label : Label) (v : Relay) (spent : BevPtr → Nat) (b : BevPtr) : Nat :=
  if label.event.accepts b then 0
  else if v.state b = some .bind then spent b
  else spent b + (chunksOf (v.reads label) b).length

/-- What was taken from a connection while it was bound, and what is still unread,
are all that has arrived but the bytes read before. -/
structure Streamed (v : Relay) (arrived : BevPtr → List (List UInt8)) (spent : BevPtr → Nat)
    (taken : BevPtr → List UInt8) : Prop where
  within : ∀ {i c}, v i = some c → spent i ≤ (arrived i).flatten.length
  whole : ∀ {i c}, v i = some c → taken i ++ c.line.input = (arrived i).flatten.drop (spent i)

theorem chunksOf_other (unread : ¬label.event.readsFrom b) : chunksOf (v.reads label) b = [] := by
  obtain ⟨event, env⟩ := label
  cases event with
  | connReadcb i chunk =>
    have apart : i ≠ b := by simpa [Event.readsFrom] using unread
    cases present : v i <;> simp [Relay.reads, chunksOf, present, apart]
  | listenerCb => rfl
  | connEventcb => rfl
  | writeProgress => rfl

theorem chunksOf_read {env : Env} (present : v i = some c) :
    chunksOf (v.reads ⟨.connReadcb i chunk, env⟩) i = c.taken chunk := by
  simp [Relay.reads, present, chunksOf]

theorem spends_other (unaccepted : ¬label.event.accepts i) (unread : ¬label.event.readsFrom i) :
    v.spends label spent i = spent i := by
  rw [spends, if_neg unaccepted, chunksOf_other unread, List.length_nil, Nat.add_zero, ite_self]

theorem takes_other (unaccepted : ¬label.event.accepts i) (unread : ¬label.event.readsFrom i) :
    v.takes label taken i = taken i := by
  rw [takes, if_neg unaccepted, chunksOf_other unread, List.append_nil, ite_self]

theorem take_append_drop_taken (c : Conn) (chunk : List UInt8) :
    c.taken chunk ++ (c.line.input ++ chunk).drop 4096 = c.line.input ++ chunk :=
  List.take_append_drop 4096 _

theorem Streamed.next {alone greeted : List UInt8 → Prop} (paired : v.Paired R)
    (streamed : v.Streamed arrived spent taken) (ledger : v.Ledger alone greeted taken)
    (cfg : Option Configure) (sid : Int)
    (fresh : ∀ b fd, label.event = .listenerCb (some b) fd → v b = none) (succeeds : label.Succeeds) :
    (v.next cfg sid label).Streamed (fun b => label.event.deliver b (arrived b)) (v.spends label spent)
      (v.takes label taken) := by
  suffices both : ∀ {i new}, v.next cfg sid label i = some new →
      v.spends label spent i ≤ (label.event.deliver i (arrived i)).flatten.length ∧
      v.takes label taken i ++ new.line.input =
        (label.event.deliver i (arrived i)).flatten.drop (v.spends label spent i) from
    ⟨fun found => (both found).1, fun found => (both found).2⟩
  intro i new found
  cases input_step paired fresh found with
  | accept accepts empty =>
    rw [spends, if_pos accepts, takes, if_pos accepts, empty, Event.deliver_accepts accepts]
    exact ⟨Nat.zero_le _, rfl⟩
  | other present unaccepted unread input =>
    rw [spends_other unaccepted unread, takes_other unaccepted unread, input,
      Event.deliver_other unaccepted unread]
    exact ⟨streamed.within present, streamed.whole present⟩
  | @read c chunk present reads input =>
    obtain ⟨event, env⟩ := label
    obtain rfl : event = .connReadcb i chunk := reads
    have within := streamed.within present
    have whole := streamed.whole present
    have arrives : ((Event.connReadcb i chunk).deliver i (arrived i)).flatten =
        (arrived i).flatten ++ chunk := by
      rw [Event.deliver_reads rfl, List.flatten_append, List.flatten_singleton]
    rw [arrives, List.length_append, input]
    by_cases bound : c.phase.state = .bind
    · -- the bytes are relayed, and none is spent
      have state : v.state i = some .bind := by rw [state_present present, bound]
      rw [takes_bound present bound, succeeds 0, if_pos rfl, spends, if_neg (by simp [Event.accepts]),
        if_pos state, List.append_assoc, take_append_drop_taken, ← List.append_assoc, whole,
        List.drop_append_of_le_length within]
      exact ⟨Nat.le_add_right_of_le within, rfl⟩
    · -- the bytes are spent, and none was relayed before
      have single := Phase.peer_of_single bound
      have state : v.state i ≠ some .bind := by
        rw [state_present present]
        simpa using bound
      have kept : v.takes ⟨.connReadcb i chunk, env⟩ taken i = taken i :=
        takes_single present single (by simp [Event.accepts])
      have nothing := (ledger.single present single).2
      rw [nothing, List.nil_append] at whole
      have size := congrArg List.length whole
      rw [List.length_drop] at size
      have count : (c.taken chunk).length ≤ c.line.input.length + chunk.length := by
        rw [Conn.taken, List.length_take, List.length_append]
        exact Nat.min_le_right ..
      rw [kept, nothing, spends, if_neg (by simp [Event.accepts]), if_neg state, chunksOf_read present,
        List.nil_append]
      refine ⟨by omega, ?_⟩
      rw [← List.drop_drop, List.drop_append_of_le_length within, ← whole,
        ← take_append_drop_taken c chunk, List.drop_left, take_append_drop_taken]

end Relay

variable {cfg : Option Configure} {w w' : World} {b : BevPtr} {labels more : List Label}
  {arrived arrived' : BevPtr → List (List UInt8)} {spent spent' : BevPtr → Nat}

/-- In every run the unread input of a connection consists of the last bytes that
arrived, and there are as many of them as the largest excess of its latest chunks
over the 4096 bytes that each read takes. -/
theorem unread_backlog (run : Run (arrivals.step (Step cfg)) (World.init, fun _ => []) labels (w, arrived))
    (live : w.bevs b = some x) :
    x.input <:+ (arrived b).flatten ∧
    IsGreatest {n | ∃ recent, recent <:+ arrived b ∧ n = Backlog.excess 4096 (recent.map List.length)}
      x.input.length := by
  obtain ⟨v, models, backlogged⟩ : ∃ v, w.Models cfg Phase.Fits v ∧ v.Backlogged arrived := by
    refine run.invariant (fun state => ∃ v, state.1.Models cfg Phase.Fits v ∧ v.Backlogged state.2) ?_
      ⟨_, .init, fun b c impossible => nomatch impossible⟩
    rintro ⟨w, arrived⟩ label ⟨w', arrived'⟩ ⟨v, models, backlogged⟩ ⟨step, records⟩
    obtain rfl : arrived' = arrivals w label w' arrived := records
    exact ⟨_, models.next Relay.fits_joins step,
      backlogged.next models.paired (models.represents.accepts_free step)⟩
  rw [models.represents.bevs] at live
  obtain ⟨c, present, rfl⟩ := Option.map_eq_some_iff.mp live
  obtain ⟨suffix, size⟩ := backlogged b c present
  refine ⟨suffix, ?_⟩
  obtain ⟨attained, bound⟩ := Backlog.isGreatest_left 4096 ((arrived b).map List.length)
  rw [size]
  constructor
  · obtain ⟨_, lengths, same⟩ := attained
    obtain ⟨recent, within, rfl⟩ := List.suffix_map_iff.mp lengths
    exact ⟨recent, within, same⟩
  · rintro n ⟨recent, within, rfl⟩
    exact bound ⟨_, within.map _, rfl⟩

theorem unread_backlog_pairTalk :
    ∃ arrived x, Run (arrivals.step (Step none)) (World.init, fun _ => []) pairTalk
        (World.after none pairTalk, arrived) ∧
      (World.after none pairTalk).bevs 7 = some x ∧ x.input <:+ (arrived 7).flatten := by
  obtain ⟨arrived, recorded⟩ := arrivals.records (run_after none pairTalk (by decide +kernel)) fun _ => []
  have there : ((World.after none pairTalk).bevs 7).isSome := by decide +kernel
  obtain ⟨x, live⟩ := Option.isSome_iff_exists.mp there
  exact ⟨arrived, x, recorded, live, (unread_backlog recorded live).1⟩

/-- The two ledgers of a run whose library calls succeed. -/
theorem streamed_kept {cfg : Configure} {accept : BevPtr → List UInt8}
    (run : Run (((arrivals.prod unrelayed).prod accepted).step (Step (some cfg)))
      (World.init, (fun _ => [], fun _ => 0), fun _ => []) labels (w, (arrived, spent), accept))
    (succeeds : ∀ label ∈ labels, label.Succeeds) :
    ∃ v, w.Models (some cfg) Phase.Fits v ∧
      v.Ledger (· = cfg.m_host) (· = cfg.m_host ++ telproxyOk) accept ∧ v.Streamed arrived spent accept := by
  refine run.invariant_of (fun state => ∃ v, state.1.Models (some cfg) Phase.Fits v ∧
      v.Ledger (· = cfg.m_host) (· = cfg.m_host ++ telproxyOk) state.2.2 ∧
      v.Streamed state.2.1.1 state.2.1.2 state.2.2) ?_ succeeds
    ⟨_, .init, ⟨(fun impossible => nomatch impossible), (fun impossible => nomatch impossible)⟩,
      ⟨(fun impossible => nomatch impossible), (fun impossible => nomatch impossible)⟩⟩
  rintro ⟨w, (⟨arrived, spent⟩), accept⟩ label ⟨w', (⟨arrived', spent'⟩), accept'⟩ ⟨v, models, ledger, streamed⟩
    succeeds ⟨step, records⟩
  obtain ⟨streams, accepts⟩ := Prod.mk.inj records
  obtain rfl : arrived' = arrivals w label w' arrived := (Prod.mk.inj streams).1
  obtain rfl : spent' = unrelayed w label w' spent := (Prod.mk.inj streams).2
  have fresh := models.represents.accepts_free step
  have spends : unrelayed w label w' spent = v.spends label spent := by
    funext b
    rw [unrelayed, Relay.spends, models.represents.stateOf, (models.represents.next models.paired step).2.1]
  obtain ⟨models', rfl⟩ := accepted_next models ⟨step, accepts⟩
  refine ⟨_, models', ledger.next models.paired w.m_sidCount label (Relay.greets_success succeeds) fresh, ?_⟩
  have streamed' := Relay.Streamed.next models.paired streamed ledger (some cfg) w.m_sidCount fresh succeeds
  rwa [← spends] at streamed'

/-- No byte of a bound connection counts as unrelayed. -/
theorem unrelayed_fixed (run : Run (Step cfg) World.init labels w)
    (later : Run ((arrivals.prod unrelayed).step (Step cfg)) (w, arrived, spent) more (w', arrived', spent'))
    (session : w.sessionAt b = some s) (linked : s.m_meetee1.bev = some q)
    (kept : ∀ label ∈ more, ¬label.event.accepts b) (there : w'.sessionAt b = some t) :
    spent' b = spent b := by
  generalize last : (w', arrived', spent') = after at later
  induction later generalizing w' arrived' spent' t with
  | refl =>
    obtain ⟨-, same⟩ := Prod.mk.inj last
    exact congrArg (fun history => history.2 b) same
  | @snoc more middle label after earlier step ih =>
    subst last
    obtain ⟨w₁, arrived₁, spent₁⟩ := middle
    have run₁ := run.trans (Monitor.forget _ earlier)
    obtain ⟨v, models⟩ := reachable run₁
    obtain ⟨u, session₁⟩ := models.was_there step.1 (kept label (by simp)) there
    have kept₁ : ∀ label ∈ more, ¬label.event.accepts b := fun label member =>
      kept label (List.mem_append_left _ member)
    have fixed := ih kept₁ session₁ rfl
    have becomes := identity_for_life run (Monitor.forget _ earlier) kept₁ session session₁
    have bound : w₁.stateOf b = some .bind := by
      rw [models.represents.sessionAt] at session₁
      obtain ⟨c, present, rfl⟩ := Option.map_eq_some_iff.mp session₁
      obtain ⟨_, _, phase⟩ := Relay.phase_of_peer (becomes.peer q linked)
      rw [models.represents.stateOf, Relay.state_present present, phase]
      rfl
    have counted : spent' b = unrelayed w₁ label w' spent₁ b :=
      congrArg (fun history => history.2 b) step.2
    rw [counted, unrelayed, if_neg (kept label (by simp)), if_pos bound, fixed]

/-- Where a configuration is loaded and every library call succeeds, from the moment a
connection is bound there is one point in what arrives from it after which every byte
reaches its peer: for as long as the connection lives, what the peer's socket has taken,
what is queued for it and what is still unread are, put together, the two greetings and
everything after that point, in order. -/
theorem stream_transparent {cfg : Configure} {w w' : World}
    (run : Run ((arrivals.prod unrelayed).step (Step (some cfg)))
      (World.init, fun _ => [], fun _ => 0) labels (w, arrived, spent))
    (later : Run ((arrivals.prod unrelayed).step (Step (some cfg))) (w, arrived, spent) more
      (w', arrived', spent'))
    (succeeds : ∀ label ∈ labels ++ more, label.Succeeds) (session : w.sessionAt b = some s)
    (linked : s.m_meetee1.bev = some q) (kept : ∀ label ∈ more, ¬label.event.accepts b)
    (live : w'.bevs b = some y) :
    spent b ≤ (arrived b).flatten.length ∧
    ∃ x, w'.bevs q = some x ∧ x.sent ++ x.output ++ y.input =
      cfg.m_host ++ telproxyOk ++ (arrived' b).flatten.drop (spent b) := by
  obtain ⟨accept, recorded⟩ := Monitor.extend accepted run fun _ => []
  obtain ⟨v, models, _, streamed⟩ := streamed_kept recorded fun label member =>
    succeeds label (List.mem_append_left _ member)
  obtain ⟨accept', recorded'⟩ := Monitor.extend accepted (run.trans later) fun _ => []
  obtain ⟨v', models', ledger', streamed'⟩ := streamed_kept recorded' succeeds
  constructor
  · rw [models.represents.sessionAt] at session
    obtain ⟨c, present, _⟩ := Option.map_eq_some_iff.mp session
    exact streamed.within present
  · rw [models'.represents.bevs] at live
    obtain ⟨d, present, rfl⟩ := Option.map_eq_some_iff.mp live
    have session' : w'.sessionAt b = some (d.session (some cfg) b) := by
      rw [models'.represents.sessionAt, present, Option.map_some]
    have becomes := identity_for_life (Monitor.forget _ run) (Monitor.forget _ later) kept session session'
    have fixed := unrelayed_fixed (Monitor.forget _ run) later session linked kept session'
    have linked' : d.phase.peer = some q := becomes.peer q linked
    obtain ⟨_, t, partner, back, _⟩ := models'.paired b d q present linked'
    obtain ⟨_, _, _, bev⟩ := models'.represents.entry partner
    obtain ⟨greeting, rfl, written⟩ := ledger'.bound partner back
    refine ⟨t.line, bev, ?_⟩
    have whole := streamed'.whole present
    rw [fixed] at whole
    rw [← whole, ← List.append_assoc, ← written]
    rfl

/-- The device of `pairTalk` sends three bytes once it is bound. -/
theorem stream_transparent_pairTalk :
    ∃ arrived spent arrived' spent' w' x y,
      Run ((arrivals.prod unrelayed).step (Step (some .defaults))) (World.init, fun _ => [], fun _ => 0)
        pairLogin (World.after (some .defaults) pairLogin, arrived, spent) ∧
      Run ((arrivals.prod unrelayed).step (Step (some .defaults)))
        (World.after (some .defaults) pairLogin, arrived, spent) [⟨.connReadcb 7 [1, 2, 3], .ideal 0⟩]
        (w', arrived', spent') ∧
      w'.bevs 7 = some y ∧ w'.bevs 5 = some x ∧ x.sent ++ x.output ++ y.input =
        serverHost ++ telproxyOk ++ (arrived' 7).flatten.drop (spent 7) := by
  let label : Label := ⟨.connReadcb 7 [1, 2, 3], .ideal 0⟩
  have run := run_after (some .defaults) pairLogin (by decide +kernel)
  obtain ⟨⟨arrived, spent⟩, recorded⟩ := (arrivals.prod unrelayed).records run (fun _ => [], fun _ => 0)
  obtain ⟨w', step⟩ := progress run label (by decide +kernel)
  obtain ⟨⟨arrived', spent'⟩, recorded'⟩ :=
    (arrivals.prod unrelayed).records (.single step) (arrived, spent)
  have succeeds : ∀ one ∈ pairLogin ++ [label], one.Succeeds := by
    simp [label, pairLogin, Label.Succeeds, Env.Succeeds, Env.ideal]
  have peer : ((World.after (some .defaults) pairLogin).sessionAt 7).map (·.m_meetee1.bev) =
      some (some 5) := by decide +kernel
  obtain ⟨s, session, linked⟩ := Option.map_eq_some_iff.mp peer
  have lives : (exec (some .defaults) label (World.after (some .defaults) pairLogin)).toOption.map
      (fun after => (after.2.bevs 7).isSome) = some true := by decide +kernel
  rw [step.2] at lives
  obtain ⟨y, live⟩ := Option.isSome_iff_exists.mp (Option.some.inj lives)
  have kept : ∀ other ∈ [label], ¬other.event.accepts 7 := by simp [label, Event.accepts]
  obtain ⟨_, x, bev, stream⟩ := stream_transparent recorded recorded' succeeds session linked kept live
  exact ⟨arrived, spent, arrived', spent', w', x, y, recorded, recorded', live, bev, stream⟩

end RemoteServer
