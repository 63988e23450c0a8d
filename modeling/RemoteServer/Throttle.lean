import RemoteServer.Indexes

/-! The overload throttle. The request counter keeps up with the read callbacks,
modulo its 32 bits; the connection counter is never written, so the pause knows
nothing of the connections in the container. -/
namespace RemoteServer
open Transition

variable {cfg : Option Configure} {w w' : World} {labels : List Label} {label : Label}
  {m : ConnectionManager} {n : Nat} {t t' : Int}

/-- The manager has counted `n` requests in the second `t`, and no connection. -/
structure ConnectionManager.At (m : ConnectionManager) (t : Int) (n : Nat) : Prop where
  curTime : m.curTime = t
  requests : m.requestPerSecond = UInt32.ofNat n
  connections : m.connections = 0

namespace ConnectionManager.At

theorem again (counted : m.At t n) : (m.requestInc t).At t (n + 1) := by
  have same : ¬t > m.curTime := by
    rw [counted.curTime]
    exact Int.lt_irrefl t
  rw [requestInc, updateRequestsPerSecond, if_neg same]
  constructor
  · exact counted.curTime
  · change m.requestPerSecond + 1 = _
    rw [counted.requests, UInt32.ofNat_add]
    rfl
  · exact counted.connections

theorem later (counted : m.At t n) (after : t < t') : (m.requestInc t').At t' 1 := by
  have new : t' > m.curTime := by
    rw [counted.curTime]
    exact after
  rw [requestInc, updateRequestsPerSecond, if_pos new]
  exact ⟨rfl, rfl, counted.connections⟩

theorem new (t : Int) : (ConnectionManager.new t).At t 0 := ⟨rfl, rfl, rfl⟩

end ConnectionManager.At

def Event.reads : Event → Bool
  | .connReadcb _ _ => true
  | _ => false

/-- The number of read callbacks in the clock second `t`. -/
def readsIn (t : Int) (labels : List Label) : Nat :=
  labels.countP fun label => label.event.reads && label.env.time = t

theorem readsIn_snoc (t : Int) (labels : List Label) (label : Label) :
    readsIn t (labels ++ [label]) =
      readsIn t labels + if label.event.reads ∧ label.env.time = t then 1 else 0 := by
  rw [readsIn, List.countP_append, List.countP_singleton, readsIn]
  simp only [Bool.and_eq_true, decide_eq_true_eq]

theorem readsIn_future (before : ∀ label ∈ labels, label.env.time < t) : readsIn t labels = 0 := by
  rw [readsIn, List.countP_eq_zero]
  intro label member reads
  rw [Bool.and_eq_true, decide_eq_true_eq] at reads
  exact Int.ne_of_lt (before label member) reads.2

/-- Whatever the manager is, its counters after one more request at a time that is
not in the past are those of the callbacks so far and this one. -/
def Counts (labels : List Label) (manager : Option ConnectionManager) : Prop :=
  ∀ t, (∀ label ∈ labels, label.env.time ≤ t) →
    ((ConnectionManager.getInstance manager t).requestInc t).At t (readsIn t labels + 1)

namespace Counts

theorem init : Counts [] none := fun t _ => (ConnectionManager.At.new t).again

theorem kept (counts : Counts labels manager) (quiet : label.event.reads = false) :
    Counts (labels ++ [label]) manager := by
  intro t past
  have counted := counts t fun label member => past label (List.mem_append_left _ member)
  rw [readsIn_snoc, if_neg (by simp [quiet])]
  exact counted

theorem read (counts : Counts labels manager) (reads : label.event.reads)
    (past : ∀ earlier ∈ labels, earlier.env.time ≤ label.env.time) :
    Counts (labels ++ [label])
      (some ((ConnectionManager.getInstance manager label.env.time).requestInc label.env.time)) := by
  have counted := counts _ past
  intro t past'
  have latest : label.env.time ≤ t := past' label (by simp)
  rw [ConnectionManager.getInstance, Option.getD_some]
  rcases Int.lt_or_eq_of_le latest with before | same
  · have fresh : readsIn t (labels ++ [label]) = 0 := by
      refine readsIn_future fun earlier member => ?_
      rcases List.mem_append.mp member with member | last
      · exact Int.lt_of_le_of_lt (past earlier member) before
      · rw [List.mem_singleton.mp last]
        exact before
    rw [fresh]
    exact counted.later before
  · subst same
    rw [readsIn_snoc, if_pos ⟨reads, rfl⟩]
    exact counted.again

end Counts

theorem World.Models.manager_kept {R : Phase → Phase → Prop} {v : Relay} (models : w.Models cfg R v)
    (step : Step cfg w label w') (quiet : label.event.reads = false) :
    w'.connManager = w.connManager := by
  obtain ⟨event, env⟩ := label
  have r := models.represents.start env
  cases event with
  | listenerCb bev fd =>
    cases bev with
    | none =>
      obtain ⟨-, rfl⟩ := Prod.mk.inj (Except.ok.inj step.2)
      rfl
    | some b => exact congrArg Index.manager (listenerCb_index r (step.1 b rfl) step.2)
  | connReadcb b chunk => contradiction
  | connEventcb b events =>
    obtain ⟨c, present⟩ := models.represents.present step.1
    cases r.connEventcb_index models.paired present events step.2 with
    | kept _ index => exact congrArg Index.manager index
    | closed _ index _ _ _ _ removes =>
      exact (removes_index removes).1.trans (congrArg Index.manager index)
  | writeProgress b n => exact congrArg Index.manager ((drain_index b n).same step.2)

/-- A read callback counts one request and pauses if the counters then say so. -/
theorem read_request {env : Env} (step : Step cfg w ⟨.connReadcb b chunk, env⟩ w') :
    let m := (ConnectionManager.getInstance w.connManager env.time).requestInc env.time
    w'.connManager = some m ∧ w'.sleeps = if overloaded cfg m then [10] else [] := by
  have index := read_index step.2
  exact ⟨congrArg Index.manager index, congrArg Index.sleeps index⟩

/-- The wall clock does not go back. -/
def Clock (labels : List Label) : Prop :=
  labels.Pairwise fun earlier later => earlier.env.time ≤ later.env.time

theorem counts_of_run (run : Run (Step cfg) World.init labels w) (clock : Clock labels) :
    Counts labels w.connManager := by
  induction run with
  | refl => exact .init
  | @snoc labels w label w' run step ih =>
    obtain ⟨ordered, _, past⟩ := List.pairwise_append.mp clock
    have counts := ih ordered
    obtain ⟨v, models⟩ := reachable run
    by_cases reads : label.event.reads
    · obtain ⟨event, env⟩ := label
      cases event with
      | connReadcb b chunk =>
        rw [(read_request step).1]
        exact counts.read reads fun earlier member => past earlier member _ (by simp)
      | _ => contradiction
    · rw [models.manager_kept step (by simpa using reads)]
      exact counts.kept (by simpa using reads)

/-- What `unsigned int` counter and `int` variable make of a count. -/
def asInt (count : Nat) : Int := (UInt32.ofNat count).toInt32.toInt

theorem asInt_le (count : Nat) : asInt count ≤ count := by
  have bits : (UInt32.ofNat count).toInt32.toInt = (BitVec.ofNat 32 count).toInt := rfl
  rw [asInt, bits, BitVec.toInt_eq_toNat_cond, BitVec.toNat_ofNat]
  have le := Nat.mod_le count (2 ^ 32)
  split <;> omega

/-- The load is at one of the two limits. -/
def Overload (cfg : Configure) (live count : Int) : Prop :=
  cfg.m_maxConnect ≠ -1 ∧ cfg.m_maxConnect ≤ live ∨ cfg.m_maxQps ≠ -1 ∧ cfg.m_maxQps ≤ count

theorem overloaded_iff {cfg : Configure} (counted : m.At t n) :
    overloaded (some cfg) m ↔ Overload cfg 0 (asInt n) := by
  simp only [overloaded, ConnectionManager.getConnections, ConnectionManager.getCurrentRequest,
    counted.connections, counted.requests, Bool.or_eq_true, Bool.and_eq_true, decide_eq_true_eq]
  rfl

/-- The counters show an overload when there is one: a positive limit on the
connections is not reached unless the counted requests reach theirs, and requests
that reach their limit still do so once counted in 32 bits. -/
structure Shown (cfg : Configure) (live count : Nat) : Prop where
  connections : 0 < cfg.m_maxConnect → cfg.m_maxConnect ≤ live →
    cfg.m_maxQps ≠ -1 ∧ cfg.m_maxQps ≤ asInt count
  requests : cfg.m_maxQps ≠ -1 → cfg.m_maxQps ≤ count →
    cfg.m_maxQps ≤ asInt count ∨ cfg.m_maxConnect ≠ -1 ∧ cfg.m_maxConnect ≤ 0

theorem shown_iff (cfg : Configure) (live count : Nat) :
    (Overload cfg 0 (asInt count) ↔ Overload cfg live count) ↔ Shown cfg live count := by
  have counted := asInt_le count
  constructor
  · intro same
    constructor
    · intro positive reached
      have heavy := same.mpr (.inl ⟨by omega, reached⟩)
      exact heavy.resolve_left fun connections => by omega
    · intro limited reached
      have heavy := same.mpr (.inr ⟨limited, reached⟩)
      exact heavy.symm.imp_left And.right
  · intro shown
    constructor
    · rintro (⟨limited, reached⟩ | ⟨limited, reached⟩)
      · exact .inl ⟨limited, by omega⟩
      · exact .inr ⟨limited, by omega⟩
    · rintro (⟨limited, reached⟩ | ⟨limited, reached⟩)
      · by_cases positive : 0 < cfg.m_maxConnect
        · exact .inr (shown.connections positive reached)
        · exact .inl ⟨limited, by omega⟩
      · exact (shown.requests limited reached).symm.imp_right fun counted => ⟨limited, counted⟩

/-- The pause of a callback after `labels` tells the load: the connections in the
container, and the read callbacks of the current second, this one included. -/
def SeesLoad (cfg : Configure) (labels : List Label) (w : World) (label : Label) (w' : World) : Prop :=
  w'.sleeps ≠ [] ↔ Overload cfg w.m_bsMap.size (readsIn label.env.time (labels ++ [label]))

/-- At every read callback of every run the pause tells the load exactly when the
counters show it. -/
theorem sees_load_iff {cfg : Configure} (run : Run (Step (some cfg)) World.init labels w)
    (step : Step (some cfg) w label w') (reads : label.event.reads) (clock : Clock (labels ++ [label])) :
    SeesLoad cfg labels w label w' ↔
      Shown cfg w.m_bsMap.size (readsIn label.env.time (labels ++ [label])) := by
  obtain ⟨event, env⟩ := label
  cases event with
  | connReadcb b chunk =>
    obtain ⟨ordered, _, past⟩ := List.pairwise_append.mp clock
    have counted := counts_of_run run ordered env.time fun label member =>
      past label member ⟨.connReadcb b chunk, env⟩ (List.mem_singleton_self _)
    have count : readsIn env.time (labels ++ [⟨.connReadcb b chunk, env⟩]) =
        readsIn env.time labels + 1 := by
      rw [readsIn_snoc, if_pos ⟨rfl, rfl⟩]
    have pauses : w'.sleeps ≠ [] ↔ Overload cfg 0 (asInt (readsIn env.time labels + 1)) := by
      rw [(read_request step).2, ← overloaded_iff counted]
      split
      · rename_i heavy
        exact iff_of_true (by decide) heavy
      · rename_i light
        exact iff_of_false (fun slept => slept rfl) light
    rw [SeesLoad, count, pauses]
    exact shown_iff cfg _ _
  | _ => contradiction

/-- One connection, before it sends anything, and its first byte. -/
def oneAccept : List Label := [⟨.listenerCb (some 5) 3, .ideal 0⟩]

def firstByte : Label := ⟨.connReadcb 5 [65], .ideal 0⟩

theorem sees_load_iff_firstByte :
    ∃ w', Step (some .defaults) (World.after (some .defaults) oneAccept) firstByte w' ∧
      SeesLoad .defaults oneAccept (World.after (some .defaults) oneAccept) firstByte w' := by
  have run := run_after (some .defaults) oneAccept (by decide +kernel)
  obtain ⟨w', step⟩ := progress run firstByte (by decide +kernel)
  have live : (World.after (some .defaults) oneAccept).m_bsMap.size = 1 := by decide +kernel
  have once : readsIn firstByte.env.time (oneAccept ++ [firstByte]) = 1 := by decide
  refine ⟨w', step, (sees_load_iff run step rfl (by unfold Clock; decide)).mpr ?_⟩
  rw [live, once]
  constructor
  · decide
  · decide

def limitOfOne : Configure := { Configure.defaults with m_maxConnect := 1 }

/-- One connection reaches a limit of one, and there is no pause. -/
theorem not_seesLoad :
    ¬∀ (cfg : Configure) (labels : List Label) (w w' : World) (label : Label),
      Run (Step (some cfg)) World.init labels w → Step (some cfg) w label w' → label.event.reads →
      Clock (labels ++ [label]) → SeesLoad cfg labels w label w' := by
  intro sees
  have run := run_after (some limitOfOne) oneAccept (by decide +kernel)
  have step : Step (some limitOfOne) (World.after (some limitOfOne) oneAccept) firstByte
      (World.after (some limitOfOne) (oneAccept ++ [firstByte])) := ⟨by decide +kernel, rfl⟩
  have live : (World.after (some limitOfOne) oneAccept).m_bsMap.size = 1 := by decide +kernel
  have awake : (World.after (some limitOfOne) (oneAccept ++ [firstByte])).sleeps = [] := by
    decide +kernel
  have sees := sees limitOfOne oneAccept _ _ firstByte run step rfl (by unfold Clock; decide)
  exact sees.mpr (.inl ⟨by decide, by rw [live]; decide⟩) awake

end RemoteServer
