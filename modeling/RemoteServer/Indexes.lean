import RemoteServer.Frame
import RemoteServer.Removal

/-! What each callback does to the two indexes of the container, to the counters of
the throttle and to the event loop. -/
namespace RemoteServer
open Exec PartialMap

variable {cfg : Option Configure} {w w' : World} {v : Relay} {R : Phase → Phase → Prop} {b : BevPtr}
  {p : SessionPtr} {c : Conn}

def Index.requested (i : Index) : ConnectionManager :=
  (ConnectionManager.getInstance i.manager i.env.time).requestInc i.env.time

/-- The effect of one request on the counters and the pauses. -/
def Index.request (cfg : Option Configure) (i : Index) : Index :=
  { i with manager := some i.requested,
           sleeps := if overloaded cfg i.requested then i.sleeps ++ [10] else i.sleeps }

def Index.insert (i : Index) (b : BevPtr) (fd : Int) (se : SessionPtr) : Index :=
  { i with bsMap := i.bsMap.insertIfNew b se, fsMap := i.fsMap.insertIfNew fd se }

theorem processMessage_index (returns : processMessage cfg b w = .ok (ret, w')) :
    w'.index = w.index.request cfg := by
  simp only [processMessage, Exec.get_bind, Exec.modify_bind] at returns
  change (if overloaded cfg w.index.requested then _ else _ : Program Int) _ = _ at returns
  rw [Index.request]
  by_cases heavy : overloaded cfg w.index.requested
  · rw [if_pos heavy] at returns ⊢
    exact (handleMessage_aside cfg b).same returns
  · rw [if_neg heavy] at returns ⊢
    exact (handleMessage_aside cfg b).same returns

theorem read_index (returns : (Event.connReadcb b chunk).run cfg w = .ok ((), w')) :
    w'.index = w.index.request cfg := by
  simp only [Event.run, connReadcb] at returns
  obtain ⟨_, w₁, arrives, returns⟩ := bind_eq_ok.mp returns
  obtain ⟨length, w₂, measures, returns⟩ := bind_eq_ok.mp returns
  have measured : w₂.index = w.index :=
    ((Keeps.bind (derefBev_aside b) fun _ => .pure _).same measures).trans
      ((arrive_aside b chunk).same arrives)
  -- with or without the free, the request is counted
  obtain ⟨w₃, before, returns⟩ : ∃ w₃, w₃.index = w.index ∧
      (processMessage cfg b >>= fun _ => pure ()) w₃ = .ok ((), w') := by
    by_cases empty : length = 0
    · rw [if_pos empty] at returns
      obtain ⟨_, w₃, frees, returns⟩ := bind_eq_ok.mp returns
      exact ⟨w₃, ((buffereventFree_aside b).same frees).trans measured, returns⟩
    · rw [if_neg empty] at returns
      exact ⟨w₂, measured, returns⟩
  obtain ⟨_, w₄, processes, returns⟩ := bind_eq_ok.mp returns
  cases returns
  rw [processMessage_index processes, before]

/-- An accept goes on outside once the session is in the container. -/
theorem Represents.listenerCb_aside {τ : Type} {view : World → τ} [Outside view] (r : Represents cfg w v)
    (free : w.bevs b = none) (returns : RemoteServer.listenerCb cfg (some b) fd w = .ok ((), w')) :
    view w' = view (w.entered cfg b fd) := by
  rw [listenerCb_entered (r.absent (r.free_iff.mp free))] at returns
  refine Keeps.same ?_ returns
  refine .bind (buffereventSetTimeouts_aside b _) fun _ => .bind (buffereventEnable_aside b _) fun _ => ?_
  cases cfg with
  | none => exact .pure _
  | some cfg => exact .bind (buffereventWrite_aside b _) fun _ => .pure _

theorem listenerCb_index (r : Represents cfg w v) (free : w.bevs b = none)
    (returns : listenerCb cfg (some b) fd w = .ok ((), w')) :
    w'.index = w.index.insert b fd w.nextSession :=
  (r.listenerCb_aside free returns).trans rfl

theorem drain_index (b : BevPtr) (n : Nat) : Keeps World.index (drain b n) := drain_aside b n

theorem removes_index {u : World} (removes : w.Removes v b c p u) :
    u.connManager = w.connManager ∧ u.sleeps = w.sleeps := by
  have drop (w : World) (b : BevPtr) (x : Bufferevent) (p : SessionPtr) :
      (w.dropConn b x p).connManager = w.connManager ∧ (w.dropConn b x p).sleeps = w.sleeps := by
    unfold World.dropConn World.forgetFd
    split <;> exact ⟨rfl, rfl⟩
  cases removes with
  | single => exact drop ..
  | pair => exact ⟨(drop ..).1.trans (drop ..).1, (drop ..).2.trans (drop ..).2⟩

/-- What the relay decides when an event comes in: whether the connection is closed. -/
def Relay.Closes (cfg : Option Configure) (env : Env) (b : BevPtr) (events : BitVec 16) (v : Relay) : Prop :=
  closes events ∨ has events bevEventTimeout ∧ TimedOut cfg (modify v b (Conn.inactive env)) b

/-- What an event callback does to the indexes: it keeps them, or it closes the
connection from a state `u` in which at most its idle time has been counted. -/
inductive EventIndex (cfg : Option Configure) (w : World) (v : Relay) (b : BevPtr) (events : BitVec 16)
    (w' : World) : Prop where
  | kept : ¬v.Closes cfg w.env b events → w'.index = w.index → EventIndex cfg w v b events w'
  | closed {u : World} {v' : Relay} {c : Conn} {p : SessionPtr} : v.Closes cfg w.env b events →
      u.index = w.index → Represents cfg u v' → v' = v ∨ v' = modify v b (Conn.inactive w.env) →
      v' b = some c → w.m_bsMap[b]? = some p → u.Removes v' b c p w' → EventIndex cfg w v b events w'

theorem Represents.connEventcb_index (r : Represents cfg w v) (paired : v.Paired R) (present : v b = some c)
    (events : BitVec 16) (returns : RemoteServer.connEventcb b events w = .ok ((), w')) :
    EventIndex cfg w v b events w' := by
  obtain ⟨p, entry, _, _⟩ := r.entry present
  by_cases closes : Relay.closes events = true
  · rw [r.handles present entry events (.inl closes), if_pos closes] at returns
    obtain ⟨_, ends, removes⟩ := r.closeConnection_removes paired present entry
    obtain ⟨-, rfl⟩ := Prod.mk.inj (Except.ok.inj (ends.symm.trans returns))
    exact .closed (.inl closes) rfl r (.inl rfl) present entry removes
  by_cases timeout : has events bevEventTimeout = true
  · rw [r.handles present entry events (.inr timeout), if_neg closes] at returns
    obtain ⟨_, _, w₃, tests, enablesRead, enablesWrite, aged, after⟩ := r.ages paired present entry
    have index : w₃.index = w.index :=
      ((buffereventEnable_aside b evWrite).same enablesWrite).trans
        (((buffereventEnable_aside b evRead).same enablesRead).trans ((timedOut_aside _ _).same tests))
    rw [Exec.bind_ok tests, Exec.bind_ok enablesRead, Exec.bind_ok enablesWrite] at returns
    by_cases expired : Relay.TimedOut cfg (modify v b (Conn.inactive w.env)) b
    · rw [if_pos (decide_eq_true expired), ← after.bsMap] at returns
      obtain ⟨_, ends, removes⟩ := aged.closeConnection_removes (paired.modify _ fun _ => rfl)
        (modify_present present (Conn.inactive w.env)) (after.bsMap ▸ entry)
      obtain ⟨-, rfl⟩ := Prod.mk.inj (Except.ok.inj (ends.symm.trans returns))
      exact .closed (.inr ⟨timeout, expired⟩) index aged (.inr rfl) (modify_present present _) entry removes
    · rw [if_neg (by simpa using expired)] at returns
      cases returns
      exact .kept (fun closed => closed.elim closes fun h => expired h.2) index
  · refine .kept (fun closed => closed.elim closes fun h => timeout h.1) ?_
    simp only [RemoteServer.connEventcb] at returns
    rw [if_neg (by simpa [Relay.closes, timeout] using closes)] at returns
    cases returns
    rfl

/-- A failed accept breaks the loop, and nothing else does. -/
theorem Represents.broken_next {label : Label} (r : Represents cfg w v) (step : Step cfg w label w') :
    w'.broken = (w.broken || label.event.breaks) := by
  obtain ⟨event, env⟩ := label
  cases event with
  | listenerCb bev fd =>
    cases bev with
    | none =>
      obtain ⟨-, rfl⟩ := Prod.mk.inj (Except.ok.inj step.2)
      exact (Bool.or_true _).symm
    | some b => exact ((r.start env).listenerCb_aside (step.1 b rfl) step.2).trans (Bool.or_false _).symm
  | connReadcb => exact (step.apart nofun).trans (Bool.or_false _).symm
  | connEventcb => exact (step.apart nofun).trans (Bool.or_false _).symm
  | writeProgress => exact (step.apart nofun).trans (Bool.or_false _).symm

end RemoteServer
