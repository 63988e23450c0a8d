import RemoteServer.Indexes

/-! The index by descriptor. `removeSession` erases a descriptor only if it is
positive; as long as no connection with descriptor 0 is closed, the two indexes of
the container agree. -/
namespace RemoteServer
open Transition PartialMap

variable {cfg : Option Configure} {w w' : World} {v : Relay} {R : Phase → Phase → Prop}
  {b i : BevPtr} {p : SessionPtr} {c new : Conn} {label : Label}

/-- `m_fsMap` is the image of `m_bsMap` under the descriptors, every session in it
is live, and both `find`s lead to the same one. -/
structure World.IndexesAgree (w : World) : Prop where
  entries : ∀ (fd : Int) (p : SessionPtr), w.m_fsMap[fd]? = some p ↔
    ∃ (b : BevPtr) (x : Bufferevent), w.m_bsMap[b]? = some p ∧ w.bevs b = some x ∧ x.fd = fd
  live : ∀ (b : BevPtr) (p : SessionPtr), w.m_bsMap[b]? = some p →
    (∃ s, w.sessions p = some s) ∧ ∃ x, w.bevs b = some x
  finds : ∀ b x, w.bevs b = some x → TcpContainer.findFd x.fd w = TcpContainer.find b w

/-- The descriptor of a live bufferevent. -/
def World.fd (w : World) (b : BevPtr) : Option Int := (w.bevs b).map (·.fd)

/-- What holds between callbacks: the second index is right, and descriptors are natural. -/
structure World.Described (w : World) : Prop where
  second : SecondIndex (fun b : BevPtr => w.m_bsMap[b]?) w.fd (fun fd : Int => w.m_fsMap[fd]?)
  natural : ∀ b fd, w.fd b = some fd → 0 ≤ fd

theorem World.Described.agree (described : w.Described) (r : Represents cfg w v) : w.IndexesAgree where
  entries fd p := by
    rw [described.second.found fd p]
    simp only [World.fd, Option.map_eq_some_iff, exists_and_left]
  live b p entry := by
    obtain ⟨c, present⟩ := r.key entry
    obtain ⟨live, bev⟩ := r.lookup present entry
    exact ⟨⟨_, live⟩, _, bev⟩
  finds b x bev := by
    obtain ⟨c, present⟩ := r.bev bev
    obtain ⟨p, entry, _⟩ := r.entry present
    have labeled : w.fd b = some x.fd := by rw [World.fd, bev, Option.map_some]
    have same := described.second.agree labeled entry
    simp only [TcpContainer.findFd, Exec.get_bind, TcpContainer.find_apply]
    rw [same]
    rfl

namespace Relay

/-- The descriptor of a connection. -/
def fd (v : Relay) (b : BevPtr) : Option Int := (v b).map (·.line.fd)

theorem fd_modify (f : Conn → Conn) (same : ∀ c, (f c).line.fd = c.line.fd) :
    fd (PartialMap.modify v b f) = v.fd := by
  funext i
  rw [fd, modify_apply]
  split
  · rename_i here
    have unchanged : (fun c : Conn => c.line.fd) ∘ f = fun c => c.line.fd := funext same
    rw [here, Option.map_map, unchanged, fd]
  · rfl

theorem append_fd (x : Bufferevent) (success : Bool) (data : List UInt8) :
    (x.append success data).fd = x.fd := by
  cases success <;> rfl

theorem fd_login (outcome : Nat → Bool) (b : BevPtr) (card : Card) :
    fd (v.login outcome b card) = v.fd := by
  have sent (c : Conn) (success : Bool) (q : BevPtr) (pc : Option Card) :
      ((c.bind q pc).send success telproxyOk).line.fd = c.line.fd := append_fd ..
  cases chosen : Relay.partner (PartialMap.modify v b (Conn.login card)) card with
  | none =>
    simp only [Relay.login, chosen]
    exact fd_modify _ fun _ => rfl
  | some q =>
    simp only [Relay.login, chosen, join]
    rw [fd_modify _ fun c => sent .., fd_modify _ fun c => sent ..,
      fd_modify (Conn.login card) fun _ => rfl]

theorem fd_read (env : Env) (b : BevPtr) (chunk : List UInt8) : fd (v.read env b chunk) = v.fd := by
  have step := v.read_step env b chunk
  generalize v.read env b chunk = u at step
  cases step with
  | absent => rfl
  | ignored => exact fd_modify _ fun _ => rfl
  | login =>
    rw [fd_login]
    exact fd_modify _ fun _ => rfl
  | forward =>
    rw [forward, fd_modify _ fun c => append_fd .., fd_modify Conn.active fun _ => rfl]
    exact fd_modify _ fun _ => rfl

theorem fd_event (cfg : Option Configure) (env : Env) (b : BevPtr) (events : BitVec 16)
    (kept : ¬v.Closes cfg env b events) : fd (v.event cfg env b events) = v.fd := by
  have step := v.event_step cfg env b events
  generalize v.event cfg env b events = u at step
  cases step with
  | quiet => rfl
  | closed closes => exact absurd (.inl closes) kept
  | idle => exact fd_modify _ fun _ => rfl
  | expired _ timeout expired => exact absurd (.inr ⟨timeout, expired⟩) kept

end Relay

theorem Represents.fd (r : Represents cfg w v) : w.fd = v.fd := by
  funext b
  rw [World.fd, r.bevs, Option.map_map, Relay.fd]
  rfl

/-- The same indexes and descriptors. -/
theorem World.Described.congr (described : w.Described) (bsMap : w'.m_bsMap = w.m_bsMap)
    (fsMap : w'.m_fsMap = w.m_fsMap) (fd : w'.fd = w.fd) : w'.Described := by
  constructor
  · rw [bsMap, fsMap, fd]
    exact described.second
  · rw [fd]
    exact described.natural

/-- A connection whose descriptor is positive leaves both indexes. -/
theorem World.Described.dropConn (described : w.Described) {x : Bufferevent} (bev : w.bevs b = some x)
    (positive : 0 < x.fd) (p : SessionPtr) : (w.dropConn b x p).Described := by
  have labeled : w.fd b = some x.fd := by rw [World.fd, bev, Option.map_some]
  have bsMap : (fun i : BevPtr => (w.dropConn b x p).m_bsMap[i]?) =
      Function.update (fun i => w.m_bsMap[i]?) b none := by
    funext i
    rw [World.dropConn_lookup, Function.update_apply]
  have fsMap : (fun fd : Int => (w.dropConn b x p).m_fsMap[fd]?) =
      Function.update (fun fd => w.m_fsMap[fd]?) x.fd none := by
    funext fd
    have erased : (w.dropConn b x p).m_fsMap = w.m_fsMap.erase x.fd := by
      rw [World.dropConn, World.forgetFd, if_pos positive]
      rfl
    rw [erased, Std.TreeMap.getElem?_erase, Function.update_apply]
    simp only [compare_eq_iff_eq, eq_comm (a := x.fd)]
  have label : (w.dropConn b x p).fd = Function.update w.fd b none := by
    funext i
    rw [World.fd, World.dropConn_bevs, Function.update_apply, Function.update_apply]
    split
    · rfl
    · rfl
  constructor
  · rw [bsMap, fsMap, label]
    exact described.second.remove labeled
  · intro i fd named
    rw [label, Function.update_apply] at named
    split at named
    · contradiction
    · exact described.natural i fd named

theorem insertIfNew_lookup {κ β : Type} {cmp : κ → κ → Ordering} [Std.TransCmp cmp] [Std.LawfulEqCmp cmp]
    [DecidableEq κ] {t : Std.TreeMap κ β cmp} {k : κ} (absent : t[k]? = none) (value : β) :
    (fun i => (t.insertIfNew k value)[i]?) = Function.update (fun i => t[i]?) k (some value) := by
  funext i
  have unused : k ∉ t := by
    rw [Std.TreeMap.mem_iff_isSome_getElem?, absent]
    exact Bool.false_ne_true
  rw [Std.TreeMap.getElem?_insertIfNew, Function.update_apply]
  simp only [unused, not_false_eq_true, and_true, Std.LawfulEqCmp.compare_eq_iff_eq, eq_comm (a := k)]

/-- What the kernel promises of the descriptor of an accepted bufferevent: it is
natural, and no live bufferevent has it. -/
def Event.FreshDescriptor (w : World) : Event → Prop
  | .listenerCb (some _) fd => 0 ≤ fd ∧ ∀ b x, w.bevs b = some x → x.fd ≠ fd
  | _ => True

/-- The event closes the connection: end of file, an error, or a timeout that finds
the connection and its peer idle for too long. -/
def World.Closes (w : World) (b : BevPtr) (events : BitVec 16) : Prop :=
  has events bevEventEof ∨ has events bevEventError ∨ has events bevEventTimeout ∧
    ∃ s, w.sessionAt b = some s ∧ s.m_timeouts ≤ s.m_inactive + 40 ∧
      ∀ q t, s.m_meetee1.bev = some q → w.sessionAt q = some t → t.m_timeouts ≤ t.m_inactive

/-- If the callback closes a connection, neither that nor its peer has descriptor 0. -/
def Event.SparesZero (w : World) : Event → Prop
  | .connEventcb b events => w.Closes b events →
      ∀ i x, i = b ∨ (w.sessionAt b).bind (·.m_meetee1.bev) = some i → w.bevs i = some x → x.fd ≠ 0
  | _ => True

theorem Represents.closes (r : Represents cfg w v) (paired : v.Paired R) (present : v b = some c)
    (env : Env) (events : BitVec 16) (closes : v.Closes cfg env b events) : w.Closes b events := by
  rcases closes with closes | ⟨timeout, expired⟩
  · rw [Relay.closes, Bool.or_eq_true] at closes
    exact closes.elim .inl fun error => .inr (.inl error)
  · obtain ⟨own, other⟩ := (Relay.timedOut_inactive_iff paired present cfg env).mp expired
    refine .inr (.inr ⟨timeout, c.session cfg b, by rw [r.sessionAt, present, Option.map_some], own, ?_⟩)
    intro q t linked found
    rw [r.sessionAt] at found
    obtain ⟨d, partner, rfl⟩ := Option.map_eq_some_iff.mp found
    exact other q d linked partner

namespace World.Models

theorem fd_accept (models : w.Models cfg R v) {fd : Int} {env : Env}
    (step : Step cfg w ⟨.listenerCb (some b) fd, env⟩ w') : w'.fd = Function.update w.fd b (some fd) := by
  obtain ⟨r', _⟩ := models.represents.next models.paired step
  rw [r'.fd, models.represents.fd]
  funext i
  simp only [Relay.fd, Relay.next, Function.update_apply]
  split
  · rfl
  · rfl

theorem described_accept (models : w.Models cfg R v) (described : w.Described) {fd : Int} {env : Env}
    (step : Step cfg w ⟨.listenerCb (some b) fd, env⟩ w') (natural : 0 ≤ fd)
    (unused : ∀ b x, w.bevs b = some x → x.fd ≠ fd) : w'.Described := by
  have r := models.represents
  have free : w.bevs b = none := step.1 b rfl
  have index := listenerCb_index (r.start env) free step.2
  have absent := r.absent (r.free_iff.mp free)
  have unlabeled (q : BevPtr) : w.fd q ≠ some fd := by
    intro named
    obtain ⟨x, bev, same⟩ := Option.map_eq_some_iff.mp named
    exact unused q x bev same
  have absent' : w.m_fsMap[fd]? = none := by
    by_contra taken
    obtain ⟨p, taken⟩ := Option.ne_none_iff_exists'.mp taken
    obtain ⟨q, _, named⟩ := (described.second.found fd p).mp taken
    exact unlabeled q named
  have label := models.fd_accept step
  have bsMap : w'.m_bsMap = w.m_bsMap.insertIfNew b w.nextSession := congrArg Index.bsMap index
  have fsMap : w'.m_fsMap = w.m_fsMap.insertIfNew fd w.nextSession := congrArg Index.fsMap index
  constructor
  · rw [bsMap, fsMap, label, insertIfNew_lookup absent, insertIfNew_lookup absent']
    exact described.second.insert absent unlabeled
  · intro i n named
    rw [label, Function.update_apply] at named
    split at named
    · exact Option.some.inj named ▸ natural
    · exact described.natural i n named

theorem described_event (models : w.Models cfg R v) (described : w.Described) {env : Env}
    (step : Step cfg w ⟨.connEventcb b events, env⟩ w')
    (spares : (Event.connEventcb b events).SparesZero w) : w'.Described := by
  have r := models.represents
  obtain ⟨c, present⟩ := r.present step.1
  obtain ⟨r', _⟩ := r.next models.paired step
  cases (r.start env).connEventcb_index models.paired present events step.2 with
  | kept kept index =>
    refine described.congr (congrArg Index.bsMap index) (congrArg Index.fsMap index) ?_
    rw [r'.fd, r.fd]
    exact Relay.fd_event cfg env b events kept
  | @closed u v' d p closes index ru same present' entry removes =>
    have fd : v'.fd = v.fd := by
      rcases same with rfl | rfl
      · rfl
      · exact Relay.fd_modify _ fun _ => rfl
    have before : u.Described := described.congr (congrArg Index.bsMap index) (congrArg Index.fsMap index)
      (by rw [ru.fd, r.fd, fd])
    have linked : d.phase.peer = c.phase.peer := by
      rcases same with rfl | rfl
      · obtain rfl := Option.some.inj (present.symm.trans present')
        rfl
      · obtain rfl := Option.some.inj ((modify_present present _).symm.trans present')
        rfl
    have spared := spares (r.closes models.paired present env events closes)
    have peer : (w.sessionAt b).bind (·.m_meetee1.bev) = c.phase.peer := by
      rw [r.sessionAt, present, Option.map_some, Option.bind_some]
      rfl
    have positive {i : BevPtr} {e : Conn} (taken : i = b ∨ c.phase.peer = some i)
        (found : v' i = some e) : 0 < e.line.fd := by
      have named : v.fd i = some e.line.fd := by rw [← fd, Relay.fd, found, Option.map_some]
      obtain ⟨e', found', line⟩ := Option.map_eq_some_iff.mp named
      have bev : w.bevs i = some e'.line := by rw [r.bevs, found', Option.map_some]
      have nonzero := spared i _ (by rwa [peer]) bev
      have natural := described.natural i e.line.fd (by rw [r.fd, named])
      omega
    have bev {i : BevPtr} {e : Conn} (found : v' i = some e) : u.bevs i = some e.line := by
      rw [ru.bevs, found, Option.map_some]
    cases removes with
    | single => exact before.dropConn (bev present') (positive (.inl rfl) present') _
    | @pair q t peer toQ apart partner =>
      refine (before.dropConn (bev present') (positive (.inl rfl) present') _).dropConn ?_
        (positive (.inr (linked ▸ toQ)) partner) _
      rw [World.dropConn_bevs, Function.update_of_ne apart, bev partner]

/-- One callback keeps the two indexes in agreement. -/
theorem described_next (models : w.Models cfg R v) (described : w.Described) (step : Step cfg w label w')
    (fresh : label.event.FreshDescriptor w) (spares : label.event.SparesZero w) : w'.Described := by
  obtain ⟨event, env⟩ := label
  obtain ⟨r', _⟩ := models.represents.next models.paired step
  have label (fd : Relay.fd (v.next cfg w.m_sidCount ⟨event, env⟩) = v.fd) : w'.fd = w.fd := by
    rw [r'.fd, models.represents.fd, fd]
  cases event with
  | listenerCb bev fd =>
    cases bev with
    | none =>
      obtain ⟨-, rfl⟩ := Prod.mk.inj (Except.ok.inj step.2)
      exact described.congr rfl rfl rfl
    | some b => exact models.described_accept described step fresh.1 fresh.2
  | connReadcb b chunk =>
    have index := read_index step.2
    exact described.congr (congrArg Index.bsMap index) (congrArg Index.fsMap index)
      (label (Relay.fd_read env b chunk))
  | connEventcb b events => exact models.described_event described step spares
  | writeProgress b n =>
    have index := (drain_index b n).same step.2
    exact described.congr (congrArg Index.bsMap index) (congrArg Index.fsMap index)
      (label (Relay.fd_modify _ fun _ => rfl))

end World.Models

theorem World.Described.init : World.init.Described where
  second := {
    found := by
      intro fd p
      simp [World.init]
    injective := by
      intro b q fd named
      simp [World.fd, World.init] at named }
  natural := by
    intro b fd named
    simp [World.fd, World.init] at named

/-- A step in which the kernel keeps its promise. -/
def KernelStep (cfg : Option Configure) (w : World) (label : Label) (w' : World) : Prop :=
  Step cfg w label w' ∧ label.event.FreshDescriptor w

/-- In every run in which no connection with descriptor 0 is closed, the two indexes
agree in every state. -/
theorem indexes_agree
    (run : Run (fun w label w' => KernelStep cfg w label w' ∧ label.event.SparesZero w) World.init
      labels w) : w.IndexesAgree := by
  obtain ⟨v, models, described⟩ : ∃ v, w.Models cfg Phase.Fits v ∧ w.Described := by
    refine run.invariant (fun w => ∃ v, w.Models cfg Phase.Fits v ∧ w.Described) ?_ ⟨_, .init, .init⟩
    rintro w label w' ⟨v, models, described⟩ ⟨⟨step, fresh⟩, spares⟩
    exact ⟨_, models.next Relay.fits_joins step, models.described_next described step fresh spares⟩
  exact described.agree models.represents

/-- The descriptor 3 is used again once its connection is closed. -/
def reuse : List Label :=
  [⟨.listenerCb (some 5) 3, .ideal 0⟩, ⟨.connEventcb 5 bevEventEof, .ideal 0⟩,
    ⟨.listenerCb (some 7) 3, .ideal 0⟩]

theorem indexes_agree_reuse : (World.after none reuse).IndexesAgree := by
  have accepts : Step none World.init ⟨.listenerCb (some 5) 3, .ideal 0⟩
      (World.after none (reuse.take 1)) := ⟨by decide +kernel, rfl⟩
  have closes : Step none (World.after none (reuse.take 1)) ⟨.connEventcb 5 bevEventEof, .ideal 0⟩
      (World.after none (reuse.take 2)) := ⟨by decide +kernel, rfl⟩
  have again : Step none (World.after none (reuse.take 2)) ⟨.listenerCb (some 7) 3, .ideal 0⟩
      (World.after none reuse) := ⟨by decide +kernel, rfl⟩
  have opened := (World.Models.init (R := Phase.Fits)).fd_accept accepts
  have single : ((World.after none (reuse.take 1)).sessionAt 5).bind (·.m_meetee1.bev) = none := by
    decide +kernel
  have empty : (World.after none (reuse.take 2)).m_bsMap.keys = [] := by decide +kernel
  have first : (Event.listenerCb (some 5) 3).FreshDescriptor World.init :=
    ⟨by decide, fun b x live => by contradiction⟩
  have spared : (Event.connEventcb 5 bevEventEof).SparesZero (World.after none (reuse.take 1)) := by
    intro _ i x which live
    rw [single] at which
    obtain rfl := which.resolve_right (Option.some_ne_none i).symm
    have named : (World.after none (reuse.take 1)).fd 5 = some x.fd := by
      rw [World.fd, live, Option.map_some]
    rw [opened, Function.update_self] at named
    rw [← Option.some.inj named]
    decide
  have unused : (Event.listenerCb (some 7) 3).FreshDescriptor (World.after none (reuse.take 2)) := by
    refine ⟨by decide, fun b x live => ?_⟩
    obtain ⟨v, models⟩ := reachable (run_after none (reuse.take 2) (by decide +kernel))
    obtain ⟨c, present⟩ := models.represents.bev live
    obtain ⟨p, entry, _⟩ := models.represents.entry present
    have key := World.mem_keys entry
    rw [empty] at key
    contradiction
  exact indexes_agree (((Run.single ⟨⟨accepts, first⟩, trivial⟩).snoc
    ⟨⟨closes, trivial⟩, spared⟩).snoc ⟨⟨again, unused⟩, trivial⟩)

/-- A connection with descriptor 0, accepted and closed. -/
def descriptorZero : List Label :=
  [⟨.listenerCb (some 5) 0, .ideal 0⟩, ⟨.connEventcb 5 bevEventEof, .ideal 0⟩]

/-- The kernel's promise is not enough: the entry of descriptor 0 outlives its session. -/
theorem not_indexesAgree :
    ¬∀ (cfg : Option Configure) (labels : List Label) (w : World),
      Run (KernelStep cfg) World.init labels w → w.IndexesAgree := by
  intro agree
  have accepts : Step none World.init ⟨.listenerCb (some 5) 0, .ideal 0⟩
      (World.after none (descriptorZero.take 1)) := ⟨by decide +kernel, rfl⟩
  have closes : Step none (World.after none (descriptorZero.take 1)) ⟨.connEventcb 5 bevEventEof, .ideal 0⟩
      (World.after none descriptorZero) := ⟨by decide +kernel, rfl⟩
  have fresh : (Event.listenerCb (some 5) 0).FreshDescriptor World.init :=
    ⟨by decide, fun b x live => by contradiction⟩
  have agrees := agree none descriptorZero _ ((Run.single ⟨accepts, fresh⟩).snoc ⟨closes, trivial⟩)
  have stale : (World.after none descriptorZero).m_fsMap[(0 : Int)]? = some 0 := by decide +kernel
  have empty : (World.after none descriptorZero).m_bsMap.keys = [] := by decide +kernel
  obtain ⟨b, x, entry, _⟩ := (agrees.entries 0 0).mp stale
  have key := World.mem_keys entry
  rw [empty] at key
  contradiction

end RemoteServer
