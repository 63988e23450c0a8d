import RemoteServer.Server

/-! What the methods of `Session` and the libevent calls leave alone: the two
indexes of the container, the request counters and the pauses. Whole callbacks leave
the numbering of the sessions and the event loop alone, those of the listener aside. -/
namespace RemoteServer
open Exec

/-- The part of the state that only the container and the throttle write, and what
the event loop supplies. -/
structure Index where
  bsMap : Std.TreeMap BevPtr SessionPtr
  fsMap : Std.TreeMap Int SessionPtr
  manager : Option ConnectionManager
  sleeps : List Nat
  env : Env

def World.index (w : World) : Index where
  bsMap := w.m_bsMap
  fsMap := w.m_fsMap
  manager := w.connManager
  sleeps := w.sleeps
  env := w.env

/-- A view of the state that shows neither the objects nor the record of the library
calls. -/
class Outside {τ : Type} (view : World → τ) : Prop where
  putSession : ∀ w p s, view (w.putSession p s) = view w
  putBev : ∀ w b x, view (w.putBev b x) = view w
  dropBev : ∀ w b x, view (w.dropBev b x) = view w
  logRead : ∀ w b chunk, view (w.logRead b chunk) = view w
  tick : ∀ w, view w.tick = view w

instance : Outside World.index := ⟨fun _ _ _ => rfl, fun _ _ _ => rfl, fun _ _ _ => rfl, fun _ _ _ => rfl,
  fun _ => rfl⟩

/-- A view that does not show the indexes and the throttle either. -/
class Apart {τ : Type} (view : World → τ) : Prop extends Outside view where
  start : ∀ w env, view (w.start env) = view w
  dropSession : ∀ w p, view (w.dropSession p) = view w
  eraseKey : ∀ w b, view (w.eraseKey b) = view w
  eraseFd : ∀ w fd, view (w.eraseFd fd) = view w
  throttle : ∀ w m sleeps, view { w with connManager := m, sleeps := sleeps } = view w

instance : Apart World.m_sidCount where
  putSession _ _ _ := rfl
  putBev _ _ _ := rfl
  dropBev _ _ _ := rfl
  logRead _ _ _ := rfl
  tick _ := rfl
  start _ _ := rfl
  dropSession _ _ := rfl
  eraseKey _ _ := rfl
  eraseFd _ _ := rfl
  throttle _ _ _ := rfl

instance : Apart World.broken where
  putSession _ _ _ := rfl
  putBev _ _ _ := rfl
  dropBev _ _ _ := rfl
  logRead _ _ _ := rfl
  tick _ := rfl
  start _ _ := rfl
  dropSession _ _ := rfl
  eraseKey _ _ := rfl
  eraseFd _ _ := rfl
  throttle _ _ _ := rfl

variable {τ : Type} {view : World → τ}

theorem derefSession_aside (p : SessionPtr) : Keeps view (derefSession p) where
  same returns := by
    simp only [derefSession] at returns
    split at returns
    · cases returns
      rfl
    · cases returns

theorem derefBev_aside (b : BevPtr) : Keeps view (derefBev b) where
  same returns := by
    simp only [derefBev] at returns
    split at returns
    · cases returns
      rfl
    · cases returns

theorem inputLength_aside (bev : BevPtr) : Keeps view (inputLength bev) :=
  .bind (derefBev_aside bev) fun _ => .pure _

theorem buffereventGetfd_aside (bev : BevPtr) : Keeps view (buffereventGetfd bev) :=
  .bind (derefBev_aside bev) fun _ => .pure _

section Objects
variable [Outside view]

theorem modifySession_aside (p : SessionPtr) (f : Session → Session) : Keeps view (modifySession p f) :=
  .bind (derefSession_aside p) fun _ => .modify fun _ => Outside.putSession ..

theorem modifyBev_aside (b : BevPtr) (f : Bufferevent → Bufferevent) : Keeps view (modifyBev b f) :=
  .bind (derefBev_aside b) fun _ => .modify fun _ => Outside.putBev ..

theorem nextOutcome_aside : Keeps view nextOutcome where
  same returns := by
    cases returns
    exact Outside.tick _

theorem buffereventWrite_aside (b : BevPtr) (data : List UInt8) : Keeps view (buffereventWrite b data) :=
  .bind (derefBev_aside b) fun _ => .bind nextOutcome_aside fun _ =>
    .ite (.bind (modifyBev_aside b _) fun _ => .pure _) (.pure _)

theorem buffereventRead_aside (b : BevPtr) (size : Nat) : Keeps view (buffereventRead b size) :=
  .bind (derefBev_aside b) fun _ => .bind (modifyBev_aside b _) fun _ =>
    .bind (.modify fun _ => Outside.logRead ..) fun _ => .pure _

theorem buffereventFree_aside (b : BevPtr) : Keeps view (buffereventFree b) :=
  .bind (derefBev_aside b) fun _ => .modify fun _ => Outside.dropBev ..

theorem buffereventSetTimeouts_aside (b : BevPtr) (timeoutRead : Time) :
    Keeps view (buffereventSetTimeouts b timeoutRead) :=
  .bind .get fun _ => modifyBev_aside b _

theorem buffereventEnable_aside (b : BevPtr) (event : BitVec 16) : Keeps view (buffereventEnable b event) :=
  .bind .get fun _ => modifyBev_aside b _

theorem arrive_aside (b : BevPtr) (chunk : List UInt8) : Keeps view (arrive b chunk) :=
  .bind .get fun _ => modifyBev_aside b _

theorem drain_aside (b : BevPtr) (n : Nat) : Keeps view (drain b n) := modifyBev_aside b _

namespace Session

omit [Outside view] in
theorem getBev_aside (this : SessionPtr) (index : Int) : Keeps view (getBev this index) := by
  unfold getBev
  exact .ite (.pure _) (.bind (derefSession_aside this) fun _ => .pure _)

omit [Outside view] in
theorem getUserData_aside (this : SessionPtr) (index len : Int) :
    Keeps view (getUserData this index len) := by
  unfold getUserData
  exact .ite (.pure _) <| .ite (.pure _) (.bind (derefSession_aside this) fun _ => .pure _)

omit [Outside view] in
theorem getSessionState_aside (this : SessionPtr) : Keeps view (getSessionState this) :=
  .bind (derefSession_aside this) fun _ => .pure _

omit [Outside view] in
theorem dumpInfo_aside (this : SessionPtr) : Keeps view (dumpInfo this) :=
  .bind (derefSession_aside this) fun _ => .pure _

theorem inactive_aside (this : SessionPtr) (interval : Int) : Keeps view (inactive this interval) :=
  .bind (modifySession_aside this _) fun _ => .bind (derefSession_aside this) fun _ => .pure _

theorem setBev_aside (this : SessionPtr) (index : Int) (bev : Option BevPtr) :
    Keeps view (setBev this index bev) := by
  unfold setBev
  cases bev with
  | none => exact .pure _
  | some bev => exact .ite (.pure _) (.bind (modifySession_aside this _) fun _ => .pure _)

theorem setUserData_aside (this : SessionPtr) (index : Int) (userData : Option UCard) (len : Int) :
    Keeps view (setUserData this index userData len) := by
  unfold setUserData
  cases userData with
  | none => exact .pure _
  | some card =>
    refine .ite (.pure _) (.ite (.pure _) (.bind (modifySession_aside this _) fun _ => ?_))
    exact .bind nextOutcome_aside fun _ =>
      .ite (.bind (modifySession_aside this _) fun _ => .pure _) (.pure _)

theorem login_aside (cfg : Option Configure) (this : SessionPtr) (data : List UInt8) :
    Keeps view (login cfg this data) := by
  unfold login
  refine .ite (.pure _) (.bind (derefSession_aside this) fun s => .ite ?_ (.pure _))
  refine .bind (.lift _) fun found => ?_
  cases found with
  | none => exact .pure _
  | some ucard =>
    refine .bind (setUserData_aside this 0 _ _) fun ret => .ite (.pure _) ?_
    exact .bind (modifySession_aside this _) fun _ => .bind (modifySession_aside this _) fun _ =>
      .bind (dumpInfo_aside this) fun _ => .pure _

theorem matchDone_aside (cfg : Option Configure) (this : SessionPtr) (bev : Option BevPtr)
    (card : Option UCard) : Keeps view (matchDone cfg this bev card) := by
  unfold matchDone
  exact .ite (.pure _) (.bind (modifySession_aside this _) fun _ => .bind (modifySession_aside this _) fun _ =>
    .bind (setBev_aside this 1 bev) fun _ => .ite (.pure _)
      (.bind (setUserData_aside this 1 card _) fun _ => .ite (.pure _) (.pure _)))

theorem business_aside (this : SessionPtr) (data : List UInt8) : Keeps view (business this data) := by
  unfold business
  refine .ite (.pure _) (.bind (derefSession_aside this) fun _ => .ite ?_ (.pure _))
  refine .bind (modifySession_aside this _) fun _ => .bind (derefSession_aside this) fun s => ?_
  cases s.m_meetee1.bev with
  | none => exact .pure _
  | some bev => exact .bind (buffereventWrite_aside bev data) fun _ => .pure _

end Session

theorem Session.match_aside (cfg : Option Configure) (this se : SessionPtr) :
    Keeps view (Session.match cfg this se) := by
  unfold Session.match
  refine .bind (getSessionState_aside this) fun _ => .bind (getSessionState_aside se) fun _ => .ite ?_ (.pure _)
  refine .bind (derefSession_aside this) fun s => .bind (getUserData_aside se 0 _) fun uCard => ?_
  cases uCard with
  | none => exact .pure _
  | some uCard =>
    cases s.m_meetee0.userData with
    | none => exact .throw _
    | some card =>
      exact .ite (.pure _) (.bind (getBev_aside se 0) fun bev => .bind (matchDone_aside cfg this bev _) fun _ =>
        .bind (getBev_aside this 0) fun bev => .bind (matchDone_aside cfg se bev _) fun _ => .pure _)

namespace TcpContainer

omit [Outside view] in
theorem find_aside (bev : BevPtr) : Keeps view (find bev) := .bind .get fun _ => .pure _

omit [Outside view] in
theorem getPeer_aside (se : Option SessionPtr) : Keeps view (getPeer se) := by
  unfold getPeer
  cases se with
  | none => exact .pure _
  | some se =>
    refine .bind (Session.getBev_aside se 1) fun bf => ?_
    cases bf with
    | none => exact .pure _
    | some bf => exact .bind .get fun _ => .pure _

/-- The loop writes only through `Session::match`. -/
theorem matchLoop_aside (cfg : Option Configure) (se : SessionPtr) (its : List (BevPtr × SessionPtr)) :
    ∀ ret, Keeps view (matchLoop cfg se ret its) := by
  induction its with
  | nil => exact fun ret => .pure ret
  | cons it rest ih =>
    exact fun ret => .bind (Session.match_aside cfg se it.2) fun _ =>
      .ite (.bind (Session.dumpInfo_aside se) fun _ => .bind (Session.dumpInfo_aside it.2) fun _ => .pure _)
        (ih _)

theorem match_aside (cfg : Option Configure) (se : SessionPtr) : Keeps view (TcpContainer.match cfg se) :=
  .bind .get fun _ => matchLoop_aside cfg se _ _

end TcpContainer

theorem announce_aside (se : SessionPtr) : Keeps view (announce se) := by
  unfold announce
  refine .bind (Session.getBev_aside se 0) fun bf0 => .bind (Session.getBev_aside se 1) fun bf1 => ?_
  cases bf0 with
  | none => exact .pure _
  | some bf0 =>
    cases bf1 with
    | none => exact .pure _
    | some bf1 =>
      exact .bind (buffereventWrite_aside bf0 _) fun _ => .bind (buffereventWrite_aside bf1 _) fun _ => .pure _

theorem dispatch_aside (cfg : Option Configure) (se : SessionPtr) (data : List UInt8) :
    Keeps view (dispatch cfg se data) := by
  unfold dispatch
  refine .bind (Session.getSessionState_aside se) fun state => ?_
  cases state with
  | raw =>
    refine .bind (Session.login_aside cfg se data) fun _ => .ite ?_ (.pure _)
    exact .bind (TcpContainer.match_aside cfg se) fun _ => .ite (.bind (announce_aside se) fun _ => .pure _)
      (.pure _)
  | bind => exact .bind (Session.business_aside se data) fun _ => .pure _
  | login => exact .pure _
  | die => exact .pure _
  | err => exact .pure _

theorem handleMessage_aside (cfg : Option Configure) (bev : BevPtr) : Keeps view (handleMessage cfg bev) := by
  unfold handleMessage
  refine .bind (TcpContainer.find_aside bev) fun se => ?_
  cases se with
  | none => exact .pure _
  | some se =>
    exact .bind (buffereventRead_aside bev 4096) fun data => .ite (.pure _) (dispatch_aside cfg se data)

theorem timedOut_aside (se : SessionPtr) (peerSe : Option SessionPtr) : Keeps view (timedOut se peerSe) := by
  unfold timedOut
  refine .bind (Session.inactive_aside se 40) fun own => ?_
  cases peerSe with
  | none => exact .pure _
  | some peerSe => exact .bind (Session.inactive_aside peerSe 0) fun _ => .pure _

end Objects

section Callbacks
variable [Apart view]

theorem Session.delete_apart (this : SessionPtr) : Keeps view (delete this) := by
  unfold delete
  refine .bind (derefSession_aside this) fun s => ?_
  cases s.m_meetee0.bev with
  | none => exact .modify fun _ => Apart.dropSession ..
  | some b => exact .bind (buffereventFree_aside b) fun _ => .modify fun _ => Apart.dropSession ..

namespace TcpContainer

theorem eraseFd_apart (fd : Int) : Keeps view (eraseFd fd) :=
  .ite (.modify fun _ => Apart.eraseFd ..) (.pure _)

theorem removeSession_apart (bev : BevPtr) : Keeps view (removeSession bev) := by
  unfold removeSession
  refine .bind (buffereventGetfd_aside bev) fun fd => .bind (eraseFd_apart fd) fun _ => .bind .get fun w => ?_
  cases w.m_bsMap[bev]? with
  | none => exact .bind (buffereventFree_aside bev) fun _ => .pure _
  | some se =>
    refine .bind (Session.getBev_aside se 1) fun peerBev => .bind (Session.getUserData_aside se 0 _) fun _ =>
      .bind (Session.delete_apart se) fun _ => .bind (.modify fun _ => Apart.eraseKey ..) fun _ => ?_
    cases peerBev with
    | none => exact .pure _
    | some peerBev =>
      refine .bind (buffereventGetfd_aside peerBev) fun fd =>
        .bind (eraseFd_apart fd) fun _ => .bind .get fun w => ?_
      cases w.m_bsMap[peerBev]? with
      | none => exact .bind (buffereventFree_aside peerBev) fun _ => .pure _
      | some se =>
        exact .bind (Session.getUserData_aside se 0 _) fun _ => .bind (Session.delete_apart se) fun _ =>
          .bind (.modify fun _ => Apart.eraseKey ..) fun _ => .pure _

end TcpContainer

theorem closeConnection_apart (bev : BevPtr) (se : SessionPtr) (peerSe : Option SessionPtr) :
    Keeps view (closeConnection bev se peerSe) := by
  unfold closeConnection
  refine .bind (Session.dumpInfo_aside se) fun _ => ?_
  cases peerSe with
  | none => exact .bind (TcpContainer.removeSession_apart bev) fun _ => .pure _
  | some peerSe =>
    exact .bind (Session.dumpInfo_aside peerSe) fun _ =>
      .bind (TcpContainer.removeSession_apart bev) fun _ => .pure _

theorem connEventcb_apart (bev : BevPtr) (events : BitVec 16) : Keeps view (connEventcb bev events) := by
  unfold connEventcb
  refine .ite ?_ (.pure _)
  refine .bind (TcpContainer.find_aside bev) fun se => .bind (TcpContainer.getPeer_aside se) fun peerSe => ?_
  cases se with
  | none => exact buffereventFree_aside bev
  | some se =>
    have closed : Keeps view (closeConnection bev se peerSe) := closeConnection_apart bev se peerSe
    refine .bind (Session.getUserData_aside se 0 _) fun _ => .ite closed (.ite closed ?_)
    refine .bind (timedOut_aside se peerSe) fun close => ?_
    have ends : Keeps view (if close then closeConnection bev se peerSe else pure ()) :=
      .ite closed (.pure _)
    have enabled (event : BitVec 16) : Keeps view (buffereventEnable bev event) :=
      buffereventEnable_aside bev event
    exact .ite (.bind (enabled evRead) fun _ => .ite (.bind (enabled evWrite) fun _ => ends) ends)
      (.ite (.bind (enabled evWrite) fun _ => ends) ends)

theorem processMessage_apart (cfg : Option Configure) (bev : BevPtr) :
    Keeps view (processMessage cfg bev) := by
  unfold processMessage
  have handles : Keeps view (handleMessage cfg bev) := handleMessage_aside cfg bev
  exact .bind .get fun _ => .bind (.modify fun _ => Apart.throttle ..) fun _ =>
    .ite (.bind (.modify fun _ => Apart.throttle ..) fun _ => handles) handles

theorem connReadcb_apart (cfg : Option Configure) (bev : BevPtr) : Keeps view (connReadcb cfg bev) := by
  unfold connReadcb
  have processed : Keeps view (processMessage cfg bev >>= fun _ => pure ()) :=
    .bind (processMessage_apart cfg bev) fun _ => .pure _
  exact .bind (inputLength_aside bev) fun _ => .ite (.bind (buffereventFree_aside bev) fun _ => processed)
    processed

/-- A callback of a connection does not touch what is apart. -/
theorem Step.apart {cfg : Option Configure} {w w' : World} {label : Label} (step : Step cfg w label w')
    (connected : ∀ bev fd, label.event ≠ .listenerCb bev fd) : view w' = view w := by
  obtain ⟨event, env⟩ := label
  have returns : event.run cfg (w.start env) = .ok ((), w') := step.2
  rw [← show view (w.start env) = view w from Apart.start w env]
  refine Keeps.same ?_ returns
  cases event with
  | listenerCb bev fd => exact absurd rfl (connected bev fd)
  | connReadcb b chunk => exact .bind (arrive_aside b chunk) fun _ => connReadcb_apart cfg b
  | connEventcb b events => exact connEventcb_apart b events
  | writeProgress b n => exact drain_aside b n

end Callbacks
end RemoteServer
