import RemoteServer.Configure.Loading
import RemoteServer.Lib.Transition
import RemoteServer.Session

/-! The two overloads of `Configure::readConfigFile` over the life of the process. The
one without a path asks whether a file was read, the other whether an object exists;
they part when the object was made without a file. -/
namespace RemoteServer
open Loop Transition

/-- `Configure::readConfigFile()`. -/
def readConfigFileAgain (files : FileSystem) (statics : Statics) (fuel : Nat) :
    Option (Option ConfigurePtr × Statics) :=
  if statics.m_confFilePath ≠ [] then
    (readConfigFile files statics.m_confFilePath statics fuel).map fun (cfg, statics) =>
      (some cfg, statics)
  else some (none, statics)

/-- A call of either overload: with a path, or without. -/
def configCall (files : FileSystem) (argument : Option (List UInt8)) (statics : Statics) (fuel : Nat) :
    Option (Option ConfigurePtr × Statics) :=
  match argument with
  | none => readConfigFileAgain files statics fuel
  | some filePath =>
    (readConfigFile files filePath statics fuel).map fun (cfg, statics) => (some cfg, statics)

/-- What `TcpServer::listen` returns, and the port it asks `evconnlistener_new_bind`
for, which may refuse it. -/
def listen (cfg : Option Configuration) (newBind : UInt16 → Bool) : Int × Option UInt16 :=
  match cfg with
  | none => (-1, none)
  | some cfg => (if newBind cfg.m_staticPort then 0 else -1, some cfg.m_staticPort)

/-- Whether `LocalLog::userLog` writes a message of this level to an open log file. -/
def userLog (cfg : Option Configuration) (level : Int) : Bool :=
  match cfg with
  | none => false
  | some cfg => !(level > cfg.m_loglevel)

/-- A call that returned: the file system it found, its argument and its result. -/
structure ConfigCall where
  files : FileSystem
  argument : Option (List UInt8)
  cfg : Option ConfigurePtr

def ConfigCall.Step (statics : Statics) (call : ConfigCall) (statics' : Statics) : Prop :=
  Returns (configCall call.files call.argument statics) (call.cfg, statics')

/-- What a caller of `readConfigFile()` sees: nothing, or the object. -/
def Accesses (files : FileSystem) (statics : Statics) (seen : Option Configuration) : Prop :=
  ∃ cfg statics', Returns (readConfigFileAgain files statics) (cfg, statics') ∧
    seen = cfg.bind statics'.objects

/-- The callers of `readConfigFile()` go by the members of `c`: `TcpServer::listen`,
`Session::Session`, `Session::login`, `Session::match_done` and `LocalLog::userLog`. -/
structure Governs (c : Configuration) (seen : Option Configuration) : Prop where
  listen : ∀ newBind,
    listen seen newBind = (if newBind c.m_staticPort then 0 else -1, some c.m_staticPort)
  session : ∀ sid, (Session.new (seen.map Configuration.toConfigure) sid).m_timeouts = c.m_loginTimeout
  login : matchTimeout (seen.map Configuration.toConfigure) = c.m_matchTimeout
  match_done : activeTimeout (seen.map Configuration.toConfigure) = c.m_activeTimeout
  userLog : ∀ level, userLog seen level = decide (level ≤ c.m_loglevel)

/-- Once the call has returned an object, every later call of either overload returns
it, in whatever order they come and whatever the files are by then, and the server goes
by the members of this object, which are the defaults if the file could not be opened. -/
def OneConfiguration (files : FileSystem) (filePath : List UInt8) (statics : Statics) : Prop :=
  ∀ cfg statics₁, Returns (readConfigFile files filePath statics) (cfg, statics₁) →
    ∃ c, statics₁.objects cfg = some c ∧
      (statics.m_cfg = none → files filePath = none → c = Configure.initMember Configure.new) ∧
      ∀ calls statics₂, Run ConfigCall.Step statics₁ calls statics₂ →
        (∀ files argument, Returns (configCall files argument statics₂) (some cfg, statics₂)) ∧
        ∀ files seen, Accesses files statics₂ seen → Governs c seen

variable {files : FileSystem} {filePath : List UInt8} {statics statics' : Statics} {cfg : ConfigurePtr}
  {c : Configuration} {seen : Option Configuration} {label : ConfigCall} {calls : List ConfigCall}
  {fuel : Nat}

theorem readConfigFile_cases (yielded : readConfigFile files filePath statics fuel = some (cfg, statics')) :
    statics.m_cfg = some cfg ∧ statics' = statics ∨
      statics.m_cfg = none ∧ cfg = statics.nextObject ∧
        (files filePath = none ∧ statics' = statics.load (Configure.initMember Configure.new) ∨
          (files filePath).isSome ∧ ∃ c, statics' = { statics.load c with m_confFilePath := filePath }) := by
  cases loaded : statics.m_cfg with
  | some old =>
    simp only [readConfigFile, loaded, Option.some.injEq, Prod.mk.injEq] at yielded
    exact .inl ⟨congrArg some yielded.1, yielded.2.symm⟩
  | none =>
    refine .inr ⟨rfl, ?_⟩
    cases opened : files filePath with
    | none =>
      simp only [readConfigFile, loaded, opened, Option.some.injEq, Prod.mk.injEq] at yielded
      exact ⟨yielded.1.symm, .inl ⟨rfl, yielded.2.symm⟩⟩
    | some stream =>
      simp only [readConfigFile, loaded, opened, Option.map_eq_some_iff, Prod.mk.injEq] at yielded
      obtain ⟨r, _, rfl, rfl⟩ := yielded
      exact ⟨rfl, .inr ⟨rfl, _, rfl⟩⟩

theorem readConfigFile_found (found : statics.m_cfg = some cfg) (files : FileSystem)
    (filePath : List UInt8) : Returns (readConfigFile files filePath statics) (cfg, statics) := by
  refine ⟨0, fun fuel _ => ?_⟩
  simp only [readConfigFile, found]

theorem readConfigFile_unread (unread : statics.m_confFilePath = []) (files : FileSystem) :
    Returns (readConfigFileAgain files statics) (none, statics) := by
  refine ⟨0, fun fuel _ => ?_⟩
  simp only [readConfigFileAgain, unread, ne_eq, not_true_eq_false, if_false]

/-- The static members agree: there is a live object that was read from a file. -/
structure Statics.Settled (statics : Statics) (cfg : ConfigurePtr) (c : Configuration) : Prop where
  m_cfg : statics.m_cfg = some cfg
  m_confFilePath : statics.m_confFilePath ≠ []
  object : statics.objects cfg = some c

namespace Statics.Settled

theorem accessor (settled : statics.Settled cfg c) (files : FileSystem) :
    Returns (readConfigFileAgain files statics) (some cfg, statics) := by
  have read : readConfigFileAgain files statics = fun fuel =>
      (readConfigFile files statics.m_confFilePath statics fuel).map fun (cfg, statics) =>
        (some cfg, statics) :=
    funext fun fuel => if_pos settled.m_confFilePath
  rw [read]
  exact (readConfigFile_found settled.m_cfg files statics.m_confFilePath).map _

theorem returns (settled : statics.Settled cfg c) (files : FileSystem) (argument : Option (List UInt8)) :
    Returns (configCall files argument statics) (some cfg, statics) := by
  cases argument with
  | none => exact settled.accessor files
  | some filePath =>
    exact (readConfigFile_found settled.m_cfg files filePath).map fun (cfg, statics) => (some cfg, statics)

theorem kept (settled : statics.Settled cfg c) (run : Run ConfigCall.Step statics calls statics') :
    statics'.Settled cfg c := by
  refine run.invariant (fun statics => statics.Settled cfg c) ?_ settled
  intro statics call statics' settled step
  obtain ⟨-, rfl⟩ := Prod.mk.inj ((settled.returns call.files call.argument).unique step)
  exact settled

theorem governs (settled : statics.Settled cfg c) (access : Accesses files statics seen) :
    Governs c seen := by
  obtain ⟨found, statics', returns, rfl⟩ := access
  obtain ⟨rfl, rfl⟩ := Prod.mk.inj ((settled.accessor files).unique returns)
  rw [Option.bind_some, settled.object]
  constructor
  · exact fun newBind => rfl
  · exact fun sid => rfl
  · rfl
  · rfl
  · intro level
    simp only [userLog, ← decide_not, Int.not_lt, gt_iff_lt]

end Statics.Settled

/-- What `m_cfg` points to exists, and nothing was read before there is an object. -/
structure Statics.Valid (statics : Statics) : Prop where
  object : ∀ cfg, statics.m_cfg = some cfg → (statics.objects cfg).isSome
  unread : statics.m_cfg = none → statics.m_confFilePath = []

namespace Statics.Valid

theorem init : Statics.init.Valid where
  object _ found := by contradiction
  unread _ := rfl

theorem load (statics : Statics) (c : Configuration) : (statics.load c).Valid where
  object cfg found := by
    obtain rfl := Option.some.inj found
    rw [Statics.load_self]
    rfl
  unread absent := by contradiction

theorem loadFrom (statics : Statics) (c : Configuration) (filePath : List UInt8) :
    { statics.load c with m_confFilePath := filePath }.Valid where
  object := (load statics c).object
  unread absent := by contradiction

theorem read (valid : statics.Valid)
    (yielded : readConfigFile files filePath statics fuel = some (cfg, statics')) : statics'.Valid := by
  obtain ⟨_, rfl⟩ | ⟨_, _, ⟨_, rfl⟩ | ⟨_, c, rfl⟩⟩ := readConfigFile_cases yielded
  · exact valid
  · exact .load statics _
  · exact .loadFrom statics c filePath

theorem step (valid : statics.Valid) (step : ConfigCall.Step statics label statics') : statics'.Valid := by
  obtain ⟨files, argument, result⟩ := label
  obtain ⟨enough, yields⟩ := step
  have yielded := yields enough (Nat.le_refl _)
  cases argument with
  | none =>
    simp only [configCall, readConfigFileAgain] at yielded
    split at yielded
    · obtain ⟨⟨cfg, after⟩, inner, same⟩ := Option.map_eq_some_iff.mp yielded
      obtain ⟨-, rfl⟩ := Prod.mk.inj same
      exact valid.read inner
    · obtain ⟨-, rfl⟩ := Prod.mk.inj (Option.some.inj yielded)
      exact valid
  | some filePath =>
    obtain ⟨⟨cfg, after⟩, inner, same⟩ := Option.map_eq_some_iff.mp yielded
    obtain ⟨-, rfl⟩ := Prod.mk.inj same
    exact valid.read inner

theorem reachable (run : Run ConfigCall.Step .init calls statics) : statics.Valid :=
  run.invariant Statics.Valid (fun valid step => valid.step step) .init

end Statics.Valid

/-- A call settles the configuration if a file was read before, or if it is the first
and can open its own. -/
theorem settles (valid : statics.Valid) (nonempty : filePath ≠ [])
    (opened : statics.m_confFilePath ≠ [] ∨ statics.m_cfg = none ∧ (files filePath).isSome)
    (yielded : readConfigFile files filePath statics fuel = some (cfg, statics')) :
    ∃ c, statics'.Settled cfg c := by
  obtain ⟨found, rfl⟩ | ⟨absent, rfl, ⟨closed, rfl⟩ | ⟨_, c, rfl⟩⟩ := readConfigFile_cases yielded
  · obtain ⟨c, object⟩ := Option.isSome_iff_exists.mp (valid.object cfg found)
    refine ⟨c, found, opened.resolve_right fun first => ?_, object⟩
    rw [found] at first
    exact absurd first.1 (Option.some_ne_none cfg)
  · refine absurd opened (not_or.mpr ⟨not_not.mpr (valid.unread absent), fun first => ?_⟩)
    rw [closed] at first
    exact absurd first.2 (by decide)
  · exact ⟨c, rfl, nonempty, Statics.load_self statics c⟩

theorem returns_unread (unread : statics.m_confFilePath = [])
    (closed : statics.m_cfg = none → files filePath = none) :
    ∃ cfg statics', Returns (readConfigFile files filePath statics) (cfg, statics') ∧
      statics'.m_confFilePath = [] := by
  cases loaded : statics.m_cfg with
  | some cfg => exact ⟨cfg, statics, readConfigFile_found loaded files filePath, unread⟩
  | none =>
    refine ⟨statics.nextObject, statics.load (Configure.initMember Configure.new),
      ⟨0, fun fuel _ => ?_⟩, unread⟩
    simp only [readConfigFile, loaded, closed loaded]

theorem not_one_of_unread (unread : statics.m_confFilePath = [])
    (closed : statics.m_cfg = none → files filePath = none) :
    ¬OneConfiguration files filePath statics := by
  intro one
  obtain ⟨cfg, statics', returns, still⟩ := returns_unread unread closed
  obtain ⟨_, _, _, later⟩ := one cfg statics' returns
  obtain ⟨same, _⟩ := later [] statics' .refl
  have null := (same files none).unique (readConfigFile_unread still files)
  exact absurd (Prod.mk.inj null).1 (Option.some_ne_none cfg)

/-- The process has one configuration from a call on exactly when a file was read
before, or the call is the first and can open its file. -/
theorem one_configuration_iff (run : Run ConfigCall.Step .init calls statics) (nonempty : filePath ≠ []) :
    OneConfiguration files filePath statics ↔
      statics.m_confFilePath ≠ [] ∨ statics.m_cfg = none ∧ (files filePath).isSome := by
  have valid := Statics.Valid.reachable run
  constructor
  · intro one
    by_contra closed
    obtain ⟨unread, notFirst⟩ := not_or.mp closed
    refine not_one_of_unread (not_not.mp unread) (fun first => ?_) one
    by_contra opens
    exact notFirst ⟨first, Option.isSome_iff_ne_none.mpr opens⟩
  · rintro opened cfg statics₁ ⟨enough, yields⟩
    have yielded := yields enough (Nat.le_refl _)
    obtain ⟨c, settled⟩ := settles valid nonempty opened yielded
    refine ⟨c, settled.object, fun first missing => ?_, fun later statics₂ run => ?_⟩
    · rw [missing, valid.unread first] at opened
      simp at opened
    · have kept := settled.kept run
      exact ⟨kept.returns, fun files seen access => kept.governs access⟩

theorem one_configuration_iff_emptyFile :
    OneConfiguration (fun _ => some ([], .eof)) [47] .init :=
  (one_configuration_iff .refl (by decide)).mpr (.inr ⟨rfl, rfl⟩)

/-- A server started on a file that cannot be opened has no configuration. -/
theorem not_oneConfiguration :
    ¬∀ (files : FileSystem) (filePath : List UInt8), filePath ≠ [] →
      OneConfiguration files filePath .init := by
  intro one
  exact not_one_of_unread rfl (fun _ => rfl) (one (fun _ => none) [47] (by decide))

end RemoteServer
