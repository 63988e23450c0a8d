import RemoteServer.Configure.Accessor
import RemoteServer.Configure.Denotation
import RemoteServer.Refinement

/-! The whole process: the arguments, the configuration file, the servers that `main`
starts, and the event loop they run in. The event base is taken to be allocated. -/
namespace RemoteServer
open Configure InputStream Loop TextLine Transition

/-- The options in an argument that begins with `-`, for `getopt` with `"c:h"`: none that
ends the loop of `readRunArg`, or what it then returns. -/
def readCluster : List UInt8 → List (List UInt8) → Option (Option (List UInt8))
  | [], _ => none
  | opt :: rest, args =>
    if opt = 104 then some none
    else if opt = 99 then
      match rest, args with
      | [], [] => none
      | [], optarg :: _ => some (some optarg)
      | rest, _ => some (some rest)
    else readCluster rest args

/-- `readRunArg`, from `argv[1]` on: the path it stores when it returns true. `getopt`
passes over what is not an option, and stops at `--`. -/
def readRunArg : List (List UInt8) → Option (List UInt8)
  | [] => none
  | [45, 45] :: _ => none
  | (45 :: opt :: rest) :: args => (readCluster (opt :: rest) args).getD (readRunArg args)
  | _ :: args => readRunArg args

/-- What the system answers while the process starts. `ephemeral` is the port that a
socket gets which asks for port 0. -/
structure System where
  files : FileSystem
  fopen : List UInt8 → Bool
  newBind : UInt16 → Bool
  ephemeral : UInt16
  eventAdd : Bool

/-- The port of a socket that is bound. -/
def System.bound (os : System) (asked : UInt16) : UInt16 := if asked = 0 then os.ephemeral else asked

/-- `TcpServer` and its listener, or `TimeoutServer` and its timer. -/
inductive Server where
  | tcp (listener : Option UInt16)
  | timeout (event : Bool)
  deriving DecidableEq

/-- `dispatched` is what `event_base_dispatch` has returned. -/
structure Process where
  statics : Statics
  m_config : Option ConfigurePtr
  m_logfile : Option (List UInt8)
  servers : List Server
  times : Int
  world : World
  dispatched : Option Int

/-- `cfg->getValue(key)`, which enters a key that it does not find. -/
def Statics.getValue (statics : Statics) (cfg : ConfigurePtr) (key : String) : List UInt8 × Statics :=
  match statics.objects cfg with
  | none => ([], statics)
  | some c => (c.m_info.get key, { statics with
      objects := Function.update statics.objects cfg (some { c with m_info := c.m_info.touch key }) })

def dumpKeys : List String :=
  ["host", "static_port", "login_timeout", "match_timeout", "max_qps", "max_connect", "sleep_mill"]

def dump (files : FileSystem) (statics : Statics) (fuel : Nat) : Option Statics :=
  (readConfigFileAgain files statics fuel).map fun (cfg, statics) =>
    match cfg with
    | none => statics
    | some cfg => dumpKeys.foldl (fun statics key => (statics.getValue cfg key).2) statics

/-- `"./ecos_remote.log"`. -/
def logDefaultName : List UInt8 := chars "./ecos_remote.log"

/-- `LocalLog::turnOn`. -/
def turnOn (os : System) (filepath : List UInt8) (m_logfile : Option (List UInt8)) : Option (List UInt8) :=
  match m_logfile with
  | some opened => some opened
  | none => if os.fopen filepath then some filepath else none

/-- `Server::run`. What it makes first, a message handler, has no state. -/
def Server.run (os : System) (statics : Statics) (fuel : Nat) : Server → Option (Server × Statics)
  | .timeout _ => some (.timeout os.eventAdd, statics)
  | .tcp _ =>
    (readConfigFileAgain os.files statics fuel).bind fun (cfg, statics) =>
      match cfg with
      | none => some (.tcp none, statics)
      | some cfg =>
        let (ret, port) := RemoteServer.listen (statics.objects cfg) os.newBind
        (dump os.files statics fuel).map fun statics => (.tcp (if ret = 0 then port.map os.bound else none), statics)

namespace Process

/-- The process after `new TcpContainer()`. -/
def new : Process where
  statics := .init
  m_config := none
  m_logfile := none
  servers := []
  times := 0
  world := World.init
  dispatched := none

/-- `TcpContainer::loadConfigFile`. `readConfigFile(path)` never returns NULL. -/
def loadConfigFile (os : System) (path : List UInt8) (p : Process) (fuel : Nat) : Option Process :=
  (readConfigFile os.files path p.statics fuel).map fun (cfg, statics) =>
    let (logfile, statics) := statics.getValue cfg "logfile"
    let logfile := if logfile = [] then logDefaultName else logfile
    { p with statics, m_config := some cfg, m_logfile := turnOn os (Bytes.cstr logfile) p.m_logfile }

def addServer (p : Process) (server : Server) : Process := { p with servers := p.servers ++ [server] }

/-- `Container::startServers`, over the servers that are left. -/
def startServersFrom (os : System) (fuel : Nat) : List Server → Statics → Option (List Server × Statics)
  | [], statics => some ([], statics)
  | server :: rest, statics =>
    (server.run os statics fuel).bind fun (server, statics) =>
      (startServersFrom os fuel rest statics).map fun (rest, statics) => (server :: rest, statics)

def startServers (os : System) (p : Process) (fuel : Nat) : Option Process :=
  (startServersFrom os fuel p.servers p.statics).map fun (servers, statics) => { p with servers, statics }

end Process

/-- `main` prints its usage and returns, or it gets to `event_base_dispatch`. -/
inductive Outcome where
  | usage
  | dispatching (p : Process)

def main (os : System) (argv : List (List UInt8)) (fuel : Nat) : Option Outcome :=
  match readRunArg argv with
  | none => some .usage
  | some path =>
    (Process.new.loadConfigFile os path fuel).bind fun p =>
      ((p.addServer (.tcp none)).startServers os fuel).map .dispatching

/-- What happens in the event loop: a callback, with the files as they are by then, a tick
of the timer, or that `event_base_dispatch` returns. -/
inductive Occurrence where
  | callback (files : FileSystem) (label : Label)
  | tick
  | dispatchEnds (ret : Int)

namespace Process

def Listens (p : Process) (port : UInt16) : Prop := .tcp (some port) ∈ p.servers

/-- Some event is left to wait for. -/
def Pending (p : Process) : Prop := (∃ port, p.Listens port) ∨ .timeout true ∈ p.servers

/-- Callbacks come from a listener and its connections; each goes by what the accessor
gives it, and the loop ends if it is broken. So it does at the fifth tick, on an error, or
when nothing is left to wait for. -/
inductive Step (p : Process) : Occurrence → Process → Prop where
  | callback {files label port cfg statics world} : p.dispatched = none → p.Listens port →
      Returns (readConfigFileAgain files p.statics) (cfg, statics) →
      RemoteServer.Step ((cfg.bind statics.objects).map Configuration.toConfigure) p.world label world →
      Step p (.callback files label)
        { p with statics, world, dispatched := if world.broken then some 0 else none }
  | tick : p.dispatched = none → .timeout true ∈ p.servers →
      Step p .tick { p with times := p.times + 1, dispatched := if p.times + 1 ≥ 5 then some 0 else none }
  | dispatchEnds {ret : Int} : p.dispatched = none → ret = -1 ∨ ret = 1 ∧ ¬p.Pending →
      Step p (.dispatchEnds ret) { p with dispatched := some ret }

end Process

section Startup
variable {os : System} {argv : List (List UInt8)} {path bytes : List UInt8} {ending : Ending}
  {statics : Statics} {cfg : ConfigurePtr} {c : Configuration} {files : FileSystem}

theorem Configuration.touched_agrees (c : Configuration) (key : String) :
    { c with m_info := c.m_info.touch key }.Agrees c where
  value k _ := touch_value c.m_info [key] k
  members := rfl
  m_staticPort := rfl
  m_sleepMill := rfl
  m_loglevel := rfl

theorem Statics.getValue_confFilePath (statics : Statics) (cfg : ConfigurePtr) (key : String) :
    (statics.getValue cfg key).2.m_confFilePath = statics.m_confFilePath := by
  unfold Statics.getValue
  split <;> rfl

namespace Statics.Settled

theorem getValue (settled : statics.Settled cfg c) (key : String) :
    (statics.getValue cfg key).2.Settled cfg { c with m_info := c.m_info.touch key } := by
  rw [Statics.getValue, settled.object]
  exact ⟨settled.m_cfg, settled.m_confFilePath, Function.update_self ..⟩

theorem getValues (settled : statics.Settled cfg c) (keys : List String) :
    ∃ c', (keys.foldl (fun statics key => (statics.getValue cfg key).2) statics).Settled cfg c' ∧
      c'.Agrees c := by
  induction keys generalizing statics c with
  | nil => exact ⟨c, settled, fun _ _ => rfl, rfl, rfl, rfl, rfl⟩
  | cons key keys ih =>
    obtain ⟨c', settled', agrees⟩ := ih (settled.getValue key)
    exact ⟨c', settled', agrees.trans (c.touched_agrees key)⟩

theorem dump (settled : statics.Settled cfg c) (files : FileSystem) :
    ∃ statics' c', Returns (RemoteServer.dump files statics) statics' ∧ statics'.Settled cfg c' ∧
      c'.Agrees c := by
  obtain ⟨c', settled', agrees⟩ := settled.getValues dumpKeys
  exact ⟨_, c', (settled.accessor files).map _, settled', agrees⟩

theorem run (settled : statics.Settled cfg c) (os : System) (listener : Option UInt16) :
    ∃ statics' c', Returns (fun fuel => (Server.tcp listener).run os statics fuel)
        (.tcp (if os.newBind c.m_staticPort then some (os.bound c.m_staticPort) else none), statics') ∧
      statics'.Settled cfg c' ∧ c'.Agrees c := by
  obtain ⟨statics', c', dumps, settled', agrees⟩ := settled.dump os.files
  refine ⟨statics', c', ?_, settled', agrees⟩
  refine (settled.accessor os.files).bind ?_
  simp only [settled.object, RemoteServer.listen]
  have started := dumps.map fun statics' =>
    (Server.tcp (if (if os.newBind c.m_staticPort then (0 : Int) else -1) = 0
      then some (os.bound c.m_staticPort) else none), statics')
  cases bound : os.newBind c.m_staticPort <;> simpa [bound] using started

end Statics.Settled

theorem Server.run_unread (unread : statics.m_confFilePath = []) (os : System) (listener : Option UInt16) :
    Returns (fun fuel => (Server.tcp listener).run os statics fuel) (.tcp none, statics) :=
  (readConfigFile_unread unread os.files).bind (.pure _)

theorem startServers_one {p : Process} {server : Server} {statics' : Statics}
    (only : p.servers = [])
    (runs : Returns (fun fuel => (Server.tcp none).run os p.statics fuel) (server, statics')) :
    Returns (fun fuel => (p.addServer (.tcp none)).startServers os fuel)
      { p with servers := [server], statics := statics' } := by
  have whole : (p.addServer (.tcp none)).servers = [.tcp none] := by
    rw [Process.addServer, only, List.nil_append]
  have all : Returns (fun fuel => Process.startServersFrom os fuel [.tcp none] p.statics)
      ([server], statics') := runs.bind (.pure _)
  simp only [Process.startServers, whole]
  exact all.map fun (servers, statics) => { p.addServer (.tcp none) with servers, statics }

/-- The process as it enters the event loop. -/
structure Process.Fresh (p : Process) : Prop where
  world : p.world = World.init
  times : p.times = 0
  dispatched : p.dispatched = none

theorem main_started (chosen : readRunArg argv = some path)
    (loaded : Returns (readConfigFile os.files path .init) (cfg, statics)) :
    ∃ p, Returns (main os argv) (.dispatching p) ∧ p.Fresh ∧
      (statics.m_confFilePath = [] → p.servers = [.tcp none]) ∧
      ∀ c, statics.Settled cfg c → ∃ c', p.statics.Settled cfg c' ∧ c'.Agrees c ∧
        p.servers = [.tcp (if os.newBind c.m_staticPort then some (os.bound c.m_staticPort) else none)] := by
  let p : Process := { Process.new with
    statics := (statics.getValue cfg "logfile").2, m_config := some cfg,
    m_logfile := turnOn os (Bytes.cstr (if (statics.getValue cfg "logfile").1 = [] then logDefaultName
      else (statics.getValue cfg "logfile").1)) none }
  have configured : Returns (Process.new.loadConfigFile os path) p := loaded.map _
  have reaches {server : Server} {statics' : Statics}
      (runs : Returns (fun fuel => (Server.tcp none).run os p.statics fuel) (server, statics')) :
      Returns (main os argv) (.dispatching { p with servers := [server], statics := statics' }) := by
    have main_eq : main os argv = fun fuel => (Process.new.loadConfigFile os path fuel).bind fun p =>
        ((p.addServer (.tcp none)).startServers os fuel).map .dispatching := by
      funext fuel
      simp only [main, chosen]
    have started := (startServers_one (p := p) rfl runs).map Outcome.dispatching
    rw [main_eq]
    exact configured.bind started
  by_cases unread : statics.m_confFilePath = []
  · have kept : p.statics.m_confFilePath = [] := (statics.getValue_confFilePath cfg "logfile").trans unread
    exact ⟨_, reaches (Server.run_unread kept os none), ⟨rfl, rfl, rfl⟩, fun _ => rfl,
      fun c settled => absurd unread settled.m_confFilePath⟩
  · obtain ⟨enough, yields⟩ := loaded
    obtain ⟨c, settled⟩ : ∃ c, statics.Settled cfg c := by
      rcases readConfigFile_cases (yields enough (Nat.le_refl _)) with
        ⟨found, _⟩ | ⟨_, rfl, ⟨_, rfl⟩ | ⟨_, c, rfl⟩⟩
      · contradiction
      · exact absurd rfl unread
      · exact ⟨c, rfl, unread, Statics.load_self .init c⟩
    obtain ⟨statics', c', runs, settled', agrees⟩ := (settled.getValue "logfile").run os none
    refine ⟨_, reaches runs, ⟨rfl, rfl, rfl⟩, fun unread' => absurd unread' unread, fun c'' settled'' => ?_⟩
    obtain rfl := Option.some.inj (settled.object.symm.trans settled''.object)
    exact ⟨c', settled', agrees.trans (c.touched_agrees "logfile"), rfl⟩

/-! The three ways in which the first call can go. -/

theorem load_missing (missing : os.files path = none) :
    ∃ cfg statics, Returns (readConfigFile os.files path .init) (cfg, statics) ∧
      statics.m_confFilePath = [] := by
  refine ⟨Statics.init.nextObject, Statics.init.load (initMember Configure.new), ⟨0, fun fuel _ => ?_⟩,
    rfl⟩
  simp only [readConfigFile, Statics.init, missing]

theorem load_first (opened : os.files path = some (bytes, .eof)) (loads : Loads bytes c) :
    ∃ cfg statics, Returns (readConfigFile os.files path .init) (cfg, statics) ∧
      statics.m_confFilePath = path ∧ statics.m_cfg = some cfg ∧ statics.objects cfg = some c := by
  obtain ⟨cfg, statics, returns, object⟩ := loads os.files path .init rfl opened
  obtain ⟨enough, yields⟩ := returns
  rcases readConfigFile_cases (yields enough (Nat.le_refl _)) with
    ⟨found, _⟩ | ⟨_, same, ⟨missing, _⟩ | ⟨_, c', after⟩⟩
  · contradiction
  · rw [opened] at missing
    contradiction
  · refine ⟨cfg, statics, ⟨enough, yields⟩, ?_, ?_, object⟩
    · rw [after]
    · rw [after, same]
      rfl

theorem load_diverges (opened : os.files path = some (bytes, ending))
    (bad : ¬(ending = .eof ∧ ∀ line ∈ linesOf bytes, line.val.length < 2 ^ 32)) :
    Diverges (readConfigFile os.files path .init) := by
  refine readConfigFile_diverges rfl opened ?_
  cases ending with
  | error => exact readLines_diverges_error bytes Configure.new
  | eof =>
    have long : ∃ line ∈ pieces bytes, 2 ^ 32 ≤ line.length := by
      by_contra short
      refine bad ⟨rfl, fun line member => ?_⟩
      by_contra long
      refine short ⟨line.val, ?_, Nat.le_of_not_lt long⟩
      rw [← linesOf_texts]
      exact List.mem_map_of_mem member
    have loops := readLines_diverges_long (pieces_free bytes) long Configure.new
    rwa [join_pieces] at loops

theorem main_diverges (chosen : readRunArg argv = some path)
    (loops : Diverges (readConfigFile os.files path .init)) : Diverges (main os argv) := by
  intro fuel
  have first : Process.new.loadConfigFile os path fuel = none :=
    congrArg (Option.map _) (loops fuel)
  simp only [main, chosen, first, Option.bind_none]

theorem main_usage (none' : readRunArg argv = none) : Returns (main os argv) .usage := by
  refine ⟨0, fun fuel _ => ?_⟩
  simp only [main, none']

/-- The port that the file states, or the default, as an `unsigned short`. -/
def portOf (bytes : List UInt8) : UInt16 := toShort (stated (linesOf bytes) (chars "static_port"))

/-- All that can come of the arguments and the files. -/
inductive Startup (os : System) (argv : List (List UInt8)) : Prop where
  | usage : readRunArg argv = none → Returns (main os argv) .usage → Startup os argv
  | loops {path bytes : List UInt8} {ending : Ending} : readRunArg argv = some path →
      os.files path = some (bytes, ending) →
      ¬(ending = .eof ∧ ∀ line ∈ linesOf bytes, line.val.length < 2 ^ 32) → Diverges (main os argv) →
      Startup os argv
  | idle {path : List UInt8} {p : Process} : readRunArg argv = some path →
      path = [] ∨ os.files path = none → Returns (main os argv) (.dispatching p) → p.Fresh →
      p.servers = [.tcp none] → Startup os argv
  | serves {path bytes : List UInt8} {c c' : Configuration} {cfg : ConfigurePtr} {p : Process} :
      readRunArg argv = some path → path ≠ [] → os.files path = some (bytes, .eof) → Loads bytes c →
      Returns (main os argv) (.dispatching p) → p.Fresh → p.statics.Settled cfg c' → c'.Agrees c →
      p.servers = [.tcp (if os.newBind (portOf bytes) then some (os.bound (portOf bytes)) else none)] →
      Startup os argv

theorem startup (os : System) (argv : List (List UInt8)) : Startup os argv := by
  cases chosen : readRunArg argv with
  | none => exact .usage chosen (main_usage chosen)
  | some path =>
    cases opened : os.files path with
    | none =>
      obtain ⟨cfg, statics, loaded, unread⟩ := load_missing opened
      obtain ⟨p, returns, fresh, idle, _⟩ := main_started chosen loaded
      exact .idle chosen (.inr opened) returns fresh (idle unread)
    | some stream =>
      obtain ⟨bytes, ending⟩ := stream
      by_cases good : ending = .eof ∧ ∀ line ∈ linesOf bytes, line.val.length < 2 ^ 32
      · obtain ⟨rfl, short⟩ := good
        obtain ⟨c, loads⟩ := (loads_iff bytes).mpr short
        obtain ⟨cfg, statics, loaded, kept, found, object⟩ := load_first opened loads
        obtain ⟨p, returns, fresh, idle, serves⟩ := main_started chosen loaded
        by_cases empty : path = []
        · exact .idle chosen (.inl empty) returns fresh (idle (kept.trans empty))
        · have nonempty : statics.m_confFilePath ≠ [] := by rwa [kept]
          obtain ⟨c', settled, agrees, servers⟩ := serves c ⟨found, nonempty, object⟩
          refine .serves chosen empty opened loads returns fresh settled agrees ?_
          have port : c.m_staticPort = portOf bytes := loads.denotes.m_staticPort
          rw [servers, port]
      · exact .loops chosen opened good (main_diverges chosen (load_diverges opened good))

/-- The process ends up listening on a port exactly when an argument names a file that
opens, ends and has no line that is too long, and the port that the file states can be
bound: on that port, or on one that the kernel picks if it is 0. It hangs before that exactly
when such a file does not end or has such a line. -/
theorem server_starts_iff (os : System) (argv : List (List UInt8)) :
    (∀ port, (∃ p, Returns (main os argv) (.dispatching p) ∧ p.Listens port) ↔
      ∃ path bytes, readRunArg argv = some path ∧ path ≠ [] ∧ os.files path = some (bytes, .eof) ∧
        (∀ line ∈ linesOf bytes, line.val.length < 2 ^ 32) ∧ port = os.bound (portOf bytes) ∧
        os.newBind (portOf bytes) = true) ∧
    (Diverges (main os argv) ↔ ∃ path bytes ending, readRunArg argv = some path ∧
      os.files path = some (bytes, ending) ∧
      ¬(ending = .eof ∧ ∀ line ∈ linesOf bytes, line.val.length < 2 ^ 32)) := by
  have startup := startup os argv
  constructor
  · intro port
    constructor
    · rintro ⟨p, returns, listens⟩
      cases startup with
      | usage _ returns' => exact absurd (returns.unique returns') nofun
      | loops _ _ _ diverges => exact absurd diverges returns.not_diverges
      | idle _ _ returns' _ servers =>
        obtain rfl := Outcome.dispatching.inj (returns.unique returns')
        rw [Process.Listens, servers] at listens
        simp at listens
      | serves chosen nonempty opened loads returns' _ _ _ servers =>
        obtain rfl := Outcome.dispatching.inj (returns.unique returns')
        rw [Process.Listens, servers, List.mem_singleton, Server.tcp.injEq] at listens
        obtain ⟨bound, same⟩ := Option.ite_none_right_eq_some.mp listens.symm
        obtain rfl := Option.some.inj same
        exact ⟨_, _, chosen, nonempty, opened, (loads_iff _).mp ⟨_, loads⟩, rfl, bound⟩
    · rintro ⟨path, bytes, chosen, nonempty, opened, short, rfl, bound⟩
      cases startup with
      | usage none' => rw [chosen] at none'; contradiction
      | loops chosen' opened' bad =>
        obtain rfl := Option.some.inj (chosen.symm.trans chosen')
        obtain ⟨rfl, rfl⟩ := Prod.mk.inj (Option.some.inj (opened.symm.trans opened'))
        exact absurd ⟨rfl, short⟩ bad
      | idle chosen' missing =>
        obtain rfl := Option.some.inj (chosen.symm.trans chosen')
        rw [opened] at missing
        exact absurd (missing.resolve_left nonempty) nofun
      | serves chosen' _ opened' _ returns _ _ _ servers =>
        obtain rfl := Option.some.inj (chosen.symm.trans chosen')
        obtain ⟨rfl, _⟩ := Prod.mk.inj (Option.some.inj (opened.symm.trans opened'))
        refine ⟨_, returns, ?_⟩
        rw [Process.Listens, servers, if_pos bound]
        exact List.mem_singleton_self _
  · constructor
    · intro diverges
      cases startup with
      | usage _ returns => exact absurd diverges returns.not_diverges
      | loops chosen opened bad => exact ⟨_, _, _, chosen, opened, bad⟩
      | idle _ _ returns => exact absurd diverges returns.not_diverges
      | serves _ _ _ _ returns => exact absurd diverges returns.not_diverges
    · rintro ⟨path, bytes, ending, chosen, opened, bad⟩
      exact main_diverges chosen (load_diverges opened bad)

end Startup

/-! What the event loop keeps. -/

section Serving
variable {os : System} {argv : List (List UInt8)} {p p' : Process} {c c' : Configuration}
  {cfg : ConfigurePtr} {occurrence : Occurrence} {occurrences : List Occurrence}

/-- The callback, if one occurred. -/
def Occurrence.callback? : Occurrence → Option Label
  | .callback _ label => some label
  | .tick | .dispatchEnds _ => none

def callbacks (occurrences : List Occurrence) : List Label := occurrences.filterMap Occurrence.callback?

theorem callbacks_snoc (occurrences : List Occurrence) (occurrence : Occurrence) :
    callbacks (occurrences ++ [occurrence]) = callbacks occurrences ++ occurrence.callback?.toList := by
  rw [callbacks, List.filterMap_append, List.filterMap_cons, List.filterMap_nil]
  cases occurrence.callback? <;> rfl

/-- While it is dispatched the loop is not broken. -/
def Process.Loops (p : Process) : Prop := p.dispatched = none → p.world.broken = false

theorem Process.Loops.next (loop : p.Loops) (step : p.Step occurrence p') : p'.Loops := by
  intro live'
  cases step with
  | @callback _ _ _ _ _ world => simpa using live'
  | tick live => exact loop live
  | dispatchEnds => contradiction

theorem Process.Fresh.loops (fresh : p.Fresh) : p.Loops := by
  intro _
  rw [fresh.world]
  rfl

/-- Once the configuration is settled every callback goes by it, in a loop that is not
broken yet. -/
theorem Process.served (run : Run Process.Step p occurrences p') (settled : p.statics.Settled cfg c)
    (loop : p.Loops) : p'.statics.Settled cfg c ∧ p'.Loops ∧
      Run (LoopStep (some c.toConfigure)) p.world (callbacks occurrences) p'.world := by
  induction run with
  | refl => exact ⟨settled, loop, .refl⟩
  | snoc _ step ih =>
    obtain ⟨settled, loop, run⟩ := ih
    have loop' := loop.next step
    rw [callbacks_snoc]
    cases step with
    | callback live _ access step =>
      obtain ⟨rfl, rfl⟩ := Prod.mk.inj ((settled.accessor _).unique access)
      rw [Option.bind_some, settled.object] at step
      exact ⟨settled, loop', run.snoc ⟨loop live, step⟩⟩
    | tick => exact ⟨settled, loop', by simpa [Occurrence.callback?] using run⟩
    | dispatchEnds => exact ⟨settled, loop', by simpa [Occurrence.callback?] using run⟩

end Serving
end RemoteServer
