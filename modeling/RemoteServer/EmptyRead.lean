import RemoteServer.Pairing

/-! The error branch of `conn_readcb` frees the bufferevent, keeps everything that
refers to it, and reads from it. -/
namespace RemoteServer
open Transition

variable {cfg : Option Configure} {w : World} {b : BevPtr} {x : Bufferevent}

structure World.RefersToLive (w : World) : Prop where
  bsMap : ∀ b, b ∈ w.m_bsMap → (w.bevs b).isSome
  fsMap : ∀ (fd : Int) (p : SessionPtr), w.m_fsMap[fd]? = some p → (w.sessions p).isSome
  sessions : ∀ p s b, w.sessions p = some s → s.m_meetee0.bev = some b ∨ s.m_meetee1.bev = some b →
    (w.bevs b).isSome

/-- `conn_readcb` on `b` runs to its end without touching anything freed, leaves only
references to live bufferevents, and no later callback faults on a freed one. -/
def ReadsSafely (cfg : Option Configure) (env : Env) (b : BevPtr) (w : World) : Prop :=
  ∃ w', connReadcb cfg b (w.start env) = .ok ((), w') ∧ w'.RefersToLive ∧
    ∀ labels w'' label, Run (Step cfg) w' labels w'' → label.event.Admissible w'' →
      ∃ w''', Step cfg w'' label w'''

theorem derefBev_freed (gone : w.bevs b = none) : derefBev b w = .error (.freedBufferevent b) := by
  simp only [derefBev, gone]

theorem handleMessage_freed (entry : w.m_bsMap[b]? = some p) (gone : w.bevs b = none) :
    handleMessage cfg b w = .error (.freedBufferevent b) := by
  have reads : buffereventRead b 4096 w = .error (.freedBufferevent b) := by
    rw [buffereventRead, Exec.bind_error (derefBev_freed gone)]
  simp only [handleMessage]
  rw [Exec.bind_ok (TcpContainer.find_apply b w), entry]
  exact Exec.bind_error reads

/-- With nothing to read the bufferevent is freed first; its entry stays in the
index, so `processMessage` finds the session and reads from what is gone. -/
theorem connReadcb_empty (cfg : Option Configure) (env : Env) (live : w.bevs b = some x)
    (empty : x.input = []) (entry : w.m_bsMap[b]? = some p) :
    connReadcb cfg b (w.start env) = .error (.freedBufferevent b) := by
  have begun : (w.start env).bevs b = some x := live
  have gone : ((w.start env).dropBev b x).bevs b = none := Function.update_self ..
  obtain ⟨m, sleeps, counts⟩ := Represents.processMessage_counts cfg b ((w.start env).dropBev b x)
  have faults := counts.trans (handleMessage_freed entry gone)
  rw [connReadcb, Exec.bind_ok (inputLength_apply begun), if_pos (by rw [empty, List.length_nil]),
    Exec.bind_ok (buffereventFree_apply begun), Exec.bind_error faults]

/-- In every reachable state the branch uses the freed bufferevent, whatever the
state of the connection, so it is safe on none. -/
theorem empty_read_faults (run : Run (Step cfg) World.init labels w) (live : w.bevs b = some x)
    (empty : x.input = []) (env : Env) :
    connReadcb cfg b (w.start env) = .error (.freedBufferevent b) ∧ ¬ReadsSafely cfg env b w := by
  obtain ⟨v, models⟩ := reachable run
  obtain ⟨c, present⟩ := models.represents.bev live
  obtain ⟨p, entry, _⟩ := models.represents.entry present
  have faults := connReadcb_empty cfg env live empty entry
  refine ⟨faults, ?_⟩
  rintro ⟨w', runs, _⟩
  rw [faults] at runs
  contradiction

theorem empty_read_faults_pairLogin :
    connReadcb none 5 ((World.after none pairLogin).start (.ideal 0)) = .error (.freedBufferevent 5) := by
  have run := run_after none pairLogin (by decide +kernel)
  have drained : ((World.after none pairLogin).bevs 5).map (·.input) = some [] := by decide +kernel
  obtain ⟨x, live, empty⟩ := Option.map_eq_some_iff.mp drained
  exact (empty_read_faults run live empty (.ideal 0)).1

theorem not_readsSafely :
    ¬ReadsSafely none (.ideal 0) 5 (World.after none [⟨.listenerCb (some 5) 3, .ideal 0⟩]) := by
  rintro ⟨w', runs, _⟩
  have faults : (connReadcb none 5 ((World.after none [⟨.listenerCb (some 5) 3, .ideal 0⟩]).start
      (.ideal 0))).toOption.isSome = false := by
    decide +kernel
  rw [runs] at faults
  contradiction

end RemoteServer
