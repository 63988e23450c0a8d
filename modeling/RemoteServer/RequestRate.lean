import Mathlib.Algebra.Group.Nat.Defs
import Mathlib.Data.List.DropRight
import Mathlib.Data.List.Infix
import RemoteServer.ConnectionManager

/-! The counter of requests per second under any wall clock. It starts again only
when the clock passes its highest reading, so it counts one second as long as the
clock either repeats its last reading or passes all of them. -/
namespace RemoteServer
namespace ConnectionManager

variable {m : ConnectionManager} {start t latest earlier : Int} {times before : List Int}

/-- The manager made at the reading `start`, after a request at each of the times. -/
def serve (start : Int) (times : List Int) : ConnectionManager := times.foldl requestInc (new start)

def streak (times : List Int) (latest : Int) : Nat := (times.rtakeWhile (· = latest)).length

/-- After each of the calls the counters are those of the calls so far: the current
ones are the last calls with the latest reading. -/
def CountsOneSecond (start : Int) (times : List Int) : Prop :=
  ∀ before latest, before ++ [latest] <+: times →
    (serve start (before ++ [latest])).getCurrentRequest.toNat = streak (before ++ [latest]) latest ∧
      (serve start (before ++ [latest])).getTotalRequests = (before ++ [latest]).length

/-- Every reading but the first repeats the one before it or passes all readings so
far, that of the constructor included, and no 2^32 readings in a row are the same. -/
structure Steady (start : Int) (times : List Int) : Prop where
  forward : ∀ before earlier latest, before ++ [earlier] ++ [latest] <+: times →
    latest = earlier ∨ ∀ t ∈ start :: (before ++ [earlier]), t < latest
  bounded : ∀ before latest, before ++ [latest] <+: times → streak (before ++ [latest]) latest < 2 ^ 32

theorem serve_snoc (start : Int) (times : List Int) (t : Int) :
    serve start (times ++ [t]) = (serve start times).requestInc t := by
  rw [serve, List.foldl_append]
  rfl

theorem streak_snoc (times : List Int) (latest : Int) :
    streak (times ++ [latest]) latest = streak times latest + 1 := by
  rw [streak, List.rtakeWhile_concat_pos (· = latest) times latest (decide_eq_true rfl),
    List.length_append]
  rfl

theorem streak_other (times : List Int) (other : earlier ≠ latest) :
    streak (times ++ [earlier]) latest = 0 := by
  rw [streak, List.rtakeWhile_concat_neg _ _ _ (by simpa using other)]
  rfl

theorem requestInc_curTime_lt (m : ConnectionManager) (reading t : Int) :
    (m.requestInc reading).curTime < t ↔ m.curTime < t ∧ reading < t := by
  rw [requestInc, updateRequestsPerSecond]
  split
  · simp only
    omega
  · simp only
    omega

theorem requestInc_later (later : m.curTime < t) : (m.requestInc t).getCurrentRequest.toNat = 1 := by
  rw [requestInc, updateRequestsPerSecond, if_pos later]
  rfl

theorem requestInc_again (again : t ≤ m.curTime) :
    (m.requestInc t).getCurrentRequest.toNat = (m.getCurrentRequest.toNat + 1) % 2 ^ 32 := by
  rw [requestInc, updateRequestsPerSecond, if_neg (Int.not_lt.mpr again)]
  exact UInt32.toNat_add ..

theorem serve_total (start : Int) (times : List Int) :
    (serve start times).getTotalRequests = times.length := by
  induction times using List.reverseRecOn with
  | nil => rfl
  | append_singleton times t ih =>
    rw [serve_snoc, List.length_append]
    change ((serve start times).updateRequestsPerSecond t).totalRequest + 1 = _
    have kept : ((serve start times).updateRequestsPerSecond t).totalRequest =
        (serve start times).getTotalRequests := by
      rw [updateRequestsPerSecond]
      split <;> rfl
    rw [kept, ih]
    rfl

theorem serve_curTime (start : Int) (times : List Int) (t : Int) :
    (serve start times).curTime < t ↔ ∀ reading ∈ start :: times, reading < t := by
  induction times using List.reverseRecOn with
  | nil => simp [serve, new]
  | append_singleton times last ih =>
    rw [serve_snoc, requestInc_curTime_lt, ih, ← List.cons_append, List.forall_mem_append,
      List.forall_mem_singleton]

theorem first_counts (start latest : Int) :
    (serve start [latest]).getCurrentRequest.toNat = streak [latest] latest := by
  have one : streak [latest] latest = 1 := streak_snoc [] latest
  change ((new start).requestInc latest).getCurrentRequest.toNat = _
  rw [one]
  by_cases later : start < latest
  · exact requestInc_later later
  · exact requestInc_again (Int.not_lt.mp later)

/-- One more call keeps a right count right exactly when its reading repeats the last
one or passes them all, and the count still fits. -/
theorem next_counts_iff (right : (serve start (before ++ [earlier])).getCurrentRequest.toNat =
      streak (before ++ [earlier]) earlier) :
    (serve start (before ++ [earlier] ++ [latest])).getCurrentRequest.toNat =
        streak (before ++ [earlier] ++ [latest]) latest ↔
      (latest = earlier ∨ ∀ t ∈ start :: (before ++ [earlier]), t < latest) ∧
        streak (before ++ [earlier] ++ [latest]) latest < 2 ^ 32 := by
  rw [serve_snoc, streak_snoc, ← serve_curTime]
  have some : 0 < streak (before ++ [earlier]) earlier := by
    rw [streak_snoc]
    exact Nat.succ_pos _
  have fits := (serve start (before ++ [earlier])).getCurrentRequest.toNat_lt
  rw [right] at fits
  by_cases later : (serve start (before ++ [earlier])).curTime < latest
  · have new : earlier ≠ latest := by
      have passed := (serve_curTime start _ latest).mp later earlier (by simp)
      omega
    rw [requestInc_later later, streak_other _ new]
    exact iff_of_true rfl ⟨.inr later, by decide⟩
  · rw [requestInc_again (Int.not_lt.mp later), right]
    by_cases same : latest = earlier
    · subst same
      omega
    · rw [streak_other _ (Ne.symm same)]
      refine iff_of_false (fun one => ?_) fun steady => ?_
      · omega
      · exact steady.1.elim same later

/-- The counters count one second for every clock that is steady, and for no other. -/
theorem counts_one_second_iff (start : Int) (times : List Int) :
    CountsOneSecond start times ↔ Steady start times := by
  constructor
  · intro counts
    constructor
    · intro before earlier latest within
      have within' := (List.prefix_append _ [latest]).trans within
      exact ((next_counts_iff (counts _ _ within').1).mp (counts _ _ within).1).1
    · intro before latest within
      rw [← (counts before latest within).1]
      exact UInt32.toNat_lt _
  · intro steady before latest within
    refine ⟨?_, serve_total start _⟩
    induction before using List.reverseRecOn generalizing latest with
    | nil => exact first_counts start latest
    | append_singleton before earlier ih =>
      have right := ih earlier ((List.prefix_append _ [latest]).trans within)
      exact (next_counts_iff right).mpr ⟨steady.forward _ _ _ within, steady.bounded _ _ within⟩

/-- A clock that is stepped back by a second between two requests. -/
theorem not_countsOneSecond : ¬∀ (start : Int) (times : List Int), CountsOneSecond start times := by
  intro counts
  have current := (counts 5 [5, 4] [5] 4 (List.prefix_refl _)).1
  exact absurd current (by decide)

end ConnectionManager
end RemoteServer
