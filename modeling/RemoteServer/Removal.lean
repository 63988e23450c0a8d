import RemoteServer.Pairing

/-! `removeSession` takes a pair out, from whichever end, and nothing else. -/
namespace RemoteServer
open PartialMap Transition

variable {cfg : Option Configure} {w w' : World} {v : Relay} {R : Phase → Phase → Prop}
  {b q : BevPtr} {p peer : SessionPtr} {s : Session} {c : Conn}

/-- `w'` is `w` without the connection `b` and, if there is one, its peer. -/
structure World.Without (w : World) (b : BevPtr) (peer : Option BevPtr) (w' : World) : Prop where
  index : ∀ i : BevPtr, w'.m_bsMap[i]? = if i = b ∨ peer = some i then none else w.m_bsMap[i]?
  bevs : ∀ i, w'.bevs i = if i = b ∨ peer = some i then none else w.bevs i
  kept : ∀ (i : BevPtr) (p : SessionPtr), w'.m_bsMap[i]? = some p → w'.sessions p = w.sessions p ∧
    ∃ s, w'.sessions p = some s ∧ ∀ j, j = b ∨ peer = some j →
      s.m_meetee0.bev ≠ some j ∧ s.m_meetee1.bev ≠ some j
  frees : ∃ freed, w'.freed = w.freed ++ freed ∧ (freed.map Prod.fst).Nodup ∧
    ∀ i, i ∈ freed.map Prod.fst ↔ i = b ∨ peer = some i

namespace World.Removes

theorem index (removes : w.Removes v b c p w') (i : BevPtr) :
    w'.m_bsMap[i]? = if i = b ∨ c.phase.peer = some i then none else w.m_bsMap[i]? := by
  cases removes with
  | single alone => simp only [World.dropConn_lookup, alone, reduceCtorEq, or_false]
  | @pair q _ _ linked =>
    simp only [World.dropConn_lookup, linked, Option.some.injEq]
    by_cases isQ : i = q
    · simp [isQ]
    · simp [isQ, Ne.symm isQ]

theorem bevs (removes : w.Removes v b c p w') (i : BevPtr) :
    w'.bevs i = if i = b ∨ c.phase.peer = some i then none else w.bevs i := by
  cases removes with
  | single alone => simp [alone, Function.update_apply]
  | @pair q _ _ linked =>
    simp only [World.dropConn_bevs, Function.update_apply, linked, Option.some.injEq]
    by_cases isQ : i = q
    · simp [isQ]
    · simp [isQ, Ne.symm isQ]

theorem frees (removes : w.Removes v b c p w') : ∃ freed, w'.freed = w.freed ++ freed ∧
    (freed.map Prod.fst).Nodup ∧ ∀ i, i ∈ freed.map Prod.fst ↔ i = b ∨ c.phase.peer = some i := by
  cases removes with
  | single alone => exact ⟨[(b, c.line)], by simp, by simp, by simp [alone]⟩
  | @pair q t _ linked apart =>
    refine ⟨[(b, c.line), (q, t.line)], by simp, by simpa using apart.symm, ?_⟩
    simp [linked, eq_comm]

/-- The session objects of the other keys are still there. -/
theorem sessions (r : Represents cfg w v) (entry : w.m_bsMap[b]? = some p)
    (removes : w.Removes v b c p w') {i : BevPtr} {p' : SessionPtr} (kept : w'.m_bsMap[i]? = some p') :
    w'.sessions p' = w.sessions p' := by
  have before := removes.index i
  rw [kept] at before
  split at before
  · contradiction
  · rename_i stays
    have other (j : BevPtr) (pj : SessionPtr) (entryJ : w.m_bsMap[j]? = some pj)
        (gone : j = b ∨ c.phase.peer = some j) : p' ≠ pj := by
      rintro rfl
      exact stays (r.key_unique before.symm entryJ ▸ gone)
    have notB := other b p entry (.inl rfl)
    cases removes with
    | single alone => rw [World.dropConn_sessions, Function.update_of_ne notB]
    | @pair q t peer linked apart partner entry' =>
      rw [World.dropConn_sessions, Function.update_of_ne (other q peer entry' (.inr linked)),
        World.dropConn_sessions, Function.update_of_ne notB]

end World.Removes

namespace World.Models

/-- Nothing that is left refers to what was removed. -/
theorem without (models : w.Models cfg R v) (present : v b = some c) (entry : w.m_bsMap[b]? = some p) :
    ∃ w', TcpContainer.removeSession b w = .ok (0, w') ∧ w.Without b c.phase.peer w' := by
  obtain ⟨w', runs, removes⟩ := models.represents.removes models.paired present entry
  obtain ⟨w'', runs', r', _⟩ := models.represents.removeSession models.paired present
  obtain ⟨-, rfl⟩ := Prod.mk.inj (Except.ok.inj (runs.symm.trans runs'))
  have paired' : Relay.Paired R (v.remove b) := PartialMap.Paired.remove models.paired b
  have gone {j : BevPtr} (removed : j = b ∨ c.phase.peer = some j) : v.remove b j = none := by
    rw [Relay.remove, PartialMap.Paired.remove_apply, present, Option.bind_some, if_pos removed]
  refine ⟨w', runs, removes.index, removes.bevs, ?_, removes.frees⟩
  intro i p' kept
  obtain ⟨d, found⟩ := r'.key kept
  refine ⟨removes.sessions models.represents entry kept, _, (r'.lookup found kept).1, ?_⟩
  intro j removed
  have absent := gone removed
  constructor
  · intro own
    obtain rfl := Option.some.inj own
    rw [found] at absent
    contradiction
  · intro linked
    obtain ⟨_, t, partner, _⟩ := paired' i d j found linked
    rw [partner] at absent
    contradiction

end World.Models

/-- In every reachable state `removeSession` on a key returns 0 and leaves the old
index without it and, when its session is bound, without the peer; what remains is
unchanged and refers to neither; and both ends of a pair remove the same. -/
theorem removal_symmetric (run : Run (Step cfg) World.init labels w) (entry : w.m_bsMap[b]? = some p)
    (session : w.sessions p = some s) :
    (s.m_state = .bind ↔ s.m_meetee1.bev ≠ none) ∧
    ∃ w₁, TcpContainer.removeSession b w = .ok (0, w₁) ∧ w.Without b s.m_meetee1.bev w₁ ∧
      ∀ q, s.m_meetee1.bev = some q → ∃ w₂, TcpContainer.removeSession q w = .ok (0, w₂) ∧
        w.Without q (some b) w₂ ∧ (∀ i : BevPtr, w₁.m_bsMap[i]? = w₂.m_bsMap[i]?) ∧
        w₁.bevs = w₂.bevs ∧ ∀ i, i ∈ w₁.freed.map Prod.fst ↔ i ∈ w₂.freed.map Prod.fst := by
  obtain ⟨v, models⟩ := reachable run
  obtain ⟨c, present, live, _⟩ := models.entry entry
  obtain rfl := Option.some.inj (live.symm.trans session)
  obtain ⟨w₁, removes, without⟩ := models.without present entry
  refine ⟨?_, w₁, removes, without, ?_⟩
  · rw [Option.ne_none_iff_exists']
    constructor
    · exact Phase.peer_of_bind
    · rintro ⟨q, linked⟩
      obtain ⟨card, pc, phase⟩ := Relay.phase_of_peer linked
      simp only [Conn.session, phase, Phase.state]
  · intro q linked
    obtain ⟨apart, t, partner, back, _⟩ := models.paired b c q present linked
    obtain ⟨peer, entry', _⟩ := models.represents.entry partner
    obtain ⟨w₂, removes', without'⟩ := models.without partner entry'
    rw [show t.phase.peer = some b from back] at without'
    have ends (i : BevPtr) : (i = b ∨ c.phase.peer = some i) ↔ (i = q ∨ some b = some i) := by
      have other : c.phase.peer = some q := linked
      rw [other, Option.some.injEq, Option.some.injEq, eq_comm (a := q), eq_comm (a := b), or_comm]
    obtain ⟨freed, log, _, keys⟩ := without.frees
    obtain ⟨freed', log', _, keys'⟩ := without'.frees
    refine ⟨w₂, removes', without', fun i => ?_, funext fun i => ?_, fun i => ?_⟩
    · rw [without.index, without'.index]
      simp only [ends]
    · rw [without.bevs, without'.bevs]
      simp only [ends]
    · rw [log, log', List.map_append, List.map_append, List.mem_append, List.mem_append, keys, keys', ends]

theorem removal_symmetric_pairLogin :
    ∃ w₁ w₂, TcpContainer.removeSession 5 (World.after none pairLogin) = .ok (0, w₁) ∧
      TcpContainer.removeSession 7 (World.after none pairLogin) = .ok (0, w₂) ∧ w₁.bevs = w₂.bevs := by
  have run := run_after none pairLogin (by decide +kernel)
  have entry : (World.after none pairLogin).m_bsMap[5]? = some 1 := by decide +kernel
  have peer : ((World.after none pairLogin).sessions 1).map (·.m_meetee1.bev) = some (some 7) := by
    decide +kernel
  obtain ⟨s, live, linked⟩ := Option.map_eq_some_iff.mp peer
  obtain ⟨_, w₁, removes, _, both⟩ := removal_symmetric run entry live
  obtain ⟨w₂, removes', _, _, same, _⟩ := both 7 linked
  exact ⟨w₁, w₂, removes, removes', same⟩

end RemoteServer
