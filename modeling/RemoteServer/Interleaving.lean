import RemoteServer.Noninterference

/-! How the callbacks of separate groups are interleaved makes no difference. -/
namespace RemoteServer
open Transition

/-- The callbacks on the connections of one group. -/
def share {ι : Type} [DecidableEq ι] (group : Nat → ι) (i : ι) (labels : List Label) : List Label :=
  project (fun k => group k = i) .start labels

/-- Nobody has logged in with the id of a connection of another group. -/
def Logins.Grouped {ι : Type} (logged : Logins) (group : Nat → ι) : Prop :=
  ∀ a ∈ logged, ∀ d ∈ logged, a.2 = d.2 → group a.1 = group d.1

instance {ι : Type} [DecidableEq ι] (logged : Logins) (group : Nat → ι) :
    Decidable (logged.Grouped group) :=
  inferInstanceAs (Decidable (∀ a ∈ logged, ∀ d ∈ logged, a.2 = d.2 → group a.1 = group d.1))

theorem Logins.Grouped.separate {ι : Type} [DecidableEq ι] {logged : Logins} {group : Nat → ι}
    (grouped : logged.Grouped group) (i : ι) : logged.Separate fun k => group k = i := by
  intro a first d second same mine
  rw [decide_eq_true_eq] at mine ⊢
  rw [← grouped a first d second same, mine]

theorem Step.deterministic {cfg : Option Configure} {w w' w'' : World} {label : Label}
    (step : Step cfg w label w') (step' : Step cfg w label w'') : w'' = w' := by
  obtain ⟨-, rfl⟩ := Prod.mk.inj (Except.ok.inj (step.2.symm.trans step'.2))
  rfl

namespace Restricts
variable {cfg : Option Configure} {G G' : Nat → Bool} {n n' : Numbering} {logged logged' : Logins}
  {w w' part : World} {v v' u u' : Relay} {b : BevPtr}

/-- What the connections of a group look like can be read off the projected run. -/
theorem observed (restricts : Restricts cfg G n logged w part v u) (member : G (n.of b)) :
    part.observe b = w.observe b := by
  have same := restricts.at_eq b
  rw [if_pos member] at same
  have seen := congrArg (Option.map fun c => (c.session cfg b, c.line)) same
  rw [restricts.part.observe, restricts.full.observe]
  rw [Option.map_map, Option.map_map] at seen
  exact seen

theorem mem_iff (restricts : Restricts cfg G n logged w part v u) :
    b ∈ part.m_bsMap ↔ b ∈ w.m_bsMap ∧ G (n.of b) := by
  rw [restricts.part.represents.mem_iff, restricts.full.represents.mem_iff]
  exact restricts.isSome_iff b

/-- A connection of the group is in the other run what it is in this one. -/
theorem agree (restricts : Restricts cfg G n logged w part v u)
    (restricts' : Restricts cfg G' n' logged' w' part v' u') (present : b ∈ w.m_bsMap)
    (member : G (n.of b)) : b ∈ w'.m_bsMap ∧ w'.observe b = w.observe b := by
  have here : b ∈ part.m_bsMap := restricts.mem_iff.mpr ⟨present, member⟩
  obtain ⟨present', member'⟩ := restricts'.mem_iff.mp here
  exact ⟨present', (restricts'.observed member').symm.trans (restricts.observed member)⟩

end Restricts

variable {cfg : Option Configure} {w w' : World} {n n' : Numbering} {logged logged' : Logins}
  {labels labels' : List Label}

/-- Two runs in which every group gets the same callbacks in the same order end with the
same connections in the same condition, however the groups take turns, as long as no two
groups share an id. -/
theorem interleavings_agree {ι : Type} [DecidableEq ι] (group group' : Nat → ι)
    (run : Run (logins.step (Step cfg)) (World.init, .start, []) labels (w, n, logged))
    (run' : Run (logins.step (Step cfg)) (World.init, .start, []) labels' (w', n', logged'))
    (grouped : logged.Grouped group) (grouped' : logged'.Grouped group')
    (shares : ∀ i, share group' i labels' = share group i labels) (b : BevPtr) :
    (b ∈ w'.m_bsMap ↔ b ∈ w.m_bsMap) ∧ w'.observe b = w.observe b := by
  -- both projections to a group are the same list, and so lead to the same state
  have meet (i : ι) : ∃ part v u v' u',
      Restricts cfg (fun k => group k = i) n logged w part v u ∧
      Restricts cfg (fun k => group' k = i) n' logged' w' part v' u' := by
    obtain ⟨part, v, u, projected, restricts⟩ := restricts_run _ run (grouped.separate i)
    obtain ⟨part', v', u', projected', restricts'⟩ := restricts_run _ run' (grouped'.separate i)
    change Run (Step cfg) World.init (share group i labels) part at projected
    change Run (Step cfg) World.init (share group' i labels') part' at projected'
    rw [shares] at projected'
    obtain rfl := projected.deterministic projected' fun _ _ _ _ => Step.deterministic
    exact ⟨_, v, u, v', u', restricts, restricts'⟩
  by_cases present : b ∈ w.m_bsMap
  · obtain ⟨part, v, u, v', u', restricts, restricts'⟩ := meet (group (n.of b))
    obtain ⟨present', same⟩ := restricts.agree restricts' present (by simp)
    exact ⟨iff_of_true present' present, same⟩
  · obtain ⟨part, v, u, v', u', restricts, restricts'⟩ := meet (group' (n'.of b))
    have absent : b ∉ w'.m_bsMap := fun present' =>
      present (restricts'.agree restricts present' (by simp)).1
    refine ⟨iff_of_false absent present, ?_⟩
    rw [restricts.full.represents.mem_iff, Option.not_isSome_iff_eq_none] at present
    rw [restricts'.full.represents.mem_iff, Option.not_isSome_iff_eq_none] at absent
    rw [restricts.full.observe, restricts'.full.observe, present, absent]

/-- The same callbacks with the stranger first and in between. -/
def strangerAndPair : List Label :=
  [⟨.listenerCb (some 6) 5, .ideal 0⟩, ⟨.listenerCb (some 7) 3, .ideal 0⟩,
    ⟨.connReadcb 6 (TelProxyLogin.packet 1 [66]), .ideal 0⟩, ⟨.listenerCb (some 5) 4, .ideal 0⟩,
    ⟨.connReadcb 7 (TelProxyLogin.packet 1 [65]), .ideal 0⟩, ⟨.connReadcb 6 [1, 2, 3], .ideal 0⟩,
    ⟨.connEventcb 6 bevEventEof, .ideal 0⟩, ⟨.connReadcb 5 (TelProxyLogin.packet 2 [65]), .ideal 0⟩]

theorem interleavings_agree_strangerAndPair :
    (World.after none strangerAndPair).observe 5 = (World.after none pairAndStranger).observe 5 := by
  have run := recorded_after logins none pairAndStranger (.start, []) (by decide +kernel)
  have run' := recorded_after logins none strangerAndPair (.start, []) (by decide +kernel)
  have grouped : (historyOf logins none pairAndStranger World.init (.start, [])).2.Grouped
      (fun k => decide (k < 2)) := by decide +kernel
  have grouped' : (historyOf logins none strangerAndPair World.init (.start, [])).2.Grouped
      (fun k => decide (0 < k)) := by decide +kernel
  have shares : ∀ i, share (fun k => decide (0 < k)) i strangerAndPair =
      share (fun k => decide (k < 2)) i pairAndStranger := by
    intro i
    cases i <;> simp [share, project, strangerAndPair, pairAndStranger, pairLogin, Numbering.concerns,
      Numbering.after, Numbering.start, Event.bev]
  generalize historyOf logins none pairAndStranger World.init (.start, []) = history at run grouped
  generalize historyOf logins none strangerAndPair World.init (.start, []) = history' at run' grouped'
  obtain ⟨n, logged⟩ := history
  obtain ⟨n', logged'⟩ := history'
  exact (interleavings_agree _ _ run run' grouped grouped' shares 5).2

end RemoteServer
