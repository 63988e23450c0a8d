import RemoteServer.Pairing

/-! The ownership ledger. A free or a use of an object that is not live is a
fault of the model, so a callback that runs to its end makes none. -/
namespace RemoteServer
open Transition PartialMap

namespace TcpContainer
variable {w : World} {its : List (BevPtr × SessionPtr)}

/-- Deleting sessions one by one, each with its own bufferevent, frees both. -/
theorem deleteAll_apply (keys : its.Pairwise fun i j => i.1 ≠ j.1)
    (values : its.Pairwise fun i j => i.2 ≠ j.2)
    (live : ∀ it ∈ its, ∃ s x, w.sessions it.2 = some s ∧ s.m_meetee0.bev = some it.1 ∧
      w.bevs it.1 = some x) :
    ∃ w', deleteAll its w = .ok ((), w') ∧
      (∀ b, w'.bevs b ≠ none → w.bevs b ≠ none ∧ ∀ p, (b, p) ∉ its) ∧
      (∀ p, w'.sessions p ≠ none → w.sessions p ≠ none ∧ ∀ b, (b, p) ∉ its) := by
  induction its generalizing w with
  | nil => exact ⟨w, rfl, fun b live => ⟨live, by simp⟩, fun p live => ⟨live, by simp⟩⟩
  | cons it rest ih =>
    obtain ⟨keysRest, keys⟩ := List.pairwise_cons.mp keys
    obtain ⟨valuesRest, values⟩ := List.pairwise_cons.mp values
    obtain ⟨s, x, session, own, bev⟩ := live it List.mem_cons_self
    have remain : ∀ other ∈ rest, ∃ s x,
        ((w.dropBev it.1 x).dropSession it.2).sessions other.2 = some s ∧
        s.m_meetee0.bev = some other.1 ∧
        ((w.dropBev it.1 x).dropSession it.2).bevs other.1 = some x := by
      intro other member
      obtain ⟨t, y, session', own', bev'⟩ := live other (List.mem_cons_of_mem _ member)
      refine ⟨t, y, ?_, own', ?_⟩
      · simpa [Function.update_of_ne (valuesRest other member).symm] using session'
      · simpa [Function.update_of_ne (keysRest other member).symm] using bev'
    obtain ⟨w', runs, bevs, sessions⟩ := ih (w := (w.dropBev it.1 x).dropSession it.2) keys values remain
    refine ⟨w', ?_, ?_, ?_⟩
    · rw [deleteAll, Exec.bind_ok (Session.delete_apply session own bev), runs]
    · intro b survives
      obtain ⟨survived, kept⟩ := bevs b survives
      have other : b ≠ it.1 := by
        rintro rfl
        simp at survived
      refine ⟨by simpa [Function.update_of_ne other] using survived, fun p member => ?_⟩
      rcases List.mem_cons.mp member with rfl | member
      · exact other rfl
      · exact kept p member
    · intro p survives
      obtain ⟨survived, kept⟩ := sessions p survives
      have other : p ≠ it.2 := by
        rintro rfl
        simp at survived
      refine ⟨by simpa [Function.update_of_ne other] using survived, fun b member => ?_⟩
      rcases List.mem_cons.mp member with rfl | member
      · exact other rfl
      · exact kept b member

end TcpContainer

namespace Relay
variable {v : Relay} {R : Phase → Phase → Prop} {b : BevPtr} {c : Conn}

theorem login_isSome (v : Relay) (outcome : Nat → Bool) (b : BevPtr) (card : Card) (i : BevPtr) :
    (v.login outcome b card i).isSome = (v i).isSome := by
  cases chosen : Relay.partner (modify v b (Conn.login card)) card with
  | none => simp only [Relay.login, chosen, modify_isSome]
  | some q => simp only [Relay.login, chosen, join, modify_isSome]

theorem read_isSome (env : Env) (b : BevPtr) (chunk : List UInt8) (v : Relay) (i : BevPtr) :
    (v.read env b chunk i).isSome = (v i).isSome := by
  have step := v.read_step env b chunk
  generalize v.read env b chunk = w at step
  cases step with
  | absent => rfl
  | ignored => exact modify_isSome ..
  | login => rw [login_isSome, modify_isSome]
  | forward => simp only [forward, modify_isSome]

/-- The connections whose buffers a removal discards are those it removes. -/
theorem lines_keys (paired : v.Paired R) (b : BevPtr) :
    ((v.lines b).map Prod.fst).Nodup ∧
      ∀ i, i ∈ (v.lines b).map Prod.fst ↔ (v i).isSome ∧ v.remove b i = none := by
  cases present : v b with
  | none =>
    have removed : v.remove b = v := by
      rw [Relay.remove, PartialMap.remove, present, Option.bind_none]
      exact Function.update_eq_self_iff.mpr present.symm
    simp +contextual [Relay.lines, present, removed, Option.isSome_iff_ne_none]
  | some c =>
    have removed (i : BevPtr) : v.remove b i = none ↔ i = b ∨ c.phase.peer = some i ∨ v i = none := by
      rw [Relay.remove, PartialMap.Paired.remove_apply, present, Option.bind_some]
      by_cases gone : i = b ∨ c.phase.peer = some i
      · rw [if_pos gone, ← or_assoc]
        exact iff_of_true rfl (.inl gone)
      · rw [if_neg gone, ← or_assoc, or_iff_right gone]
    cases linked : c.phase.peer with
    | none =>
      constructor
      · simp [Relay.lines, present, linked]
      · intro i
        simp only [Relay.lines, present, linked, removed, List.map_cons, List.map_nil, List.mem_singleton]
        constructor
        · rintro rfl
          simp [present]
        · rintro ⟨live, here | toI | gone⟩
          · exact here
          · contradiction
          · simp [gone] at live
    | some q =>
      obtain ⟨apart, t, partner, _⟩ := paired b c q present linked
      constructor
      · simpa [Relay.lines, present, linked, partner] using apart.symm
      · intro i
        simp only [Relay.lines, present, linked, partner, removed, List.map_cons, List.map_nil,
          List.mem_cons, List.not_mem_nil, or_false]
        constructor
        · rintro (rfl | rfl)
          · simp [present]
          · simp [partner]
        · rintro ⟨live, here | toI | gone⟩
          · exact .inl here
          · exact .inr (Option.some.inj toI).symm
          · simp [gone] at live

/-- A step frees, once each, exactly the bufferevents that were live before it
and are not live after it. -/
theorem frees_keys (paired : v.Paired R) (cfg : Option Configure) (sid : Int) (label : Label) :
    ((v.frees cfg label).map Prod.fst).Nodup ∧
      ∀ i, i ∈ (v.frees cfg label).map Prod.fst ↔ (v i).isSome ∧ v.next cfg sid label i = none := by
  have none_freed {w : Relay} (kept : ∀ i, (v i).isSome → (w i).isSome) :
      (([] : List (BevPtr × Bufferevent)).map Prod.fst).Nodup ∧
        ∀ i, i ∈ ([] : List (BevPtr × Bufferevent)).map Prod.fst ↔ (v i).isSome ∧ w i = none := by
    refine ⟨List.nodup_nil, fun i => iff_of_false List.not_mem_nil ?_⟩
    rintro ⟨live, gone⟩
    simpa [gone] using kept i live
  obtain ⟨event, env⟩ := label
  cases event with
  | listenerCb bev fd =>
    cases bev with
    | none => exact none_freed fun i live => live
    | some b =>
      apply none_freed
      intro i live
      simp only [Relay.next]
      by_cases new : i = b
      · rw [new, Function.update_self, Option.isSome_some]
      · rwa [Function.update_of_ne new]
  | connReadcb b chunk => exact none_freed fun i live => (read_isSome env b chunk v i).trans live
  | writeProgress b n => exact none_freed fun i live => (modify_isSome v b _ i).trans live
  | connEventcb b events =>
    simp only [Relay.frees, Relay.next, Relay.event]
    by_cases closes : Relay.closes events = true
    · simpa only [if_pos closes] using lines_keys paired b
    · by_cases timeout : has events bevEventTimeout = true
      · simp only [if_neg closes, if_pos timeout]
        have counted : Relay.Paired R (PartialMap.modify v b (Conn.inactive env)) :=
          paired.modify _ fun _ => rfl
        by_cases expired : Relay.TimedOut cfg (PartialMap.modify v b (Conn.inactive env)) b
        · simpa only [if_pos expired, modify_isSome] using lines_keys counted b
        · simpa only [if_neg expired] using none_freed fun i live => by rwa [modify_isSome]
      · simpa only [if_neg closes, if_neg timeout] using none_freed fun i live => live

end Relay

namespace Represents
variable {cfg : Option Configure} {w w' : World} {v : Relay} {R : Phase → Phase → Prop}

theorem removeSessionAll (r : Represents cfg w v) :
    ∃ w', TcpContainer.removeSessionAll w = .ok ((), w') ∧ (∀ b, w'.bevs b = none) ∧
      (∀ p, w'.sessions p = none) ∧ w'.m_bsMap = ∅ ∧ w'.m_fsMap = ∅ := by
  have member {b : BevPtr} {p : SessionPtr} : (b, p) ∈ w.m_bsMap.toList ↔ w.m_bsMap[b]? = some p :=
    Std.TreeMap.mem_toList_iff_getElem?_eq_some
  have keys : w.m_bsMap.toList.Pairwise fun i j => i.1 ≠ j.1 := by
    refine Std.TreeMap.distinct_keys_toList.imp ?_
    simp
  have values : w.m_bsMap.toList.Pairwise fun i j => i.2 ≠ j.2 := by
    refine keys.imp_of_mem ?_
    rintro ⟨b, p⟩ ⟨q, p'⟩ first second apart rfl
    exact apart (r.key_unique (member.mp first) (member.mp second))
  have live : ∀ it ∈ w.m_bsMap.toList, ∃ s x, w.sessions it.2 = some s ∧
      s.m_meetee0.bev = some it.1 ∧ w.bevs it.1 = some x := by
    rintro ⟨b, p⟩ found
    obtain ⟨c, present⟩ := r.key (member.mp found)
    obtain ⟨session, bev⟩ := r.lookup present (member.mp found)
    exact ⟨_, _, session, rfl, bev⟩
  obtain ⟨w', runs, bevs, sessions⟩ := TcpContainer.deleteAll_apply keys values live
  refine ⟨{ w' with m_bsMap := ∅, m_fsMap := ∅ }, ?_, ?_, ?_, rfl, rfl⟩
  · rw [TcpContainer.removeSessionAll, Exec.get_bind, Exec.bind_ok runs]
    rfl
  · intro b
    by_contra survives
    obtain ⟨before, untouched⟩ := bevs b survives
    obtain ⟨x, before⟩ := Option.ne_none_iff_exists'.mp before
    obtain ⟨c, present⟩ := r.bev before
    obtain ⟨p, entry, _⟩ := r.entry present
    exact untouched p (member.mpr entry)
  · intro p
    by_contra survives
    obtain ⟨before, untouched⟩ := sessions p survives
    obtain ⟨s, before⟩ := Option.ne_none_iff_exists'.mp before
    obtain ⟨b, entry⟩ := r.session before
    exact untouched b (member.mpr entry)

end Represents

variable {cfg : Option Configure} {w w' : World}

/-- Nothing is freed twice, leaked, or used after it is freed: the container's
keys and values are the live objects, every pointer a session holds is live, a
callback never faults and frees what it makes unreachable once each, and at the
end `removeSessionAll` leaves nothing. -/
theorem ownership (run : Run (Step cfg) World.init labels w) :
    (∀ b, b ∈ w.m_bsMap ↔ (w.bevs b).isSome) ∧
    (∀ p, (∃! b : BevPtr, w.m_bsMap[b]? = some p) ↔ (w.sessions p).isSome) ∧
    (∀ p s q, w.sessions p = some s → s.m_meetee0.bev = some q ∨ s.m_meetee1.bev = some q →
      (w.bevs q).isSome) ∧
    (∀ label, label.event.Admissible w → ∃ w', exec cfg label w = .ok ((), w') ∧
      (w'.freed.map Prod.fst).Nodup ∧
      ∀ b, b ∈ w'.freed.map Prod.fst ↔ (w.bevs b).isSome ∧ w'.bevs b = none) ∧
    ∃ w', TcpContainer.removeSessionAll w = .ok ((), w') ∧ (∀ b, w'.bevs b = none) ∧
      (∀ p, w'.sessions p = none) ∧ w'.m_bsMap = ∅ ∧ w'.m_fsMap = ∅ := by
  obtain ⟨v, represents, paired, _⟩ := reachable run
  refine ⟨?_, ?_, ?_, ?_, represents.removeSessionAll⟩
  · intro b
    rw [represents.mem_iff, represents.live_iff]
  · intro p
    rw [Option.isSome_iff_exists]
    constructor
    · rintro ⟨b, entry, _⟩
      obtain ⟨c, present⟩ := represents.key entry
      exact ⟨_, (represents.lookup present entry).1⟩
    · rintro ⟨s, live⟩
      obtain ⟨b, entry⟩ := represents.session live
      exact ⟨b, entry, fun b' entry' => represents.key_unique entry' entry⟩
  · rintro p s q live refers
    obtain ⟨b, entry⟩ := represents.session live
    obtain ⟨c, present⟩ := represents.key entry
    obtain ⟨session, bev⟩ := represents.lookup present entry
    obtain rfl := Option.some.inj (session.symm.trans live)
    rcases refers with own | peer
    · obtain rfl := Option.some.inj own
      rw [bev, Option.isSome_some]
    · obtain ⟨_, t, partner, _⟩ := paired b c q present peer
      rw [represents.live_iff, partner, Option.isSome_some]
  · intro label admissible
    obtain ⟨w', runs, after, _, freed⟩ := represents.step paired admissible
    refine ⟨w', runs, ?_⟩
    simp only [freed, represents.live_iff, after.free_iff]
    exact Relay.frees_keys paired cfg _ label

theorem ownership_pairLogin :
    ∃ w', TcpContainer.removeSessionAll (World.after none pairLogin) = .ok ((), w') ∧
      (∀ b, w'.bevs b = none) ∧ ∀ p, w'.sessions p = none := by
  obtain ⟨_, _, _, _, w', runs, bevs, sessions, _⟩ :=
    ownership (run_after none pairLogin (by decide +kernel))
  exact ⟨w', runs, bevs, sessions⟩

end RemoteServer
