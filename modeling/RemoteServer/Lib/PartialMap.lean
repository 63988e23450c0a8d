import Mathlib.Logic.Function.Basic

/-! Partial maps whose entries may be linked in pairs. A link is stored twice,
once in each of the two entries; `Paired` says the two copies agree. -/
namespace PartialMap
variable {κ α : Type} [DecidableEq κ]

def modify (m : κ → Option α) (k : κ) (f : α → α) : κ → Option α :=
  Function.update m k ((m k).map f)

section Modify
variable {m : κ → Option α} {k q : κ} {f g : α → α} {a : α}

theorem modify_apply (m : κ → Option α) (k : κ) (f : α → α) (q : κ) :
    modify m k f q = if q = k then (m k).map f else m q := by
  simp only [modify, Function.update_apply]

theorem modify_self (m : κ → Option α) (k : κ) (f : α → α) : modify m k f k = (m k).map f :=
  Function.update_self ..

theorem modify_present (h : m k = some a) (f : α → α) : modify m k f k = some (f a) := by
  rw [modify_self, h, Option.map_some]

theorem modify_of_ne (h : q ≠ k) (m : κ → Option α) (f : α → α) : modify m k f q = m q :=
  Function.update_of_ne h ..

theorem modify_some (h : m k = some a) (f : α → α) :
    modify m k f = Function.update m k (some (f a)) := by
  rw [modify, h, Option.map_some]

theorem modify_modify (m : κ → Option α) (k : κ) (f g : α → α) :
    modify (modify m k f) k g = modify m k (g ∘ f) := by
  simp only [modify, Function.update_self, Function.update_idem, Option.map_map]

theorem modify_id (m : κ → Option α) (k : κ) : modify m k id = m := by
  rw [modify, Option.map_id, id, Function.update_eq_self]

theorem modify_comm (h : k ≠ q) (m : κ → Option α) (f g : α → α) :
    modify (modify m k f) q g = modify (modify m q g) k f := by
  simp only [modify, Function.update_of_ne h, Function.update_of_ne h.symm]
  exact Function.update_comm h _ _ m

/-- Both entries of a map modified at two keys. -/
theorem modify_first (h : m k = some a) (apart : k ≠ q) (f g : α → α) :
    modify (modify m k f) q g k = some (f a) := by
  rw [modify_of_ne apart, modify_present h]

theorem modify_second (h : m q = some a) (apart : k ≠ q) (f g : α → α) :
    modify (modify m k f) q g q = some (g a) :=
  modify_present ((modify_of_ne apart.symm m f).trans h) g

/-- An entry of the modified map comes from an entry at the same key. -/
theorem modify_eq_some (h : modify m k f q = some a) :
    ∃ old, m q = some old ∧ a = if q = k then f old else old := by
  rw [modify_apply] at h
  split at h
  · rename_i same
    obtain ⟨old, present, rfl⟩ := Option.map_eq_some_iff.mp h
    exact ⟨old, same ▸ present, by rw [if_pos same]⟩
  · rename_i other
    exact ⟨a, h, by rw [if_neg other]⟩

theorem modify_isSome (m : κ → Option α) (k : κ) (f : α → α) (q : κ) :
    (modify m k f q).isSome = (m q).isSome := by
  rw [modify_apply]
  split
  · rename_i same
    rw [Option.isSome_map, same]
  · rfl

/-- Every entry changed by a function of its key. -/
def mapAll (m : κ → Option α) (f : κ → α → α) : κ → Option α := fun k => (m k).map (f k)

theorem modify_eq_mapAll (m : κ → Option α) (k : κ) (f : α → α) :
    modify m k f = mapAll m fun q a => if q = k then f a else a := by
  funext q
  rw [modify_apply, mapAll]
  split
  · rename_i here
    rw [here]
  · rw [Option.map_id']

theorem modify_modify_eq_mapAll (apart : k ≠ q) (m : κ → Option α) (f g : α → α) :
    modify (modify m k f) q g = mapAll m fun i a => if i = k then f a else if i = q then g a else a := by
  funext i
  rw [modify_apply, mapAll]
  by_cases isQ : i = q
  · rw [isQ]
    simp only [if_true, if_neg apart.symm, modify_of_ne apart.symm]
  · simp only [if_neg isQ, modify_apply]
    by_cases isK : i = k
    · simp only [isK, if_true]
    · simp only [if_neg isK, Option.map_id']

omit [DecidableEq κ] in
theorem mapAll_comm (m : κ → Option α) {f g : κ → α → α}
    (comm : ∀ k a, m k = some a → f k (g k a) = g k (f k a)) :
    mapAll (mapAll m f) g = mapAll (mapAll m g) f := by
  funext k
  cases present : m k with
  | none => simp only [mapAll, present, Option.map_none]
  | some a => simp only [mapAll, present, Option.map_some, comm k a present]

end Modify

/-- Every linked entry has a partner, other than itself, that links back to it;
the two entries are related. -/
def Paired (peer : α → Option κ) (R : α → α → Prop) (m : κ → Option α) : Prop :=
  ∀ k a q, m k = some a → peer a = some q → q ≠ k ∧ ∃ b, m q = some b ∧ peer b = some k ∧ R a b

/-- The map without an entry and the entry it is linked to. -/
def remove (peer : α → Option κ) (m : κ → Option α) (k : κ) : κ → Option α :=
  match (m k).bind peer with
  | none => Function.update m k none
  | some q => Function.update (Function.update m k none) q none

namespace Paired
variable {peer : α → Option κ} {R : α → α → Prop} {m : κ → Option α} {k q : κ} {a b : α}

omit [DecidableEq κ] in
theorem empty : Paired peer R (fun _ => none) := by
  intro k a q present
  contradiction

theorem insert (paired : Paired peer R m) (fresh : m k = none) (single : peer a = none) :
    Paired peer R (Function.update m k (some a)) := by
  intro i c j present linked
  by_cases new : i = k
  · subst i
    rw [Function.update_self, Option.some.injEq] at present
    rw [← present, single] at linked
    contradiction
  · rw [Function.update_of_ne new] at present
    obtain ⟨apart, d, found, back, related⟩ := paired i c j present linked
    have old : j ≠ k := by
      rintro rfl
      rw [fresh] at found
      contradiction
    exact ⟨apart, d, by rw [Function.update_of_ne old, found], back, related⟩

/-- Changing an entry keeps the pairing if its link and its relations stay. -/
theorem modify (paired : Paired peer R m) (f : α → α) (same : ∀ a, peer (f a) = peer a)
    (left : ∀ a b, R a b → R (f a) b) (right : ∀ a b, R b a → R b (f a)) :
    Paired peer R (PartialMap.modify m k f) := by
  intro i c j present linked
  obtain ⟨old, found, rfl⟩ := modify_eq_some present
  have oldLinked : peer old = some j := by
    split at linked
    · rwa [same] at linked
    · exact linked
  obtain ⟨apart, d, partner, back, related⟩ := paired i old j found oldLinked
  refine ⟨apart, if j = k then f d else d, ?_, ?_, ?_⟩
  · rw [modify_apply]
    split
    · rename_i here
      rw [← here, partner, Option.map_some]
    · exact partner
  · split
    · rw [same, back]
    · exact back
  · have shifted : R (if i = k then f old else old) d := by
      split
      · exact left _ _ related
      · exact related
    by_cases here : j = k
    · rw [if_pos here]
      exact right _ _ shifted
    · rw [if_neg here]
      exact shifted

/-- A single entry may be replaced by any other single entry. -/
theorem update_single (paired : Paired peer R m) (present : m k = some a) (single : peer a = none)
    (single' : peer a' = none) : Paired peer R (Function.update m k (some a')) := by
  intro i c j found linked
  by_cases here : i = k
  · subst i
    rw [Function.update_self, Option.some.injEq] at found
    rw [← found, single'] at linked
    contradiction
  · rw [Function.update_of_ne here] at found
    obtain ⟨apart, d, partner, back, related⟩ := paired i c j found linked
    have other : j ≠ k := by
      rintro rfl
      obtain rfl := Option.some.inj (present.symm.trans partner)
      rw [single] at back
      contradiction
    exact ⟨apart, d, by rw [Function.update_of_ne other, partner], back, related⟩

/-- Linking two entries that were single, as two different records of one link. -/
theorem join (paired : Paired peer R m) (first : m k = some a) (second : m q = some b)
    (apart : k ≠ q) (singleA : peer a = none) (singleB : peer b = none)
    (linkA : peer a' = some q) (linkB : peer b' = some k) (ab : R a' b') (ba : R b' a') :
    Paired peer R (Function.update (Function.update m k (some a')) q (some b')) := by
  have atK : Function.update (Function.update m k (some a')) q (some b') k = some a' := by
    rw [Function.update_of_ne apart, Function.update_self]
  have atQ : Function.update (Function.update m k (some a')) q (some b') q = some b' :=
    Function.update_self ..
  intro i c j present linked
  by_cases isQ : i = q
  · subst i
    obtain rfl := Option.some.inj (atQ.symm.trans present)
    obtain rfl := Option.some.inj (linkB.symm.trans linked)
    exact ⟨apart, a', atK, linkA, ba⟩
  · by_cases isK : i = k
    · subst i
      obtain rfl := Option.some.inj (atK.symm.trans present)
      obtain rfl := Option.some.inj (linkA.symm.trans linked)
      exact ⟨apart.symm, b', atQ, linkB, ab⟩
    · rw [Function.update_of_ne isQ, Function.update_of_ne isK] at present
      obtain ⟨other, d, found, back, related⟩ := paired i c j present linked
      have notK : j ≠ k := by
        rintro rfl
        rw [first, Option.some.injEq] at found
        rw [← found, singleA] at back
        contradiction
      have notQ : j ≠ q := by
        rintro rfl
        rw [second, Option.some.injEq] at found
        rw [← found, singleB] at back
        contradiction
      refine ⟨other, d, ?_, back, related⟩
      rw [Function.update_of_ne notQ, Function.update_of_ne notK, found]

theorem remove_apply (m : κ → Option α) (k i : κ) :
    PartialMap.remove peer m k i = if i = k ∨ (m k).bind peer = some i then none else m i := by
  rw [PartialMap.remove]
  cases linked : (m k).bind peer with
  | none => simp [Function.update_apply]
  | some q =>
    simp only [Function.update_apply, Option.some.injEq]
    by_cases isQ : i = q
    · simp [isQ]
    · simp [isQ, Ne.symm isQ]

/-- No surviving entry is linked to a removed one. -/
theorem remove (paired : Paired peer R m) (k : κ) : Paired peer R (PartialMap.remove peer m k) := by
  intro i c j present linked
  rw [remove_apply] at present
  split at present
  · contradiction
  · rename_i kept
    rw [not_or] at kept
    obtain ⟨apart, d, found, back, related⟩ := paired i c j present linked
    refine ⟨apart, d, ?_, back, related⟩
    rw [remove_apply, if_neg, found]
    rintro (rfl | gone)
    · exact kept.2 (by rw [found, Option.bind_some, back])
    · obtain ⟨e, atK, toJ⟩ := Option.bind_eq_some_iff.mp gone
      obtain ⟨_, d', found', back', _⟩ := paired k e j atK toJ
      obtain rfl := Option.some.inj (found.symm.trans found')
      exact kept.1 (Option.some.inj (back.symm.trans back'))

end Paired

/-- A second index of the entries of `first`: each is found under its label as well,
nothing else is found there, and no two entries share a label. -/
structure SecondIndex {ι : Type} (first : κ → Option α) (label : κ → Option ι) (second : ι → Option α) :
    Prop where
  found : ∀ i a, second i = some a ↔ ∃ k, first k = some a ∧ label k = some i
  injective : ∀ {k q i}, label k = some i → label q = some i → k = q

namespace SecondIndex
variable {ι : Type} [DecidableEq ι] {first : κ → Option α} {label : κ → Option ι} {second : ι → Option α}
  {k : κ} {i : ι} {a : α}

/-- A new entry whose label nobody has goes into both. -/
theorem insert (index : SecondIndex first label second) (absent : first k = none)
    (unused : ∀ q, label q ≠ some i) : SecondIndex (Function.update first k (some a)) (Function.update label k (some i))
      (Function.update second i (some a)) where
  found := by
    intro j d
    constructor
    · intro atJ
      by_cases here : j = i
      · subst j
        rw [Function.update_self, Option.some.injEq] at atJ
        exact ⟨k, by rw [Function.update_self, atJ], Function.update_self ..⟩
      · rw [Function.update_of_ne here] at atJ
        obtain ⟨q, atQ, named⟩ := (index.found j d).mp atJ
        have other : q ≠ k := by
          rintro rfl
          rw [absent] at atQ
          contradiction
        exact ⟨q, by rw [Function.update_of_ne other, atQ], by rw [Function.update_of_ne other, named]⟩
    · rintro ⟨q, atQ, named⟩
      by_cases new : q = k
      · subst q
        rw [Function.update_self] at atQ named
        obtain rfl := Option.some.inj named
        rw [Function.update_self, atQ]
      · rw [Function.update_of_ne new] at atQ named
        have other : j ≠ i := by
          rintro rfl
          exact unused q named
        rw [Function.update_of_ne other]
        exact (index.found j d).mpr ⟨q, atQ, named⟩
  injective := by
    intro q q' j named named'
    by_cases new : q = k <;> by_cases new' : q' = k
    · rw [new, new']
    · subst q
      rw [Function.update_self] at named
      rw [Function.update_of_ne new'] at named'
      exact absurd (named'.trans named.symm) (unused q')
    · subst q'
      rw [Function.update_self] at named'
      rw [Function.update_of_ne new] at named
      exact absurd (named.trans named'.symm) (unused q)
    · rw [Function.update_of_ne new] at named
      rw [Function.update_of_ne new'] at named'
      exact index.injective named named'

/-- An entry has to be taken out of both. -/
theorem remove (index : SecondIndex first label second) (labeled : label k = some i) :
    SecondIndex (Function.update first k none) (Function.update label k none)
      (Function.update second i none) where
  found := by
    intro j d
    constructor
    · intro atJ
      have other : j ≠ i := by
        rintro rfl
        rw [Function.update_self] at atJ
        contradiction
      rw [Function.update_of_ne other] at atJ
      obtain ⟨q, atQ, named⟩ := (index.found j d).mp atJ
      have stays : q ≠ k := by
        rintro rfl
        exact other (Option.some.inj (named.symm.trans labeled))
      exact ⟨q, by rw [Function.update_of_ne stays, atQ], by rw [Function.update_of_ne stays, named]⟩
    · rintro ⟨q, atQ, named⟩
      have stays : q ≠ k := by
        rintro rfl
        rw [Function.update_self] at atQ
        contradiction
      rw [Function.update_of_ne stays] at atQ named
      have other : j ≠ i := by
        rintro rfl
        exact stays (index.injective named labeled)
      rw [Function.update_of_ne other]
      exact (index.found j d).mpr ⟨q, atQ, named⟩
  injective := by
    intro q q' j named named'
    have stays {q : κ} (named : Function.update label k none q = some j) : q ≠ k := by
      rintro rfl
      rw [Function.update_self] at named
      contradiction
    rw [Function.update_of_ne (stays named)] at named
    rw [Function.update_of_ne (stays named')] at named'
    exact index.injective named named'

omit [DecidableEq κ] [DecidableEq ι] in
/-- Both indexes lead to the same entry. -/
theorem agree (index : SecondIndex first label second) (labeled : label k = some i)
    (present : first k = some a) : second i = first k := by
  rw [present]
  exact (index.found i a).mpr ⟨k, present, labeled⟩

end SecondIndex

end PartialMap
