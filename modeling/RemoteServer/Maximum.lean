import RemoteServer.Lib.Matching
import RemoteServer.Pairing

/-! How many pairs there are. For every id the devices and clients that hold it are
matched as far as their numbers go. -/
namespace RemoteServer
open Bytes Transition

namespace World

/-- The card with which the connection logged in. -/
def cardAt (w : World) (b : BevPtr) : Option UCard := (w.sessionAt b).bind (·.m_meetee0.userData)

/-- The connections logged in with this type and id. -/
def holders (w : World) (type : UInt32) (id : List UInt8) : Finset BevPtr :=
  w.m_bsMap.keys.toFinset.filter fun b =>
    (w.cardAt b).any fun card => card.type = type && cstr card.id.val = id

/-- Those of them that are bound. -/
def boundHolders (w : World) (type : UInt32) (id : List UInt8) : Finset BevPtr :=
  (w.holders type id).filter fun b => w.stateOf b = some .bind

end World

namespace World.Models
variable {cfg : Option Configure} {w : World} {v : Relay} {R : Phase → Phase → Prop}
  {type : UInt32} {id : List UInt8} {b : BevPtr} {c : Conn} {card : Card}

theorem cardAt (models : w.Models cfg R v) (b : BevPtr) :
    w.cardAt b = (v.card b).map Subtype.val := by
  rw [World.cardAt, models.represents.sessionAt, Relay.card]
  cases v b with
  | none => rfl
  | some c => rfl

theorem mem_holders (models : w.Models cfg R v) :
    b ∈ w.holders type id ↔
      ∃ c card, v b = some c ∧ c.phase.card = some card ∧ card.val.type = type ∧ card.idString = id := by
  simp only [World.holders, Finset.mem_filter, List.mem_toFinset, Std.TreeMap.mem_keys,
    models.represents.mem_iff, models.cardAt, Option.any_map, Option.any_eq_true,
    Bool.and_eq_true, decide_eq_true_eq, Relay.card]
  constructor
  · rintro ⟨_, card, held, isType, isId⟩
    obtain ⟨c, present, held⟩ := Option.bind_eq_some_iff.mp held
    exact ⟨c, card, present, held, isType, isId⟩
  · rintro ⟨c, card, present, held, isType, isId⟩
    refine ⟨by rw [present, Option.isSome_some], card, ?_, isType, isId⟩
    rw [present, Option.bind_some, held]

theorem bound_iff (models : w.Models cfg R v) (b : BevPtr) :
    w.stateOf b = some .bind ↔ (v.peer b).isSome := by
  rw [models.represents.stateOf, Relay.state, Relay.peer]
  cases v b with
  | none => simp
  | some c =>
    cases phase : c.phase <;> simp [Phase.state, Phase.peer, phase]

theorem boundHolders (models : w.Models cfg R v) (type : UInt32) (id : List UInt8) :
    w.boundHolders type id = Matching.matched v.peer (w.holders type id) :=
  Finset.filter_congr fun b _ => models.bound_iff b

/-- The peer of a holder of one type holds the same id with the other. -/
theorem peer_holds (models : w.Models cfg Phase.Fits v) {other : UInt32} {q : BevPtr}
    (others : ∀ card : Card, card.val.type ≠ type → card.val.type = other)
    (member : b ∈ w.holders type id) (link : v.peer b = some q) :
    q ∈ w.holders other id ∧ v.peer q = some b := by
  obtain ⟨c, card, present, held, isType, isId⟩ := models.mem_holders.mp member
  rw [Relay.peer_present present] at link
  obtain ⟨_, t, partner, back, card', u, held', theirs, fit⟩ := models.paired b c q present link
  obtain rfl := Option.some.inj (held.symm.trans held')
  have different : u.val.type ≠ type := fun same => fit.1 (isType.trans same.symm)
  refine ⟨models.mem_holders.mpr ⟨t, u, partner, theirs, others u different, ?_⟩, ?_⟩
  · rw [← fit.2, isId]
  · rw [Relay.peer_present partner]
    exact back

theorem across (models : w.Models cfg Phase.Fits v) (id : List UInt8) :
    Matching.Across (w.holders 1 id) (w.holders 2 id) v.peer where
  left := models.peer_holds fun card other => card.property.resolve_left other
  right := models.peer_holds fun card other => card.property.resolve_right other

/-- A device and a client with the same id are not both left waiting. -/
theorem one_bound (models : w.Models cfg R v) {a : BevPtr} (device : a ∈ w.holders 1 id)
    (client : b ∈ w.holders 2 id) : (v.peer a).isSome ∨ (v.peer b).isSome := by
  obtain ⟨c, card, present, held, isType, isId⟩ := models.mem_holders.mp device
  obtain ⟨t, u, partner, theirs, isType', isId'⟩ := models.mem_holders.mp client
  rw [Relay.peer_present present, Relay.peer_present partner]
  cases phase : c.phase with
  | raw => rw [phase] at held; contradiction
  | bound card peer peerCard => exact .inl rfl
  | waiting own =>
    cases phase' : t.phase with
    | raw => rw [phase'] at theirs; contradiction
    | bound card peer peerCard => exact .inr rfl
    | waiting their =>
      rw [phase] at held
      rw [phase'] at theirs
      obtain rfl := Option.some.inj held
      obtain rfl := Option.some.inj theirs
      have fit : own.Fits their := by
        refine ⟨?_, isId.trans isId'.symm⟩
        rw [isType, isType']
        decide
      exact absurd ⟨t, their, partner, phase', fit⟩ (models.settled a c own present phase b)

end World.Models

/-- In every reachable state, for every id, there are as many bound devices as bound
clients, and as many as the devices and the clients logged in with it allow. -/
theorem maximum_pairs (run : Run (Step cfg) World.init labels w) (id : List UInt8) :
    (w.boundHolders 1 id).card = min (w.holders 1 id).card (w.holders 2 id).card ∧
      (w.boundHolders 2 id).card = min (w.holders 1 id).card (w.holders 2 id).card := by
  obtain ⟨v, models⟩ := reachable run
  have across := models.across id
  have devices := across.card_eq_min fun a device b client => models.one_bound device client
  rw [models.boundHolders, models.boundHolders]
  exact ⟨devices, across.card_matched ▸ devices⟩

theorem maximum_pairs_pairLogin :
    ((World.after none pairLogin).boundHolders 1 [65]).card =
      min ((World.after none pairLogin).holders 1 [65]).card
        ((World.after none pairLogin).holders 2 [65]).card :=
  (maximum_pairs (run_after none pairLogin (by decide +kernel)) [65]).1

end RemoteServer
