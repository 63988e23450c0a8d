import RemoteServer.View
import RemoteServer.Ownership

/-! A read changes its own connection and at most one other. Two reads commute if
these changes do and neither read changes what the other will do. -/
namespace RemoteServer
open PartialMap

/-- The copies of the two cards and the two writes of a match have the same
outcomes in a callback on either connection. -/
def Env.Mirrors (ea eb : Env) : Prop :=
  ea.outcome 1 = eb.outcome 2 ∧ ea.outcome 2 = eb.outcome 1 ∧
    ea.outcome 3 = eb.outcome 4 ∧ ea.outcome 4 = eb.outcome 3

theorem Env.Succeeds.mirrors {ea eb : Env} (first : ea.Succeeds) (second : eb.Succeeds) :
    ea.Mirrors eb := by
  simp only [Env.Mirrors, first _, second _, and_self]

/-- The card with which a read logs the connection in, if it does. -/
def Conn.logs (env : Env) (chunk : List UInt8) (c : Conn) : Option Card :=
  match c.phase with
  | .raw => if env.outcome 0 then Card.accepted (c.taken chunk) else none
  | .waiting _ | .bound .. => none

/-- What a read does to the connection itself and to one other. -/
structure Effect where
  own : Conn → Conn
  other : Option (BevPtr × (Conn → Conn))

def Effect.at (e : Effect) (b i : BevPtr) (c : Conn) : Conn :=
  if i = b then e.own c
  else match e.other with
    | none => c
    | some (q, f) => if i = q then f c else c

namespace Relay

noncomputable def effect (env : Env) (b : BevPtr) (chunk : List UInt8) (v : Relay) (c : Conn) : Effect :=
  match c.phase.peer with
  | some p => ⟨fun c => (c.receive env chunk).active, some (p, Conn.send (env.outcome 0) (c.taken chunk))⟩
  | none =>
    match c.logs env chunk with
    | none => ⟨Conn.receive env chunk, none⟩
    | some card =>
      match v.partner card with
      | none => ⟨fun c => (c.receive env chunk).login card, none⟩
      | some q =>
        ⟨fun c => (c.receive env chunk).met card q (if env.outcome 1 then v.card q else none)
            (env.outcome 3),
          some (q, fun t => (t.bind b (if env.outcome 2 then some card else none)).send (env.outcome 4)
            telproxyOk)⟩

section Effects
variable {v : Relay} {R : Phase → Phase → Prop} {a b i q : BevPtr} {c d t : Conn} {card : Card}
  {env : Env} {chunk : List UInt8}

theorem logs_single (logs : c.logs env chunk = some card) : c.phase = .raw ∧ c.phase.peer = none := by
  unfold Conn.logs at logs
  split at logs
  · rename_i raw
    exact ⟨raw, by rw [raw]; rfl⟩
  · contradiction
  · contradiction

theorem logs_eq_some_iff : c.logs env chunk = some card ↔
    c.phase = .raw ∧ env.outcome 0 = true ∧ Card.accepted (c.taken chunk) = some card := by
  unfold Conn.logs
  split
  · rename_i raw
    cases env.outcome 0 <;> simp [raw]
  · rename_i waiting
    simp [waiting]
  · rename_i bound
    simp [bound]

theorem logs_congr (phase : d.phase = c.phase) (input : d.line.input = c.line.input) :
    d.logs env chunk = c.logs env chunk := by
  rw [Conn.logs, Conn.logs, phase, Conn.taken, Conn.taken, input]

theorem effect_congr {w : Relay} (phase : d.phase = c.phase) (input : d.line.input = c.line.input)
    (same : ∀ card, c.logs env chunk = some card → w.partner card = v.partner card ∧
      ∀ q, v.Waits card q → w.card q = v.card q) :
    w.effect env b chunk d = v.effect env b chunk c := by
  have taken : d.taken chunk = c.taken chunk := by rw [Conn.taken, Conn.taken, input]
  unfold effect
  rw [phase, logs_congr phase input, taken]
  cases c.phase.peer with
  | some p => rfl
  | none =>
    cases logs : c.logs env chunk with
    | none => rfl
    | some card =>
      obtain ⟨partner, cards⟩ := same card logs
      simp only [partner]
      cases chosen : v.partner card with
      | none => rfl
      | some q => simp only [cards q (partner_waits chosen)]

theorem read_effect (paired : v.Paired R) (present : v b = some c) :
    v.read env b chunk = mapAll v ((v.effect env b chunk c).at b) := by
  have step := v.read_step env b chunk
  generalize v.read env b chunk = w at step
  cases step with
  | absent missing => rw [present] at missing; contradiction
  | @ignored d found single rejects =>
    obtain rfl := Option.some.inj (present.symm.trans found)
    have drops : c.logs env chunk = none := by
      rw [Option.eq_none_iff_forall_ne_some]
      intro card logs
      obtain ⟨raw, recorded, accepted⟩ := logs_eq_some_iff.mp logs
      rcases rejects raw with rejected | failed
      · rw [accepted] at rejected
        contradiction
      · rw [recorded] at failed
        contradiction
    simp only [effect, single, drops]
    exact modify_eq_mapAll v b _
  | @login d card found raw accepted recorded =>
    obtain rfl := Option.some.inj (present.symm.trans found)
    have single : c.phase.peer = none := by rw [raw]; rfl
    have logs : c.logs env chunk = some card := logs_eq_some_iff.mpr ⟨raw, recorded, accepted⟩
    have step := received_login_step env chunk card present raw
    generalize Relay.login _ env.outcome b card = w at step
    cases step with
    | waits nobody =>
      simp only [effect, single, logs, partner_eq_none_iff.mpr nobody]
      rw [← modify_some present fun c => (c.receive env chunk).login card]
      exact modify_eq_mapAll v b _
    | @binds q t u least apart partner theirs fit =>
      have cards : v.card q = some u := by rw [card_present partner, theirs]; rfl
      simp only [effect, single, logs, partner_eq_some_iff.mpr least, cards]
      rw [← modify_some present fun c => (c.receive env chunk).met card q
        (if env.outcome 1 then some u else none) (env.outcome 3)]
      have other : modify v b (fun c => (c.receive env chunk).met card q
          (if env.outcome 1 then some u else none) (env.outcome 3)) q = some t := by
        rw [modify_of_ne apart, partner]
      have told : t.met u b (if env.outcome 2 then some card else none) (env.outcome 4) =
          (t.bind b (if env.outcome 2 then some card else none)).send (env.outcome 4) telproxyOk := by
        simp only [Conn.met, Conn.bind, Conn.send, theirs]
        rfl
      rw [told, ← modify_some other fun t =>
        (t.bind b (if env.outcome 2 then some card else none)).send (env.outcome 4) telproxyOk]
      exact modify_modify_eq_mapAll apart.symm v _ _
  | @forward d card p pc found bound =>
    obtain rfl := Option.some.inj (present.symm.trans found)
    have linked : c.phase.peer = some p := by rw [bound]; rfl
    obtain ⟨apart, _⟩ := paired b c p present linked
    simp only [effect, linked, forward]
    rw [modify_modify]
    exact modify_modify_eq_mapAll apart.symm v _ _

theorem effect_other (touched : (v.effect env b chunk d).other = some (q, f)) :
    d.phase.peer = some q ∧ f = Conn.send (env.outcome 0) (d.taken chunk) ∨
      ∃ card, d.logs env chunk = some card ∧ v.Waits card q := by
  unfold effect at touched
  split at touched
  · rename_i p linked
    obtain ⟨rfl, rfl⟩ := Prod.mk.inj (Option.some.inj touched)
    exact .inl ⟨linked, rfl⟩
  · split at touched
    · contradiction
    · rename_i card logs
      split at touched
      · contradiction
      · rename_i p chosen
        obtain ⟨rfl, _⟩ := Prod.mk.inj (Option.some.inj touched)
        exact .inr ⟨card, logs, partner_waits chosen⟩

theorem effect_own (linked : c.phase.peer = some q) :
    (v.effect env b chunk c).own = fun c => (c.receive env chunk).active := by
  simp only [effect, linked]

theorem send_active (success : Bool) (data : List UInt8) (c : Conn) :
    ((c.send success data).receive env chunk).active = ((c.receive env chunk).active).send success data := by
  cases success <;> rfl

/-- A read leaves the phase and the input of a connection that it does not match. -/
theorem read_other (paired : v.Paired R) (present : v b = some d) (before : v i = some c) (apart : i ≠ b)
    (unmatched : ∀ card, d.logs env chunk = some card → ¬v.Waits card i) :
    ∃ new, v.read env b chunk i = some new ∧ new.phase = c.phase ∧ new.line.input = c.line.input := by
  obtain ⟨new, found⟩ := Option.isSome_iff_exists.mp
    ((read_isSome env b chunk v i).trans (by rw [before, Option.isSome_some]))
  refine ⟨new, found, ?_⟩
  have step : ConnStep none 0 _ v i new := conn_step_read paired found
  cases step with
  | accept => contradiction
  | stay same =>
    obtain rfl := Option.some.inj (before.symm.trans same)
    exact ⟨rfl, rfl⟩
  | drop _ reads => cases reads; contradiction
  | wait _ reads => cases reads; contradiction
  | «match» _ reads => cases reads; contradiction
  | matched _ _ reads other raw accepted recorded least =>
    cases reads
    obtain rfl := Option.some.inj (present.symm.trans other)
    exact absurd least.1 (unmatched _ (logs_eq_some_iff.mpr ⟨raw, recorded, accepted⟩))
  | relay _ reads => cases reads; contradiction
  | relayed same =>
    obtain rfl := Option.some.inj (before.symm.trans same)
    exact ⟨rfl, append_input ..⟩
  | idle _ times => contradiction
  | drain _ drains => contradiction

end Effects

/-- Neither of two logins concerns the other connection, or the other login: they
do not fit, and nobody waits for both. -/
structure Unmatched (v : Relay) (a : BevPtr) (α : Option Card) (b : BevPtr) (β : Option Card) : Prop where
  cards : ∀ x y, α = some x → β = some y → ¬x.Fits y ∧ ∀ q, v.Waits x q → ¬v.Waits y q
  first : ∀ x, α = some x → ¬v.Waits x b
  second : ∀ y, β = some y → ¬v.Waits y a

theorem Unmatched.symm {v : Relay} (unmatched : v.Unmatched a α b β) : v.Unmatched b β a α where
  cards y x second first := by
    obtain ⟨misfit, waits⟩ := unmatched.cards x y first second
    exact ⟨fun fit => misfit fit.symm, fun q one two => waits q two one⟩
  first := unmatched.second
  second := unmatched.first

section Diamond
variable {v : Relay} {R : Phase → Phase → Prop} {a b i q : BevPtr} {c d t : Conn} {x y : Card}
  {ea eb : Env} {da db : List UInt8}

theorem Unmatched.waits_read (paired : v.Paired R) (second : v b = some d)
    (unmatched : v.Unmatched a (c.logs ea da) b (d.logs eb db)) (logs : c.logs ea da = some x) :
    Waits (v.read eb b db) x q ↔ v.Waits x q := by
  constructor
  · rintro ⟨t, u, found, theirs, fit⟩
    have step : ConnStep none 0 _ v q t := conn_step_read paired found
    cases step with
    | accept => contradiction
    | stay before => exact ⟨t, u, before, theirs, fit⟩
    | drop before => exact ⟨_, u, before, theirs, fit⟩
    | wait before reads raw accepted recorded =>
      cases reads
      obtain rfl := Option.some.inj (second.symm.trans before)
      obtain rfl := Phase.waiting.inj theirs
      have rival := logs_eq_some_iff.mpr ⟨raw, recorded, accepted⟩
      exact absurd fit (unmatched.cards x _ logs rival).1
    | «match» => contradiction
    | matched => contradiction
    | relay _ _ bound =>
      have waits := bound.symm.trans theirs
      contradiction
    | relayed before => exact ⟨_, u, before, theirs, fit⟩
    | idle _ times => contradiction
    | drain _ drains => contradiction
  · rintro ⟨t, u, before, theirs, fit⟩
    have apart : q ≠ b := by
      rintro rfl
      exact unmatched.first x logs ⟨t, u, before, theirs, fit⟩
    obtain ⟨new, found, phase, _⟩ := read_other paired second before apart fun card rival =>
      (unmatched.cards x card logs rival).2 q ⟨t, u, before, theirs, fit⟩
    exact ⟨new, u, found, phase.trans theirs, fit⟩

/-- What a read does is not changed by a read that does not concern it. -/
theorem Unmatched.effect_read (paired : v.Paired R) (first : v a = some c) (second : v b = some d)
    (apart : a ≠ b) (unmatched : v.Unmatched a (c.logs ea da) b (d.logs eb db)) :
    ∃ new, v.read eb b db a = some new ∧
      Relay.effect ea a da (v.read eb b db) new = v.effect ea a da c := by
  obtain ⟨new, found, phase, input⟩ := read_other paired second first apart unmatched.second
  refine ⟨new, found, effect_congr phase input fun x logs => ⟨?_, ?_⟩⟩
  · exact partner_congr fun q => unmatched.waits_read paired second logs
  · rintro q ⟨t, u, before, theirs, fit⟩
    have other : q ≠ b := by
      rintro rfl
      exact unmatched.first x logs ⟨t, u, before, theirs, fit⟩
    obtain ⟨t', found', phase', _⟩ := read_other paired second before other fun card rival =>
      (unmatched.cards x card logs rival).2 q ⟨t, u, before, theirs, fit⟩
    rw [card_present found', card_present before, phase']

theorem at_of_ne (e : Effect) (apart : i ≠ b) :
    e.at b i = id ∨ ∃ f, e.other = some (i, f) ∧ e.at b i = f := by
  obtain ⟨own, other⟩ := e
  cases other with
  | none => exact .inl (funext fun c => if_neg apart)
  | some entry =>
    obtain ⟨q, f⟩ := entry
    by_cases here : i = q
    · subst i
      exact .inr ⟨f, rfl, funext fun c => (if_neg apart).trans (if_pos rfl)⟩
    · exact .inl (funext fun c => (if_neg apart).trans (if_neg here))

/-- What a read does to its own connection commutes with what another read does
to it. -/
theorem Unmatched.own_comm (paired : v.Paired R) (first : v a = some c) (second : v b = some d)
    (apart : a ≠ b) (unmatched : v.Unmatched a (c.logs ea da) b (d.logs eb db)) (t : Conn) :
    (v.effect ea a da c).at a a ((v.effect eb b db d).at b a t) =
      (v.effect eb b db d).at b a ((v.effect ea a da c).at a a t) := by
  rcases at_of_ne (v.effect eb b db d) apart with untouched | ⟨f, touched, same⟩
  · rw [untouched]
    rfl
  · rcases effect_other touched with ⟨linked, rfl⟩ | ⟨y, logs, waits⟩
    · obtain ⟨_, c', found, back, _⟩ := paired b d a second linked
      obtain rfl := Option.some.inj (first.symm.trans found)
      have own : (v.effect ea a da c).at a a = fun c => (c.receive ea da).active :=
        (funext fun c => if_pos rfl).trans (effect_own back)
      rw [same, own]
      exact send_active ..
    · exact absurd waits (unmatched.second y logs)

theorem Unmatched.untouched (paired : v.Paired R) (first : v a = some c) (second : v b = some d)
    (apart : a ≠ b) (unmatched : v.Unmatched a (c.logs ea da) b (d.logs eb db))
    (one : (v.effect ea a da c).other = some (i, f)) : (v.effect eb b db d).other ≠ some (i, g) := by
  have single {e : BevPtr} {t : Conn} {u : Card} (present : v e = some t) (linked : t.phase.peer = some i)
      (waits : v.Waits u i) : False := by
    obtain ⟨_, s, found, back, _⟩ := paired e t i present linked
    obtain ⟨s', _, found', theirs, _⟩ := waits
    obtain rfl := Option.some.inj (found.symm.trans found')
    have bound : s.phase.peer = some e := back
    rw [theirs] at bound
    contradiction
  intro two
  rcases effect_other one with ⟨linked, _⟩ | ⟨x, logs, waits⟩
  · rcases effect_other two with ⟨linked', _⟩ | ⟨y, logs', waits'⟩
    · obtain ⟨_, s, found, back, _⟩ := paired a c i first linked
      obtain ⟨_, s', found', back', _⟩ := paired b d i second linked'
      obtain rfl := Option.some.inj (found.symm.trans found')
      exact apart (Option.some.inj (back.symm.trans back'))
    · exact single first linked waits'
  · rcases effect_other two with ⟨linked', _⟩ | ⟨y, logs', waits'⟩
    · exact single second linked' waits
    · exact (unmatched.cards x y logs logs').2 i waits waits'

/-- Reads that do not concern each other commute. -/
theorem Unmatched.read_comm (paired : v.Paired Phase.Fits) (first : v a = some c) (second : v b = some d)
    (apart : a ≠ b) (unmatched : v.Unmatched a (c.logs ea da) b (d.logs eb db)) :
    Relay.read eb b db (v.read ea a da) = Relay.read ea a da (v.read eb b db) := by
  obtain ⟨c', foundA, sameA⟩ := unmatched.effect_read paired first second apart
  obtain ⟨d', foundB, sameB⟩ := unmatched.symm.effect_read paired second first apart.symm
  have pairedA := paired.read ea fits_joins a da
  have pairedB := paired.read eb fits_joins b db
  rw [read_effect pairedA foundB, read_effect pairedB foundA, sameA, sameB, read_effect paired first,
    read_effect paired second]
  apply mapAll_comm
  intro i t present
  by_cases isA : i = a
  · subst i
    exact unmatched.own_comm paired first second apart t
  · by_cases isB : i = b
    · subst i
      exact (unmatched.symm.own_comm paired second first apart.symm t).symm
    · rcases at_of_ne (v.effect ea a da c) isA with untouched | ⟨f, one, _⟩
      · rw [untouched]
        rfl
      · rcases at_of_ne (v.effect eb b db d) isB with untouched | ⟨g, two, _⟩
        · rw [untouched]
          rfl
        · exact absurd two (unmatched.untouched paired first second apart one)

theorem read_waits (paired : v.Paired R) (second : v b = some d) (logs : d.logs eb db = some y)
    (nobody : ∀ q, ¬v.Waits y q) :
    v.read eb b db = Function.update v b (some ((d.receive eb db).login y)) := by
  have effect : v.effect eb b db d = ⟨fun c => (c.receive eb db).login y, none⟩ := by
    simp only [Relay.effect, (logs_single logs).2, logs, partner_eq_none_iff.mpr nobody]
  rw [read_effect paired second, effect, ← modify_some second fun c => (c.receive eb db).login y]
  exact (modify_eq_mapAll v b _).symm

theorem read_meets (paired : v.Paired Phase.Fits) (first : v a = some c) (second : v b = some d)
    (apart : a ≠ b) (logs : c.logs ea da = some x) (logs' : d.logs eb db = some y) (fit : x.Fits y)
    (nobody : ∀ q, ¬v.Waits x q) (nobody' : ∀ q, ¬v.Waits y q) :
    Relay.read ea a da (v.read eb b db) = Function.update
      (Function.update v b
        (some ((d.receive eb db).met y a (if ea.outcome 2 then some x else none) (ea.outcome 4))))
      a (some ((c.receive ea da).met x b (if ea.outcome 1 then some y else none) (ea.outcome 3))) := by
  have paired' := paired.read eb fits_joins b db
  rw [read_waits paired second logs' nobody'] at paired' ⊢
  have present := (Function.update_of_ne apart (some ((d.receive eb db).login y)) v).trans first
  have waits := Function.update_self b (some ((d.receive eb db).login y)) v
  have least : IsLeast {q | Waits (Function.update v b (some ((d.receive eb db).login y))) x q} b := by
    refine ⟨⟨_, y, waits, rfl, fit⟩, ?_⟩
    rintro q ⟨t, u, found, theirs, fit'⟩
    by_cases here : q = b
    · exact le_of_eq here.symm
    · rw [Function.update_of_ne here] at found
      exact absurd ⟨t, u, found, theirs, fit'⟩ (nobody q)
  have card : Relay.card (Function.update v b (some ((d.receive eb db).login y))) b = some y := by
    rw [Relay.card, waits]
    rfl
  rw [read_effect paired' present]
  simp only [Relay.effect, (logs_single logs).2, logs, partner_eq_some_iff.mpr least, card]
  refine (modify_modify_eq_mapAll apart _ _ _).symm.trans ?_
  rw [modify_some present, modify_some ((Function.update_of_ne apart.symm _ _).trans waits),
    Function.update_comm apart, Function.update_idem]
  rfl

/-- Two logins that fit and that nobody waits for end in the same pair. -/
theorem meets_comm (paired : v.Paired Phase.Fits) (first : v a = some c) (second : v b = some d)
    (apart : a ≠ b) (logs : c.logs ea da = some x) (logs' : d.logs eb db = some y) (fit : x.Fits y)
    (nobody : ∀ q, ¬v.Waits x q) (nobody' : ∀ q, ¬v.Waits y q) (mirrors : ea.Mirrors eb) :
    Relay.read eb b db (v.read ea a da) = Relay.read ea a da (v.read eb b db) := by
  obtain ⟨own, peer, told, told'⟩ := mirrors
  rw [read_meets paired first second apart logs logs' fit nobody nobody',
    read_meets paired second first apart.symm logs' logs fit.symm nobody' nobody,
    Function.update_comm apart, own, peer, told, told']

end Diamond
end Relay

end RemoteServer
