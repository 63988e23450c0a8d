import RemoteServer.ConnStep

/-! The part of a relay that a set of connections can see: the others and the
session numbers are left out. A step on a connection outside the set is invisible,
and a step on one inside it can be taken on the view alone, as long as nobody
outside shares an id with it. -/
namespace RemoteServer
open PartialMap

def Conn.anonymous (c : Conn) : Conn := { c with sid := 0 }

namespace Relay

def view (P : BevPtr → Bool) (v : Relay) : Relay :=
  fun b => if P b then (v b).map Conn.anonymous else none

section Operations
variable {v : Relay} {P : BevPtr → Bool} {b q : BevPtr} {c : Conn} {card : Card}

theorem view_of (member : P b) (v : Relay) : v.view P b = (v b).map Conn.anonymous := if_pos member

theorem view_not (outside : ¬P b) (v : Relay) : v.view P b = none := if_neg outside

theorem view_modify (member : P b) (f : Conn → Conn) (comm : ∀ c, f c.anonymous = (f c).anonymous) :
    Relay.view P (modify v b f) = modify (v.view P) b f := by
  funext i
  rw [view, modify_apply, modify_apply]
  by_cases here : i = b
  · subst i
    have swap : Conn.anonymous ∘ f = f ∘ Conn.anonymous := funext fun c => (comm c).symm
    rw [if_pos member, if_pos rfl, if_pos rfl, view_of member, Option.map_map, Option.map_map, swap]
  · rw [if_neg here, if_neg here]
    rfl

theorem view_modify_outside (outside : ¬P b) (f : Conn → Conn) :
    Relay.view P (modify v b f) = v.view P := by
  funext i
  rw [view, view, modify_apply]
  by_cases here : i = b
  · subst i
    rw [if_neg outside, if_neg outside]
  · rw [if_neg here]

theorem view_card (member : P b) : Relay.card (v.view P) b = v.card b := by
  rw [Relay.card, Relay.card, view_of member]
  cases v b <;> rfl

theorem view_peer (member : P b) : Relay.peer (v.view P) b = v.peer b := by
  rw [Relay.peer, Relay.peer, view_of member]
  cases v b <;> rfl

theorem view_waits : Relay.Waits (v.view P) card q ↔ P q ∧ v.Waits card q := by
  rw [waits_iff, waits_iff]
  by_cases member : P q
  · rw [view_of member, Option.map_map, show (fun c : Conn => c.phase) ∘ Conn.anonymous =
      fun c => c.phase from rfl, and_iff_right member]
  · rw [view_not member]
    simp [member]

/-- The choice of a partner looks only at who waits. -/
theorem partner_congr {w : Relay} (same : ∀ q, w.Waits card q ↔ v.Waits card q) :
    w.partner card = v.partner card := by
  have sets : {q | w.Waits card q} = {q | v.Waits card q} := Set.ext same
  cases chosen : v.partner card with
  | none =>
    rw [partner_eq_none_iff] at chosen ⊢
    exact fun q => (same q).not.mpr (chosen q)
  | some q =>
    rw [partner_eq_some_iff] at chosen ⊢
    rwa [sets]

theorem view_join (outcome : Nat → Bool) (member : P b) (partner : P q) :
    Relay.view P (v.join outcome b q) = Relay.join (v.view P) outcome b q := by
  simp only [Relay.join, view_card member, view_card partner]
  rw [view_modify partner, view_modify member]
  · intro c
    rfl
  · intro c
    rfl

theorem view_login (outcome : Nat → Bool) (member : P b)
    (apart : ∀ q, Relay.Waits (modify v b (Conn.login card)) card q → P q) :
    Relay.view P (v.login outcome b card) = Relay.login (v.view P) outcome b card := by
  have logged : modify (v.view P) b (Conn.login card) = Relay.view P (modify v b (Conn.login card)) :=
    (view_modify member (Conn.login card) fun _ => rfl).symm
  have same : Relay.partner (Relay.view P (modify v b (Conn.login card))) card =
      Relay.partner (modify v b (Conn.login card)) card :=
    partner_congr fun q => view_waits.trans (and_iff_right_of_imp (apart q))
  cases chosen : Relay.partner (modify v b (Conn.login card)) card with
  | none => simp only [Relay.login, logged, same, chosen]
  | some q =>
    simp only [Relay.login, logged, same, chosen]
    exact view_join outcome member (apart q (partner_waits chosen))

theorem view_login_outside (outcome : Nat → Bool) (outside : ¬P b)
    (apart : ∀ q, Relay.Waits (modify v b (Conn.login card)) card q → ¬P q) :
    Relay.view P (v.login outcome b card) = v.view P := by
  cases chosen : Relay.partner (modify v b (Conn.login card)) card with
  | none =>
    simp only [Relay.login, chosen]
    exact view_modify_outside outside _
  | some q =>
    simp only [Relay.login, chosen, Relay.join]
    rw [view_modify_outside (apart q (partner_waits chosen)), view_modify_outside outside,
      view_modify_outside outside]

theorem view_remove (member : P b) : Relay.view P (v.remove b) = Relay.remove (v.view P) b := by
  funext i
  have linked : Option.bind (v.view P b) (fun c => c.phase.peer) = v.peer b := view_peer member
  rw [view, Relay.remove, Relay.remove, PartialMap.Paired.remove_apply,
    PartialMap.Paired.remove_apply, linked, view]
  change (if P i then Option.map _ (if i = b ∨ v.peer b = some i then none else v i) else none) = _
  by_cases gone : i = b ∨ v.peer b = some i
  · rw [if_pos gone, if_pos gone, Option.map_none, ite_self]
  · rw [if_neg gone, if_neg gone]

theorem view_remove_outside (outside : ¬P b) (closed : ∀ p, v.peer b = some p → ¬P p) :
    Relay.view P (v.remove b) = v.view P := by
  funext i
  rw [view, view, Relay.remove, PartialMap.Paired.remove_apply]
  by_cases seen : P i
  · rw [if_pos seen, if_pos seen, if_neg]
    rintro (rfl | linked)
    · exact outside seen
    · exact closed i linked seen
  · rw [if_neg seen, if_neg seen]

theorem view_expired (cfg : Option Configure) (member : P b) :
    Relay.Expired cfg (v.view P) b ↔ v.Expired cfg b := by
  rw [Expired, Expired, view_of member]
  cases v b with
  | none => simp
  | some c => simp [Conn.anonymous]

theorem view_timedOut (cfg : Option Configure) (member : P b) (closed : ∀ p, v.peer b = some p → P p) :
    Relay.TimedOut cfg (v.view P) b ↔ v.TimedOut cfg b := by
  rw [TimedOut, TimedOut, view_expired cfg member, view_peer member]
  apply and_congr_right
  intro _
  apply forall_congr'
  intro p
  apply imp_congr_right
  intro linked
  exact view_expired cfg (closed p linked)

end Operations

section Steps
variable {v : Relay} {P : BevPtr → Bool} {R : Phase → Phase → Prop} {b : BevPtr} {c : Conn}

theorem waits_received (env : Env) (chunk : List UInt8) (card : Card) (q : BevPtr)
    (present : v b = some c) (raw : c.phase = .raw) :
    Relay.Waits (modify (modify v b (Conn.receive env chunk)) b (Conn.login card)) card q ↔
      v.Waits card q :=
  (waits_login_iff (modify_present present (Conn.receive env chunk)) raw).trans
    (waits_modify (Conn.receive env chunk) fun _ => rfl)

/-- A read on a connection inside, when nobody outside waits for the card it may
log in with, and its peer is inside too. -/
theorem view_read (env : Env) (chunk : List UInt8) (member : P b) (linked : ∀ p, v.peer b = some p → P p)
    (apart : ∀ c card, v b = some c → c.phase = .raw → Card.accepted (c.taken chunk) = some card →
      env.outcome 0 = true → ∀ q, v.Waits card q → P q) :
    Relay.view P (v.read env b chunk) = Relay.read env b chunk (v.view P) := by
  have received : Relay.view P (modify v b (Conn.receive env chunk)) =
      modify (v.view P) b (Conn.receive env chunk) := view_modify member _ fun _ => rfl
  cases present : v b with
  | none =>
    have missing : v.view P b = none := by rw [view_of member, present, Option.map_none]
    simp only [Relay.read, present, missing]
  | some c =>
    have seen : v.view P b = some c.anonymous := by rw [view_of member, present, Option.map_some]
    simp only [Relay.read, present, seen]
    change Relay.view P (Relay.dispatch _ _ _ c.phase _) = Relay.dispatch _ _ _ c.phase (c.taken chunk)
    rw [← received]
    cases phase : c.phase with
    | waiting card => rfl
    | bound card p pc =>
      have inside : P p := linked p (by rw [peer_present present, phase]; rfl)
      simp only [Relay.dispatch, forward]
      rw [view_modify inside, view_modify member]
      · intro c
        rfl
      · intro c
        rfl
    | raw =>
      simp only [Relay.dispatch]
      cases accepted : Card.accepted (c.taken chunk) with
      | none => rfl
      | some card =>
        cases recorded : env.outcome 0 with
        | false => rfl
        | true =>
          apply view_login env.outcome member
          intro q waits
          exact apart c card present phase accepted recorded q
            ((waits_received env chunk card q present phase).mp waits)

/-- A read on a connection outside, when nobody inside waits for its card. -/
theorem view_read_outside (env : Env) (chunk : List UInt8) (outside : ¬P b)
    (linked : ∀ p, v.peer b = some p → ¬P p)
    (apart : ∀ c card, v b = some c → c.phase = .raw → Card.accepted (c.taken chunk) = some card →
      env.outcome 0 = true → ∀ q, v.Waits card q → ¬P q) :
    Relay.view P (v.read env b chunk) = v.view P := by
  have received : Relay.view P (modify v b (Conn.receive env chunk)) = v.view P :=
    view_modify_outside outside _
  have step := v.read_step env b chunk
  generalize v.read env b chunk = w at step
  cases step with
  | absent => rfl
  | ignored => exact received
  | @login c card present raw accepted recorded =>
    rw [view_login_outside env.outcome outside, received]
    intro q waits
    exact apart c card present raw accepted recorded q
      ((waits_received env chunk card q present raw).mp waits)
  | @forward c card p pc present bound =>
    have peer : ¬P p := linked p (by rw [peer_present present, bound]; rfl)
    rw [forward, view_modify_outside peer, view_modify_outside outside, received]

theorem view_event (cfg : Option Configure) (env : Env) (events : BitVec 16) (member : P b)
    (linked : ∀ p, v.peer b = some p → P p) :
    Relay.view P (v.event cfg env b events) = Relay.event cfg env b events (v.view P) := by
  have counted : modify (v.view P) b (Conn.inactive env) =
      Relay.view P (modify v b (Conn.inactive env)) :=
    (view_modify member (Conn.inactive env) fun _ => rfl).symm
  have still : ∀ p, Relay.peer (modify v b (Conn.inactive env)) b = some p → P p := by
    rwa [peer_modify (Conn.inactive env) fun _ => rfl]
  unfold Relay.event
  by_cases closed : closes events = true
  · rw [if_pos closed, if_pos closed, view_remove member]
  · rw [if_neg closed, if_neg closed]
    by_cases timeout : has events bevEventTimeout = true
    · rw [if_pos timeout, if_pos timeout, counted]
      by_cases expired : Relay.TimedOut cfg (modify v b (Conn.inactive env)) b
      · rw [if_pos expired, if_pos ((view_timedOut cfg member still).mpr expired), view_remove member]
      · rw [if_neg expired, if_neg ((view_timedOut cfg member still).not.mpr expired)]
    · rw [if_neg timeout, if_neg timeout]

theorem view_event_outside (cfg : Option Configure) (env : Env) (events : BitVec 16) (outside : ¬P b)
    (linked : ∀ p, v.peer b = some p → ¬P p) :
    Relay.view P (v.event cfg env b events) = v.view P := by
  have counted : Relay.view P (modify v b (Conn.inactive env)) = v.view P :=
    view_modify_outside outside _
  have step := v.event_step cfg env b events
  generalize v.event cfg env b events = w at step
  cases step with
  | quiet => rfl
  | closed => exact view_remove_outside outside linked
  | idle => exact counted
  | expired =>
    rw [view_remove_outside outside, counted]
    rwa [peer_modify (Conn.inactive env) fun _ => rfl]

/-- Links and logins stay on one side: both ends of a pair are inside or both are
outside, and so are a connection that logs in and those that wait for it. -/
structure Confined (P : BevPtr → Bool) (label : Label) (v : Relay) : Prop where
  linked : ∀ {b p}, v.peer b = some p → (P b ↔ P p)
  apart : ∀ {b chunk c card q}, label.event = .connReadcb b chunk → v b = some c → c.phase = .raw →
    Card.accepted (c.taken chunk) = some card → label.env.outcome 0 = true → v.Waits card q → (P b ↔ P q)

theorem confined_all (label : Label) (v : Relay) : v.Confined (fun _ => true) label where
  linked _ := Iff.rfl
  apart _ _ _ _ _ _ := Iff.rfl

theorem view_congr {Q : BevPtr → Bool} (same : ∀ i c, v i = some c → P i = Q i) :
    v.view P = v.view Q := by
  funext i
  rw [view, view]
  cases present : v i with
  | none => simp
  | some c => rw [same i c present]

/-- A step on a connection inside can be taken on the view. -/
theorem view_next {label : Label} (confined : v.Confined P label) (cfg : Option Configure) (sid : Int)
    (inside : ∀ b, label.event.bev = some b → P b) :
    Relay.view P (v.next cfg sid label) = Relay.next cfg 0 label (v.view P) := by
  obtain ⟨event, env⟩ := label
  cases event with
  | listenerCb bev fd =>
    cases bev with
    | none => rfl
    | some b =>
      funext i
      by_cases here : i = b
      · subst i
        rw [view_of (inside b rfl)]
        simp only [Relay.next, Function.update_self, Option.map_some]
        rfl
      · simp only [Relay.next, view, Function.update_of_ne here]
  | connReadcb b chunk =>
    apply view_read env chunk (inside b rfl)
    · intro p linked
      exact (confined.linked linked).mp (inside b rfl)
    · intro c card present raw accepted recorded q waits
      exact (confined.apart rfl present raw accepted recorded waits).mp (inside b rfl)
  | connEventcb b events =>
    refine view_event cfg env events (inside b rfl) fun p linked => ?_
    exact (confined.linked linked).mp (inside b rfl)
  | writeProgress b n => exact view_modify (inside b rfl) (Conn.drain n) fun _ => rfl

/-- A step on a connection outside is invisible. -/
theorem view_next_outside {label : Label} (confined : v.Confined P label) (cfg : Option Configure)
    (sid : Int) (outside : ∀ b, label.event.bev = some b → ¬P b) :
    Relay.view P (v.next cfg sid label) = v.view P := by
  obtain ⟨event, env⟩ := label
  cases event with
  | listenerCb bev fd =>
    cases bev with
    | none => rfl
    | some b =>
      funext i
      by_cases here : i = b
      · subst i
        rw [view_not (outside b rfl), view_not (outside b rfl)]
      · simp only [Relay.next, view, Function.update_of_ne here]
  | connReadcb b chunk =>
    apply view_read_outside env chunk (outside b rfl)
    · intro p linked
      exact (confined.linked linked).not.mp (outside b rfl)
    · intro c card present raw accepted recorded q waits
      exact (confined.apart rfl present raw accepted recorded waits).not.mp (outside b rfl)
  | connEventcb b events =>
    refine view_event_outside cfg env events (outside b rfl) fun p linked => ?_
    exact (confined.linked linked).not.mp (outside b rfl)
  | writeProgress b n => exact view_modify_outside (outside b rfl) (Conn.drain n)

end Steps
end Relay
end RemoteServer
