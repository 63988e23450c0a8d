import RemoteServer.Noninterference
import RemoteServer.Traces

/-! What the server will do follows from what its connections are, and from whether its
loop goes on. Session numbers, indexes and the heap come from the past and have no say in
it; the request counters have one in the pauses alone. -/
namespace RemoteServer
open Transition PartialMap

/-- What a callback shows, its pauses and the numbers of the sessions set aside. -/
structure Glimpse where
  label : Label
  reads : List (BevPtr × List UInt8)
  freed : List (BevPtr × Bufferevent)
  conns : BevPtr → Option (Session × Bufferevent)

/-- A step of the server, as it is seen without the numbers. -/
def Glances (cfg : Option Configure) (w : World) (glimpse : Glimpse) (w' : World) : Prop :=
  LoopStep cfg w glimpse.label w' ∧ glimpse = ⟨glimpse.label, w'.reads, w'.freed, w'.observe⟩

namespace Relay
variable {v u : Relay} {label : Label} {cfg : Option Configure}

/-- The whole relay without the numbers. -/
def anonymous (v : Relay) : Relay := v.view fun _ => true

theorem anonymous_apply (v : Relay) (b : BevPtr) : v.anonymous b = (v b).map Conn.anonymous :=
  view_of rfl v

theorem anonymous_next (label : Label) (v : Relay) (cfg : Option Configure) (sid : Int) :
    (v.next cfg sid label).anonymous = v.anonymous.next cfg 0 label :=
  view_next (confined_all label v) cfg sid fun _ _ => rfl

theorem anonymous_reads (label : Label) (v : Relay) : v.anonymous.reads label = v.reads label := by
  obtain ⟨event, env⟩ := label
  cases event with
  | connReadcb b chunk =>
    simp only [Relay.reads, anonymous_apply, Option.map_map]
    rfl
  | listenerCb => rfl
  | connEventcb => rfl
  | writeProgress => rfl

theorem anonymous_lines (v : Relay) (b : BevPtr) : v.anonymous.lines b = v.lines b := by
  rw [lines, lines, anonymous_apply]
  cases v b with
  | none => rfl
  | some c =>
    change (b, c.line) :: _ = (b, c.line) :: _
    simp only [Conn.anonymous]
    cases c.phase.peer with
    | none => rfl
    | some p =>
      simp only [anonymous_apply]
      cases v p <;> rfl

theorem anonymous_frees (cfg : Option Configure) (label : Label) (v : Relay) :
    v.anonymous.frees cfg label = v.frees cfg label := by
  obtain ⟨event, env⟩ := label
  cases event with
  | connEventcb b events =>
    have aged : modify v.anonymous b (Conn.inactive env) =
        Relay.anonymous (modify v b (Conn.inactive env)) :=
      (view_modify (P := fun _ => true) rfl (Conn.inactive env) fun _ => rfl).symm
    have timedOut : Relay.TimedOut cfg (Relay.anonymous (modify v b (Conn.inactive env))) b ↔
        Relay.TimedOut cfg (modify v b (Conn.inactive env)) b := view_timedOut cfg rfl fun _ _ => rfl
    simp only [Relay.frees, anonymous_lines, aged, timedOut]
  | listenerCb => rfl
  | connReadcb => rfl
  | writeProgress => rfl

theorem anonymous_admits (event : Event) (v : Relay) : v.anonymous.Admits event ↔ v.Admits event := by
  cases event with
  | listenerCb bev fd => exact forall₂_congr fun b _ => by rw [anonymous_apply, Option.map_eq_none_iff]
  | connReadcb b chunk => exact and_congr_left fun _ => by rw [anonymous_apply, Option.isSome_map]
  | connEventcb b events => rw [Admits, Admits, anonymous_apply, Option.isSome_map]
  | writeProgress b n => rw [Admits, Admits, anonymous_apply, Option.isSome_map]

end Relay

theorem Phase.eq_of_fields {phase phase' : Phase} (state : phase'.state = phase.state)
    (card : phase'.card.map Subtype.val = phase.card.map Subtype.val) (peer : phase'.peer = phase.peer)
    (peerCard : phase'.peerCard.map Subtype.val = phase.peerCard.map Subtype.val) : phase' = phase := by
  have injective : Function.Injective (Option.map fun card : Card => card.val) :=
    Option.map_injective Subtype.val_injective
  cases phase with
  | raw => exact state_eq_raw.mp state
  | waiting own =>
    obtain ⟨own', rfl⟩ := state_eq_login.mp state
    obtain rfl := Option.some.inj (injective card)
    rfl
  | bound own q pc =>
    cases phase' with
    | raw => contradiction
    | waiting => contradiction
    | bound own' q' pc' =>
      obtain rfl := Option.some.inj (injective card)
      obtain rfl := Option.some.inj peer
      obtain rfl := injective peerCard
      rfl

/-- A session and its line are all there is to a connection. -/
theorem Conn.anonymous_eq {cfg : Option Configure} {b : BevPtr} {c d : Conn}
    (session : d.anonymous.session cfg b = c.anonymous.session cfg b) (line : d.line = c.line) :
    d.anonymous = c.anonymous := by
  simp only [Conn.session, Session.mk.injEq, Meetee.mk.injEq] at session
  obtain ⟨-, idle, -, state, ⟨-, card⟩, peer, peerCard⟩ := session
  have phase := Phase.eq_of_fields state card peer peerCard
  obtain ⟨sid, phase₁, idle₁, line₁⟩ := c
  obtain ⟨sid', phase₂, idle₂, line₂⟩ := d
  rw [anonymous, anonymous, Conn.mk.injEq]
  exact ⟨rfl, phase, idle, line⟩

/-- Two states whose connections are the same but for their numbers, and whose loops go on
or have ended alike. -/
def World.Alike (cfg : Option Configure) (w w' : World) : Prop :=
  w'.broken = w.broken ∧
    ∃ v v', w.Models cfg Phase.Fits v ∧ w'.Models cfg Phase.Fits v' ∧ v'.anonymous = v.anonymous

namespace World
variable {cfg : Option Configure} {w w' : World} {v v' : Relay} {label : Label}

/-- What a step shows can be told from the relay without its numbers. -/
theorem Models.glimpse (models : w.Models cfg Phase.Fits v) (step : Step cfg w label w') :
    (⟨label, w'.reads, w'.freed, w'.observe⟩ : Glimpse) =
      ⟨label, v.anonymous.reads label, v.anonymous.frees cfg label,
        fun b => (v.anonymous.next cfg 0 label b).map fun c => (c.session cfg b, c.line)⟩ := by
  obtain ⟨_, reads, freed⟩ := models.represents.next models.paired step
  have after := models.next Relay.fits_joins step
  have seen : w'.observe = fun b =>
      (v.anonymous.next cfg 0 label b).map fun c => (c.session cfg b, c.line) := by
    funext b
    rw [after.observe, ← Relay.anonymous_next, Relay.anonymous_apply, Option.map_map]
    rfl
  rw [reads, freed, seen, Relay.anonymous_reads, Relay.anonymous_frees]

theorem Alike.symm (alike : w.Alike cfg w') : w'.Alike cfg w := by
  obtain ⟨loop, v, v', models, models', same⟩ := alike
  exact ⟨loop.symm, v', v, models', models, same.symm⟩

theorem Alike.forth {glimpse : Glimpse} {u : World} (alike : w.Alike cfg w')
    (step : Glances cfg w glimpse u) : ∃ u', Glances cfg w' glimpse u' ∧ u.Alike cfg u' := by
  obtain ⟨loop, v, v', models, models', same⟩ := alike
  obtain ⟨⟨going, step⟩, shown⟩ := step
  have admissible : glimpse.label.event.Admissible w' := by
    have admits := (models.represents.admits_iff _).mp step.1
    rw [models'.represents.admits_iff, ← Relay.anonymous_admits, same, Relay.anonymous_admits]
    exact admits
  obtain ⟨u', step'⟩ := models'.progress glimpse.label admissible
  refine ⟨u', ⟨⟨loop.trans going, step'⟩, ?_⟩, ?_, _, _, models.next Relay.fits_joins step,
    models'.next Relay.fits_joins step', ?_⟩
  · rw [models'.glimpse step', same, ← models.glimpse step, ← shown]
  · rw [models.represents.broken_next step, models'.represents.broken_next step', loop]
  · rw [Relay.anonymous_next, Relay.anonymous_next, same]

theorem Models.alike (models : w.Models cfg Phase.Fits v) (models' : w'.Models cfg Phase.Fits v')
    (loop : w'.broken = w.broken) (same : ∀ b, w'.observe b = w.observe b) : w.Alike cfg w' := by
  refine ⟨loop, v, v', models, models', funext fun b => ?_⟩
  have seen := same b
  rw [models.observe, models'.observe] at seen
  rw [Relay.anonymous_apply, Relay.anonymous_apply]
  cases present : v b with
  | none =>
    rw [present, Option.map_none, Option.map_eq_none_iff] at seen
    rw [seen]
  | some c =>
    rw [present, Option.map_some, Option.map_eq_some_iff] at seen
    obtain ⟨d, present', both⟩ := seen
    rw [Prod.mk.injEq] at both
    rw [present', Option.map_some, Option.map_some, Conn.anonymous_eq both.1 both.2]

end World

variable {cfg : Option Configure} {w w' : World} {labels labels' : List Label}

end RemoteServer
