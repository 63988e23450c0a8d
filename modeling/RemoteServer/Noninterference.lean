import RemoteServer.Pairing
import RemoteServer.View

/-! Noninterference between ids: to a set of connections that shares no id with
the rest, the callbacks on the rest might as well not have happened. -/
namespace RemoteServer
open Bytes Transition PartialMap

/-- Connections are numbered in the order of their accepts, since bufferevents
are reused; `of` is the connection that has a bufferevent now. -/
structure Numbering where
  next : Nat
  of : BevPtr → Nat

namespace Numbering

def start : Numbering := ⟨0, fun _ => 0⟩

def after (n : Numbering) : Event → Numbering
  | .listenerCb (some b) _ => ⟨n.next + 1, Function.update n.of b n.next⟩
  | _ => n

def along (n : Numbering) (labels : List Label) : Numbering :=
  labels.foldl (fun n label => n.after label.event) n

theorem along_snoc (n : Numbering) (labels : List Label) (label : Label) :
    n.along (labels ++ [label]) = (n.along labels).after label.event := by
  simp [along]

theorem after_of {n : Numbering} {event : Event} (unaccepted : ¬event.accepts b) :
    (n.after event).of b = n.of b := by
  cases event with
  | listenerCb bev fd =>
    cases bev with
    | none => rfl
    | some q =>
      have apart : b ≠ q := by simpa [Event.accepts, eq_comm] using unaccepted
      exact Function.update_of_ne apart ..
  | connReadcb => rfl
  | connEventcb => rfl
  | writeProgress => rfl

/-- The event is about a connection of the set. -/
def concerns (n : Numbering) (G : Nat → Bool) (event : Event) : Bool :=
  event.bev.any fun b => G ((n.after event).of b)

end Numbering

/-- The callbacks of a run that are about connections of `G`. -/
def project (G : Nat → Bool) : Numbering → List Label → List Label
  | _, [] => []
  | n, label :: rest =>
    if n.concerns G label.event then label :: project G (n.after label.event) rest
    else project G (n.after label.event) rest

theorem project_snoc (G : Nat → Bool) (n : Numbering) (labels : List Label) (label : Label) :
    project G n (labels ++ [label]) =
      project G n labels ++ if (n.along labels).concerns G label.event then [label] else [] := by
  induction labels generalizing n with
  | nil => rfl
  | cons first rest ih =>
    simp only [List.cons_append, project, ih, Numbering.along, List.foldl_cons]
    split <;> rfl

namespace World

/-- The id string on the card of the connection. -/
def idOf (w : World) (b : BevPtr) : Option (List UInt8) :=
  ((w.sessionAt b).bind (·.m_meetee0.userData)).map fun card => cstr card.id.val

/-- The connection's session, its number set aside, and its bufferevent with all
that was written to it. -/
def observe (w : World) (b : BevPtr) : Option (Session × Bufferevent) :=
  (w.sessionAt b).bind fun s => (w.bevs b).map fun x => ({ s with m_sid := 0 }, x)

end World

/-- Who has logged in with which id string. -/
abbrev Logins := List (Nat × List UInt8)

/-- A successful login takes the session out of `SStateRaw`. -/
def logins : Monitor World Label (Numbering × Logins) := fun w label w' (n, logged) =>
  (n.after label.event,
    match label.event with
    | .connReadcb b _ =>
      if w.stateOf b = some .raw ∧ w'.stateOf b ≠ some .raw then
        logged ++ (w'.idOf b).toList.map fun id => (n.of b, id)
      else logged
    | _ => logged)

/-- No connection outside `G` has logged in with the id of one in `G`. -/
def Logins.Separate (logged : Logins) (G : Nat → Bool) : Prop :=
  ∀ a ∈ logged, ∀ d ∈ logged, a.2 = d.2 → G a.1 → G d.1

instance (logged : Logins) (G : Nat → Bool) : Decidable (logged.Separate G) :=
  inferInstanceAs (Decidable (∀ a ∈ logged, ∀ d ∈ logged, a.2 = d.2 → G a.1 → G d.1))

section Logins
variable {cfg : Option Configure} {w w' : World} {v : Relay} {R : Phase → Phase → Prop} {n : Numbering}
  {logged : Logins} {label : Label} {G : Nat → Bool} {b : BevPtr} {c new : Conn} {card : Card}
  {id : List UInt8}

theorem Logins.Separate.iff (separate : logged.Separate G) (first : (k, id) ∈ logged)
    (second : (j, id) ∈ logged) : G k ↔ G j :=
  ⟨separate _ first _ second rfl, separate _ second _ first rfl⟩

theorem logins_subset : logged ⊆ (logins w label w' (n, logged)).2 := by
  unfold logins
  dsimp only
  split
  · split
    · exact List.subset_append_left _ _
    · exact List.Subset.refl _
  · exact List.Subset.refl _

theorem World.Models.idOf (models : w.Models cfg R v) (b : BevPtr) :
    w.idOf b = (v.card b).map Card.idString := by
  rw [World.idOf, models.represents.sessionAt, Relay.card]
  cases v b with
  | none => rfl
  | some c =>
    simp only [Option.map_some, Option.bind_some, Conn.session, Option.map_map]
    rfl

theorem World.Models.observe (models : w.Models cfg R v) (b : BevPtr) :
    w.observe b = (v b).map fun c => (c.anonymous.session cfg b, c.line) := by
  rw [World.observe, models.represents.sessionAt]
  cases present : v b with
  | none => rfl
  | some c =>
    obtain ⟨_, _, _, bev⟩ := models.represents.entry present
    rw [Option.map_some, Option.bind_some, bev]
    rfl

/-- A card is kept, or it comes with a login. -/
theorem ConnStep.card_origin (step : ConnStep cfg sid label v b new) (holds : new.phase.card = some card) :
    ¬label.event.accepts b ∧ ((∃ c, v b = some c ∧ c.phase.card = some card) ∨
      ∃ chunk, label.event = .connReadcb b chunk ∧ v.state b = some .raw ∧ new.phase.state ≠ .raw) := by
  cases step with
  | accept => contradiction
  | stay present _ _ unaccepted =>
    refine ⟨?_, .inl ⟨_, present, holds⟩⟩
    rw [Event.accepts_iff]
    rintro ⟨fd, accepts⟩
    exact unaccepted fd accepts
  | drop present reads => exact ⟨by simp [reads, Event.accepts], .inl ⟨_, present, holds⟩⟩
  | @wait c chunk card present reads raw =>
    have before : v.state b = some .raw := by rw [Relay.state_present present, raw]; rfl
    exact ⟨by simp [reads, Event.accepts], .inr ⟨chunk, reads, before, by simp [Conn.login, Phase.state]⟩⟩
  | @«match» c chunk card q t u present reads raw =>
    have before : v.state b = some .raw := by rw [Relay.state_present present, raw]; rfl
    exact ⟨by simp [reads, Event.accepts], .inr ⟨chunk, reads, before, by simp [Conn.met, Phase.state]⟩⟩
  | matched present waiting reads =>
    refine ⟨by simp [reads, Event.accepts], .inl ⟨_, present, ?_⟩⟩
    rw [waiting]
    exact holds
  | relay present reads => exact ⟨by simp [reads, Event.accepts], .inl ⟨_, present, holds⟩⟩
  | relayed present _ reads => exact ⟨by simp [reads, Event.accepts], .inl ⟨_, present, holds⟩⟩
  | idle present times => exact ⟨by simp [times, Event.accepts], .inl ⟨_, present, holds⟩⟩
  | drain present drains => exact ⟨by simp [drains, Event.accepts], .inl ⟨_, present, holds⟩⟩

/-- A card that is accepted and recorded is on the session afterwards. -/
theorem Relay.read_login (present : v b = some c) (raw : c.phase = .raw)
    (accepted : Card.accepted (c.taken chunk) = some card) (recorded : env.outcome 0 = true) :
    ∃ new, v.read env b chunk b = some new ∧ new.phase.card = some card := by
  have logs : v.read env b chunk =
      Relay.login (modify v b (Conn.receive env chunk)) env.outcome b card := by
    simp only [Relay.read, present, raw, Relay.dispatch, accepted, recorded, if_true]
  have step := Relay.received_login_step env chunk card present raw
  rw [logs]
  generalize Relay.login (modify v b (Conn.receive env chunk)) env.outcome b card = u at step
  cases step with
  | waits => exact ⟨_, Function.update_self .., rfl⟩
  | binds _ apart =>
    exact ⟨_, (Function.update_of_ne apart.symm ..).trans (Function.update_self ..), rfl⟩

/-- Every card in the container has been recorded. -/
def Relay.Recorded (v : Relay) (n : Numbering) (logged : Logins) : Prop :=
  ∀ b c card, v b = some c → c.phase.card = some card → (n.of b, card.idString) ∈ logged

theorem Relay.Recorded.next (models : w.Models cfg R v)
    (models' : w'.Models cfg R (v.next cfg w.m_sidCount label)) (recorded : v.Recorded n logged) :
    Relay.Recorded (v.next cfg w.m_sidCount label) (logins w label w' (n, logged)).1
      (logins w label w' (n, logged)).2 := by
  intro b new card found holds
  obtain ⟨unaccepted, ⟨c, present, holds'⟩ | ⟨chunk, reads, before, after⟩⟩ :=
    (Relay.conn_step models.paired cfg w.m_sidCount label found).card_origin holds
  · change ((n.after label.event).of b, card.idString) ∈ _
    rw [Numbering.after_of unaccepted]
    exact logins_subset (recorded b c card present holds')
  · change ((n.after label.event).of b, card.idString) ∈ _
    have raw : w.stateOf b = some .raw := by rw [models.represents.stateOf, before]
    have logged_in : w'.stateOf b ≠ some .raw := by
      rw [models'.represents.stateOf, Relay.state_present found]
      simpa using after
    have id : w'.idOf b = some card.idString := by
      rw [models'.idOf, Relay.card_present found, holds, Option.map_some]
    rw [Numbering.after_of unaccepted]
    simp [logins, reads, raw, logged_in, id]

/-- If `G` shares no id with the rest, no link and no login crosses its border. -/
theorem Relay.Recorded.confined (models : w.Models cfg Phase.Fits v)
    (models' : w'.Models cfg Phase.Fits (v.next cfg w.m_sidCount label))
    (fresh : ∀ b fd, label.event = .listenerCb (some b) fd → v b = none)
    (recorded : v.Recorded n logged)
    (separate : Logins.Separate (logins w label w' (n, logged)).2 G) :
    v.Confined (fun b => G ((n.after label.event).of b)) label := by
  have number {b : BevPtr} {c : Conn} (present : v b = some c) : (n.after label.event).of b = n.of b :=
    Numbering.after_of (Relay.not_accepts present fresh)
  constructor
  · intro b p linked
    obtain ⟨c, present, peer⟩ := Option.bind_eq_some_iff.mp linked
    obtain ⟨_, t, partner, _, card, u, mine, theirs, fit⟩ := models.paired b c p present peer
    have here := recorded b c card present mine
    have there := recorded p t u partner theirs
    rw [← fit.2] at there
    simp only [number present, number partner]
    exact separate.iff (logins_subset here) (logins_subset there)
  · intro b chunk c card q reads present raw accepted success waits
    obtain ⟨t, u, partner, theirs, fit⟩ := waits
    obtain ⟨new, found, holds⟩ := Relay.read_login present raw accepted success
    have after : v.next cfg w.m_sidCount label b = some new := by
      rw [Relay.next, reads]
      exact found
    have here := recorded.next models models' b new card after holds
    have there := recorded q t u partner (by rw [theirs]; rfl)
    rw [← fit.2, ← number partner] at there
    exact separate.iff here (logins_subset there)

end Logins

/-- The projected run has reached what `G` sees of the full one. -/
structure Restricts (cfg : Option Configure) (G : Nat → Bool) (n : Numbering) (logged : Logins)
    (w part : World) (v u : Relay) : Prop where
  full : w.Models cfg Phase.Fits v
  part : part.Models cfg Phase.Fits u
  same : u.view (fun _ => true) = v.view fun b => G (n.of b)
  recorded : v.Recorded n logged

namespace Restricts
variable {cfg : Option Configure} {G : Nat → Bool} {n n' : Numbering} {logged logged' : Logins}
  {w w' part : World} {v u : Relay} {label : Label}

theorem init : Restricts cfg G .start [] World.init World.init (fun _ => none) (fun _ => none) where
  full := .init
  part := .init
  same := by
    funext b
    simp [Relay.view]
  recorded := by
    intro b c card present
    contradiction

theorem at_eq (restricts : Restricts cfg G n logged w part v u) (b : BevPtr) :
    (u b).map Conn.anonymous = if G (n.of b) then (v b).map Conn.anonymous else none :=
  congrFun restricts.same b

theorem isSome_iff (restricts : Restricts cfg G n logged w part v u) (b : BevPtr) :
    (u b).isSome ↔ (v b).isSome ∧ G (n.of b) := by
  rw [← Option.isSome_map (f := Conn.anonymous), restricts.at_eq]
  by_cases member : G (n.of b) <;> simp [member]

/-- What the event loop may raise in the full run on a connection of `G`, it may
raise in the projected run. -/
theorem admissible (restricts : Restricts cfg G n logged w part v u)
    (admissible : label.event.Admissible w) (concerns : n.concerns G label.event) :
    label.event.Admissible part := by
  have live {b : BevPtr} (present : (w.bevs b).isSome) (member : G (n.of b)) : (part.bevs b).isSome := by
    rw [restricts.part.represents.live_iff, restricts.isSome_iff]
    exact ⟨restricts.full.represents.live_iff.mp present, member⟩
  obtain ⟨event, env⟩ := label
  cases event with
  | listenerCb bev fd =>
    rintro b rfl
    have free := restricts.full.represents.free_iff.mp (admissible b rfl)
    rw [restricts.part.represents.free_iff, ← Option.not_isSome_iff_eq_none, restricts.isSome_iff, free]
    simp
  | connReadcb b chunk => exact ⟨live admissible.1 concerns, admissible.2⟩
  | connEventcb b events => exact live admissible concerns
  | writeProgress b k => exact live admissible concerns

/-- One callback of the full run is one or none of the projected run. -/
theorem next (restricts : Restricts cfg G n logged w part v u)
    (step : logins.step (Step cfg) (w, n, logged) label (w', n', logged')) (separate : logged'.Separate G) :
    ∃ part' v' u', Run (Step cfg) part (if n.concerns G label.event then [label] else []) part' ∧
      Restricts cfg G n' logged' w' part' v' u' := by
  obtain ⟨step, records⟩ := step
  obtain rfl : n' = n.after label.event := congrArg (·.1) records
  obtain rfl : logged' = (logins w label w' (n, logged)).2 := congrArg (·.2) records
  have full := restricts.full.next Relay.fits_joins step
  have fresh := restricts.full.represents.accepts_free step
  have recorded := restricts.recorded.next restricts.full full
  have confined := restricts.recorded.confined restricts.full full fresh separate
  have before : v.view (fun b => G (n.of b)) = v.view fun b => G ((n.after label.event).of b) := by
    apply Relay.view_congr
    intro b c present
    have unaccepted : ¬label.event.accepts b := Relay.not_accepts present fresh
    rw [Numbering.after_of unaccepted]
  by_cases concerns : n.concerns G label.event
  · rw [if_pos concerns]
    have inside : ∀ b, label.event.bev = some b → G ((n.after label.event).of b) := by
      intro b about
      simpa [Numbering.concerns, about] using concerns
    obtain ⟨part', step'⟩ := restricts.part.progress label (restricts.admissible step.1 concerns)
    refine ⟨part', _, _, .single step', full, restricts.part.next Relay.fits_joins step', ?_, recorded⟩
    rw [Relay.view_next (Relay.confined_all label u) cfg _ fun _ _ => rfl, restricts.same, before]
    exact (Relay.view_next confined cfg _ inside).symm
  · rw [if_neg concerns]
    have outside : ∀ b, label.event.bev = some b → ¬G ((n.after label.event).of b) := by
      intro b about
      simpa [Numbering.concerns, about] using concerns
    refine ⟨part, _, u, .refl, full, restricts.part, ?_, recorded⟩
    rw [restricts.same, before]
    exact (Relay.view_next_outside confined cfg _ outside).symm

end Restricts

section Runs
variable {cfg : Option Configure} {w : World} {n : Numbering} {logged : Logins} {labels : List Label}

theorem numbering_along (run : Run (logins.step (Step cfg)) (World.init, .start, []) labels state) :
    state.2.1 = Numbering.start.along labels := by
  induction run with
  | refl => rfl
  | snoc _ last ih => rw [Numbering.along_snoc, ← ih, last.2]; rfl

theorem restricts_run (G : Nat → Bool)
    (run : Run (logins.step (Step cfg)) (World.init, .start, []) labels state)
    (separate : state.2.2.Separate G) :
    ∃ part v u, Run (Step cfg) World.init (project G .start labels) part ∧
      Restricts cfg G state.2.1 state.2.2 state.1 part v u := by
  induction run with
  | refl => exact ⟨_, _, _, .refl, .init⟩
  | @snoc labels before label after run last ih =>
    have grows : before.2.2 ⊆ after.2.2 := by
      rw [last.2]
      exact logins_subset
    obtain ⟨part, v, u, projected, restricts⟩ := ih fun a first d second =>
      separate a (grows first) d (grows second)
    obtain ⟨part', v', u', step, restricts'⟩ := restricts.next last separate
    refine ⟨part', v', u', ?_, restricts'⟩
    rw [project_snoc, ← numbering_along run]
    exact projected.trans step

end Runs

/-- The callbacks on the other connections can be deleted from the run: the
connections of `G` are as they were, and those of the projected run are all of `G`. -/
theorem noninterference {cfg : Option Configure} {w : World} {n : Numbering} {logged : Logins}
    (G : Nat → Bool) (run : Run (logins.step (Step cfg)) (World.init, .start, []) labels (w, n, logged))
    (separate : logged.Separate G) :
    ∃ w', Run (Step cfg) World.init (project G .start labels) w' ∧
      ∀ b, (b ∈ w'.m_bsMap ↔ b ∈ w.m_bsMap ∧ G (n.of b)) ∧ (G (n.of b) → w'.observe b = w.observe b) := by
  obtain ⟨part, v, u, projected, restricts⟩ := restricts_run G run separate
  refine ⟨part, projected, fun b => ⟨?_, ?_⟩⟩
  · rw [restricts.part.represents.mem_iff, restricts.full.represents.mem_iff]
    exact restricts.isSome_iff b
  · intro member
    have same := restricts.at_eq b
    rw [if_pos member] at same
    have seen := congrArg (Option.map fun c => (c.session cfg b, c.line)) same
    rw [restricts.part.observe, restricts.full.observe]
    rw [Option.map_map, Option.map_map] at seen
    exact seen

/-- Beside a pair with the id `A`, a device logs in as `B`, talks and leaves. -/
def pairAndStranger : List Label := pairLogin ++
  [⟨.listenerCb (some 6) 5, .ideal 0⟩, ⟨.connReadcb 6 (TelProxyLogin.packet 1 [66]), .ideal 0⟩,
    ⟨.connReadcb 6 [1, 2, 3], .ideal 0⟩, ⟨.connEventcb 6 bevEventEof, .ideal 0⟩]

/-- To the pair, the run might have ended with its own logins. -/
theorem noninterference_pairAndStranger :
    project (· < 2) .start pairAndStranger = pairLogin ∧
      ∃ w', Run (Step none) World.init pairLogin w' ∧
        w'.observe 5 = (World.after none pairAndStranger).observe 5 := by
  have replays : (replay none pairAndStranger World.init).isSome := by decide +kernel
  have run := recorded_after logins none pairAndStranger (.start, []) replays
  have kept : project (· < 2) .start pairAndStranger = pairLogin := by
    simp [project, pairAndStranger, pairLogin, Numbering.concerns, Numbering.after, Numbering.start,
      Event.bev]
  have separate : (historyOf logins none pairAndStranger World.init (.start, [])).2.Separate (· < 2) := by
    decide +kernel
  have member : (historyOf logins none pairAndStranger World.init (.start, [])).1.of 5 < 2 := by
    decide +kernel
  generalize historyOf logins none pairAndStranger World.init (.start, []) = history at run separate member
  obtain ⟨n, logged⟩ := history
  obtain ⟨w', projected, same⟩ := noninterference (· < 2) run separate
  rw [kept] at projected
  exact ⟨kept, w', projected, (same 5).2 (by simpa using member)⟩

end RemoteServer
