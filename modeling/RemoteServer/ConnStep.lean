import RemoteServer.RelayProofs

/-! What one step of the relay can do to one connection that is there afterwards. -/
namespace RemoteServer
open PartialMap

/-- How the connection `i` came to be `new` in a step. -/
inductive ConnStep (cfg : Option Configure) (sid : Int) (label : Label) (v : Relay) (i : BevPtr) :
    Conn → Prop where
  | accept {fd : Int} : label.event = .listenerCb (some i) fd →
      ConnStep cfg sid label v i (.fresh cfg label.env sid fd)
  /-- The event concerns other connections. -/
  | stay {c : Conn} : v i = some c →
      (∀ b chunk a, label.event = .connReadcb b chunk → v b = some a → b ≠ i ∧ a.phase.peer ≠ some i) →
      (∀ events, label.event = .connEventcb i events → has events bevEventTimeout = false) →
      (∀ fd, label.event ≠ .listenerCb (some i) fd) → ConnStep cfg sid label v i c
  /-- Its chunk is dropped: it waits for a partner, or the chunk is no login. -/
  | drop {c : Conn} {chunk : List UInt8} : v i = some c → label.event = .connReadcb i chunk →
      c.phase.peer = none → (c.phase = .raw → Relay.Rejects label.env c chunk) →
      ConnStep cfg sid label v i (c.receive label.env chunk)
  /-- It logs in, and nobody waits for it. -/
  | wait {c : Conn} {chunk : List UInt8} {card : Card} : v i = some c →
      label.event = .connReadcb i chunk → c.phase = .raw → Card.accepted (c.taken chunk) = some card →
      label.env.outcome 0 = true → (∀ q, ¬v.Waits card q) →
      ConnStep cfg sid label v i ((c.receive label.env chunk).login card)
  /-- It logs in and is bound to the least connection that waits for it. -/
  | match {c : Conn} {chunk : List UInt8} {card : Card} {q : BevPtr} {t : Conn} {u : Card} :
      v i = some c → label.event = .connReadcb i chunk → c.phase = .raw →
      Card.accepted (c.taken chunk) = some card → label.env.outcome 0 = true →
      IsLeast {q | v.Waits card q} q → q ≠ i → v q = some t → t.phase = .waiting u → card.Fits u →
      ConnStep cfg sid label v i ((c.receive label.env chunk).met card q
        (if label.env.outcome 1 then some u else none) (label.env.outcome 3))
  /-- It has waited for the connection that logs in. -/
  | matched {b : BevPtr} {c : Conn} {chunk : List UInt8} {card u : Card} {t : Conn} :
      v i = some t → t.phase = .waiting u → label.event = .connReadcb b chunk → v b = some c →
      c.phase = .raw → Card.accepted (c.taken chunk) = some card → label.env.outcome 0 = true →
      IsLeast {q | v.Waits card q} i → i ≠ b → card.Fits u →
      ConnStep cfg sid label v i (t.met u b (if label.env.outcome 2 then some card else none)
        (label.env.outcome 4))
  /-- Its chunk is relayed to its peer. -/
  | relay {c : Conn} {chunk : List UInt8} {card : Card} {p : BevPtr} {pc : Option Card} :
      v i = some c → label.event = .connReadcb i chunk → c.phase = .bound card p pc →
      ConnStep cfg sid label v i (c.receive label.env chunk).active
  /-- Its peer's chunk is relayed to it. -/
  | relayed {b : BevPtr} {c : Conn} {chunk : List UInt8} {card : Card} {pc : Option Card} {t : Conn} :
      v i = some t → t.phase.peer = some b → label.event = .connReadcb b chunk → v b = some c →
      c.phase = .bound card i pc → i ≠ b →
      ConnStep cfg sid label v i (t.send (label.env.outcome 0) (c.taken chunk))
  /-- Its read timeout expires, but it is not closed. -/
  | idle {c : Conn} {events : BitVec 16} : v i = some c → label.event = .connEventcb i events →
      Relay.closes events = false → has events bevEventTimeout = true →
      ConnStep cfg sid label v i (c.inactive label.env)
  | drain {c : Conn} {n : Nat} : v i = some c → label.event = .writeProgress i n →
      ConnStep cfg sid label v i (c.drain n)

namespace Relay
variable {v : Relay} {R : Phase → Phase → Prop} {b i : BevPtr} {c new : Conn}

theorem remove_eq_some (found : v.remove b i = some c) : i ≠ b ∧ v.peer b ≠ some i ∧ v i = some c := by
  rw [Relay.remove, PartialMap.Paired.remove_apply] at found
  split at found
  · contradiction
  · rename_i kept
    rw [not_or] at kept
    exact ⟨kept.1, kept.2, found⟩

theorem conn_step_read {env : Env} {chunk : List UInt8} (paired : v.Paired R)
    (found : v.read env b chunk i = some new) :
    ConnStep cfg sid ⟨.connReadcb b chunk, env⟩ v i new := by
  have other (apart : i ≠ b) (unlinked : ∀ a, v b = some a → a.phase.peer ≠ some i)
      (before : v i = some new) : ConnStep cfg sid ⟨.connReadcb b chunk, env⟩ v i new := by
    refine .stay before ?_ (by simp) (by simp)
    intro b' chunk' a same found
    cases same
    exact ⟨apart.symm, unlinked a found⟩
  have step := v.read_step env b chunk
  generalize v.read env b chunk = w at step found
  cases step with
  | absent missing =>
    apply other _ (fun a present => by rw [missing] at present; contradiction) found
    rintro rfl
    rw [missing] at found
    contradiction
  | @ignored c present single rejects =>
    rw [modify_some present] at found
    by_cases here : i = b
    · subst i
      rw [Function.update_self, Option.some.injEq] at found
      subst found
      exact .drop present rfl single rejects
    · rw [Function.update_of_ne here] at found
      apply other here _ found
      intro a found'
      obtain rfl := Option.some.inj (present.symm.trans found')
      simp [single]
  | @login c card present raw accepted recorded =>
    have unlinked : ∀ a, v b = some a → a.phase.peer ≠ some i := by
      intro a found'
      obtain rfl := Option.some.inj (present.symm.trans found')
      simp [raw, Phase.peer]
    have login := received_login_step env chunk card present raw
    generalize Relay.login _ env.outcome b card = w at login found
    cases login with
    | waits nobody =>
      by_cases here : i = b
      · subst i
        rw [Function.update_self, Option.some.injEq] at found
        subst found
        exact .wait present rfl raw accepted recorded nobody
      · rw [Function.update_of_ne here] at found
        exact other here unlinked found
    | @binds q t u least apart partner theirs fit =>
      by_cases isQ : i = q
      · subst i
        rw [Function.update_self, Option.some.injEq] at found
        subst found
        exact .matched partner theirs rfl present raw accepted recorded least apart fit
      · rw [Function.update_of_ne isQ] at found
        by_cases here : i = b
        · subst i
          rw [Function.update_self, Option.some.injEq] at found
          subst found
          exact .match present rfl raw accepted recorded least apart partner theirs fit
        · rw [Function.update_of_ne here] at found
          exact other here unlinked found
  | @forward c card p pc present bound =>
    have linked : c.phase.peer = some p := by rw [bound]; rfl
    obtain ⟨apart, t, partner, back, _⟩ := paired b c p present linked
    rw [forward, modify_some present, modify_some (Function.update_self ..), Function.update_idem,
      modify_some (Function.update_of_ne apart .. |>.trans partner)] at found
    by_cases isP : i = p
    · subst i
      rw [Function.update_self, Option.some.injEq] at found
      subst found
      exact .relayed partner back rfl present bound apart
    · rw [Function.update_of_ne isP] at found
      by_cases here : i = b
      · subst i
        rw [Function.update_self, Option.some.injEq] at found
        subst found
        exact .relay present rfl bound
      · rw [Function.update_of_ne here] at found
        apply other here _ found
        intro a found'
        obtain rfl := Option.some.inj (present.symm.trans found')
        simp [linked, Ne.symm isP]

theorem conn_step_event {env : Env} {events : BitVec 16} (cfg : Option Configure)
    (found : v.event cfg env b events i = some new) :
    ConnStep cfg sid ⟨.connEventcb b events, env⟩ v i new := by
  have other (quiet : i = b → has events bevEventTimeout = false) (before : v i = some new) :
      ConnStep cfg sid ⟨.connEventcb b events, env⟩ v i new := by
    refine .stay before (by simp) ?_ (by simp)
    intro events' same
    cases same
    exact quiet rfl
  have step := v.event_step cfg env b events
  generalize v.event cfg env b events = w at step found
  cases step with
  | quiet _ untimed => exact other (fun _ => untimed) found
  | closed =>
    obtain ⟨apart, _, before⟩ := remove_eq_some found
    exact other (fun here => absurd here apart) before
  | idle opens timeout =>
    by_cases here : i = b
    · subst i
      obtain ⟨c, present, rfl⟩ := modify_eq_some found
      rw [if_pos rfl]
      exact .idle present rfl opens timeout
    · exact other (fun same => absurd same here) (by rwa [modify_of_ne here] at found)
  | expired =>
    obtain ⟨apart, _, before⟩ := remove_eq_some found
    rw [modify_of_ne apart] at before
    exact other (fun here => absurd here apart) before

/-- Everything a step can do to a connection that survives it. -/
theorem conn_step (paired : v.Paired R) (cfg : Option Configure) (sid : Int) (label : Label)
    (found : v.next cfg sid label i = some new) : ConnStep cfg sid label v i new := by
  obtain ⟨event, env⟩ := label
  cases event with
  | listenerCb bev fd =>
    have other (apart : bev ≠ some i) (before : v i = some new) :
        ConnStep cfg sid ⟨.listenerCb bev fd, env⟩ v i new := by
      refine .stay before (by simp) (by simp) ?_
      intro fd' same
      cases same
      exact apart rfl
    cases bev with
    | none => exact other (by simp) found
    | some b =>
      simp only [Relay.next] at found
      by_cases here : i = b
      · subst i
        rw [Function.update_self, Option.some.injEq] at found
        subst found
        exact .accept rfl
      · rw [Function.update_of_ne here] at found
        exact other (by simpa using Ne.symm here) found
  | connReadcb b chunk => exact conn_step_read paired found
  | connEventcb b events => exact conn_step_event cfg found
  | writeProgress b n =>
    simp only [Relay.next] at found
    by_cases here : i = b
    · subst i
      obtain ⟨c, present, rfl⟩ := modify_eq_some found
      rw [if_pos rfl]
      exact .drain present rfl
    · rw [modify_of_ne here] at found
      exact .stay found (by simp) (by simp) (by simp)

end Relay
end RemoteServer
