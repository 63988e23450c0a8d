import RemoteServer.Lib.Words
import RemoteServer.Login
import RemoteServer.Maximum
import RemoteServer.Noninterference

/-! The login packet from the client's side: what it encodes the parser decodes, behind
any noise and before anything. -/
namespace RemoteServer
open Bytes Transition

/-- `remote-login` cannot begin before an earlier one has ended. -/
theorem telproxySyn_unbordered : Words.Unbordered telproxySyn := by decide

namespace TelProxyLogin
variable {noise rest id : List UInt8} {type : UInt8}

/-- The data with a packet in it, cut before its sync, its type, its id and its end. -/
theorem packet_eq (noise rest id : List UInt8) (type : UInt8) :
    noise ++ packet type id ++ rest = noise ++ (telproxySyn ++ ([0, 0, 0, 0] ++ ([0, 0, 0, type] ++
      (id ++ List.replicate (64 - id.length) 0 ++ rest)))) := by
  simp only [packet, List.append_assoc]

theorem drop_type (noise rest id : List UInt8) (type : UInt8) :
    (noise ++ packet type id ++ rest).drop (noise.length + 16) =
      [0, 0, 0, type] ++ (id ++ List.replicate (64 - id.length) 0 ++ rest) := by
  rw [packet_eq, ← List.drop_drop, List.drop_left]
  rfl

theorem drop_id (noise rest id : List UInt8) (type : UInt8) :
    (noise ++ packet type id ++ rest).drop (noise.length + 20) =
      id ++ List.replicate (64 - id.length) 0 ++ rest := by
  rw [packet_eq, ← List.drop_drop, List.drop_left]
  rfl

theorem wordAt_packet (noise rest id : List UInt8) (type : UInt8) :
    wordAt (noise ++ packet type id ++ rest) (noise.length + 16) = type.toNat := by
  rw [wordAt, drop_type]
  simp [bigEndian]

theorem idField_packet (fits : id.length ≤ 64) :
    idField (noise ++ packet type id ++ rest) noise.length = id ++ List.replicate (64 - id.length) 0 := by
  rw [idField, drop_id, List.take_left']
  rw [List.length_append, List.length_replicate]
  omega

theorem cstr_padded (free : 0 ∉ id) (n : Nat) : cstr (id ++ List.replicate n 0) = id := by
  have nul (byte : UInt8) (member : byte ∈ id) : byte ≠ 0 := ne_of_mem_of_not_mem member free
  cases n with
  | zero => rw [List.replicate_zero, List.append_nil, cstr_of_nul_free id nul]
  | succ n => exact cstr_append_nul id nul _

theorem packet_length (type : UInt8) (fits : id.length ≤ 64) : (packet type id).length = 84 := by
  have sync : telproxySyn.length = 12 := by decide
  simp only [packet, List.length_append, List.length_cons, List.length_nil, List.length_replicate, sync]
  omega

/-- An encoded packet is one of the grammar. -/
theorem packet_follows (rest : List UInt8) (quiet : ¬telproxySyn <:+: noise)
    (typed : type = 1 ∨ type = 2) (nonempty : id ≠ []) (free : 0 ∉ id) (fits : id.length ≤ 64) :
    LoginPacket (noise ++ packet type id ++ rest) noise.length where
  sync := by
    rw [packet_eq]
    exact Words.isLeast_occurrence telproxySyn_unbordered quiet
  room := by
    rw [List.length_append, List.length_append, packet_length type fits, telProxyLoginSize]
    omega
  type := by
    rw [wordAt_packet]
    rcases typed with rfl | rfl <;> simp
  id := by
    rw [← idField_head, idField_packet fits]
    cases id with
    | nil => contradiction
    | cons byte id =>
      rintro head
      obtain rfl := Option.some.inj head
      exact free (List.mem_cons_self ..)

/-- Encoding and decoding: type and id come back, the id without its 64th byte. -/
theorem packet_decodes (rest : List UInt8) (head : noise.head? ≠ some 0) (quiet : ¬telproxySyn <:+: noise)
    (typed : type = 1 ∨ type = 2) (nonempty : id ≠ []) (free : 0 ∉ id) (fits : id.length ≤ 64) :
    ∃ card, loginPackage (noise ++ packet type id ++ rest) = .ok (some card) ∧
      card.type.toNat = type.toNat ∧ cstr card.id.val = id.take 63 := by
  have follows := packet_follows rest quiet typed nonempty free fits
  refine ⟨_, (loginPackage_eq_some_iff _ _).mpr ⟨?_, _, follows, rfl⟩, ?_, ?_⟩
  · cases noise with
    | nil => simp [packet, telproxySyn]
    | cons byte noise => exact head
  · rw [cardAt, wordAt_packet]
    rcases typed with rfl | rfl <;> rfl
  · have cut : cstr (id.take 63) = id.take 63 := by
      refine cstr_of_nul_free _ fun byte member => ?_
      exact ne_of_mem_of_not_mem (List.mem_of_mem_take member) free
    rw [cardAt, idField_packet fits, cstr_padded free, cstr_strncpy, cut]
    rw [cut, List.length_take]
    omega

end TelProxyLogin

/-- An accepted packet names somebody, in at most 63 bytes. -/
theorem Card.accepted_id {data : List UInt8} {card : Card} (accepted : Card.accepted data = some card) :
    card.idString ≠ [] ∧ card.idString.length ≤ 63 := by
  rw [accepted_eq_some_iff, loginPackage_eq_some_iff] at accepted
  obtain ⟨_, k, packet, isCard⟩ := accepted
  have string : card.idString = (cstr (idField data k)).take 63 := by
    have fits := Session.cut_length (idField data k)
    rw [idString, isCard, RemoteServer.cardAt, cstr_strncpy, Session.cstr_cut]
    rw [Session.cstr_cut]
    omega
  rw [string]
  constructor
  · intro empty
    have room := packet.room
    have inside : k + 20 < data.length := by
      have size : telProxyLoginSize = 84 := rfl
      omega
    have head : (idField data k).head? = some data[k + 20] := by
      rw [idField_head, List.getElem?_eq_getElem inside]
    have named : data[k + 20] ≠ 0 := by
      intro nul
      exact packet.id (by rw [List.getElem?_eq_getElem inside, nul])
    obtain ⟨tail, split⟩ := List.head?_eq_some_iff.mp head
    rw [split, cstr, List.takeWhile_cons_of_pos (by simpa using named)] at empty
    contradiction
  · exact Session.cut_length _

variable {cfg : Option Configure} {w w' : World} {labels : List Label} {b : BevPtr} {x : Bufferevent}
  {noise rest id : List UInt8} {type : UInt8}

/-- Whatever has happened before, a raw connection from which a packet is read is logged in
with what the client encoded, unless the card could not be stored. -/
theorem packet_logs_in (run : Run (Step cfg) World.init labels w)
    (step : Step cfg w ⟨.connReadcb b chunk, env⟩ w') (raw : w.stateOf b = some .raw)
    (live : w.bevs b = some x)
    (taken : (x.input ++ chunk).take 4096 = noise ++ TelProxyLogin.packet type id ++ rest)
    (head : noise.head? ≠ some 0) (quiet : ¬telproxySyn <:+: noise) (typed : type = 1 ∨ type = 2)
    (nonempty : id ≠ []) (free : 0 ∉ id) (fits : id.length ≤ 64) (recorded : env.outcome 0 = true) :
    w'.stateOf b ≠ some .raw ∧ ∃ card, w'.cardAt b = some card ∧ card.type.toNat = type.toNat ∧
      cstr card.id.val = id.take 63 := by
  obtain ⟨v, models⟩ := reachable run
  have models' := models.next Relay.fits_joins step
  obtain ⟨card, decodes, isType, isId⟩ :=
    TelProxyLogin.packet_decodes rest head quiet typed nonempty free fits
  obtain ⟨c, present, phase⟩ : ∃ c, v b = some c ∧ c.phase = .raw := by
    rw [models.represents.stateOf] at raw
    obtain ⟨c, present, state⟩ := Option.map_eq_some_iff.mp raw
    exact ⟨c, present, Phase.state_eq_raw.mp state⟩
  have line : x = c.line := by
    rw [models.represents.bevs, present, Option.map_some] at live
    exact (Option.some.inj live).symm
  have accepted : Card.accepted (c.taken chunk) = some ⟨card, loginPackage_type decodes⟩ := by
    rw [Card.accepted_eq_some_iff, Conn.taken, ← line, taken, decodes]
  obtain ⟨new, after, holds⟩ := Relay.read_login present phase accepted recorded
  have found : v.next cfg w.m_sidCount ⟨.connReadcb b chunk, env⟩ b = some new := after
  constructor
  · rw [models'.represents.stateOf, Relay.state_present found]
    rintro raw
    rw [Option.some.injEq, Phase.state_eq_raw] at raw
    rw [raw] at holds
    contradiction
  · refine ⟨card, ?_, isType, isId⟩
    rw [models'.cardAt, Relay.card_present found, holds, Option.map_some]

def freshConnection : List Label := [⟨.listenerCb (some 7) 3, .ideal 0⟩]

/-- A client says a byte, logs in and talks on, all in one chunk. -/
theorem packet_logs_in_freshConnection :
    ∃ w' card, Step none (World.after none freshConnection)
        ⟨.connReadcb 7 ([33] ++ TelProxyLogin.packet 2 [65] ++ [104, 105]), .ideal 0⟩ w' ∧
      w'.cardAt 7 = some card ∧ cstr card.id.val = [65] := by
  have run := run_after none freshConnection (by decide +kernel)
  obtain ⟨w', step⟩ := progress run
    ⟨.connReadcb 7 ([33] ++ TelProxyLogin.packet 2 [65] ++ [104, 105]), .ideal 0⟩ (by decide +kernel)
  have raw : (World.after none freshConnection).stateOf 7 = some .raw := by decide +kernel
  have input : ((World.after none freshConnection).bevs 7).map (·.input) = some [] := by decide +kernel
  obtain ⟨x, live, empty⟩ := Option.map_eq_some_iff.mp input
  have taken : (x.input ++ ([33] ++ TelProxyLogin.packet 2 [65] ++ [104, 105])).take 4096 =
      [33] ++ TelProxyLogin.packet 2 [65] ++ [104, 105] := by
    rw [empty]
    decide
  obtain ⟨_, card, held, _, isId⟩ := packet_logs_in run step raw live taken (by decide) (by decide) (.inr rfl)
    (by decide) (by decide) (by decide) rfl
  exact ⟨w', card, step, held, isId⟩

end RemoteServer
