import RemoteServer.Session.PacketProofs
import Mathlib.Order.Bounds.Basic
import Mathlib.Order.Nat

/-! The grammar of a login packet, stated on the bytes alone, and the parser's
answer in its terms: it accepts the packet at the first sync, unless the buffer
begins with a NUL. -/
namespace RemoteServer
open Bytes

/-- The big-endian word of four bytes at an offset. -/
def wordAt (data : List UInt8) (i : Nat) : Nat := bigEndian ((data.drop i).take 4)

/-- The id field as it was sent, in a packet that starts at `k`. -/
def idField (data : List UInt8) (k : Nat) : List UInt8 := (data.drop (k + 20)).take 64

/-- A packet starts at `k`: the first sync of the data, a whole packet's room after
it, one of the two types, and an id that is not empty. -/
structure LoginPacket (data : List UInt8) (k : Nat) : Prop where
  sync : IsLeast {i | telproxySyn <+: data.drop i} k
  room : k + telProxyLoginSize ≤ data.length
  type : wordAt data (k + 16) = 1 ∨ wordAt data (k + 16) = 2
  id : data[k + 20]? ≠ some 0

/-- The card of the packet at `k`: its type, and the string of its id field, at most
63 bytes of it, padded with NUL bytes. -/
def cardAt (data : List UInt8) (k : Nat) : UCard where
  type := UInt32.ofNat (wordAt data (k + 16))
  id := strncpy 64 ((cstr (idField data k)).take 63)

theorem LoginPacket.unique (first : LoginPacket data k) (second : LoginPacket data j) : j = k :=
  second.sync.unique first.sync

section Search
variable {src substr : List UInt8} {p : Nat}

theorem prefix_iff (substr rest : List UInt8) : rest.take substr.length = substr ↔ substr <+: rest := by
  constructor
  · intro same
    exact same ▸ List.take_prefix _ _
  · rintro ⟨tail, rfl⟩
    exact List.take_left

/-- As long as the remaining rounds end before the last full window, the loop is a
search of the offsets in turn. -/
theorem strnstrLoop_eq (pattern : substr ≠ []) (inside : p + rounds + substr.length ≤ src.length) :
    strnstrLoop src substr substr.length rounds p =
      .ok ((List.range' p rounds).find? fun i => decide (substr <+: src.drop i)) := by
  induction rounds generalizing p with
  | zero => rfl
  | succ rounds ih =>
    have length := List.length_pos_iff.mpr pattern
    have next := ih (show p + 1 + rounds + substr.length ≤ src.length by omega)
    simp only [strnstrLoop, readByte_inside src p (by omega), readByte_inside substr 0 length,
      memcmpEq_inside src p substr (by omega), bind, Except.bind, List.range'_succ, List.find?_cons]
    have test : ((src.drop p).take substr.length == substr) = decide (substr <+: src.drop p) := by
      rw [Bool.eq_iff_iff, beq_iff_eq, decide_eq_true_eq, prefix_iff]
    by_cases occurs : substr <+: src.drop p
    · have same : src[p] = substr[0] := by
        obtain ⟨tail, eq⟩ := occurs
        have head := congrArg (·[0]?) eq
        simpa [List.getElem?_append_left length, List.getElem?_eq_getElem length,
          List.getElem?_eq_getElem (show p < src.length by omega)] using head.symm
      rw [if_pos same, test, decide_eq_true occurs]
      rfl
    · simp only [test, occurs, decide_false, Bool.false_eq_true, if_false, ite_self, next]

/-- The offset of the first occurrence, when there is room for one more byte after it. -/
theorem strnstr_eq_some_iff (head : src.head? ≠ some 0) (nonempty : src ≠ [])
    (pattern : substr.head? ≠ some 0) (nonempty' : substr ≠ []) :
    strnstr src src.length substr substr.length = .ok (some k) ↔
      IsLeast {i | substr <+: src.drop i} k ∧ k + substr.length < src.length := by
  have length := List.length_pos_iff.mpr nonempty
  have length' := List.length_pos_iff.mpr nonempty'
  have byte : src[0] ≠ 0 := by simpa [List.head?_eq_getElem?, List.getElem?_eq_getElem length] using head
  have byte' : substr[0] ≠ 0 := by
    simpa [List.head?_eq_getElem?, List.getElem?_eq_getElem length'] using pattern
  have loop : strnstr src src.length substr substr.length =
      strnstrLoop src substr substr.length (src.length - substr.length) 0 := by
    simp only [strnstr, readByte_inside src 0 length, readByte_inside substr 0 length', bind, Except.bind,
      if_neg byte, if_neg byte']
    rw [if_neg (by omega), show ((src.length : Int) - substr.length).toNat = src.length - substr.length by
      omega]
  rw [loop]
  by_cases fits : substr.length ≤ src.length
  · rw [strnstrLoop_eq nonempty' (by omega), Except.ok.injEq, List.find?_range'_eq_some]
    simp only [decide_eq_true_eq, List.mem_range'_1, Nat.zero_le, true_and, Nat.zero_add, forall_const,
      Bool.not_eq_true', decide_eq_false_iff_not]
    constructor
    · rintro ⟨occurs, inside, before⟩
      refine ⟨⟨occurs, fun i found => ?_⟩, by omega⟩
      by_contra below
      exact before i (by omega) found
    · rintro ⟨⟨occurs, least⟩, inside⟩
      refine ⟨occurs, by omega, fun i below found => ?_⟩
      exact absurd (least found) (by omega)
  · rw [Nat.sub_eq_zero_of_le (by omega)]
    simp only [strnstrLoop, Except.ok.injEq, reduceCtorEq, false_iff]
    omega

theorem strnstr_nul (head : src.head? = some 0) (substr : List UInt8) (substrLen : Nat) :
    strnstr src src.length substr substrLen = .ok none := by
  cases src with
  | nil => contradiction
  | cons byte rest =>
    obtain rfl := Option.some.inj head
    rfl

/-- The search returns the first offset at which the pattern lies in the buffer, or
NULL when there is none. A read outside the buffer is a fault and no answer. -/
def FindsFirst (src substr : List UInt8) : Prop :=
  ∃ found, strnstr src src.length substr substr.length = .ok found ∧
    (∀ k, found = some k ↔ IsLeast {i | substr <+: src.drop i} k) ∧
    (found = none ↔ ∀ i, ¬substr <+: src.drop i)

theorem exists_first (occurs : substr <+: src.drop p) : ∃ k, IsLeast {i | substr <+: src.drop i} k := by
  classical
  have somewhere : ∃ i, substr <+: src.drop i := ⟨p, occurs⟩
  exact ⟨Nat.find somewhere, Nat.find_spec somewhere, fun i found => Nat.find_min' somewhere found⟩

theorem first_at_one (absent : ¬substr <+: src) (occurs : substr <+: src.drop 1) :
    IsLeast {i | substr <+: src.drop i} 1 := by
  refine ⟨occurs, fun i found => ?_⟩
  by_contra below
  obtain rfl : i = 0 := by omega
  exact absent found

theorem findsFirst_of_first {found : Option Nat}
    (returns : strnstr src src.length substr substr.length = .ok found)
    (first : ∀ k, found = some k ↔ IsLeast {i | substr <+: src.drop i} k) : FindsFirst src substr := by
  refine ⟨found, returns, first, ?_, ?_⟩
  · rintro rfl i occurs
    obtain ⟨k, least⟩ := exists_first occurs
    have answer := (first k).mpr least
    contradiction
  · intro absent
    cases found with
    | none => rfl
    | some k => exact absurd ((first k).mp rfl).1 (absent k)

/-- The search does so unless the first occurrence is in a buffer that begins with a
NUL, or is the very end of the buffer. -/
theorem strnstr_finds_first_iff (nonempty : src ≠ []) (nonempty' : substr ≠ []) (free : 0 ∉ substr) :
    FindsFirst src substr ↔ ∀ k, IsLeast {i | substr <+: src.drop i} k →
      src.head? ≠ some 0 ∧ k + substr.length ≠ src.length := by
  have pattern : substr.head? ≠ some 0 := fun head => free (List.mem_of_head? head)
  constructor
  · rintro ⟨found, returns, first, _⟩ k least
    obtain rfl := (first k).mpr least
    by_cases head : src.head? = some 0
    · rw [strnstr_nul head] at returns
      cases returns
    · have room := ((strnstr_eq_some_iff head nonempty pattern nonempty').mp returns).2
      exact ⟨head, Nat.ne_of_lt room⟩
  · intro apart
    obtain ⟨found, returns⟩ := strnstr_returns substr nonempty' nonempty
    apply findsFirst_of_first returns
    intro k
    by_cases head : src.head? = some 0
    · obtain rfl := Except.ok.inj (returns.symm.trans (strnstr_nul head substr _))
      exact iff_of_false (Option.some_ne_none k).symm fun least => (apart k least).1 head
    · have answer := strnstr_eq_some_iff head nonempty pattern nonempty' (k := k)
      rw [returns, Except.ok.injEq] at answer
      refine answer.trans (and_iff_left_of_imp fun least => ?_)
      have inside := List.IsPrefix.length_le least.1
      have length := List.length_pos_iff.mpr nonempty'
      rw [List.length_drop] at inside
      have last := (apart k least).2
      omega

/-- A sync after one byte and before another. -/
theorem strnstr_finds_first_iff_sync : FindsFirst (255 :: telproxySyn ++ [0]) telproxySyn := by
  refine (strnstr_finds_first_iff (by decide) (by decide) (by decide)).mpr fun k least => ?_
  have second : IsLeast {i | telproxySyn <+: (255 :: telproxySyn ++ [0]).drop i} 1 :=
    first_at_one (by decide) (by decide)
  obtain rfl := least.unique second
  exact ⟨by decide, by decide⟩

/-- A buffer that is the pattern and nothing else. -/
theorem not_findsFirst :
    ¬∀ src substr : List UInt8, src ≠ [] → substr ≠ [] → 0 ∉ substr → FindsFirst src substr := by
  intro finds
  obtain ⟨found, returns, first, _⟩ :=
    finds telproxySyn telproxySyn (by decide) (by decide) (by decide)
  have missed : strnstr telproxySyn telproxySyn.length telproxySyn telproxySyn.length = .ok none := by
    decide +kernel
  obtain rfl := Except.ok.inj (missed.symm.trans returns)
  have start : IsLeast {i | telproxySyn <+: telproxySyn.drop i} 0 :=
    ⟨List.prefix_refl _, fun i _ => Nat.zero_le i⟩
  have answer := (first 0).mpr start
  contradiction

end Search

theorem strncpy_congr (same : cstr a = cstr b) : strncpy n a = strncpy n b := by
  simp only [strncpy, same]

theorem ntohl_eq (bytes : CharArray 4) (type : Nat) (small : type < 2 ^ 32) :
    ntohl bytes = UInt32.ofNat type ↔ bigEndian bytes.val = type := by
  have bound := bigEndian_lt bytes.val
  rw [bytes.property] at bound
  change UInt32.ofNat (bigEndian bytes.val) = _ ↔ _
  rw [← UInt32.toNat_inj, UInt32.toNat_ofNat_of_lt' bound, UInt32.toNat_ofNat_of_lt' small]

section Packet
variable {data : List UInt8} {k : Nat}

theorem memcpy_type (h : telProxyLoginSize ≤ (data.drop k).length) :
    (TelProxyLogin.memcpy (data.drop k) h).type.val = (data.drop (k + 16)).take 4 := by
  simp only [TelProxyLogin.memcpy, List.drop_drop]

theorem memcpy_id (h : telProxyLoginSize ≤ (data.drop k).length) :
    (TelProxyLogin.memcpy (data.drop k) h).id.val = idField data k := by
  simp only [TelProxyLogin.memcpy, List.drop_drop, idField]

theorem terminate_head (id : CharArray 64) : (terminate id).val.head? = id.val.head? := by
  obtain ⟨bytes, size⟩ := id
  cases bytes with
  | nil => contradiction
  | cons byte rest => rfl

theorem idField_head (data : List UInt8) (k : Nat) : (idField data k).head? = data[k + 20]? := by
  rw [idField, List.head?_take, if_neg (by decide), List.head?_drop]

theorem terminate_card (id : CharArray 64) :
    strncpy 64 (terminate id).val = strncpy 64 ((cstr id.val).take 63) := by
  apply strncpy_congr
  have free : ∀ byte ∈ (cstr id.val).take 63, byte ≠ 0 :=
    fun byte member => cstr_nul_free _ byte (List.mem_of_mem_take member)
  rw [cstr_of_nul_free _ free]
  exact cstr_set_last id.val id.property

theorem telproxySyn_nonempty : telproxySyn ≠ [] := by decide

theorem search_iff (head : data.head? ≠ some 0) (nonempty : data ≠ []) :
    strnstr data data.length telproxySyn telproxySyn.length = .ok (some k) ↔
      IsLeast {i | telproxySyn <+: data.drop i} k ∧ k + telproxySyn.length < data.length :=
  strnstr_eq_some_iff head nonempty (by decide) telproxySyn_nonempty

/-- The parser's answer once the search has found a sync. -/
theorem loginPackage_at (sync : IsLeast {i | telproxySyn <+: data.drop i} k)
    (long : ¬data.length < telProxyLoginSize)
    (found : strnstr data data.length telproxySyn telproxySyn.length = .ok (some k)) (card : UCard) :
    loginPackage data = .ok (some card) ↔ LoginPacket data k ∧ card = cardAt data k := by
  have room : telProxyLoginSize ≤ (data.drop k).length ↔ k + telProxyLoginSize ≤ data.length := by
    have := List.length_pos_iff.mpr telproxySyn_nonempty
    rw [List.length_drop]
    have : telProxyLoginSize = 84 := rfl
    omega
  simp only [loginPackage, if_neg long, found, bind, Except.bind]
  by_cases fits : telProxyLoginSize ≤ (data.drop k).length
  · have type (n : Nat) (small : n < 2 ^ 32) :
        ntohl (TelProxyLogin.memcpy (data.drop k) fits).type = UInt32.ofNat n ↔ wordAt data (k + 16) = n := by
      rw [ntohl_eq _ _ small, memcpy_type, wordAt]
    have one := type 1 (by decide)
    have two := type 2 (by decide)
    have id : (terminate (TelProxyLogin.memcpy (data.drop k) fits).id).val.head? = some 0 ↔
        data[k + 20]? = some 0 := by
      rw [terminate_head, memcpy_id, idField_head]
    have rejected (reason : ¬LoginPacket data k) :
        (Except.ok none : Except Fault (Option UCard)) = .ok (some card) ↔
          LoginPacket data k ∧ card = cardAt data k := by
      constructor
      · intro accepted
        cases accepted
      · rintro ⟨packet, _⟩
        exact absurd packet reason
    rw [dif_pos fits]
    by_cases typed : wordAt data (k + 16) = 1 ∨ wordAt data (k + 16) = 2
    · rw [if_neg (by rw [← one, ← two] at typed; rintro ⟨notOne, notTwo⟩; exact typed.elim notOne notTwo)]
      by_cases empty : data[k + 20]? = some 0
      · rw [if_pos (id.mpr empty)]
        exact rejected fun packet => packet.id empty
      · have packet : LoginPacket data k := ⟨sync, room.mp fits, typed, empty⟩
        have card' : cardAt data k = ⟨ntohl (TelProxyLogin.memcpy (data.drop k) fits).type,
            strncpy 64 (terminate (TelProxyLogin.memcpy (data.drop k) fits).id).val⟩ := by
          rw [terminate_card, memcpy_id, cardAt, UCard.mk.injEq]
          refine ⟨?_, rfl⟩
          rcases typed with typed | typed
          · rw [typed, one.mpr typed]
          · rw [typed, two.mpr typed]
        rw [if_neg (fun nul => empty (id.mp nul)), card']
        simp only [pure, Except.pure, Except.ok.injEq, Option.some.injEq, packet, true_and, eq_comm]
    · rw [if_pos (by rw [← one, ← two, not_or] at typed; exact typed)]
      exact rejected fun packet => typed packet.type
  · rw [dif_neg fits]
    constructor
    · intro accepted
      cases accepted
    · rintro ⟨packet, _⟩
      exact absurd (room.mpr packet.room) fits

/-- The parser accepts exactly the packets of the grammar, in buffers that do not
begin with a NUL. -/
theorem loginPackage_eq_some_iff (data : List UInt8) (card : UCard) :
    loginPackage data = .ok (some card) ↔
      data.head? ≠ some 0 ∧ ∃ k, LoginPacket data k ∧ card = cardAt data k := by
  by_cases short : data.length < telProxyLoginSize
  · rw [loginPackage, if_pos short]
    constructor
    · intro accepted
      cases accepted
    · rintro ⟨_, k, packet, _⟩
      exact absurd packet.room (by omega)
  · have nonempty : data ≠ [] := by
      rintro rfl
      exact short (by decide)
    by_cases head : data.head? = some 0
    · have found := strnstr_nul head telproxySyn telproxySyn.length
      simp only [loginPackage, if_neg short, found, bind, Except.bind, head, ne_eq, not_true_eq_false, false_and,
        iff_false]
      intro accepted
      cases accepted
    · obtain ⟨found, returns⟩ := strnstr_returns telproxySyn telproxySyn_nonempty nonempty
      have search (k : Nat) (packet : LoginPacket data k) : found = some k := by
        have inside : k + telproxySyn.length < data.length :=
          Nat.lt_of_lt_of_le (Nat.add_lt_add_left (by decide) k) packet.room
        have first := (search_iff head nonempty).mpr ⟨packet.sync, inside⟩
        exact Except.ok.inj (returns.symm.trans first)
      cases found with
      | none =>
        simp only [loginPackage, if_neg short, returns, bind, Except.bind]
        constructor
        · intro accepted
          cases accepted
        · rintro ⟨_, k, packet, _⟩
          exact absurd (search k packet) (by simp)
      | some k =>
        rw [loginPackage_at ((search_iff head nonempty).mp returns).1 short returns]
        constructor
        · rintro ⟨packet, same⟩
          exact ⟨head, k, packet, same⟩
        · rintro ⟨_, j, packet, same⟩
          obtain rfl := Option.some.inj (search j packet)
          exact ⟨packet, same⟩

end Packet
end RemoteServer
