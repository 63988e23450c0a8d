import RemoteServer.Session.Packet

/-! The packet parser reads inside its buffer, whatever the bytes are, and every
card it yields has one of the two types. -/
namespace RemoteServer
open Bytes

theorem readByte_inside (buf : List UInt8) (i : Nat) (inside : i < buf.length) :
    readByte buf i = .ok buf[i] := by
  simp only [readByte, List.getElem?_eq_getElem inside]

theorem memcmpEq_inside (buf : List UInt8) (p : Nat) (substr : List UInt8)
    (inside : p + substr.length ≤ buf.length) :
    memcmpEq buf p substr substr.length = .ok ((buf.drop p).take substr.length == substr) := by
  simp only [memcmpEq, if_pos (And.intro inside (Nat.le_refl _)), List.take_length]

/-- As long as the remaining rounds end before the last full window, no read of
the loop leaves the buffer. -/
theorem strnstrLoop_returns (substr : List UInt8) (pattern : substr ≠ [])
    (p : Nat) (inside : p + rounds + substr.length ≤ src.length) :
    ∃ found, strnstrLoop src substr substr.length rounds p = .ok found := by
  induction rounds generalizing p with
  | zero => exact ⟨none, rfl⟩
  | succ rounds ih =>
    have length := List.length_pos_iff.mpr pattern
    have next := ih (p + 1) (by omega)
    simp only [strnstrLoop, readByte_inside src p (by omega), readByte_inside substr 0 length,
      memcmpEq_inside src p substr (by omega), bind, Except.bind]
    split
    · split
      · exact ⟨some p, rfl⟩
      · exact next
    · exact next

theorem strnstr_returns (substr : List UInt8) (pattern : substr ≠ []) (nonempty : src ≠ []) :
    ∃ found, strnstr src src.length substr substr.length = .ok found := by
  have length := List.length_pos_iff.mpr nonempty
  simp only [strnstr, readByte_inside src 0 length,
    readByte_inside substr 0 (List.length_pos_iff.mpr pattern), bind, Except.bind]
  repeat' split
  · exact ⟨none, rfl⟩
  · exact ⟨none, rfl⟩
  · exact ⟨none, rfl⟩
  · by_cases fits : substr.length ≤ src.length
    · exact strnstrLoop_returns substr pattern 0 (by omega)
    · rw [Int.toNat_eq_zero.mpr (by omega)]
      exact ⟨none, rfl⟩

theorem loginPackage_returns (data : List UInt8) : ∃ found, loginPackage data = .ok found := by
  by_cases short : data.length < telProxyLoginSize
  · exact ⟨none, by simp only [loginPackage, if_pos short]; rfl⟩
  · have nonempty : data ≠ [] := by
      rintro rfl
      exact short (by decide)
    obtain ⟨sync, found⟩ := strnstr_returns telproxySyn (by decide) nonempty
    simp only [loginPackage, if_neg short, found, bind, Except.bind]
    cases sync with
    | none => exact ⟨none, rfl⟩
    | some sync =>
      simp only
      split
      · split
        · exact ⟨none, rfl⟩
        · split
          · exact ⟨none, rfl⟩
          · exact ⟨_, rfl⟩
      · exact ⟨none, rfl⟩

theorem loginPackage_type (accepted : loginPackage data = .ok (some card)) :
    card.type = 1 ∨ card.type = 2 := by
  by_cases short : data.length < telProxyLoginSize
  · simp only [loginPackage, if_pos short] at accepted
    cases accepted
  · simp only [loginPackage, if_neg short, bind, Except.bind] at accepted
    split at accepted
    · contradiction
    · split at accepted
      · cases accepted
      · split at accepted
        · split at accepted
          · cases accepted
          · rename_i typed
            split at accepted
            · cases accepted
            · cases accepted
              by_contra neither
              rw [not_or] at neither
              exact typed neither
        · cases accepted

end RemoteServer
