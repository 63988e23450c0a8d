import Mathlib.Algebra.Group.Nat.Defs
import Mathlib.Data.List.Induction
import Mathlib.Data.List.TakeWhile

/-! Fixed-size char arrays and the C strings they hold. A string is the run of
bytes before the first NUL, or the whole array when there is none. -/
namespace Bytes

abbrev CharArray (n : Nat) := { bytes : List UInt8 // bytes.length = n }

def cstr (bytes : List UInt8) : List UInt8 := bytes.takeWhile (· ≠ 0)

/-- Copies at most `n` bytes of the string and pads the rest with NUL bytes. -/
def strncpy (n : Nat) (src : List UInt8) : CharArray n :=
  ⟨(cstr src).take n ++ List.replicate (n - (cstr src).length) 0, by
    simp only [List.length_append, List.length_take, List.length_replicate]
    omega⟩

/-- Bytewise comparison that stops at the first difference, at a NUL, or at the
end of both arrays. -/
def compare : List UInt8 → List UInt8 → Int
  | a :: as, b :: bs =>
    if a ≠ b then (a.toNat : Int) - b.toNat
    else if a = 0 then 0
    else compare as bs
  | _, _ => 0

def strncmp (a b : CharArray n) : Int := compare a.val b.val

theorem toNat_sub_ne_zero {a b : UInt8} (h : a ≠ b) : (a.toNat : Int) - b.toNat ≠ 0 := by
  intro zero
  exact h (UInt8.toNat.inj (by omega))

theorem compare_eq_zero_iff (same : as.length = bs.length) :
    compare as bs = 0 ↔ cstr as = cstr bs := by
  induction as generalizing bs with
  | nil =>
    obtain rfl := List.length_eq_zero_iff.mp same.symm
    simp [compare]
  | cons a as ih =>
    cases bs with
    | nil => simp at same
    | cons b bs =>
      have tails : as.length = bs.length := by simpa using same
      simp only [compare]
      by_cases equal : a = b
      · subst b
        by_cases nul : a = 0
        · simp [nul, cstr]
        · simp [nul, cstr, ih tails]
      · have differ : cstr (a :: as) ≠ cstr (b :: bs) := by
          intro h
          by_cases za : a = 0 <;> by_cases zb : b = 0 <;> simp_all [cstr]
        simp [equal, differ, toNat_sub_ne_zero equal]

/-- `strncmp` decides whether two arrays of one size hold the same string. -/
theorem strncmp_eq_zero_iff (a b : CharArray n) :
    strncmp a b = 0 ↔ cstr a.val = cstr b.val :=
  compare_eq_zero_iff (a.property.trans b.property.symm)

theorem cstr_nul_free (bytes : List UInt8) : ∀ byte ∈ cstr bytes, byte ≠ 0 := by
  intro byte member
  simpa using List.mem_takeWhile_imp member

theorem cstr_append_nul (bytes : List UInt8) (free : ∀ byte ∈ bytes, byte ≠ 0) (tail : List UInt8) :
    cstr (bytes ++ 0 :: tail) = bytes := by
  rw [cstr, List.takeWhile_append_of_pos (by simpa using free)]
  simp

theorem cstr_of_nul_free (bytes : List UInt8) (free : ∀ byte ∈ bytes, byte ≠ 0) :
    cstr bytes = bytes := by
  rw [cstr, List.takeWhile_eq_self_iff]
  simpa using free

/-- A copy that has room for the string denotes the same string. -/
theorem cstr_strncpy (src : List UInt8) (fits : (cstr src).length ≤ n) :
    cstr (strncpy n src).val = cstr src := by
  simp only [strncpy, List.take_of_length_le fits]
  cases room : n - (cstr src).length with
  | zero => simpa using cstr_of_nul_free _ (cstr_nul_free src)
  | succ k => exact cstr_append_nul _ (cstr_nul_free src) _

/-- A terminator in the last byte cuts the string there at the latest. -/
theorem cstr_set_last (bytes : List UInt8) (size : bytes.length = n + 1) :
    cstr (bytes.set n 0) = (cstr bytes).take n := by
  induction bytes generalizing n with
  | nil => contradiction
  | cons byte rest ih =>
    cases n with
    | zero => simp [cstr]
    | succ n =>
      have tail := ih (show rest.length = n + 1 by simpa using size)
      by_cases nul : byte = 0
      · simp [cstr, nul]
      · simp only [cstr, List.set_cons_succ, ne_eq, nul, not_false_eq_true, decide_true,
          List.takeWhile_cons_of_pos, List.take_succ_cons] at tail ⊢
        rw [tail]

/-- The value of the bytes as the digits of a number, most significant first. -/
def bigEndian (bytes : List UInt8) : Nat := bytes.foldl (fun value byte => value * 256 + byte.toNat) 0

theorem bigEndian_lt (bytes : List UInt8) : bigEndian bytes < 256 ^ bytes.length := by
  induction bytes using List.reverseRecOn with
  | nil => decide
  | append_singleton bytes byte ih =>
    have digit := byte.toNat_lt
    simp only [bigEndian, List.foldl_append, List.foldl_cons, List.foldl_nil, List.length_append,
      List.length_singleton, Nat.pow_succ] at ih ⊢
    omega

end Bytes
