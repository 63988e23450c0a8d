import Mathlib.Algebra.Group.Int.Defs
import Mathlib.Algebra.Group.Nat.Defs
import Mathlib.Data.List.TakeWhile

/-! `atoi`, and the decimal numerals it reads back. A `long` has 64 bits and an
`int` 32; a numeral out of the range of `long` is clamped to it and what does not
fit in an `int` is cut off. -/
namespace Decimal

/-- `isspace` in the C locale. -/
def isSpace (b : UInt8) : Bool := b = 32 || 9 ≤ b && b ≤ 13

def isDigit (b : UInt8) : Bool := 48 ≤ b && b ≤ 57

def push (n : Nat) (b : UInt8) : Nat := 10 * n + (b.toNat - 48)

def magnitude (s : List UInt8) : Nat := (s.takeWhile isDigit).foldl push 0

/-- The number after the white space. -/
def signed : List UInt8 → Int
  | [] => 0
  | b :: s => if b = 45 then -magnitude s else if b = 43 then magnitude s else magnitude (b :: s)

def strtol (s : List UInt8) : Int := max (-2 ^ 63) (min (2 ^ 63 - 1) (signed (s.dropWhile isSpace)))

def atoi (s : List UInt8) : Int := (strtol s).bmod (2 ^ 32)

/-- A row of decimal digits, at least one, and its value. -/
inductive Digits : List UInt8 → Nat → Prop where
  | single (d : Fin 10) : Digits [48 + UInt8.ofNat d] d
  | snoc {s : List UInt8} {n : Nat} (d : Fin 10) : Digits s n →
      Digits (s ++ [48 + UInt8.ofNat d]) (10 * n + d)

/-- Digits with or without a sign. -/
inductive Numeral : List UInt8 → Int → Prop where
  | plain {s : List UInt8} {n : Nat} : Digits s n → Numeral s n
  | plus {s : List UInt8} {n : Nat} : Digits s n → Numeral (43 :: s) n
  | minus {s : List UInt8} {n : Nat} : Digits s n → Numeral (45 :: s) (-n)

theorem isDigit_digit (d : Fin 10) : isDigit (48 + UInt8.ofNat d) = true := by
  revert d
  decide

theorem push_digit (n : Nat) (d : Fin 10) : push n (48 + UInt8.ofNat d) = 10 * n + d := by
  have value : ∀ d : Fin 10, (48 + UInt8.ofNat d).toNat - 48 = d := by decide
  rw [push, value]

theorem not_isSpace {b : UInt8} (digit : isDigit b = true) : isSpace b = false := by
  simp only [isDigit, isSpace, Bool.and_eq_true, decide_eq_true_eq, Bool.or_eq_false_iff,
    UInt8.le_iff_toNat_le, decide_eq_false_iff_not, Bool.and_eq_false_iff, ← UInt8.toNat_inj] at digit ⊢
  simp at digit ⊢
  omega

namespace Digits
variable {s : List UInt8} {n : Nat}

theorem digit (digits : Digits s n) : ∀ b ∈ s, isDigit b = true := by
  induction digits with
  | single d =>
    intro b member
    rw [List.mem_singleton.mp member]
    exact isDigit_digit d
  | snoc d _ ih =>
    intro b member
    rcases List.mem_append.mp member with earlier | last
    · exact ih b earlier
    · rw [List.mem_singleton.mp last]
      exact isDigit_digit d

theorem fold (digits : Digits s n) : s.foldl push 0 = n := by
  induction digits with
  | single d => exact push_digit 0 d |>.trans (by omega)
  | snoc d _ ih => rw [List.foldl_append, ih, List.foldl_cons, List.foldl_nil, push_digit]

theorem magnitude (digits : Digits s n) : magnitude s = n := by
  rw [Decimal.magnitude, List.takeWhile_eq_self_iff.mpr digits.digit, digits.fold]

theorem nonempty (digits : Digits s n) : s ≠ [] := by
  cases digits with
  | single d => exact List.cons_ne_nil _ _
  | snoc d _ => exact List.append_ne_nil_of_right_ne_nil _ (List.cons_ne_nil _ _)

/-- It begins with a digit, so with neither white space nor a sign. -/
theorem head (digits : Digits s n) : ∃ b rest, s = b :: rest ∧ isSpace b = false ∧ b ≠ 45 ∧ b ≠ 43 := by
  obtain ⟨b, rest, rfl⟩ := List.exists_cons_of_ne_nil digits.nonempty
  have first := digits.digit b (List.mem_cons_self ..)
  refine ⟨b, rest, rfl, not_isSpace first, ?_, ?_⟩
  · rintro rfl
    contradiction
  · rintro rfl
    contradiction

end Digits

namespace Numeral
variable {s : List UInt8} {n : Int}

theorem signed (numeral : Numeral s n) : signed s = n := by
  cases numeral with
  | plain digits =>
    have value := digits.magnitude
    obtain ⟨b, rest, rfl, _, minus, plus⟩ := digits.head
    rw [Decimal.signed, if_neg minus, if_neg plus, value]
  | plus digits => rw [Decimal.signed, if_neg (by decide), if_pos rfl, digits.magnitude]
  | minus digits => rw [Decimal.signed, if_pos rfl, digits.magnitude]

theorem unspaced (numeral : Numeral s n) : s.dropWhile isSpace = s := by
  cases numeral with
  | plain digits =>
    obtain ⟨b, rest, rfl, space, _⟩ := digits.head
    exact List.dropWhile_cons_of_neg (by simp [space])
  | plus => rfl
  | minus => rfl

theorem nul_free (numeral : Numeral s n) : ∀ b ∈ s, b ≠ 0 := by
  have digit {s : List UInt8} {n : Nat} (digits : Digits s n) : ∀ b ∈ s, b ≠ 0 := by
    rintro b member rfl
    have := digits.digit 0 member
    contradiction
  cases numeral with
  | plain digits => exact digit digits
  | plus digits => exact List.forall_mem_cons.mpr ⟨by decide, digit digits⟩
  | minus digits => exact List.forall_mem_cons.mpr ⟨by decide, digit digits⟩

/-- `atoi` reads back a numeral that fits in an `int`. -/
theorem atoi (numeral : Numeral s n) (least : -2 ^ 31 ≤ n) (greatest : n < 2 ^ 31) : atoi s = n := by
  have unclamped : strtol s = n := by
    rw [strtol, numeral.unspaced, numeral.signed]
    omega
  rw [Decimal.atoi, unclamped]
  exact Int.bmod_eq_of_le (by omega) (by omega)

end Numeral
end Decimal
