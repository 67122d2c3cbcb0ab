import InterfaceDefinition.Number.Integral
import Mathlib.Data.Int.Bitwise

/-!
# Words as integers

A word of 64 bits stands for an integer, and every integer that fits is the integer of one word. The
operations on words are described here by what they do to those integers: bitwise operations act on
the two's complement representation, in which an integer has infinitely many bits
(`Number.testBit_toInt`), a shift to the right is a division rounded down, and a shift to the left
is a multiplication reduced to the words. A quotient is a word but for one pair of operands
(`Number.fits_tdiv_iff`).
-/

namespace InterfaceDefinition.Number

/-- The integers that are words of 64 bits. -/
def Fits (n : Int) : Prop :=
  -2 ^ 63 ≤ n ∧ n < 2 ^ 63

instance (n : Int) : Decidable (Fits n) :=
  inferInstanceAs (Decidable (_ ∧ _))

theorem fits_toInt (w : Int64) : Fits w.toInt :=
  ⟨w.le_toInt, w.toInt_lt⟩

theorem toInt_ofInt {n : Int} (h : Fits n) : (Int64.ofInt n).toInt = n :=
  Int64.toInt_ofInt_of_le h.1 h.2

/-- An integer that fits is a word. -/
theorem word?_of_fits {n : Int} (h : Fits n) : word? n = some (Int64.ofInt n) :=
  if_pos ⟨h.1, Int.le_of_lt_add_one h.2⟩

theorem word?_of_not_fits {n : Int} (h : ¬ Fits n) : word? n = none :=
  if_neg fun hbounds => h ⟨hbounds.1, Int.lt_add_one_of_le hbounds.2⟩

/-! ### Bits -/

/-- A word has its own bits, and behind them its sign. -/
theorem testBit_toInt {width : Nat} (x : BitVec width) (k : Nat) :
    x.toInt.testBit k = if k < width then x.getLsbD k else x.msb := by
  rw [BitVec.toInt_eq_msb_cond]
  cases hmsb : x.msb with
  | false =>
    have hbit : Int.testBit x.toNat k = x.getLsbD k := x.testBit_toNat
    rw [if_neg Bool.false_ne_true, hbit]
    split
    · rfl
    · next hk => exact x.getLsbD_of_ge k (Nat.le_of_not_lt hk)
  | true =>
    -- a negative integer has the bits that its complement has not
    have hlt : x.toNat < 2 ^ width := x.isLt
    have hneg : (x.toNat : Int) - (2 ^ width : Nat) = Int.negSucc (~~~x).toNat := by
      rw [BitVec.toNat_not, Int.negSucc_eq]
      omega
    have hbit : Int.testBit (Int.negSucc (~~~x).toNat) k = !(~~~x).getLsbD k :=
      congrArg not (~~~x).testBit_toNat
    rw [if_pos rfl, hneg, hbit, BitVec.getLsbD_not]
    split
    · next hk => simp [hk]
    · next hk => simp [hk]

/-- Integers with the same bits are the same. -/
theorem eq_of_testBit_eq {m n : Int} (h : ∀ k, m.testBit k = n.testBit k) : m = n := by
  have hmixed : ∀ a b : Nat, ¬ ∀ k, a.testBit k = !b.testBit k := by
    intro a b hbits
    -- no bit is set far enough on the left
    have hk := hbits (a + b)
    rw [Nat.testBit_eq_false_of_lt (Nat.lt_of_le_of_lt (Nat.le_add_right a b) Nat.lt_two_pow_self),
      Nat.testBit_eq_false_of_lt
        (Nat.lt_of_le_of_lt (Nat.le_add_left b a) Nat.lt_two_pow_self)] at hk
    cases hk
  cases m with
  | ofNat a =>
    cases n with
    | ofNat b => exact congrArg Int.ofNat (Nat.eq_of_testBit_eq h)
    | negSucc b => exact absurd h (hmixed a b)
  | negSucc a =>
    cases n with
    | ofNat b => exact absurd (fun k => (h k).symm) (hmixed b a)
    | negSucc b =>
      exact congrArg Int.negSucc (Nat.eq_of_testBit_eq fun k => Bool.not_inj (h k))

theorem toInt_and (x y : Int64) : (x &&& y).toInt = x.toInt.land y.toInt := by
  refine eq_of_testBit_eq fun k => ?_
  simp only [← Int64.toInt_toBitVec, Int64.toBitVec_and, Int.testBit_land, testBit_toInt]
  split <;> simp

theorem toInt_or (x y : Int64) : (x ||| y).toInt = x.toInt.lor y.toInt := by
  refine eq_of_testBit_eq fun k => ?_
  simp only [← Int64.toInt_toBitVec, Int64.toBitVec_or, Int.testBit_lor, testBit_toInt]
  split <;> simp

theorem toInt_xor (x y : Int64) : (x ^^^ y).toInt = x.toInt.xor y.toInt := by
  refine eq_of_testBit_eq fun k => ?_
  simp only [← Int64.toInt_toBitVec, Int64.toBitVec_xor, Int.testBit_lxor, testBit_toInt]
  split <;> simp

theorem toInt_not (x : Int64) : (~~~x).toInt = x.toInt.lnot := by
  refine eq_of_testBit_eq fun k => ?_
  simp only [← Int64.toInt_toBitVec, Int64.toBitVec_not, Int.testBit_lnot, testBit_toInt]
  split
  · next hk => simp [hk]
  · simp

/-! ### Shifts -/

section Shifts

variable {x s : Int64}

/-- An amount that is less than the width is what a word is shifted by. -/
theorem toNat_smod_width (h : 0 ≤ s.toInt ∧ s.toInt < 64) :
    (s.toBitVec.smod 64).toNat = s.toInt.toNat := by
  have hamount : (s.toBitVec.smod 64).toInt = s.toInt := by
    rw [BitVec.toInt_smod, Int64.toInt_toBitVec]
    exact Int.fmod_eq_of_lt h.1 h.2
  have hsign : (s.toBitVec.smod 64).msb = false := by
    rw [BitVec.msb_eq_toInt, hamount]
    simpa using h.1
  rw [← hamount, BitVec.toInt_eq_toNat_of_msb hsign, Int.toNat_natCast]

/-- A shift to the left multiplies, and drops what leaves the word. -/
theorem toInt_shiftLeft (h : 0 ≤ s.toInt ∧ s.toInt < 64) :
    (x <<< s).toInt = (x.toInt * 2 ^ s.toInt.toNat).bmod (2 ^ 64) := by
  rw [← Int64.toInt_toBitVec, Int64.toBitVec_shiftLeft, BitVec.shiftLeft_eq',
    toNat_smod_width h, BitVec.toInt_shiftLeft, Nat.shiftLeft_eq, ← Int64.toInt_toBitVec x,
    BitVec.toInt_eq_toNat_bmod x.toBitVec, Int.bmod_mul_bmod]
  norm_cast

/-- A shift to the right divides and rounds down. -/
theorem toInt_shiftRight (h : 0 ≤ s.toInt ∧ s.toInt < 64) :
    (x >>> s).toInt = x.toInt.fdiv (2 ^ s.toInt.toNat) := by
  have hpositive : (0 : Int) ≤ 2 ^ s.toInt.toNat := Int.pow_nonneg (by decide)
  rw [← Int64.toInt_toBitVec, Int64.toBitVec_shiftRight, BitVec.sshiftRight_eq',
    toNat_smod_width h, BitVec.toInt_sshiftRight, Int.shiftRight_eq_div_pow,
    Int.fdiv_eq_ediv_of_nonneg _ hpositive, Int64.toInt_toBitVec]
  norm_cast

end Shifts

/-! ### Quotients -/

/-- A quotient is a word, unless the least word is divided by minus one. -/
theorem fits_tdiv_iff (l r : Int64) :
    Fits (l.toInt.tdiv r.toInt) ↔ ¬ (l.toInt = -2 ^ 63 ∧ r.toInt = -1) := by
  have hl := fits_toInt l
  constructor
  · rintro hfits ⟨hleast, hminus⟩
    rw [hleast, hminus] at hfits
    exact absurd hfits (by decide)
  · intro hne
    have hle := Int.natAbs_tdiv_le_natAbs l.toInt r.toInt
    by_contra hfits
    rw [Fits] at hl hfits
    -- a quotient can only be one too great, and so large only if the divisor is one or minus one
    have hquotient : l.toInt.tdiv r.toInt = 2 ^ 63 := by omega
    have hleast : l.toInt = -2 ^ 63 := by omega
    have habs := Int.natAbs_tdiv l.toInt r.toInt
    rw [hquotient, hleast] at habs
    have hone : r.toInt.natAbs = 1 := (Nat.div_eq_self.mp habs.symm).resolve_left (by decide)
    rcases Int.natAbs_eq_iff.mp hone with hone | hminus
    · rw [hone, hleast] at hquotient
      exact absurd hquotient (by decide)
    · exact hne ⟨hleast, hminus⟩

end InterfaceDefinition.Number
