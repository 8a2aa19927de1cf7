import RvCores.Block.FloatArith
import RvCores.Lib.IntegerRounding

/-!
# Conversions between floats and integers

A float is rounded to an integer and then checked against the range of the destination.
An integer is normalised and rounded like every other result.
-/

namespace RvCores
namespace Block

open Lib F32

variable {K : Type} [Field K] [LinearOrder K] [IsStrictOrderedRing K]

def cvtSel (unsigned : Bool) : BitVec 5 := if unsigned then 0b00001 else 0b00000

theorem cvtSel_unsigned (unsigned : Bool) : decide (cvtSel unsigned = 0b00001) = unsigned := by
  cases unsigned <;> rfl

/-!
# What has to be returned
-/

def intMin (unsigned : Bool) : Int := if unsigned then 0 else -2 ^ 31

def intMax (unsigned : Bool) : Int := if unsigned then 2 ^ 32 - 1 else 2 ^ 31 - 1

def IntInRange (unsigned : Bool) (v : Int) : Prop := intMin unsigned <= v ∧ v <= intMax unsigned

instance (unsigned : Bool) (v : Int) : Decidable (IntInRange unsigned v) :=
  inferInstanceAs (Decidable (_ ∧ _))

/--
The integer at the end of the range a value lies beyond.
-/
def intSaturated (unsigned neg : Bool) : BitVec 32 :=
  BitVec.ofInt 32 (if neg then intMin unsigned else intMax unsigned)

theorem cvtSaturated_eq (neg unsigned : Bool) :
    cvtSaturated neg unsigned = intSaturated unsigned neg := by
  cases neg <;> cases unsigned <;> rfl

/--
The value is rounded to one integer, which is returned if it is in range.
-/
def DeliversInt (mode : RoundingMode) (unsigned : Bool) (x : K) (out : FpOut) : Prop :=
  exists v : Int, (forall u, RoundsToInt mode x u <-> u = v) ∧
    (IntInRange unsigned v ->
      out.result = BitVec.ofInt 32 v ∧ out.flags = { nx := decide (x ≠ v) }) ∧
    (¬ IntInRange unsigned v ->
      out.result = intSaturated unsigned (decide (x < 0)) ∧ out.flags = { nv := true })

/-!
# Cutting the magnitude
-/

def cvtExact (a : F32) : Bool := decide (expUnbiased a >= 23)

def cvtShifted (a : F32) : BitVec 27 := shiftRightSticky (mant a ++ 0#3) (23 - expUnbiased a)

def cvtTruncated (a : F32) : BitVec 64 :=
  if cvtExact a then (mant a).setWidth 64 <<< (expUnbiased a - 23).toNat
  else ((cvtShifted a).extractLsb 26 3).setWidth 64

def cvtBit (a : F32) (k : Nat) : Bool := !cvtExact a && (cvtShifted a).getLsbD k

/--
Rounding, range check and sign.
-/
def cvtDeliver (neg unsigned : Bool) (rm : BitVec 3) (truncated : BitVec 64)
    (guard roundBit sticky : Bool) : FpOut :=
  let magnitude :=
    if roundUp rm neg guard roundBit sticky (truncated.getLsbD 0) then truncated + 1
    else truncated
  let outOfRange :=
    if unsigned then (neg && decide (magnitude ≠ 0)) || decide (magnitude > 0xFFFFFFFF)
    else
      (!neg && decide (magnitude > 0x7FFFFFFF)) || (neg && decide (magnitude > 0x80000000))
  if outOfRange then { result := cvtSaturated neg unsigned, flags := { nv := true } }
  else
    { result := if neg then -(magnitude.setWidth 32) else magnitude.setWidth 32
      flags := { nx := guard || roundBit || sticky } }

section

variable {a : F32}

theorem cvtToInt_finite (ha : Normal a) (unsigned : Bool) (rm : BitVec 3) :
    cvtToInt a (cvtSel unsigned) rm =
      if expUnbiased a > 31 then
        { result := intSaturated unsigned a.sign, flags := { nv := true } }
      else
        cvtDeliver a.sign unsigned rm (cvtTruncated a) (cvtBit a 2) (cvtBit a 1) (cvtBit a 0) := by
  have hnan := isNan_of_finite ha.right
  have hzero : isZeroArith a = false := decide_eq_false ha.left
  have hinf := isInf_of_finite ha.right
  rw [← cvtSaturated_eq]
  unfold cvtToInt
  rw [cvtSel_unsigned, if_neg (Bool.eq_false_iff.mp hnan), if_neg (Bool.eq_false_iff.mp hzero),
    hinf, Bool.false_or]
  by_cases hbig : expUnbiased a > 31
  · rw [if_pos (decide_eq_true hbig), if_pos hbig]
  · rw [if_neg (Bool.eq_false_iff.mp (decide_eq_false hbig)), if_neg hbig]
    rfl

/--
The integer part of the magnitude, its half-way bit and the bits below.
-/
theorem cvtTruncated_spec (he : expUnbiased a <= 31) :
    Truncates (2 * (cvtTruncated a).toNat + (cvtBit a 2).toNat) (cvtBit a 1 || cvtBit a 0)
        (2 * (((mant a).toNat : K) * 2 ^ (expUnbiased a - 23))) ∧
      (cvtTruncated a).toNat < 2 ^ 32 := by
  have hlt := (mant a).isLt
  unfold cvtTruncated cvtBit
  cases hexact : cvtExact a with
  | true =>
      have hge : 23 <= expUnbiased a := of_decide_eq_true hexact
      obtain ⟨k, hk⟩ := Int.le.dest hge
      have hpow : (2 : Nat) ^ k <= 2 ^ 8 := Nat.pow_le_pow_right (by decide) (by omega)
      have hfit : (mant a).toNat * 2 ^ k < 2 ^ 32 := by
        calc (mant a).toNat * 2 ^ k < 2 ^ 24 * 2 ^ k :=
              Nat.mul_lt_mul_of_pos_right hlt (Nat.two_pow_pos k)
          _ <= 2 ^ 24 * 2 ^ 8 := Nat.mul_le_mul_left _ hpow
          _ = 2 ^ 32 := by norm_num
      have hshift : ((mant a).setWidth 64 <<< (expUnbiased a - 23).toNat).toNat
          = (mant a).toNat * 2 ^ k := by
        have hamount : (expUnbiased a - 23).toNat = k := by omega
        rw [hamount, BitVec.toNat_shiftLeft, Nat.shiftLeft_eq, BitVec.toNat_setWidth,
          Nat.mod_eq_of_lt (lt_trans hlt (by norm_num)), Nat.mod_eq_of_lt (by omega)]
      have hvalue : ((mant a).toNat : K) * 2 ^ (expUnbiased a - 23)
          = (((mant a).toNat * 2 ^ k : Nat) : K) := by
        rw [← hk, add_sub_cancel_left, zpow_natCast]
        push_cast
        rfl
      rw [if_pos rfl, hshift, hvalue]
      refine ⟨?_, hfit⟩
      have hcut := truncates_nat (K := K) (2 * ((mant a).toNat * 2 ^ k))
      push_cast at hcut ⊢
      exact hcut
  | false =>
      have hless : expUnbiased a < 23 := not_le.mp (of_decide_eq_false hexact)
      have hshifted : (cvtShifted a).toNat
          = stickyShift ((mant a).toNat * 8) (23 - expUnbiased a).toNat := by
        unfold cvtShifted
        rw [toNat_shiftRightSticky, toNat_padded]
      have hsticky := sticky_stickyShift (K := K) ((mant a).toNat * 8) (23 - expUnbiased a).toNat
      rw [← hshifted] at hsticky
      have hcut := hsticky.truncates (k := 2) (by decide)
      have hhigh := (cvtShifted a).isLt
      have hextract : (((cvtShifted a).extractLsb 26 3).setWidth 64).toNat
          = (cvtShifted a).toNat / 2 ^ 3 := by
        rw [BitVec.toNat_setWidth, toNat_extract _ hhigh (by decide)]
        apply Nat.mod_eq_of_lt
        omega
      have hrest : ((cvtShifted a).getLsbD 1 || (cvtShifted a).getLsbD 0)
          = decide ((cvtShifted a).toNat % 2 ^ 2 ≠ 0) := by
        rw [← bit_or_rest, BitVec.getLsbD, BitVec.getLsbD, Nat.testBit_zero]
        simp
      have hscale : ((((mant a).toNat * 8 : Nat) : K) / 2 ^ (23 - expUnbiased a).toNat) / 2 ^ 2
          = 2 * (((mant a).toNat : K) * 2 ^ (expUnbiased a - 23)) := by
        have hexp : expUnbiased a - 23 = -((23 - expUnbiased a).toNat : Int) := by omega
        rw [hexp, zpow_neg, zpow_natCast]
        push_cast
        field_simp
        norm_num
      simp only [Bool.false_eq_true, if_false, Bool.not_false, Bool.true_and]
      rw [hextract, hrest, BitVec.getLsbD, two_mul_div_add_bit, ← hscale]
      refine ⟨hcut, ?_⟩
      omega

end

/-!
# The range check
-/

theorem applySign_lt_zero {neg : Bool} {y : K} (hy : 0 < y) :
    decide (applySign neg y < 0) = neg := by
  cases neg with
  | false => exact decide_eq_false (not_lt.mpr hy.le)
  | true => exact decide_eq_true (neg_lt_zero.mpr hy)

theorem outOfRange_iff {magnitude : BitVec 64} {neg unsigned : Bool} :
    (if unsigned then (neg && decide (magnitude ≠ 0)) || decide (magnitude > 0xFFFFFFFF)
      else (!neg && decide (magnitude > 0x7FFFFFFF)) ||
        (neg && decide (magnitude > 0x80000000))) = true <->
      ¬ IntInRange unsigned (signedInt neg magnitude.toNat) := by
  have hne : magnitude ≠ 0 <-> magnitude.toNat ≠ 0 := not_congr BitVec.toNat_inj.symm
  have hint : magnitude > 0x7FFFFFFF <-> 2 ^ 31 - 1 < magnitude.toNat := Iff.rfl
  have hintMin : magnitude > 0x80000000 <-> 2 ^ 31 < magnitude.toNat := Iff.rfl
  have hword : magnitude > 0xFFFFFFFF <-> 2 ^ 32 - 1 < magnitude.toNat := Iff.rfl
  unfold IntInRange intMin intMax signedInt
  cases neg <;> cases unsigned <;>
    simp only [Bool.false_eq_true, if_false, if_true, Bool.false_and, Bool.true_and,
      Bool.not_false, Bool.not_true, Bool.false_or, Bool.or_false, Bool.or_eq_true,
      decide_eq_true_eq, hint, hintMin, hword, hne] <;>
    omega

theorem signedInt_bits {magnitude : BitVec 64} {neg : Bool} :
    (if neg then -(magnitude.setWidth 32) else magnitude.setWidth 32)
      = BitVec.ofInt 32 (signedInt neg magnitude.toNat) := by
  cases neg with
  | false =>
      rw [signedInt, if_neg Bool.false_ne_true, if_neg Bool.false_ne_true, BitVec.ofInt_natCast,
        BitVec.ofNat_toNat]
  | true =>
      rw [signedInt, if_pos rfl, if_pos rfl, BitVec.ofInt_neg, BitVec.ofInt_natCast,
        BitVec.ofNat_toNat]

theorem cvtDeliver_spec {mode : RoundingMode} {neg unsigned guard roundBit sticky : Bool}
    {truncated : BitVec 64} {y : K} (hy : 0 < y)
    (h : Truncates (2 * truncated.toNat + guard.toNat) (roundBit || sticky) (2 * y))
    (hlt : truncated.toNat < 2 ^ 32) :
    DeliversInt mode unsigned (applySign neg y)
      (cvtDeliver neg unsigned (modeBits mode) truncated guard roundBit sticky) := by
  have hodd : truncated.getLsbD 0 = decide (truncated.toNat % 2 = 1) := by
    rw [BitVec.getLsbD, Nat.testBit_zero]
  have hmagnitude : (if roundUp (modeBits mode) neg guard roundBit sticky (truncated.getLsbD 0)
        then truncated + 1 else truncated).toNat
      = truncated.toNat + (roundsAway mode neg guard (roundBit || sticky)
          (decide (truncated.toNat % 2 = 1))).toNat := by
    rw [roundUp_modeBits, hodd]
    cases roundsAway mode neg guard (roundBit || sticky) (decide (truncated.toNat % 2 = 1)) with
    | false => rfl
    | true =>
        rw [if_pos rfl, BitVec.toNat_add]
        simp
        omega
  have hinexact : (guard || roundBit || sticky)
      = decide (applySign neg y ≠ ((signedInt neg (truncated.toNat + (roundsAway mode neg guard
          (roundBit || sticky) (decide (truncated.toNat % 2 = 1))).toNat) : Int) : K)) := by
    rw [Bool.or_assoc, Bool.eq_iff_iff, decide_eq_true_eq, ne_eq, h.signedInt_exact_iff mode neg,
      Bool.not_eq_false]
  refine ⟨_, fun u => h.roundsToInt_signed_iff mode neg, ?_⟩
  rw [applySign_lt_zero hy, ← hinexact, ← hmagnitude, ← signedInt_bits, ← cvtSaturated_eq]
  unfold cvtDeliver
  generalize (if roundUp (modeBits mode) neg guard roundBit sticky (truncated.getLsbD 0)
    then truncated + 1 else truncated) = magnitude
  have hrange := @outOfRange_iff magnitude neg unsigned
  constructor
  · intro hin
    have hfits := mt hrange.mp (not_not.mpr hin)
    rw [if_neg hfits]
    exact ⟨rfl, rfl⟩
  · intro hout
    rw [if_pos (hrange.mpr hout)]
    exact ⟨rfl, rfl⟩

/-!
# Floats to integers
-/

theorem magnitude_pos (a : F32) : (0 : K) < (mant a).toNat * 2 ^ (expUnbiased a - 23) := by
  have hmant : (0 : K) < (mant a).toNat := Nat.cast_pos.mpr (by have hlow := mant_low a; omega)
  exact mul_pos hmant (zpow_pos two_pos _)

theorem not_inRange_of_large {neg unsigned : Bool} {m : Nat} (hm : 2 ^ 32 <= m) :
    ¬ IntInRange unsigned (signedInt neg m) := by
  unfold IntInRange intMin intMax signedInt
  cases neg <;> cases unsigned <;>
    simp only [Bool.false_eq_true, if_false, if_true] <;> omega

/--
Every finite operand is rounded to an integer.
-/
theorem cvtToInt_rounded {a : F32} (ha : Finite a) (mode : RoundingMode) (unsigned : Bool) :
    DeliversInt mode unsigned (value K a) (cvtToInt a (cvtSel unsigned) (modeBits mode)) := by
  by_cases hexp : F32.exp a = 0
  · have hzero : isZeroArith a = true := decide_eq_true hexp
    have hresult : cvtToInt a (cvtSel unsigned) (modeBits mode) = { result := 0 } := by
      unfold cvtToInt
      rw [if_neg (Bool.eq_false_iff.mp (isNan_of_finite ha)), if_pos hzero]
    rw [value_of_zero hexp, hresult]
    refine ⟨0, ?_, ?_, ?_⟩
    · intro u
      rw [← Int.cast_zero]
      exact roundsToInt_cast_iff
    · intro _
      refine ⟨rfl, ?_⟩
      simp
    · intro hout
      exact absurd (by cases unsigned <;> decide) hout
  · have hnormal : Normal a := ⟨hexp, ha⟩
    have hpos := magnitude_pos (K := K) a
    rw [cvtToInt_finite hnormal, value_of_nonzero hexp]
    by_cases hbig : expUnbiased a > 31
    · -- far outside of the range, and an integer
      obtain ⟨k, hk⟩ := Int.le.dest (show 32 <= expUnbiased a from hbig)
      have hvalue : ((mant a).toNat : K) * 2 ^ (expUnbiased a - 23)
          = (((mant a).toNat * 2 ^ (k + 9) : Nat) : K) := by
        have hexponent : expUnbiased a - 23 = ((k + 9 : Nat) : Int) := by omega
        rw [hexponent, zpow_natCast]
        push_cast
        rfl
      have hlarge : 2 ^ 32 <= (mant a).toNat * 2 ^ (k + 9) := by
        calc 2 ^ 32 = 2 ^ 23 * 2 ^ 9 := by norm_num
          _ <= (mant a).toNat * 2 ^ (k + 9) :=
            Nat.mul_le_mul (mant_low a) (Nat.pow_le_pow_right (by decide) (by omega))
      rw [if_pos hbig]
      refine ⟨signedInt a.sign ((mant a).toNat * 2 ^ (k + 9)), ?_, ?_, ?_⟩
      · intro u
        rw [hvalue, ← cast_signedInt]
        exact roundsToInt_cast_iff
      · intro hin
        exact absurd hin (not_inRange_of_large hlarge)
      · intro _
        rw [applySign_lt_zero hpos]
        exact ⟨rfl, rfl⟩
    · rw [if_neg hbig]
      obtain ⟨hcut, hlt⟩ := cvtTruncated_spec (K := K) (a := a) (not_lt.mp hbig)
      exact cvtDeliver_spec hpos hcut hlt

/--
What has no value is saturated: towards its sign if it is an infinity.
-/
theorem cvtToInt_special {a : F32} (ha : ¬ Finite a) (unsigned : Bool) (rm : BitVec 3) :
    cvtToInt a (cvtSel unsigned) rm =
      { result := intSaturated unsigned (isInf a && a.sign), flags := { nv := true } } := by
  have hexp : F32.exp a = 0xFF := not_not.mp ha
  have hzero : isZeroArith a = false := by
    unfold isZeroArith
    rw [hexp]
    rfl
  unfold cvtToInt
  rw [cvtSel_unsigned]
  by_cases hfrac : frac a = 0
  · have hnan : isNan a = false := by simp [isNan, hfrac]
    have hinf : isInf a = true := by simp [isInf, hexp, hfrac]
    rw [if_neg (Bool.eq_false_iff.mp hnan), if_neg (Bool.eq_false_iff.mp hzero), hinf,
      Bool.true_or, if_pos rfl, Bool.true_and, cvtSaturated_eq]
  · have hnan : isNan a = true := by
      rw [isNan, decide_eq_true hexp, decide_eq_true hfrac]
      rfl
    have hinf : isInf a = false := by rw [isInf, decide_eq_false hfrac, Bool.and_false]
    rw [if_pos hnan, hinf, Bool.false_and]
    cases unsigned <;> rfl

/-!
# Integers to floats
-/

def intValue (unsigned : Bool) (a : BitVec 32) : Int :=
  if unsigned then a.toNat else a.toInt

/--
The integer is rounded to 24 significant bits; nothing overflows or underflows.
-/
structure DeliversFloat (mode : RoundingMode) (x : Int) (out : FpOut) : Prop where
  rounding : forall u : Rat, RoundsTo 24 mode (x : Rat) u <-> u = value Rat out.result
  zero : x = 0 -> out.result = 0
  normal : x ≠ 0 -> Normal out.result
  flags : out.flags = { nx := decide (value Rat out.result ≠ x) }

section

variable {a : BitVec 32}

def cvtNegative (unsigned : Bool) (a : BitVec 32) : Bool := !unsigned && a.getLsbD 31

def cvtMagnitude (unsigned : Bool) (a : BitVec 32) : BitVec 32 :=
  if cvtNegative unsigned a then -a else a

theorem intValue_eq (ha : a ≠ 0) (unsigned : Bool) :
    intValue unsigned a = signedInt (cvtNegative unsigned a) (cvtMagnitude unsigned a).toNat := by
  have hlt := a.isLt
  have hne : a.toNat ≠ 0 := fun h => ha (BitVec.eq_of_toNat_eq h)
  have hbit : a.getLsbD 31 = decide (2 ^ 31 <= a.toNat) :=
    (BitVec.msb_eq_getLsbD_last a).symm.trans (BitVec.msb_eq_decide a)
  unfold intValue cvtMagnitude cvtNegative signedInt
  cases unsigned with
  | true => rfl
  | false =>
      rw [BitVec.toInt_eq_toNat_cond, hbit]
      by_cases hneg : 2 ^ 31 <= a.toNat
      · simp only [hneg, decide_true, Bool.not_false, Bool.and_self, if_true, BitVec.toNat_neg,
          Bool.false_eq_true, if_false]
        omega
      · simp only [hneg, decide_false, Bool.and_false, Bool.false_eq_true, if_false]
        omega

theorem cvtMagnitude_pos (ha : a ≠ 0) (unsigned : Bool) : 0 < (cvtMagnitude unsigned a).toNat := by
  have hne : a.toNat ≠ 0 := fun h => ha (BitVec.eq_of_toNat_eq h)
  have hlt := a.isLt
  unfold cvtMagnitude
  split
  · rw [BitVec.toNat_neg]
    omega
  · omega

theorem intValue_ne_zero (ha : a ≠ 0) (unsigned : Bool) : intValue unsigned a ≠ 0 := by
  have hpos := cvtMagnitude_pos ha unsigned
  rw [intValue_eq ha, signedInt]
  split <;> omega

/--
The magnitude is brought to the top of its register, rounded and packed.
-/
theorem cvtFromInt_packed (ha : a ≠ 0) (mode : RoundingMode) (unsigned : Bool) :
    Rounded mode ((intValue unsigned a : Int) : K)
      (cvtFromInt a (cvtSel unsigned) (modeBits mode)) := by
  have hpos := cvtMagnitude_pos ha unsigned
  obtain ⟨hvalue, hlow, hhigh⟩ := normalize_spec (show 31 < 32 by decide) 31
    (cvtMagnitude unsigned a) hpos (cvtMagnitude unsigned a).isLt
  have hunfold : cvtFromInt a (cvtSel unsigned) (modeBits mode) =
      (roundAndPack (cvtNegative unsigned a)
        (31 - (normalize 31 31 (cvtMagnitude unsigned a)).2)
        (0#1 ++ ((normalize 31 31 (cvtMagnitude unsigned a)).1.extractLsb 31 8 : BitVec 24))
        ((normalize 31 31 (cvtMagnitude unsigned a)).1.getLsbD 7)
        ((normalize 31 31 (cvtMagnitude unsigned a)).1.getLsbD 6)
        (decide (((normalize 31 31 (cvtMagnitude unsigned a)).1.extractLsb 5 0 : BitVec 6) ≠ 0))
        (modeBits mode)).out := by
    unfold cvtFromInt
    rw [if_neg ha, cvtSel_unsigned]
    rfl
  rw [hunfold, intValue_eq ha, cast_signedInt]
  generalize normalize 31 31 (cvtMagnitude unsigned a) = norm at hvalue hlow hhigh ⊢
  have hscale : ((cvtMagnitude unsigned a).toNat : K)
      = (norm.1.toNat : K) / 2 ^ 7 * 2 ^ ((31 - (norm.2 : Int)) - 24) := by
    rw [div_pow_mul_zpow (norm.1.toNat : K) (k := 7) (e := -(norm.2 : Int)) (by omega), hvalue,
      zpow_neg, zpow_natCast]
    push_cast
    field_simp
  rw [hscale]
  refine roundAndPack_cut (n := norm.1.toNat) (k := 7) hlow ?_ rfl ?_
    ((truncates_nat _).shift 7)
  · rw [toNat_append_add, toNat_extract _ hhigh (by decide)]
    simp
  · rw [extract_low_ne_zero]
    exact bit_or_rest _ _

theorem cvtFromInt_rounded (a : BitVec 32) (mode : RoundingMode) (unsigned : Bool) :
    DeliversFloat mode (intValue unsigned a)
      (cvtFromInt a (cvtSel unsigned) (modeBits mode)) := by
  by_cases ha : a = 0
  · have hresult : cvtFromInt a (cvtSel unsigned) (modeBits mode) = { result := 0 } := by
      unfold cvtFromInt
      rw [if_pos ha]
    have hvalue : intValue unsigned a = 0 := by
      rw [ha]
      cases unsigned <;> rfl
    have hnone : value Rat (0 : F32) = 0 := value_of_zero rfl
    rw [hresult, hvalue]
    refine ⟨?_, fun _ => rfl, fun hne => absurd rfl hne, ?_⟩
    · intro u
      have hrep : Representable 24 ((0 : Int) : Rat) := ⟨0, 0, by norm_num, by norm_num⟩
      rw [hrep.roundsTo_iff mode, hnone, Int.cast_zero]
    · rw [hnone]
      simp
  · have hne := intValue_ne_zero ha unsigned
    have habs : (1 : Rat) <= |((intValue unsigned a : Int) : Rat)| := by
      rw [← Int.cast_abs]
      exact_mod_cast Int.one_le_abs hne
    have hlarge : |((intValue unsigned a : Int) : Rat)| <= 2 ^ (32 : Int) := by
      have hlt := (cvtMagnitude unsigned a).isLt
      rw [intValue_eq ha, cast_signedInt, abs_applySign, Nat.abs_cast]
      exact_mod_cast hlt.le
    rw [← zpow_zero (2 : Rat)] at habs
    obtain ⟨hnormal, hrounds, hnx, hflags⟩ :=
      (cvtFromInt_packed (K := Rat) ha mode unsigned).normal habs hlarge (by decide) (by decide)
    refine ⟨hrounds, fun hzero => absurd hzero hne, fun _ => hnormal, ?_⟩
    have hinexact : (cvtFromInt a (cvtSel unsigned) (modeBits mode)).flags.nx
        = decide (value Rat (cvtFromInt a (cvtSel unsigned) (modeBits mode)).result
            ≠ (intValue unsigned a : Int)) := by
      rw [Bool.eq_iff_iff, hnx, decide_eq_true_eq, not_iff_not]
      have hself := (hrounds _).mpr rfl
      constructor
      · intro hrep
        exact (hrep.roundsTo_iff mode).mp hself
      · intro heq
        rw [← heq]
        exact hself.representable
    rw [← hinexact]
    exact hflags

end

/-!
# There and back
-/

omit [LinearOrder K] [IsStrictOrderedRing K] in
theorem representable_small {x : Int} (h : |x| <= 2 ^ 24) : Representable 24 ((x : Int) : K) := by
  rcases lt_or_eq_of_le h with hlt | heq
  · exact ⟨x, 0, hlt, by rw [zpow_zero, mul_one]⟩
  · rcases (abs_eq (by positivity)).mp heq with hpos | hneg
    · refine ⟨1, 24, by norm_num, ?_⟩
      rw [hpos]
      push_cast
      norm_num
    · refine ⟨-1, 24, by norm_num, ?_⟩
      rw [hneg]
      push_cast
      norm_num

theorem finite_of_deliversFloat {mode : RoundingMode} {x : Int} {out : FpOut}
    (h : DeliversFloat mode x out) : F32.Finite out.result := by
  by_cases hx : x = 0
  · rw [h.zero hx]
    unfold F32.Finite
    decide
  · exact (h.normal hx).right

theorem inRange_intValue (unsigned : Bool) (a : BitVec 32) :
    IntInRange unsigned (intValue unsigned a) := by
  have hlt := a.isLt
  unfold IntInRange intMin intMax intValue
  cases unsigned with
  | true =>
      simp only [if_true]
      omega
  | false =>
      simp only [Bool.false_eq_true, if_false]
      have hfrom := BitVec.le_toInt a
      have hto := BitVec.toInt_lt (x := a)
      omega

theorem ofInt_intValue (unsigned : Bool) (a : BitVec 32) :
    BitVec.ofInt 32 (intValue unsigned a) = a := by
  cases unsigned with
  | true =>
      show BitVec.ofInt 32 (a.toNat : Int) = a
      rw [BitVec.ofInt_natCast, BitVec.ofNat_toNat, BitVec.setWidth_eq]
  | false => exact BitVec.ofInt_toInt

theorem cvt_roundtrip {mode mode' : RoundingMode} {unsigned : Bool} {a : BitVec 32}
    {out out' : FpOut} (hsmall : |intValue unsigned a| <= 2 ^ 24)
    (hfloat : DeliversFloat mode (intValue unsigned a) out)
    (hint : DeliversInt mode' unsigned (value Rat out.result) out') : out'.result = a := by
  have hexact : value Rat out.result = (intValue unsigned a : Int) :=
    ((representable_small hsmall).roundsTo_iff mode).mp ((hfloat.rounding _).mpr rfl)
  obtain ⟨v, hrounds, hdelivers, -⟩ := hint
  rw [hexact] at hrounds
  have hv : v = intValue unsigned a := roundsToInt_cast_iff.mp ((hrounds v).mpr rfl)
  rw [hv] at hdelivers
  rw [(hdelivers (inRange_intValue unsigned a)).left, ofInt_intValue]

/-!
# The combinational unit
-/

def funct5FcvtWS : BitVec 5 := 0b11000

/--
Conversions to an integer round once and saturate; conversions from an integer round once;
small integers come back unchanged.
-/
theorem falu_converts (mode : RoundingMode) (unsigned : Bool) (a b : F32) :
    (Finite a -> DeliversInt mode unsigned (value Rat a)
      (falu funct5FcvtWS (modeBits mode) (cvtSel unsigned) a b)) ∧
    (¬ Finite a -> falu funct5FcvtWS (modeBits mode) (cvtSel unsigned) a b =
      { result := intSaturated unsigned (isInf a && a.sign), flags := { nv := true } }) ∧
    DeliversFloat mode (intValue unsigned a)
      (falu funct5FcvtSW (modeBits mode) (cvtSel unsigned) a b) ∧
    (|intValue unsigned a| <= 2 ^ 24 -> forall (mode' : RoundingMode) (b' : F32),
      (falu funct5FcvtWS (modeBits mode') (cvtSel unsigned)
        (falu funct5FcvtSW (modeBits mode) (cvtSel unsigned) a b).result b').result = a) := by
  have hfloat : DeliversFloat mode (intValue unsigned a)
      (falu funct5FcvtSW (modeBits mode) (cvtSel unsigned) a b) :=
    cvtFromInt_rounded a mode unsigned
  refine ⟨fun ha => cvtToInt_rounded ha mode unsigned,
    fun ha => cvtToInt_special ha unsigned (modeBits mode), hfloat, ?_⟩
  intro hsmall mode' b'
  exact cvt_roundtrip hsmall hfloat
    (cvtToInt_rounded (finite_of_deliversFloat hfloat) mode' unsigned)

/--
Minus one half is rounded to zero, which is in the range of an unsigned destination.
-/
theorem falu_converts_minus_half :
    DeliversInt .nearestEven true (value Rat 0xBF000000#32)
      (falu funct5FcvtWS rmRne (cvtSel true) 0xBF000000#32 0) :=
  (falu_converts .nearestEven true 0xBF000000#32 0).left (by unfold F32.Finite; decide)

end Block
end RvCores
