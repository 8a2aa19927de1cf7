import RvCores.Block.FloatArith

/-!
# Fused multiply-add

The unrounded product and the addend are aligned in a frame of 112 bits, whichever has
the larger exponent in place, and rounded once.
-/

namespace RvCores
namespace Block

open Lib F32

variable {K : Type} [Field K] [LinearOrder K] [IsStrictOrderedRing K]

def wideShiftRightSticky (sig : BitVec 112) (amt : Int) : BitVec 112 :=
  shiftRightStickyIn sig amt

/-!
# The unit
-/

namespace FMadd

def product (a b : F32) : BitVec 48 := (mant a).setWidth 48 * (mant b).setWidth 48

def prodNorm (a b : F32) : BitVec 48 :=
  if (product a b).getLsbD 47 then product a b else product a b <<< 1

def prodLeadExp (a b : F32) : Int :=
  if (product a b).getLsbD 47 then expUnbiased a + expUnbiased b + 1
  else expUnbiased a + expUnbiased b

def cIsBig (a b c : F32) : Bool :=
  decide (expUnbiased c > prodLeadExp a b) ||
    (decide (expUnbiased c = prodLeadExp a b) &&
      decide ((mant c ++ 0#24 : BitVec 48) > prodNorm a b))

/--
The addition in the frame and the rounding of its result.
-/
def addInFrame (sign sub : Bool) (bigExp : Int) (bigFrame smallFrameRaw : BitVec 112)
    (smallShift : Int) (rm : BitVec 3) : FpOut :=
  let sum : BitVec 113 :=
    addFrame sub bigFrame (wideShiftRightSticky smallFrameRaw smallShift)
  if sum = 0 then { result := F32.zero (decide (rm = rmRdn)) }
  else
    let renorm := renormalize 111 111 sum
    (roundAndPack sign (bigExp - renorm.2) (renorm.1.extractLsb 112 88)
      (renorm.1.getLsbD 87) (renorm.1.getLsbD 86)
      (decide ((renorm.1.extractLsb 85 0 : BitVec 86) ≠ 0)) rm).out

def finite (prodSign effSignC : Bool) (a b c : F32) (rm : BitVec 3) : FpOut :=
  if isZeroArith c then
    (roundAndPack prodSign (prodLeadExp a b)
      (0#1 ++ ((prodNorm a b).extractLsb 47 24 : BitVec 24)) ((prodNorm a b).getLsbD 23)
      ((prodNorm a b).getLsbD 22)
      (decide (((prodNorm a b).extractLsb 21 0 : BitVec 22) ≠ 0)) rm).out
  else if cIsBig a b c then
    addInFrame effSignC (prodSign ^^ effSignC) (expUnbiased c) (mant c ++ 0#88)
      (prodNorm a b ++ 0#64) (expUnbiased c - prodLeadExp a b) rm
  else
    addInFrame prodSign (prodSign ^^ effSignC) (prodLeadExp a b) (prodNorm a b ++ 0#64)
      (mant c ++ 0#88) (prodLeadExp a b - expUnbiased c) rm

end FMadd

/--
Bit 1 of the operation negates the product and bit 0 the addend.
-/
def fmaddUnit (op : BitVec 2) (rm : BitVec 3) (a b c : F32) : FpOut :=
  if isNan a || isNan b || isNan c then
    { result := canonicalNan, flags := { nv := isSnan a || isSnan b || isSnan c } }
  else if (isInf a && isZeroArith b) || (isZeroArith a && isInf b) then
    { result := canonicalNan, flags := { nv := true } }
  else
    let prodSign := a.sign ^^ b.sign ^^ op.getLsbD 1
    let effSignC := c.sign ^^ op.getLsbD 0
    let prodInf := isInf a || isInf b
    if prodInf && isInf c && (prodSign ^^ effSignC) then
      { result := canonicalNan, flags := { nv := true } }
    else if prodInf then { result := F32.inf prodSign }
    else if isInf c then { result := F32.inf effSignC }
    else if isZeroArith a || isZeroArith b then
      if isZeroArith c then
        if prodSign = effSignC then { result := F32.zero prodSign }
        else { result := F32.zero (decide (rm = rmRdn)) }
      else { result := build effSignC (F32.exp c) (frac c) }
    else FMadd.finite prodSign effSignC a b c rm

/-!
# The product
-/

namespace FMadd

section

variable {a b c : F32} {mode : RoundingMode}

theorem toNat_product (a b : F32) :
    (product a b).toNat = (mant a).toNat * (mant b).toNat := Block.toNat_product a b

theorem prodNorm_spec (a b : F32) :
    2 ^ 47 <= (prodNorm a b).toNat ∧
      (((mant a).toNat * (mant b).toNat : Nat) : K)
          * 2 ^ (expUnbiased a + expUnbiased b - 46)
        = ((prodNorm a b).toNat : K) * 2 ^ (prodLeadExp a b - 47) := by
  have hlow : 2 ^ 46 <= (product a b).toNat := by
    rw [toNat_product]
    calc 2 ^ 46 = 2 ^ 23 * 2 ^ 23 := by norm_num
      _ <= _ := Nat.mul_le_mul (mant_low a) (mant_low b)
  rw [← toNat_product]
  unfold prodNorm prodLeadExp
  cases htop : (product a b).getLsbD 47 with
  | true =>
      rw [if_pos rfl, if_pos rfl]
      refine ⟨Nat.ge_two_pow_of_testBit htop, ?_⟩
      congr 2
      omega
  | false =>
      rw [if_neg Bool.false_ne_true, if_neg Bool.false_ne_true]
      have hlt : (product a b).toNat < 2 ^ 47 := by
        have hwidth := (product a b).isLt
        by_contra hge
        rw [BitVec.getLsbD, Nat.testBit_eq_decide_div_mod_eq] at htop
        have hmod := of_decide_eq_false htop
        omega
      have hshift : (product a b <<< 1).toNat = (product a b).toNat * 2 := by
        rw [BitVec.toNat_shiftLeft, Nat.shiftLeft_eq]
        omega
      rw [hshift]
      refine ⟨by omega, ?_⟩
      have hexp : expUnbiased a + expUnbiased b - 46
          = (expUnbiased a + expUnbiased b - 47) + 1 := by omega
      rw [hexp, zpow_add_one₀ two_ne_zero]
      push_cast
      ring

theorem product_rounded (sign : Bool) (mode : RoundingMode) (a b : F32) :
    Rounded mode (applySign sign (((prodNorm a b).toNat : K) * 2 ^ (prodLeadExp a b - 47)))
      (roundAndPack sign (prodLeadExp a b)
        (0#1 ++ ((prodNorm a b).extractLsb 47 24 : BitVec 24)) ((prodNorm a b).getLsbD 23)
        ((prodNorm a b).getLsbD 22)
        (decide (((prodNorm a b).extractLsb 21 0 : BitVec 22) ≠ 0)) (modeBits mode)).out := by
  have hlow := (prodNorm_spec (K := K) a b).left
  rw [← div_pow_mul_zpow ((prodNorm a b).toNat : K) (k := 23) (f := prodLeadExp a b - 24)
    (by omega)]
  refine roundAndPack_cut (n := (prodNorm a b).toNat) (k := 23) hlow ?_ rfl ?_
    ((truncates_nat _).shift 23)
  · rw [toNat_append_add, toNat_extract _ (prodNorm a b).isLt (by decide)]
    simp
  · rw [extract_low_ne_zero]
    exact bit_or_rest _ _

/-!
# The sum
-/

theorem toNat_wideShiftRightSticky (sig : BitVec 112) (amt : Int) :
    (wideShiftRightSticky sig amt).toNat = stickyShift sig.toNat amt.toNat :=
  toNat_shiftRightStickyIn (by decide) sig amt

section

variable {sign sub : Bool} {e shift : Int} {big small : BitVec 112}
  (h : Aligned 112 big.toNat small.toNat shift.toNat)

include h

theorem toNat_frameSum :
    (addFrame sub big (wideShiftRightSticky small shift)).toNat
      = alignedBits sub big.toNat small.toNat shift.toNat := by
  rw [toNat_addFrame, toNat_wideShiftRightSticky]
  · rfl
  · rw [toNat_wideShiftRightSticky]
    exact h.small_le

theorem addInFrame_rounded (hne : alignedValue K sub big.toNat small.toNat shift.toNat ≠ 0) :
    Rounded mode
      (applySign sign
        (alignedValue K sub big.toNat small.toNat shift.toNat * 2 ^ (e - 111)))
      (addInFrame sign sub e big small shift (modeBits mode)) := by
  have hsum : (addFrame sub big (wideShiftRightSticky small shift)).toNat
      = alignedBits sub big.toNat small.toNat shift.toNat := toNat_frameSum h
  have hnonzero : addFrame sub big (wideShiftRightSticky small shift) ≠ 0 := by
    intro hzero
    rw [hzero] at hsum
    exact hne (h.eq_zero_iff.mp hsum.symm)
  have hexp : e - 111 = e - 24 - (87 : Nat) := by omega
  unfold addInFrame
  simp only [if_neg hnonzero]
  rw [hexp]
  apply frame_rounded (j := 87) h (by decide) (by decide) hne hsum
  · exact toNat_extract _ (BitVec.isLt _) (by decide)
  · rw [extract_low_ne_zero]
    exact bit_or_rest _ _

theorem addInFrame_cancels (hzero : alignedValue K sub big.toNat small.toNat shift.toNat = 0)
    (rm : BitVec 3) :
    addInFrame sign sub e big small shift rm = { result := F32.zero (decide (rm = rmRdn)) } := by
  have hsum : addFrame sub big (wideShiftRightSticky small shift) = 0 := by
    apply BitVec.eq_of_toNat_eq
    rw [toNat_frameSum h, h.eq_zero_iff.mpr hzero]
    rfl
  unfold addInFrame
  simp only [if_pos hsum]

end

/--
The operands in the frame, whichever of them is in place.
-/
theorem toNat_framed_product (a b : F32) :
    (prodNorm a b ++ 0#64).toNat = (prodNorm a b).toNat * 2 ^ 64 := by
  rw [toNat_append_add, BitVec.toNat_ofNat, Nat.zero_mod, Nat.add_zero]

theorem toNat_framed_addend (c : F32) : (mant c ++ 0#88).toNat = (mant c).toNat * 2 ^ 88 := by
  rw [toNat_append_add, BitVec.toNat_ofNat, Nat.zero_mod, Nat.add_zero]

theorem cIsBig_true (h : cIsBig a b c = true) :
    prodLeadExp a b <= expUnbiased c ∧
      ((expUnbiased c - prodLeadExp a b).toNat = 0 ->
        (prodNorm a b).toNat * 2 ^ 64 <= (mant c).toNat * 2 ^ 88) := by
  unfold cIsBig at h
  rw [Bool.or_eq_true, Bool.and_eq_true, decide_eq_true_eq, decide_eq_true_eq,
    decide_eq_true_eq] at h
  rcases h with hgt | ⟨heq, hmant⟩
  · exact ⟨by omega, fun hzero => by omega⟩
  · have hlt : (prodNorm a b).toNat < (mant c ++ 0#24 : BitVec 48).toNat := hmant
    rw [toNat_append_add] at hlt
    have hpad : (0#24).toNat = 0 := rfl
    refine ⟨heq.ge, fun _ => ?_⟩
    omega

theorem cIsBig_false (h : cIsBig a b c = false) :
    expUnbiased c <= prodLeadExp a b ∧
      ((prodLeadExp a b - expUnbiased c).toNat = 0 ->
        (mant c).toNat * 2 ^ 88 <= (prodNorm a b).toNat * 2 ^ 64) := by
  unfold cIsBig at h
  rw [Bool.or_eq_false_iff, Bool.and_eq_false_iff, decide_eq_false_iff_not,
    decide_eq_false_iff_not, decide_eq_false_iff_not] at h
  obtain ⟨hle, hcase⟩ := h
  refine ⟨by omega, ?_⟩
  intro hzero
  rcases hcase with hne | hmant
  · omega
  · have hnot : ¬ (prodNorm a b).toNat < (mant c ++ 0#24 : BitVec 48).toNat := hmant
    rw [toNat_append_add] at hnot
    have hpad : (0#24).toNat = 0 := rfl
    omega

theorem aligned_addend (h : cIsBig a b c = true) :
    Aligned 112 (mant c ++ 0#88).toNat (prodNorm a b ++ 0#64).toNat
      (expUnbiased c - prodLeadExp a b).toNat := by
  have hlow := mant_low c
  have hhigh := (mant c).isLt
  have hprod := (prodNorm a b).isLt
  rw [toNat_framed_product, toNat_framed_addend]
  exact ⟨by decide, by omega, by omega, by omega, by omega, by omega, (cIsBig_true h).right⟩

theorem aligned_product (h : cIsBig a b c = false) :
    Aligned 112 (prodNorm a b ++ 0#64).toNat (mant c ++ 0#88).toNat
      (prodLeadExp a b - expUnbiased c).toNat := by
  have hlow := (prodNorm_spec (K := Rat) a b).left
  have hhigh := (mant c).isLt
  have hprod := (prodNorm a b).isLt
  rw [toNat_framed_product, toNat_framed_addend]
  exact ⟨by decide, by omega, by omega, by omega, by omega, by omega, (cIsBig_false h).right⟩

/--
The exact sum of the product and the addend, with their signs.
-/
def exactSum (K : Type) [Field K] (prodSign effSignC : Bool) (a b c : F32) : K :=
  applySign prodSign (((prodNorm a b).toNat : K) * 2 ^ (prodLeadExp a b - 47)) +
    applySign effSignC (((mant c).toNat : K) * 2 ^ (expUnbiased c - 23))

theorem framed_product_scaled (a b : F32) :
    (((prodNorm a b ++ 0#64).toNat : Nat) : K) * 2 ^ (prodLeadExp a b - 111)
      = ((prodNorm a b).toNat : K) * 2 ^ (prodLeadExp a b - 47) := by
  have hexp : prodLeadExp a b - 47 = 64 + (prodLeadExp a b - 111) := by omega
  rw [toNat_framed_product, hexp, zpow_add₀ two_ne_zero]
  push_cast
  norm_num
  ring

theorem framed_addend_scaled (c : F32) :
    (((mant c ++ 0#88).toNat : Nat) : K) * 2 ^ (expUnbiased c - 111)
      = ((mant c).toNat : K) * 2 ^ (expUnbiased c - 23) := by
  have hexp : expUnbiased c - 23 = 88 + (expUnbiased c - 111) := by omega
  rw [toNat_framed_addend, hexp, zpow_add₀ two_ne_zero]
  push_cast
  norm_num
  ring

theorem alignedValue_scaled {sub : Bool} {big small : Nat} {e f : Int} (h : f <= e) :
    alignedValue K sub big small (e - f).toNat * 2 ^ (e - 111)
      = if sub then (big : K) * 2 ^ (e - 111) - (small : K) * 2 ^ (f - 111)
        else (big : K) * 2 ^ (e - 111) + (small : K) * 2 ^ (f - 111) := by
  have hsmall : (small : K) / 2 ^ (e - f).toNat * 2 ^ (e - 111)
      = (small : K) * 2 ^ (f - 111) := div_pow_mul_zpow _ (by omega)
  unfold alignedValue
  cases sub with
  | false =>
      simp only [Bool.false_eq_true, if_false]
      rw [add_mul, hsmall]
  | true =>
      simp only [if_true]
      rw [sub_mul, hsmall]

/--
The sum is the aligned value in either arrangement.
-/
theorem exactSum_addend (p q : Bool) (h : cIsBig a b c = true) :
    exactSum K p q a b c
      = applySign q
          (alignedValue K (p ^^ q) (mant c ++ 0#88).toNat (prodNorm a b ++ 0#64).toNat
            (expUnbiased c - prodLeadExp a b).toNat * 2 ^ (expUnbiased c - 111)) := by
  rw [alignedValue_scaled (cIsBig_true h).left, framed_product_scaled, framed_addend_scaled,
    Bool.xor_comm]
  exact (add_comm _ _).trans (applySign_add _ _ _ _)

theorem exactSum_product (p q : Bool) (h : cIsBig a b c = false) :
    exactSum K p q a b c
      = applySign p
          (alignedValue K (p ^^ q) (prodNorm a b ++ 0#64).toNat (mant c ++ 0#88).toNat
            (prodLeadExp a b - expUnbiased c).toNat * 2 ^ (prodLeadExp a b - 111)) := by
  rw [alignedValue_scaled (cIsBig_false h).left, framed_product_scaled, framed_addend_scaled]
  exact applySign_add _ _ _ _

omit [LinearOrder K] [IsStrictOrderedRing K] in
theorem applySign_eq_zero {s : Bool} {x : K} : applySign s x = 0 <-> x = 0 := by
  cases s with
  | false => rfl
  | true => exact neg_eq_zero

theorem scaled_eq_zero {x : K} {e : Int} : x * 2 ^ e = 0 <-> x = 0 := by
  have hpos : (2 : K) ^ e ≠ 0 := (zpow_pos two_pos e).ne'
  constructor
  · intro hzero
    exact (mul_eq_zero.mp hzero).resolve_right hpos
  · rintro rfl
    exact zero_mul _

theorem finite_rounded {p q : Bool} (hc : F32.exp c ≠ 0)
    (hne : exactSum K p q a b c ≠ 0) :
    Rounded mode (exactSum K p q a b c) (finite p q a b c (modeBits mode)) := by
  unfold finite isZeroArith
  rw [decide_eq_false hc, if_neg Bool.false_ne_true]
  cases hbig : cIsBig a b c with
  | false =>
      rw [exactSum_product p q hbig] at hne ⊢
      rw [if_neg Bool.false_ne_true]
      apply addInFrame_rounded (aligned_product hbig)
      rwa [Ne, applySign_eq_zero, scaled_eq_zero] at hne
  | true =>
      rw [exactSum_addend p q hbig] at hne ⊢
      rw [if_pos rfl]
      apply addInFrame_rounded (aligned_addend hbig)
      rwa [Ne, applySign_eq_zero, scaled_eq_zero] at hne

theorem finite_cancels {p q : Bool} (hc : F32.exp c ≠ 0) (hzero : exactSum K p q a b c = 0)
    (rm : BitVec 3) :
    finite p q a b c rm = { result := F32.zero (decide (rm = rmRdn)) } := by
  unfold finite isZeroArith
  rw [decide_eq_false hc, if_neg Bool.false_ne_true]
  cases hbig : cIsBig a b c with
  | false =>
      rw [exactSum_product p q hbig, applySign_eq_zero, scaled_eq_zero] at hzero
      rw [if_neg Bool.false_ne_true]
      exact addInFrame_cancels (aligned_product hbig) hzero rm
  | true =>
      rw [exactSum_addend p q hbig, applySign_eq_zero, scaled_eq_zero] at hzero
      rw [if_pos rfl]
      exact addInFrame_cancels (aligned_addend hbig) hzero rm

end

/-!
# The four operations
-/

/--
The exact value of the operation.
-/
def exactValue (K : Type) [Field K] (op : BitVec 2) (a b c : F32) : K :=
  applySign (op.getLsbD 1) (value K a * value K b) + applySign (op.getLsbD 0) (value K c)

section

variable {op : BitVec 2} {a b c : F32} {mode : RoundingMode}

theorem fmaddUnit_finite (ha : Finite a) (hb : Finite b) (hc : Finite c) (rm : BitVec 3) :
    fmaddUnit op rm a b c =
      if isZeroArith a || isZeroArith b then
        if isZeroArith c then
          if (a.sign ^^ b.sign ^^ op.getLsbD 1) = (c.sign ^^ op.getLsbD 0) then
            { result := F32.zero (a.sign ^^ b.sign ^^ op.getLsbD 1) }
          else { result := F32.zero (decide (rm = rmRdn)) }
        else { result := build (c.sign ^^ op.getLsbD 0) (F32.exp c) (frac c) }
      else
        finite (a.sign ^^ b.sign ^^ op.getLsbD 1) (c.sign ^^ op.getLsbD 0) a b c rm := by
  unfold fmaddUnit
  simp only [isNan_of_finite ha, isNan_of_finite hb, isNan_of_finite hc, isInf_of_finite ha,
    isInf_of_finite hb, isInf_of_finite hc, Bool.or_self, Bool.and_self, Bool.false_and,
    Bool.and_false, Bool.false_eq_true, if_false]

omit [LinearOrder K] [IsStrictOrderedRing K] in
theorem applySign_zero (s : Bool) : applySign s (0 : K) = 0 := by
  cases s with
  | false => rfl
  | true => exact neg_zero

/--
The signed product, as the unit has it before the addition.
-/
theorem product_eq (ha : F32.exp a ≠ 0) (hb : F32.exp b ≠ 0) (s : Bool) :
    applySign s (value K a * value K b)
      = applySign (a.sign ^^ b.sign ^^ s)
          (((prodNorm a b).toNat : K) * 2 ^ (prodLeadExp a b - 47)) := by
  rw [value_mul ha hb, applySign_applySign, (prodNorm_spec a b).right]

theorem exactValue_eq (ha : F32.exp a ≠ 0) (hb : F32.exp b ≠ 0) (hc : F32.exp c ≠ 0) :
    exactValue K op a b c
      = exactSum K (a.sign ^^ b.sign ^^ op.getLsbD 1) (c.sign ^^ op.getLsbD 0) a b c := by
  unfold exactValue exactSum
  rw [product_eq ha hb, value_of_nonzero hc, applySign_applySign]

theorem fmaddUnit_rounded (ha : Finite a) (hb : Finite b) (hc : Finite c)
    (hne : exactValue K op a b c ≠ 0) :
    Rounded mode (exactValue K op a b c) (fmaddUnit op (modeBits mode) a b c) := by
  rw [fmaddUnit_finite ha hb hc]
  unfold isZeroArith
  by_cases hprod : F32.exp a = 0 ∨ F32.exp b = 0
  · have hzero : value K a * value K b = 0 := by
      rcases hprod with hza | hzb
      · rw [value_of_zero hza, zero_mul]
      · rw [value_of_zero hzb, mul_zero]
    have heither : (decide (F32.exp a = 0) || decide (F32.exp b = 0)) = true := by
      rw [← Bool.decide_or]
      exact decide_eq_true hprod
    have hvalue : exactValue K op a b c = applySign (op.getLsbD 0) (value K c) := by
      unfold exactValue
      rw [hzero, applySign_zero, zero_add]
    rw [hvalue] at hne ⊢
    have hzc : F32.exp c ≠ 0 := by
      intro hzc
      rw [value_of_zero hzc, applySign_zero] at hne
      exact hne rfl
    rw [heither, if_pos rfl, decide_eq_false hzc, if_neg Bool.false_ne_true,
      value_of_nonzero hzc, applySign_applySign]
    exact signed_rounded ⟨hzc, hc⟩ _ mode
  · rw [not_or] at hprod
    obtain ⟨hza, hzb⟩ := hprod
    rw [decide_eq_false hza, decide_eq_false hzb, Bool.or_self, if_neg Bool.false_ne_true]
    by_cases hzc : F32.exp c = 0
    · unfold exactValue at hne ⊢
      rw [value_of_zero hzc, applySign_zero, add_zero, product_eq hza hzb]
      unfold finite isZeroArith
      rw [decide_eq_true hzc, if_pos rfl]
      exact product_rounded _ mode a b
    · rw [exactValue_eq hza hzb hzc] at hne ⊢
      exact finite_rounded hzc hne

/--
Operands that cancel leave a positive zero, or a negative one when rounding down.
-/
theorem fmaddUnit_cancels (ha : Finite a) (hb : Finite b) (hc : Finite c)
    (hprod : value K a * value K b ≠ 0) (hzero : exactValue K op a b c = 0) (rm : BitVec 3) :
    fmaddUnit op rm a b c = { result := F32.zero (decide (rm = rmRdn)) } := by
  have hza : F32.exp a ≠ 0 := by
    intro hza
    rw [value_of_zero hza, zero_mul] at hprod
    exact hprod rfl
  have hzb : F32.exp b ≠ 0 := by
    intro hzb
    rw [value_of_zero hzb, mul_zero] at hprod
    exact hprod rfl
  have hzc : F32.exp c ≠ 0 := by
    intro hzc
    unfold exactValue at hzero
    rw [value_of_zero hzc, applySign_zero, add_zero, applySign_eq_zero] at hzero
    exact hprod hzero
  rw [exactValue_eq hza hzb hzc] at hzero
  rw [fmaddUnit_finite ha hb hc]
  unfold isZeroArith
  rw [decide_eq_false hza, decide_eq_false hzb, Bool.or_self, if_neg Bool.false_ne_true]
  exact finite_cancels hzc hzero rm

/--
Zeros of opposite signs cancel in the same way.
-/
theorem fmaddUnit_cancels_zeros (ha : Finite a) (hb : Finite b) (hc : Finite c)
    (hprod : isZeroArith a = true ∨ isZeroArith b = true) (hzc : isZeroArith c = true)
    (hsigns : (a.sign ^^ b.sign ^^ op.getLsbD 1) ≠ (c.sign ^^ op.getLsbD 0)) (rm : BitVec 3) :
    fmaddUnit op rm a b c = { result := F32.zero (decide (rm = rmRdn)) } := by
  rw [fmaddUnit_finite ha hb hc, if_pos (by simpa using hprod), if_pos hzc, if_neg hsigns]

end

/--
The product is not rounded before the addition, and operands that cancel leave a zero
with the sign of the mode.
-/
theorem fmaddUnit_rounds_once (op : BitVec 2) (mode : RoundingMode) (a b c : F32)
    (ha : Finite a) (hb : Finite b) (hc : Finite c) :
    (exactValue Rat op a b c ≠ 0 ->
      Rounded mode (exactValue Rat op a b c) (fmaddUnit op (modeBits mode) a b c)) ∧
    (exactValue Rat op a b c = 0 ->
      (a.sign ^^ b.sign ^^ op.getLsbD 1) ≠ (c.sign ^^ op.getLsbD 0) ->
      fmaddUnit op (modeBits mode) a b c = { result := F32.zero (decide (mode = .down)) }) := by
  have hdown : decide (modeBits mode = rmRdn) = decide (mode = .down) := by
    cases mode <;> rfl
  rw [← hdown]
  refine ⟨fmaddUnit_rounded ha hb hc, ?_⟩
  intro hzero hsigns
  by_cases hprod : value Rat a * value Rat b = 0
  · have hoperand : isZeroArith a = true ∨ isZeroArith b = true := by
      rcases mul_eq_zero.mp hprod with hza | hzb
      · exact Or.inl (value_eq_zero.mp hza)
      · exact Or.inr (value_eq_zero.mp hzb)
    unfold exactValue at hzero
    rw [hprod, applySign_zero, zero_add, applySign_eq_zero] at hzero
    exact fmaddUnit_cancels_zeros ha hb hc hoperand (value_eq_zero.mp hzero) hsigns _
  · exact fmaddUnit_cancels ha hb hc hprod hzero _

/--
A far addend below the product decides the rounding, and a product less itself is zero.
-/
theorem fmaddUnit_rounds_once_cases :
    Rounded .up (exactValue Rat 0 0x3F800000#32 0x3F800000#32 0x00800000#32)
      (fmaddUnit 0 rmRup 0x3F800000#32 0x3F800000#32 0x00800000#32) ∧
    fmaddUnit 1 rmRdn 0x3F800000#32 0x3F800000#32 0x3F800000#32
      = { result := F32.zero true } :=
  have hone : F32.Finite 0x3F800000#32 := by unfold F32.Finite; decide
  have hleast : F32.Finite 0x00800000#32 := by unfold F32.Finite; decide
  ⟨(fmaddUnit_rounds_once 0 .up _ _ _ hone hone hleast).left (by decide +kernel),
    (fmaddUnit_rounds_once 1 .down _ _ _ hone hone hone).right (by decide +kernel)
      (by decide)⟩

end FMadd
end Block
end RvCores
