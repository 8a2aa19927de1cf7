import RvCores.Block.FloatFrame

/-!
# Sums, differences and products

The combinational unit returns the rounding of the exact sum, difference or product of
finite operands.
-/

namespace RvCores
namespace Block

open Lib F32

variable {K : Type} [Field K] [LinearOrder K] [IsStrictOrderedRing K]

namespace F32

omit [LinearOrder K] [IsStrictOrderedRing K] in
theorem value_of_nonzero {x : F32} (h : F32.exp x ≠ 0) :
    value K x = applySign x.sign (((mant x).toNat : K) * 2 ^ (expUnbiased x - 23)) := by
  unfold value isZeroArith applySign
  rw [decide_eq_false h, if_neg Bool.false_ne_true]

omit [LinearOrder K] [IsStrictOrderedRing K] in
theorem value_of_zero {x : F32} (h : F32.exp x = 0) : value K x = 0 := by
  unfold value isZeroArith
  rw [decide_eq_true h, if_pos rfl]

theorem mant_low (x : F32) : 2 ^ 23 <= (mant x).toNat := by
  rw [mant_toNat]
  omega

theorem value_eq_zero {x : F32} : value K x = 0 <-> isZeroArith x = true := by
  constructor
  · intro hzero
    by_contra hnot
    have hexp : F32.exp x ≠ 0 := of_decide_eq_false (Bool.eq_false_iff.mpr hnot)
    have hmant : ((mant x).toNat : K) ≠ 0 := by
      have hlow := mant_low x
      exact Nat.cast_ne_zero.mpr (by omega)
    have hscaled : ((mant x).toNat : K) * 2 ^ (expUnbiased x - 23) ≠ 0 :=
      mul_ne_zero hmant (zpow_ne_zero _ two_ne_zero)
    rw [value_of_nonzero hexp] at hzero
    unfold applySign at hzero
    cases hsign : x.sign with
    | false => exact hscaled (by simpa [hsign] using hzero)
    | true => exact hscaled (by simpa [hsign] using hzero)
  · intro hzero
    exact value_of_zero (of_decide_eq_true hzero)

theorem isNan_of_finite {x : F32} (h : Finite x) : isNan x = false := by
  unfold isNan
  rw [decide_eq_false h, Bool.false_and]

theorem isInf_of_finite {x : F32} (h : Finite x) : isInf x = false := by
  unfold isInf
  rw [decide_eq_false h, Bool.false_and]

end F32

/-!
# Products
-/

omit [LinearOrder K] [IsStrictOrderedRing K] in
theorem applySign_mul (s t : Bool) (x y : K) :
    applySign s x * applySign t y = applySign (s ^^ t) (x * y) := by
  cases s <;> cases t <;> simp [applySign]

section

variable {a b : F32} {mode : RoundingMode}

theorem toNat_product (a b : F32) :
    ((mant a).setWidth 48 * (mant b).setWidth 48 : BitVec 48).toNat
      = (mant a).toNat * (mant b).toNat := by
  have ha := (mant a).isLt
  have hb := (mant b).isLt
  rw [BitVec.toNat_mul, BitVec.toNat_setWidth, BitVec.toNat_setWidth,
    Nat.mod_eq_of_lt (lt_trans ha (by decide)), Nat.mod_eq_of_lt (lt_trans hb (by decide))]
  apply Nat.mod_eq_of_lt
  calc (mant a).toNat * (mant b).toNat < 2 ^ 24 * 2 ^ 24 := Nat.mul_lt_mul'' ha hb
    _ = 2 ^ 48 := by norm_num

theorem value_mul (ha : F32.exp a ≠ 0) (hb : F32.exp b ≠ 0) :
    value K a * value K b
      = applySign (a.sign ^^ b.sign)
          ((((mant a).toNat * (mant b).toNat : Nat) : K)
            * 2 ^ (expUnbiased a + expUnbiased b - 46)) := by
  rw [value_of_nonzero ha, value_of_nonzero hb, applySign_mul]
  congr 1
  have hexp : expUnbiased a + expUnbiased b - 46
      = (expUnbiased a - 23) + (expUnbiased b - 23) := by omega
  rw [hexp, zpow_add₀ two_ne_zero]
  push_cast
  ring

theorem mulGeneral_rounded (ha : F32.exp a ≠ 0) (hb : F32.exp b ≠ 0) :
    Rounded mode (value K a * value K b) (mulGeneral a b (modeBits mode)) := by
  have hlow : 2 ^ 46 <= (mant a).toNat * (mant b).toNat := by
    calc 2 ^ 46 = 2 ^ 23 * 2 ^ 23 := by norm_num
      _ <= _ := Nat.mul_le_mul (mant_low a) (mant_low b)
  rw [value_mul ha hb]
  unfold mulGeneral
  have hproduct := toNat_product a b
  generalize ((mant a).setWidth 48 * (mant b).setWidth 48 : BitVec 48) = product at hproduct ⊢
  rw [← hproduct] at hlow ⊢
  have hlt := product.isLt
  dsimp only
  cases htop : product.getLsbD 47 with
  | true =>
      have hge := Nat.ge_two_pow_of_testBit htop
      rw [if_pos rfl, ← div_pow_mul_zpow (product.toNat : K) (k := 23)
        (f := expUnbiased a + expUnbiased b + 1 - 24) (by omega)]
      refine roundAndPack_cut (n := product.toNat) (k := 23) hge ?_ rfl ?_
        ((truncates_nat _).shift 23)
      · rw [toNat_append_add, toNat_extract _ hlt (by decide)]
        simp
      · rw [extract_low_ne_zero]
        exact bit_or_rest _ _
  | false =>
      have hlt47 : product.toNat < 2 ^ 47 := by
        by_contra hge
        rw [BitVec.getLsbD, Nat.testBit_eq_decide_div_mod_eq] at htop
        have hmod := of_decide_eq_false htop
        omega
      rw [if_neg Bool.false_ne_true, ← div_pow_mul_zpow (product.toNat : K) (k := 22)
        (f := expUnbiased a + expUnbiased b - 24) (by omega)]
      refine roundAndPack_cut (n := product.toNat) (k := 22) hlow ?_ rfl ?_
        ((truncates_nat _).shift 22)
      · rw [toNat_append_add, toNat_extract _ hlt47 (by decide)]
        simp
      · rw [extract_low_ne_zero]
        exact bit_or_rest _ _

/--
A product of finite operands is rounded once.
-/
theorem mul_rounded (ha : Finite a) (hb : Finite b) (hne : value K a * value K b ≠ 0) :
    Rounded mode (value K a * value K b) (mul a b (modeBits mode)) := by
  have hza : F32.exp a ≠ 0 := by
    intro hzero
    rw [value_of_zero hzero, zero_mul] at hne
    exact hne rfl
  have hzb : F32.exp b ≠ 0 := by
    intro hzero
    rw [value_of_zero hzero, mul_zero] at hne
    exact hne rfl
  have hmul : mul a b (modeBits mode) = mulGeneral a b (modeBits mode) := by
    unfold mul isZeroArith
    simp only [isNan_of_finite ha, isNan_of_finite hb, isInf_of_finite ha, isInf_of_finite hb,
      decide_eq_false hza, decide_eq_false hzb, Bool.or_self, Bool.and_self,
      Bool.false_eq_true, if_false]
  rw [hmul]
  exact mulGeneral_rounded hza hzb

end

/-!
# Aligned addition
-/

/--
The addition of two significands once it is known which one is larger: `diff` places lie
between them.
-/
def addAligned (sign sub : Bool) (e : Int) (big small : BitVec 24) (diff : Int)
    (rm : BitVec 3) : FpOut :=
  let bigAl : BitVec 27 := big ++ 0#3
  let smallAl := shiftRightSticky (small ++ 0#3) diff
  let sum : BitVec 28 :=
    if sub then bigAl.setWidth 28 - smallAl.setWidth 28
    else bigAl.setWidth 28 + smallAl.setWidth 28
  if sum = 0 then { result := F32.zero (decide (rm = rmRdn)) }
  else
    let renorm := !sum.getLsbD 27 && !sum.getLsbD 26
    let shifted := if renorm then normalize 26 27 sum else (sum, 0)
    (roundAndPack sign (e - shifted.2) (shifted.1.extractLsb 27 3)
      (shifted.1.getLsbD 2) (shifted.1.getLsbD 1) (shifted.1.getLsbD 0) rm).out

def swaps (a b : F32) : Bool :=
  if expUnbiased a = expUnbiased b then decide (mant b > mant a)
  else decide (expUnbiased b > expUnbiased a)

theorem addGeneral_eq (a b : F32) (signB : Bool) (rm : BitVec 3) :
    addGeneral a b signB rm =
      if swaps a b then
        addAligned signB (a.sign ^^ signB) (expUnbiased b) (mant b) (mant a)
          (expUnbiased b - expUnbiased a) rm
      else
        addAligned a.sign (a.sign ^^ signB) (expUnbiased a) (mant a) (mant b)
          (expUnbiased a - expUnbiased b) rm := by
  have hsigns : forall x y : BitVec 28,
      (if a.sign = signB then x + y else x - y) = if a.sign ^^ signB then x - y else x + y := by
    intro x y
    cases a.sign <;> cases signB <;> rfl
  cases hswap : swaps a b with
  | false =>
      unfold swaps at hswap
      rw [if_neg Bool.false_ne_true]
      unfold addGeneral addAligned
      simp only [hswap, Bool.false_eq_true, if_false, hsigns]
  | true =>
      unfold swaps at hswap
      rw [if_pos rfl]
      unfold addGeneral addAligned
      simp only [hswap, if_true, hsigns]

section

variable {mode : RoundingMode} {sign sub : Bool} {e diff : Int} {big small : BitVec 24}

theorem toNat_padded (x : BitVec 24) : (x ++ 0#3).toNat = x.toNat * 8 := by
  rw [toNat_append_add]
  rfl

theorem aligned_padded (hbig : 2 ^ 23 <= big.toNat)
    (horder : diff.toNat = 0 -> small.toNat <= big.toNat) :
    Aligned 27 (big.toNat * 8) (small.toNat * 8) diff.toNat := by
  have hhigh := big.isLt
  have hsmall := small.isLt
  refine ⟨by decide, by omega, by omega, by omega, by omega, by omega, ?_⟩
  intro hzero
  have hle := horder hzero
  omega

def alignedSum (sub : Bool) (big small : BitVec 24) (diff : Int) : BitVec 28 :=
  addFrame sub (big ++ 0#3) (shiftRightSticky (small ++ 0#3) diff)

theorem toNat_alignedSum (hbig : 2 ^ 23 <= big.toNat)
    (horder : diff.toNat = 0 -> small.toNat <= big.toNat) :
    (alignedSum sub big small diff).toNat
      = alignedBits sub (big.toNat * 8) (small.toNat * 8) diff.toNat := by
  have hle := (aligned_padded hbig horder).small_le
  unfold alignedSum
  rw [toNat_addFrame, toNat_shiftRightSticky, toNat_padded, toNat_padded]
  · rfl
  · rw [toNat_shiftRightSticky, toNat_padded, toNat_padded]
    exact hle

/--
The last two bits of the frame.
-/
theorem low_bits (x : BitVec 28) :
    (x.getLsbD 1 || x.getLsbD 0) = decide (x.toNat % 2 ^ 2 ≠ 0) := by
  rw [← bit_or_rest]
  congr 1
  rw [BitVec.getLsbD, Nat.testBit_zero]
  congr 1
  apply propext
  omega

theorem addAligned_rounded (hbig : 2 ^ 23 <= big.toNat)
    (horder : diff.toNat = 0 -> small.toNat <= big.toNat)
    (hne : alignedValue K sub (big.toNat * 8) (small.toNat * 8) diff.toNat ≠ 0) :
    Rounded mode
      (applySign sign
        (alignedValue K sub (big.toNat * 8) (small.toNat * 8) diff.toNat * 2 ^ (e - 26)))
      (addAligned sign sub e big small diff (modeBits mode)) := by
  have haligned := aligned_padded hbig horder
  have hsum : (alignedSum sub big small diff).toNat
      = alignedBits sub (big.toNat * 8) (small.toNat * 8) diff.toNat :=
    toNat_alignedSum hbig horder
  have hnonzero : alignedSum sub big small diff ≠ 0 := by
    intro hzero
    rw [hzero] at hsum
    exact hne (haligned.eq_zero_iff.mp hsum.symm)
  have hform : addAligned sign sub e big small diff (modeBits mode) =
      (roundAndPack sign (e - (renormalize 26 27 (alignedSum sub big small diff)).2)
        ((renormalize 26 27 (alignedSum sub big small diff)).1.extractLsb 27 3)
        ((renormalize 26 27 (alignedSum sub big small diff)).1.getLsbD 2)
        ((renormalize 26 27 (alignedSum sub big small diff)).1.getLsbD 1)
        ((renormalize 26 27 (alignedSum sub big small diff)).1.getLsbD 0)
        (modeBits mode)).out := by
    unfold alignedSum addFrame at hnonzero
    unfold addAligned alignedSum addFrame renormalize
    simp only [if_neg hnonzero]
  have hexp : e - 26 = e - 24 - (2 : Nat) := by omega
  rw [hform, hexp]
  apply frame_rounded (j := 2) haligned (by decide) (by decide) hne hsum
  · exact toNat_extract _ (BitVec.isLt _) (by decide)
  · exact low_bits _

end

/-!
# Operands that are returned as they are
-/

namespace F32

theorem build_self (x : F32) : build x.sign (F32.exp x) (frac x) = x := by
  apply BitVec.eq_of_toNat_eq
  have hlt := x.isLt
  have hsign : x.sign.toNat = x.toNat / 2 ^ 31 := by
    unfold F32.sign
    rw [BitVec.getLsbD, Nat.testBit_eq_decide_div_mod_eq]
    by_cases hbit : x.toNat / 2 ^ 31 % 2 = 1
    · rw [decide_eq_true hbit, Bool.toNat_true]
      omega
    · rw [decide_eq_false hbit, Bool.toNat_false]
      omega
  rw [toNat_build, hsign]
  unfold F32.exp frac
  rw [BitVec.extractLsb_toNat, BitVec.extractLsb_toNat, Nat.shiftRight_eq_div_pow,
    Nat.shiftRight_eq_div_pow]
  omega

theorem exp_range {x : F32} (h : Normal x) :
    -126 <= expUnbiased x ∧ expUnbiased x <= 127 := by
  have hlt := (F32.exp x).isLt
  have hzero : (F32.exp x).toNat ≠ 0 := fun heq => h.left (BitVec.eq_of_toNat_eq heq)
  have hmax : (F32.exp x).toNat ≠ 255 := fun heq => h.right (BitVec.eq_of_toNat_eq heq)
  unfold expUnbiased
  omega

omit [LinearOrder K] [IsStrictOrderedRing K] in
theorem value_signed {x : F32} (h : Normal x) (s : Bool) :
    Normal (build s (F32.exp x) (frac x)) ∧
      value K (build s (F32.exp x) (frac x))
        = applySign s (((mant x).toNat : K) * 2 ^ (expUnbiased x - 23)) := by
  have hnormal : Normal (build s (F32.exp x) (frac x)) := by
    unfold Normal
    rw [exp_build]
    exact h
  refine ⟨hnormal, ?_⟩
  rw [value_of_nonzero hnormal.left, sign_build]
  unfold expUnbiased mant
  rw [exp_build, frac_build]

end F32

theorem signed_rounded {x : F32} (h : Normal x) (s : Bool) (mode : RoundingMode) :
    Rounded mode (applySign s (((mant x).toNat : K) * 2 ^ (expUnbiased x - 23)))
      { result := build s (F32.exp x) (frac x) } := by
  have hlow := mant_low x
  have hhigh := (mant x).isLt
  obtain ⟨hmin, hmax⟩ := exp_range h
  obtain ⟨hnormal, hvalue⟩ := value_signed (K := K) h s
  have hrep : Representable 24 (applySign s (((mant x).toNat : K) * 2 ^ (expUnbiased x - 23))) := by
    rw [representable_applySign_iff]
    exact representable_nat hhigh _
  have hpos : (0 : K) <= ((mant x).toNat : K) * 2 ^ (expUnbiased x - 23) := by positivity
  have hrange := pow_le_significand (K := K) (e := expUnbiased x) hlow hhigh
  refine ⟨_, fun u => hrep.roundsTo_iff mode, ?_⟩
  refine ⟨fun _ _ => ⟨hnormal, hvalue, rfl, rfl⟩, ?_, ?_, ?_, ⟨rfl, rfl⟩⟩
  · intro _
    constructor
    · intro hfalse
      cases hfalse
    · intro hnot
      exact absurd hrep hnot
  · intro hover
    rw [abs_applySign, abs_of_nonneg hpos, hrange] at hover
    omega
  · intro htiny
    rw [abs_applySign, abs_of_nonneg hpos] at htiny
    exact absurd ((hrange (-126)).mpr hmin) (not_le.mpr htiny)

/-!
# Sums and differences
-/

omit [LinearOrder K] [IsStrictOrderedRing K] in
theorem applySign_add (s t : Bool) (x y : K) :
    applySign s x + applySign t y = applySign s (if s ^^ t then x - y else x + y) := by
  cases s <;> cases t <;> simp [applySign] <;> ring

theorem alignedValue_scaled {sub : Bool} {big small : BitVec 24} {e f : Int} (h : f <= e) :
    alignedValue K sub (big.toNat * 8) (small.toNat * 8) (e - f).toNat * 2 ^ (e - 26)
      = if sub then (big.toNat : K) * 2 ^ (e - 23) - (small.toNat : K) * 2 ^ (f - 23)
        else (big.toNat : K) * 2 ^ (e - 23) + (small.toNat : K) * 2 ^ (f - 23) := by
  have hbig : ((big.toNat * 8 : Nat) : K) * 2 ^ (e - 26) = (big.toNat : K) * 2 ^ (e - 23) := by
    have hexp : e - 23 = 3 + (e - 26) := by omega
    rw [hexp, zpow_add₀ two_ne_zero]
    push_cast
    norm_num
    ring
  have hsmall : ((small.toNat * 8 : Nat) : K) / 2 ^ (e - f).toNat * 2 ^ (e - 26)
      = (small.toNat : K) * 2 ^ (f - 23) := by
    have hexp : f - 23 = 3 + (f - 26) := by omega
    rw [div_pow_mul_zpow _ (e := f - 26) (by omega), hexp, zpow_add₀ two_ne_zero]
    push_cast
    norm_num
    ring
  unfold alignedValue
  cases sub with
  | false =>
      simp only [Bool.false_eq_true, if_false]
      rw [add_mul, hbig, hsmall]
  | true =>
      simp only [if_true]
      rw [sub_mul, hbig, hsmall]

section

variable {a b : F32} {mode : RoundingMode} {signB : Bool}

theorem swaps_true (h : swaps a b = true) :
    expUnbiased a <= expUnbiased b ∧
      ((expUnbiased b - expUnbiased a).toNat = 0 -> (mant a).toNat <= (mant b).toNat) := by
  unfold swaps at h
  split at h
  · next heq =>
      have hlt : (mant a).toNat < (mant b).toNat := of_decide_eq_true h
      exact ⟨heq.le, fun _ => hlt.le⟩
  · next hne =>
      have hgt := of_decide_eq_true h
      exact ⟨hgt.le, fun hzero => by omega⟩

theorem swaps_false (h : swaps a b = false) :
    expUnbiased b <= expUnbiased a ∧
      ((expUnbiased a - expUnbiased b).toNat = 0 -> (mant b).toNat <= (mant a).toNat) := by
  unfold swaps at h
  split at h
  · next heq =>
      have hnot : ¬ (mant a).toNat < (mant b).toNat := of_decide_eq_false h
      exact ⟨heq.ge, fun _ => not_lt.mp hnot⟩
  · next hne =>
      have hnot := of_decide_eq_false h
      exact ⟨not_lt.mp hnot, fun hzero => by omega⟩

/--
The exact sum, with the sign that the second operand has in it.
-/
def exactSum (K : Type) [Field K] (a b : F32) (signB : Bool) : K :=
  applySign a.sign (((mant a).toNat : K) * 2 ^ (expUnbiased a - 23)) +
    applySign signB (((mant b).toNat : K) * 2 ^ (expUnbiased b - 23))

theorem addGeneral_rounded (hne : exactSum K a b signB ≠ 0) :
    Rounded mode (exactSum K a b signB) (addGeneral a b signB (modeBits mode)) := by
  rw [addGeneral_eq]
  cases hswap : swaps a b with
  | false =>
      obtain ⟨hexp, horder⟩ := swaps_false hswap
      have hsum : exactSum K a b signB
          = applySign a.sign (alignedValue K (a.sign ^^ signB) ((mant a).toNat * 8)
              ((mant b).toNat * 8) (expUnbiased a - expUnbiased b).toNat
                * 2 ^ (expUnbiased a - 26)) := by
        rw [alignedValue_scaled hexp]
        exact applySign_add _ _ _ _
      rw [hsum] at hne ⊢
      rw [if_neg Bool.false_ne_true]
      apply addAligned_rounded (mant_low a) horder
      intro hzero
      rw [hzero, zero_mul] at hne
      apply hne
      cases a.sign <;> simp [applySign]
  | true =>
      obtain ⟨hexp, horder⟩ := swaps_true hswap
      have hsum : exactSum K a b signB
          = applySign signB (alignedValue K (a.sign ^^ signB) ((mant b).toNat * 8)
              ((mant a).toNat * 8) (expUnbiased b - expUnbiased a).toNat
                * 2 ^ (expUnbiased b - 26)) := by
        rw [alignedValue_scaled hexp, Bool.xor_comm]
        exact (add_comm _ _).trans (applySign_add _ _ _ _)
      rw [hsum] at hne ⊢
      rw [if_pos rfl]
      apply addAligned_rounded (mant_low b) horder
      intro hzero
      rw [hzero, zero_mul] at hne
      apply hne
      cases signB <;> simp [applySign]

/--
The exact result of an addition or a subtraction.
-/
def sumValue (K : Type) [Field K] (a b : F32) (isSub : Bool) : K :=
  if isSub then value K a - value K b else value K a + value K b

omit [LinearOrder K] [IsStrictOrderedRing K] in
theorem sumValue_eq (a b : F32) (isSub : Bool) :
    sumValue K a b isSub = value K a + applySign isSub (value K b) := by
  cases isSub with
  | false => rfl
  | true => exact sub_eq_add_neg _ _

omit [LinearOrder K] [IsStrictOrderedRing K] in
theorem applySign_applySign (s t : Bool) (x : K) :
    applySign s (applySign t x) = applySign (t ^^ s) x := by
  cases s <;> cases t <;> simp [applySign]

/--
Sums and differences of finite operands are rounded once.
-/
theorem addSub_rounded {isSub : Bool} (ha : Finite a) (hb : Finite b)
    (hne : sumValue K a b isSub ≠ 0) :
    Rounded mode (sumValue K a b isSub) (addSub a b isSub (modeBits mode)) := by
  rw [sumValue_eq] at hne ⊢
  have hfinite : addSub a b isSub (modeBits mode) =
      if isZeroArith a && isZeroArith b then
        if a.sign = (b.sign ^^ isSub) then { result := F32.zero a.sign }
        else { result := F32.zero (decide (modeBits mode = rmRdn)) }
      else if isZeroArith a then { result := build (b.sign ^^ isSub) (F32.exp b) (frac b) }
      else if isZeroArith b then { result := a }
      else addGeneral a b (b.sign ^^ isSub) (modeBits mode) := by
    unfold addSub
    simp only [isNan_of_finite ha, isNan_of_finite hb, isInf_of_finite ha, isInf_of_finite hb,
      Bool.or_self, Bool.and_self, Bool.false_and, Bool.false_eq_true, if_false]
  rw [hfinite]
  unfold isZeroArith
  by_cases hza : F32.exp a = 0
  · by_cases hzb : F32.exp b = 0
    · rw [value_of_zero hza, value_of_zero hzb, zero_add] at hne
      exfalso
      apply hne
      cases isSub <;> simp [applySign]
    · rw [decide_eq_true hza, decide_eq_false hzb, value_of_zero hza, zero_add,
        value_of_nonzero hzb, applySign_applySign]
      exact signed_rounded ⟨hzb, hb⟩ _ mode
  · by_cases hzb : F32.exp b = 0
    · have hzero : applySign isSub (0 : K) = 0 := by cases isSub <;> simp [applySign]
      rw [decide_eq_false hza, decide_eq_true hzb, value_of_zero hzb, hzero, add_zero,
        value_of_nonzero hza]
      have hrounded := signed_rounded (K := K) ⟨hza, ha⟩ a.sign mode
      rw [build_self] at hrounded
      exact hrounded
    · have hsum : value K a + applySign isSub (value K b)
          = exactSum K a b (b.sign ^^ isSub) := by
        unfold exactSum
        rw [value_of_nonzero hza, value_of_nonzero hzb, applySign_applySign]
      rw [hsum] at hne ⊢
      rw [decide_eq_false hza, decide_eq_false hzb]
      exact addGeneral_rounded hne

end

/-!
# The combinational unit
-/

/--
The operations of the combinational unit that round.
-/
inductive RoundingOp where
  | fadd
  | fsub
  | fmul
deriving DecidableEq

namespace RoundingOp

def funct5 : RoundingOp -> BitVec 5
  | fadd => funct5Fadd
  | fsub => funct5Fsub
  | fmul => funct5Fmul

def exactValue (K : Type) [Field K] (op : RoundingOp) (a b : F32) : K :=
  match op with
  | fadd => value K a + value K b
  | fsub => value K a - value K b
  | fmul => value K a * value K b

end RoundingOp

theorem falu_rounded {op : RoundingOp} {mode : RoundingMode} {a b : F32} (ha : Finite a)
    (hb : Finite b) (hne : op.exactValue K a b ≠ 0) (rs2Sel : BitVec 5) :
    Rounded mode (op.exactValue K a b) (falu op.funct5 (modeBits mode) rs2Sel a b) := by
  cases op with
  | fadd =>
      have hsum : sumValue K a b false ≠ 0 := hne
      exact addSub_rounded ha hb hsum
  | fsub =>
      have hdifference : sumValue K a b true ≠ 0 := hne
      exact addSub_rounded ha hb hdifference
  | fmul => exact mul_rounded ha hb hne

/--
Sums, differences and products are rounded once, from the exact rational result.
-/
theorem falu_correctly_rounded (op : RoundingOp) (mode : RoundingMode) (rs2Sel : BitVec 5)
    (a b : F32) (ha : Finite a) (hb : Finite b) (hne : op.exactValue Rat a b ≠ 0) :
    Rounded mode (op.exactValue Rat a b) (falu op.funct5 (modeBits mode) rs2Sel a b) :=
  falu_rounded ha hb hne rs2Sel

/--
One and a quarter of its last place: the sum is inexact.
-/
theorem falu_correctly_rounded_one :
    Rounded .up (RoundingOp.fadd.exactValue Rat 0x3F800000#32 0x33000000#32)
      (falu funct5Fadd rmRup 0 0x3F800000#32 0x33000000#32) :=
  falu_correctly_rounded .fadd .up 0 0x3F800000#32 0x33000000#32
    (by unfold F32.Finite; decide) (by unfold F32.Finite; decide) (by decide +kernel)

end Block
end RvCores
