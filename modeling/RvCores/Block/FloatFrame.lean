import RvCores.Block.FloatRounding

/-!
# Significands in a frame

The adders work in a frame that is wider than the significand.  The larger operand has
its leading bit in place, and cancellation is made up for by a shift to the left before
the significand is cut out.
-/

namespace RvCores
namespace Block

open Lib F32

variable {K : Type} [Field K] [LinearOrder K] [IsStrictOrderedRing K]

/-!
# Shifts
-/

theorem any_getLsbD {n : Nat} (x : BitVec n) (k : Nat) :
    (List.range k).any x.getLsbD = decide (x.toNat % 2 ^ k ≠ 0) := by
  induction k with
  | zero => simp [Nat.mod_one]
  | succ k ih =>
      rw [List.range_succ, List.any_append, ih, ← bit_or_rest]
      simp [BitVec.getLsbD, Bool.or_comm]

theorem toNat_bit {n : Nat} (hn : 0 < n) (b : Bool) : (BitVec.ofNat n b.toNat).toNat = b.toNat := by
  rw [BitVec.toNat_ofNat]
  apply Nat.mod_eq_of_lt
  calc b.toNat < 2 := Bool.toNat_lt b
    _ = 2 ^ 1 := rfl
    _ <= 2 ^ n := Nat.pow_le_pow_right (by decide) hn

/--
The shift in a frame of any width.
-/
def shiftRightStickyIn {n : Nat} (sig : BitVec n) (amt : Int) : BitVec n :=
  if amt <= 0 then sig
  else if amt >= n then BitVec.ofNat n (decide (sig ≠ 0)).toNat
  else
    let sticky := (List.range amt.toNat).any sig.getLsbD
    (sig >>> amt.toNat) ||| BitVec.ofNat n sticky.toNat

theorem shiftRightSticky_eq (sig : BitVec 27) (amt : Int) :
    shiftRightSticky sig amt = shiftRightStickyIn sig amt := rfl

theorem toNat_shiftRightStickyIn {n : Nat} (hn : 0 < n) (sig : BitVec n) (amt : Int) :
    (shiftRightStickyIn sig amt).toNat = stickyShift sig.toNat amt.toNat := by
  unfold shiftRightStickyIn stickyShift
  split
  · next hle =>
      have hzero : amt.toNat = 0 := by omega
      rw [hzero]
      simp [Nat.mod_one]
  · split
    · next hge =>
        have hlt : sig.toNat < 2 ^ amt.toNat := by
          have hsig := sig.isLt
          exact lt_of_lt_of_le hsig (Nat.pow_le_pow_right (by decide) (by omega))
        have hnonzero : decide (sig ≠ 0) = decide (sig.toNat ≠ 0) := by
          congr 1
          apply propext
          rw [ne_eq, ne_eq, not_iff_not]
          exact BitVec.toNat_inj.symm
        rw [Nat.div_eq_of_lt hlt, Nat.mod_eq_of_lt hlt, Nat.zero_or, toNat_bit hn, hnonzero]
    · rw [BitVec.toNat_or, BitVec.toNat_ushiftRight, Nat.shiftRight_eq_div_pow, toNat_bit hn,
        any_getLsbD]

theorem toNat_shiftRightSticky (sig : BitVec 27) (amt : Int) :
    (shiftRightSticky sig amt).toNat = stickyShift sig.toNat amt.toNat := by
  rw [shiftRightSticky_eq]
  exact toNat_shiftRightStickyIn (by decide) sig amt

/--
Left-normalising doubles until the leading bit is in place.
-/
theorem normalize_spec {n top : Nat} (htop : top < n) (fuel : Nat) (x : BitVec n)
    (hlow : 2 ^ (top - fuel) <= x.toNat) (hhigh : x.toNat < 2 ^ (top + 1)) :
    (normalize top fuel x).1.toNat = x.toNat * 2 ^ (normalize top fuel x).2 ∧
      2 ^ top <= (normalize top fuel x).1.toNat ∧
      (normalize top fuel x).1.toNat < 2 ^ (top + 1) := by
  induction fuel generalizing x with
  | zero =>
      simp only [normalize, pow_zero, Nat.mul_one]
      exact ⟨trivial, hlow, hhigh⟩
  | succ fuel ih =>
      unfold normalize
      cases hbit : x.getLsbD top with
      | true =>
          have hge := Nat.ge_two_pow_of_testBit hbit
          simp only [if_true, pow_zero, Nat.mul_one]
          exact ⟨trivial, hge, hhigh⟩
      | false =>
          have hlt : x.toNat < 2 ^ top := by
            by_contra hge
            have hset : x.toNat.testBit top = true := by
              rw [Nat.testBit_eq_decide_div_mod_eq]
              apply decide_eq_true
              have hdiv : x.toNat / 2 ^ top = 1 := by
                apply Nat.div_eq_of_lt_le
                · omega
                · rw [pow_succ] at hhigh
                  omega
              rw [hdiv]
            rw [BitVec.getLsbD, hset] at hbit
            cases hbit
          have hshift : (x <<< 1).toNat = x.toNat * 2 := by
            rw [BitVec.toNat_shiftLeft, Nat.shiftLeft_eq, pow_one]
            apply Nat.mod_eq_of_lt
            calc x.toNat * 2 < 2 ^ top * 2 := by omega
              _ = 2 ^ (top + 1) := (pow_succ 2 top).symm
              _ <= 2 ^ n := Nat.pow_le_pow_right (by decide) htop
          have hdouble : 2 ^ (top - fuel) <= x.toNat * 2 := by
            rcases Nat.lt_or_ge fuel top with hless | hmore
            · have hsplit : top - fuel = (top - (fuel + 1)) + 1 := by omega
              rw [hsplit, pow_succ]
              omega
            · rw [Nat.sub_eq_zero_of_le hmore, pow_zero]
              have hpos := lt_of_lt_of_le (Nat.two_pow_pos _) hlow
              omega
          obtain ⟨hvalue, hfrom, hto⟩ := ih (x <<< 1) (by omega) (by rw [hshift, pow_succ]; omega)
          simp only [Bool.false_eq_true, if_false]
          refine ⟨?_, hfrom, hto⟩
          rw [hvalue, hshift, pow_succ]
          ring

/-!
# Cutting a significand out of a wide integer
-/

theorem div_pow_mul_zpow (x : K) {k : Nat} {e f : Int} (h : f = e + k) :
    x / 2 ^ k * 2 ^ f = x * 2 ^ e := by
  rw [h, zpow_add₀ two_ne_zero, zpow_natCast]
  field_simp

/--
The bits cut out of a wide integer round what the integer stands for.
-/
theorem roundAndPack_cut {mode : RoundingMode} {sign : Bool} {e : Int} {sig : BitVec 25}
    {guard roundBit sticky rest : Bool} {y : K} {n k : Nat} (hlow : 2 ^ (k + 24) <= n)
    (hsig : sig.toNat = n / 2 ^ (k + 1)) (hguard : guard = n.testBit k)
    (hrest : (roundBit || sticky) = rest) (h : Truncates (n / 2 ^ k) rest y) :
    Rounded mode (applySign sign (y * 2 ^ (e - 24)))
      (roundAndPack sign e sig guard roundBit sticky (modeBits mode)).out := by
  apply roundAndPack_rounded
  · rw [hsig, Nat.le_div_iff_mul_le (Nat.two_pow_pos _), ← pow_add]
    have hexp : 23 + (k + 1) = k + 24 := by omega
    rw [hexp]
    exact hlow
  · rw [hsig, hguard, two_mul_div_add_bit, hrest]
    exact h

theorem toNat_extract {n : Nat} (x : BitVec n) {hi lo : Nat} (h : x.toNat < 2 ^ (hi + 1))
    (hle : lo <= hi) : (x.extractLsb hi lo).toNat = x.toNat / 2 ^ lo := by
  rw [BitVec.extractLsb_toNat, Nat.shiftRight_eq_div_pow]
  apply Nat.mod_eq_of_lt
  apply Nat.div_lt_of_lt_mul
  rw [← pow_add]
  have hexp : lo + (hi - lo + 1) = hi + 1 := by omega
  rwa [hexp]

theorem extract_low_ne_zero {n : Nat} (x : BitVec n) (hi : Nat) :
    decide (x.extractLsb hi 0 ≠ 0) = decide (x.toNat % 2 ^ (hi + 1) ≠ 0) := by
  congr 1
  apply propext
  rw [ne_eq, ne_eq, not_iff_not, ← BitVec.toNat_inj, BitVec.extractLsb_toNat]
  rfl

/-!
# Addition in the frame
-/

def addFrame {w : Nat} (sub : Bool) (big small : BitVec w) : BitVec (w + 1) :=
  if sub then big.setWidth (w + 1) - small.setWidth (w + 1)
  else big.setWidth (w + 1) + small.setWidth (w + 1)

theorem toNat_addFrame {w : Nat} {sub : Bool} {big small : BitVec w}
    (hle : small.toNat <= big.toNat) :
    (addFrame sub big small).toNat
      = if sub then big.toNat - small.toNat else big.toNat + small.toNat := by
  have hbig := big.isLt
  have hpow : 2 ^ (w + 1) = 2 ^ w * 2 := pow_succ 2 w
  have hbigWide : big.toNat % 2 ^ (w + 1) = big.toNat := Nat.mod_eq_of_lt (by omega)
  have hsmallWide : small.toNat % 2 ^ (w + 1) = small.toNat := Nat.mod_eq_of_lt (by omega)
  unfold addFrame
  cases sub with
  | false =>
      simp only [Bool.false_eq_true, if_false, BitVec.toNat_add, BitVec.toNat_setWidth,
        hbigWide, hsmallWide]
      exact Nat.mod_eq_of_lt (by omega)
  | true =>
      simp only [if_true, BitVec.toNat_sub, BitVec.toNat_setWidth, hbigWide, hsmallWide]
      have hsplit : 2 ^ (w + 1) - small.toNat + big.toNat
          = big.toNat - small.toNat + 2 ^ (w + 1) := by omega
      rw [hsplit, Nat.add_mod_right]
      exact Nat.mod_eq_of_lt (by omega)

/--
The leading bit is brought back to its place unless it is there, or above it.
-/
def renormalize {n : Nat} (top fuel : Nat) (x : BitVec n) : BitVec n × Nat :=
  if !x.getLsbD (top + 1) && !x.getLsbD top then normalize top fuel x else (x, 0)

theorem renormalize_spec {n top : Nat} (htop : top + 1 < n) {fuel : Nat} (hfuel : top <= fuel)
    {x : BitVec n} (hpos : 0 < x.toNat) (hlt : x.toNat < 2 ^ (top + 2)) :
    (renormalize top fuel x).1.toNat = x.toNat * 2 ^ (renormalize top fuel x).2 ∧
      2 ^ top <= (renormalize top fuel x).1.toNat ∧
      (renormalize top fuel x).1.toNat < 2 ^ (top + 2) ∧
      ((renormalize top fuel x).2 = 0 ∨ (renormalize top fuel x).1.toNat < 2 ^ (top + 1)) := by
  unfold renormalize
  cases hbits : !x.getLsbD (top + 1) && !x.getLsbD top with
  | false =>
      rw [if_neg Bool.false_ne_true]
      simp only [pow_zero, Nat.mul_one]
      refine ⟨trivial, ?_, hlt, Or.inl trivial⟩
      rw [Bool.and_eq_false_iff, Bool.not_eq_false', Bool.not_eq_false'] at hbits
      rcases hbits with hhigh | hlow
      · exact le_trans (Nat.pow_le_pow_right (by decide) (by omega))
          (Nat.ge_two_pow_of_testBit hhigh)
      · exact Nat.ge_two_pow_of_testBit hlow
  | true =>
      rw [if_pos rfl]
      rw [Bool.and_eq_true, Bool.not_eq_true', Bool.not_eq_true'] at hbits
      have hsmall : x.toNat < 2 ^ (top + 1) := by
        by_contra hge
        have hdiv : x.toNat / 2 ^ (top + 1) = 1 := by
          apply Nat.div_eq_of_lt_le
          · omega
          · have hpow : 2 ^ (top + 2) = 2 ^ (top + 1) * 2 := pow_succ 2 (top + 1)
            omega
        have hset : x.getLsbD (top + 1) = true := by
          rw [BitVec.getLsbD, Nat.testBit_eq_decide_div_mod_eq, hdiv]
          rfl
        rw [hset] at hbits
        cases hbits.left
      have hfrom : 2 ^ (top - fuel) <= x.toNat := by
        rw [Nat.sub_eq_zero_of_le hfuel, pow_zero]
        exact hpos
      obtain ⟨hvalue, hlow, hhigh⟩ := normalize_spec (by omega) fuel x hfrom hsmall
      refine ⟨hvalue, hlow, ?_, Or.inr hhigh⟩
      exact lt_trans hhigh (Nat.pow_lt_pow_right (by decide) (by omega))

/--
A sum in a frame of 25 bits and some more is rounded once.
-/
theorem frame_rounded {mode : RoundingMode} {sign sub : Bool} {e : Int} {j b t k fuel : Nat}
    (h : Aligned (j + 25) b t k) (hj : 1 < j) (hfuel : j + 24 <= fuel)
    (hne : alignedValue K sub b t k ≠ 0) {sum : BitVec (j + 25 + 1)}
    (hsum : sum.toNat = alignedBits sub b t k) {sig : BitVec 25} {roundBit sticky : Bool}
    (hsig : sig.toNat = (renormalize (j + 24) fuel sum).1.toNat / 2 ^ (j + 1))
    (hrest : (roundBit || sticky)
      = decide ((renormalize (j + 24) fuel sum).1.toNat % 2 ^ j ≠ 0)) :
    Rounded mode (applySign sign (alignedValue K sub b t k * 2 ^ (e - 24 - j)))
      (roundAndPack sign (e - (renormalize (j + 24) fuel sum).2) sig
        ((renormalize (j + 24) fuel sum).1.getLsbD j) roundBit sticky (modeBits mode)).out := by
  have hsticky : Sticky (alignedBits sub b t k) (alignedValue K sub b t k) := h.sticky
  have hexact : alignedValue K sub b t k = alignedBits sub b t k ∨
      2 ^ (j + 25 - 2) <= alignedBits sub b t k := h.exact_or_large
  have hpos : 0 < sum.toNat := by
    apply Nat.pos_of_ne_zero
    intro hzero
    rw [hsum] at hzero
    exact hne (h.eq_zero_iff.mp hzero)
  rw [← hsum] at hsticky hexact
  generalize alignedValue K sub b t k = z at hsticky hexact hne ⊢
  have htop : j + 24 + 1 < j + 25 + 1 := by omega
  obtain ⟨hvalue, hfrom, hto, hkept⟩ := renormalize_spec htop hfuel hpos sum.isLt
  generalize renormalize (j + 24) fuel sum = shifted at hvalue hfrom hto hkept hsig hrest ⊢
  have hshort : z = sum.toNat ∨ shifted.2 < j := by
    rcases hexact with heq | hge
    · exact Or.inl heq
    · right
      rcases hkept with hzero | hlt
      · omega
      · -- a sum that lost something is at most one place short
        by_contra hmore
        have hfour : 2 ^ 2 <= 2 ^ shifted.2 := Nat.pow_le_pow_right (by decide) (by omega)
        have hprod : 2 ^ (j + 25 - 2) * 2 ^ 2 <= sum.toNat * 2 ^ shifted.2 :=
          Nat.mul_le_mul hge hfour
        rw [← pow_add, ← hvalue] at hprod
        have hexp : j + 25 - 2 + 2 = j + 24 + 1 := by omega
        rw [hexp] at hprod
        omega
  have hcut := hsticky.truncates_shiftLeft (j := j) hshort
  rw [← hvalue] at hcut
  have hscale : z * 2 ^ (e - 24 - j)
      = z * 2 ^ shifted.2 / 2 ^ j * 2 ^ (e - shifted.2 - 24) := by
    rw [div_pow_mul_zpow (z * 2 ^ shifted.2) (k := j) (e := e - shifted.2 - 24 - j) (by omega),
      mul_assoc, ← zpow_natCast (2 : K) shifted.2, ← zpow_add₀ two_ne_zero]
    congr 2
    omega
  rw [hscale]
  exact roundAndPack_cut (n := shifted.1.toNat) (k := j) hfrom hsig rfl hrest hcut

end Block
end RvCores
