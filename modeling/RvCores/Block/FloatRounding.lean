import RvCores.Block.Float
import RvCores.Lib.Sticky

/-!
# Rounding in the floating-point units

Every unit hands a significand, its half-way bit and what lies below to one function
that rounds and packs.  This module says which exact values such bits stand for, and
that the function returns the rounding of the exact value.
-/

namespace RvCores
namespace Block

open Lib

variable {K : Type} [Field K] [LinearOrder K] [IsStrictOrderedRing K]

/-!
# Values
-/

namespace F32

def Normal (x : F32) : Prop := F32.exp x ≠ 0 ∧ F32.exp x ≠ 0xFF

/--
Operands with a zero exponent field count as zeros.
-/
def value (K : Type) [Field K] (x : F32) : K :=
  if isZeroArith x then 0
  else if x.sign then -((mant x).toNat * 2 ^ (expUnbiased x - 23))
  else (mant x).toNat * 2 ^ (expUnbiased x - 23)

/--
Finite operands in the sense of the units.
-/
def Finite (x : F32) : Prop := F32.exp x ≠ 0xFF

end F32

def modeBits : RoundingMode -> BitVec 3
  | .nearestEven => rmRne
  | .towardZero => rmRtz
  | .down => rmRdn
  | .up => rmRup
  | .nearestAway => rmRmm

/--
A mode answers an overflow with the largest finite value where it rounds towards zero.
-/
def overflowResult (mode : RoundingMode) (neg : Bool) : F32 :=
  match mode, neg with
  | .towardZero, _ => F32.build neg 0xFE 0x7FFFFF
  | .down, false => F32.build neg 0xFE 0x7FFFFF
  | .up, true => F32.build neg 0xFE 0x7FFFFF
  | _, _ => F32.inf neg

/--
What has to be returned for an exact value `x` whose rounding to 24 bits is `v`.  A
result below the normal range is flushed.
-/
structure Delivers (mode : RoundingMode) (x v : K) (out : FpOut) : Prop where
  normal : 2 ^ (-126 : Int) <= |v| -> |v| < 2 ^ (128 : Int) ->
    F32.Normal out.result ∧ F32.value K out.result = v ∧ out.flags.of = false ∧
      out.flags.uf = false
  inexact : |v| < 2 ^ (128 : Int) -> (out.flags.nx = true <-> ¬ Representable 24 x)
  overflow : 2 ^ (128 : Int) <= |v| ->
    out.result = overflowResult mode (decide (x < 0)) ∧ out.flags.of = true ∧
      out.flags.uf = false ∧ out.flags.nx = true
  tiny : |v| < 2 ^ (-126 : Int) ->
    out.result = F32.zero (decide (x < 0)) ∧ out.flags.of = false ∧ out.flags.uf = true
  valid : out.flags.nv = false ∧ out.flags.dz = false

/--
The output is the one that the single rounding of the exact value asks for.
-/
def Rounded (mode : RoundingMode) (x : K) (out : FpOut) : Prop :=
  exists v : K, (forall u, RoundsTo 24 mode x u <-> u = v) ∧ Delivers mode x v out

/-!
# Fields of a packed value
-/

theorem toNat_append_add {n m : Nat} (x : BitVec n) (y : BitVec m) :
    (x ++ y).toNat = x.toNat * 2 ^ m + y.toNat := by
  rw [BitVec.toNat_append, ← Nat.shiftLeft_add_eq_or_of_lt y.isLt, Nat.shiftLeft_eq]

namespace F32

theorem mant_toNat (x : F32) : (mant x).toNat = 2 ^ 23 + (frac x).toNat := by
  unfold mant
  rw [toNat_append_add]
  rfl

section

variable {s : Bool} {e : BitVec 8} {f : BitVec 23}

theorem toNat_build : (build s e f).toNat = s.toNat * 2 ^ 31 + e.toNat * 2 ^ 23 + f.toNat := by
  unfold build
  rw [toNat_append_add, toNat_append_add, BitVec.toNat_ofBool]
  omega

theorem exp_build : F32.exp (build s e f) = e := by
  apply BitVec.eq_of_toNat_eq
  unfold F32.exp
  rw [BitVec.extractLsb_toNat, toNat_build, Nat.shiftRight_eq_div_pow]
  have he := e.isLt
  have hf := f.isLt
  omega

theorem frac_build : F32.frac (build s e f) = f := by
  apply BitVec.eq_of_toNat_eq
  unfold F32.frac
  rw [BitVec.extractLsb_toNat, toNat_build]
  have he := e.isLt
  have hf := f.isLt
  omega

theorem sign_build : F32.sign (build s e f) = s := by
  unfold F32.sign
  rw [BitVec.getLsbD, toNat_build, Nat.testBit_eq_decide_div_mod_eq]
  have he := e.isLt
  have hf := f.isLt
  cases s <;> simp <;> omega

end

omit [LinearOrder K] [IsStrictOrderedRing K] in
/--
A packed significand with its exponent.
-/
theorem value_build {s : Bool} {sig : Nat} {e : Int} (hlow : 2 ^ 23 <= sig)
    (hhigh : sig < 2 ^ 24) (hmin : -126 <= e) (hmax : e <= 127) :
    Normal (build s (BitVec.ofInt 8 (e + 127)) (BitVec.ofNat 23 sig)) ∧
      value K (build s (BitVec.ofInt 8 (e + 127)) (BitVec.ofNat 23 sig))
        = applySign s ((sig : K) * 2 ^ (e - 23)) := by
  have hexp : (BitVec.ofInt 8 (e + 127)).toNat = (e + 127).toNat := by
    rw [BitVec.toNat_ofInt]
    omega
  have hnonzero : BitVec.ofInt 8 (e + 127) ≠ 0 := by
    intro heq
    have hnat := congrArg BitVec.toNat heq
    rw [hexp] at hnat
    simp at hnat
    omega
  have hnotMax : BitVec.ofInt 8 (e + 127) ≠ 0xFF := by
    intro heq
    have hnat := congrArg BitVec.toNat heq
    rw [hexp] at hnat
    simp at hnat
    omega
  constructor
  · unfold Normal
    rw [exp_build]
    exact ⟨hnonzero, hnotMax⟩
  · have hmant : (mant (build s (BitVec.ofInt 8 (e + 127)) (BitVec.ofNat 23 sig))).toNat
        = sig := by
      rw [mant_toNat, frac_build, BitVec.toNat_ofNat]
      omega
    have hunbiased : expUnbiased (build s (BitVec.ofInt 8 (e + 127)) (BitVec.ofNat 23 sig))
        = e := by
      unfold expUnbiased
      rw [exp_build, hexp]
      omega
    unfold value isZeroArith applySign
    rw [exp_build, decide_eq_false hnonzero, if_neg Bool.false_ne_true, sign_build, hmant,
      hunbiased]

end F32

/-!
# The exponent of a significand
-/

theorem pow_le_significand {sig : Nat} {e : Int} (hlow : 2 ^ 23 <= sig) (hhigh : sig < 2 ^ 24)
    (a : Int) : (2 : K) ^ a <= (sig : K) * 2 ^ (e - 23) <-> a <= e := by
  have hpos : (0 : K) < 2 ^ (e - 23) := zpow_pos two_pos _
  have hlow' : (2 : K) ^ (23 : Int) <= sig := by exact_mod_cast hlow
  have hhigh' : (sig : K) < 2 ^ (24 : Int) := by exact_mod_cast hhigh
  constructor
  · intro hle
    by_contra hgt
    have hstep : (2 : K) ^ (24 : Int) * 2 ^ (e - 23) <= 2 ^ a := by
      rw [← zpow_add₀ two_ne_zero]
      exact zpow_le_zpow_right₀ one_le_two (by omega)
    have hlt := mul_lt_mul_of_pos_right hhigh' hpos
    linarith
  · intro hle
    calc (2 : K) ^ a <= 2 ^ e := zpow_le_zpow_right₀ one_le_two hle
      _ = 2 ^ (23 : Int) * 2 ^ (e - 23) := by
          rw [← zpow_add₀ two_ne_zero]
          congr 1
          omega
      _ <= sig * 2 ^ (e - 23) := mul_le_mul_of_nonneg_right hlow' hpos.le

/-!
# Rounding a significand of 24 bits
-/

theorem roundUp_modeBits (mode : RoundingMode) (sign guard roundBit sticky lsb : Bool) :
    roundUp (modeBits mode) sign guard roundBit sticky lsb
      = roundsAway mode sign guard (roundBit || sticky) lsb := by
  cases mode with
  | nearestEven =>
      show (guard && (roundBit || sticky || lsb)) = _
      rfl
  | towardZero => rfl
  | down =>
      show (sign && (guard || roundBit || sticky)) = _
      rw [Bool.or_assoc]
      rfl
  | up =>
      show (!sign && (guard || roundBit || sticky)) = _
      rw [Bool.or_assoc]
      rfl
  | nearestAway => rfl

theorem overflowsToMax_modeBits (mode : RoundingMode) (neg : Bool) :
    (if overflowsToMax (modeBits mode) neg then F32.build neg 0xFE 0x7FFFFF else F32.inf neg)
      = overflowResult mode neg := by
  cases mode <;> cases neg <;> rfl

/--
A carry into the top bit is worked off by one shift.
-/
theorem roundAndPack_wide {sign : Bool} {e : Int} {sig : BitVec 25}
    {guard roundBit sticky : Bool} {rm : BitVec 3} (hwide : sig.getLsbD 24 = true) :
    roundAndPack sign e sig guard roundBit sticky rm
      = roundAndPack sign (e + 1) (sig >>> 1) (sig.getLsbD 0) guard (sticky || roundBit) rm := by
  have hnarrow : (sig >>> 1).getLsbD 24 = false := by
    rw [BitVec.getLsbD_ushiftRight]
    exact BitVec.getLsbD_of_ge sig _ (by omega)
  unfold roundAndPack
  simp only [hwide, hnarrow, if_true, Bool.false_eq_true, if_false]

/--
The fields that are packed once the significand has been rounded.
-/
def packed (sign : Bool) (e : Int) (sig : BitVec 25) (inexact : Bool) (rm : BitVec 3) : Packed :=
  if e > 127 then
    { of := true
      uf := false
      nx := true
      result :=
        if overflowsToMax rm sign then F32.build sign 0xFE 0x7FFFFF else F32.inf sign }
  else if e < -126 ∨ sig.setWidth 24 = 0 then
    { of := false
      uf := decide (e < -126) && decide (sig.setWidth 24 ≠ 0)
      nx := inexact
      result := F32.zero sign }
  else
    { of := false
      uf := false
      nx := inexact
      result := F32.build sign (BitVec.ofInt 8 (e + 127)) (sig.setWidth 23) }

/--
Rounding up may carry into the top bit once more.
-/
theorem roundAndPack_narrow {sign : Bool} {e : Int} {sig : BitVec 25}
    {guard roundBit sticky : Bool} {rm : BitVec 3} (hlow : 2 ^ 23 <= sig.toNat)
    (hhigh : sig.toNat < 2 ^ 24) :
    exists (s : BitVec 25) (e' : Int),
      2 ^ 23 <= s.toNat ∧ s.toNat < 2 ^ 24 ∧
      ((sig.toNat + (roundUp rm sign guard roundBit sticky (sig.getLsbD 0)).toNat : Nat) : K)
          * 2 ^ (e - 23) = (s.toNat : K) * 2 ^ (e' - 23) ∧
      roundAndPack sign e sig guard roundBit sticky rm
        = packed sign e' s (guard || roundBit || sticky) rm := by
  have hnarrow : sig.getLsbD 24 = false := by
    rw [BitVec.getLsbD, Nat.testBit_lt_two_pow hhigh]
  unfold roundAndPack
  simp only [hnarrow, Bool.false_eq_true, if_false]
  cases hup : roundUp rm sign guard roundBit sticky (sig.getLsbD 0) with
  | false =>
      refine ⟨sig, e, hlow, hhigh, ?_, ?_⟩
      · rw [Bool.toNat_false, Nat.add_zero]
      · simp only [Bool.false_and, Bool.false_eq_true, if_false]
        rfl
  | true =>
      have hsucc : (sig + 1).toNat = sig.toNat + 1 := by
        rw [BitVec.toNat_add]
        simp
        omega
      simp only [Bool.true_and, if_true]
      cases hcarry : (sig + 1).getLsbD 24 with
      | false =>
          have hlt : (sig + 1).toNat < 2 ^ 24 := by
            by_contra hge
            have heq : (sig + 1).toNat = 2 ^ 24 := by omega
            rw [BitVec.getLsbD, heq] at hcarry
            exact absurd hcarry (by decide)
          refine ⟨sig + 1, e, by omega, hlt, ?_, ?_⟩
          · rw [hsucc, Bool.toNat_true]
          · simp only [Bool.false_eq_true, if_false]
            rfl
      | true =>
          have heq : (sig + 1).toNat = 2 ^ 24 := by
            by_contra hne
            have hlt : (sig + 1).toNat < 2 ^ 24 := by omega
            rw [BitVec.getLsbD, Nat.testBit_lt_two_pow hlt] at hcarry
            cases hcarry
          have hshift : ((sig + 1) >>> 1).toNat = 2 ^ 23 := by
            rw [BitVec.toNat_ushiftRight, heq]
            rfl
          refine ⟨(sig + 1) >>> 1, e + 1, by omega, by omega, ?_, ?_⟩
          · rw [hshift, Bool.toNat_true, ← hsucc, heq]
            have hstep : e + 1 - 23 = (e - 23) + 1 := by omega
            rw [hstep, zpow_add_one₀ two_ne_zero]
            push_cast
            ring
          · simp only [if_true]
            rfl

/-!
# The rounding is delivered
-/

theorem packed_delivers {mode : RoundingMode} {sign inexact : Bool} {x : K} {e : Int}
    {sig : BitVec 25} (hlow : 2 ^ 23 <= sig.toNat) (hhigh : sig.toNat < 2 ^ 24)
    (hsign : decide (x < 0) = sign) (hexact : Representable 24 x <-> inexact = false) :
    Delivers mode x (applySign sign ((sig.toNat : K) * 2 ^ (e - 23)))
      (packed sign e sig inexact (modeBits mode)).out := by
  have hpos : (0 : K) <= (sig.toNat : K) * 2 ^ (e - 23) := by positivity
  have hrange : forall a : Int,
      2 ^ a <= |applySign sign ((sig.toNat : K) * 2 ^ (e - 23))| <-> a <= e := by
    intro a
    rw [abs_applySign, abs_of_nonneg hpos]
    exact pow_le_significand hlow hhigh a
  have hnonzero : sig.setWidth 24 ≠ 0 := by
    intro heq
    have hnat := congrArg BitVec.toNat heq
    rw [BitVec.toNat_setWidth, Nat.mod_eq_of_lt hhigh] at hnat
    have hzero : sig.toNat = 0 := hnat
    omega
  have hinexact : inexact = true <-> ¬ Representable 24 x := by
    rw [hexact]
    cases inexact <;> simp
  unfold packed
  rcases lt_or_ge 127 e with hover | hfits
  · have hlarge := (hrange 128).mpr (by omega)
    rw [if_pos hover, overflowsToMax_modeBits]
    refine ⟨?_, ?_, ?_, ?_, ⟨rfl, rfl⟩⟩
    · intro _ hlt
      exact absurd hlt (not_lt.mpr hlarge)
    · intro hlt
      exact absurd hlt (not_lt.mpr hlarge)
    · intro _
      rw [hsign]
      exact ⟨rfl, rfl, rfl, rfl⟩
    · intro hlt
      have hmono : (2 : K) ^ (-126 : Int) <= 2 ^ (128 : Int) :=
        zpow_le_zpow_right₀ one_le_two (by decide)
      exact absurd hlt (not_lt.mpr (le_trans hmono hlarge))
  · have hsmall : ¬ (2 : K) ^ (128 : Int)
        <= |applySign sign ((sig.toNat : K) * 2 ^ (e - 23))| := by
      rw [hrange]
      omega
    rw [if_neg (not_lt.mpr hfits)]
    rcases lt_or_ge e (-126) with htiny | hnormal
    · rw [if_pos (Or.inl htiny), decide_eq_true htiny, decide_eq_true hnonzero]
      refine ⟨?_, fun _ => hinexact, fun hle => absurd hle hsmall, ?_, ⟨rfl, rfl⟩⟩
      · intro hle
        have hge := (hrange (-126)).mp hle
        omega
      · intro _
        rw [hsign]
        exact ⟨rfl, rfl, rfl⟩
    · have hnot : ¬ (e < -126 ∨ sig.setWidth 24 = 0) := by
        rintro (hlt | hzero)
        · omega
        · exact hnonzero hzero
      rw [if_neg hnot]
      have hbits : sig.setWidth 23 = BitVec.ofNat 23 sig.toNat := by
        apply BitVec.eq_of_toNat_eq
        rw [BitVec.toNat_setWidth, BitVec.toNat_ofNat]
      have hvalue := F32.value_build (K := K) (s := sign) hlow hhigh hnormal hfits
      refine ⟨?_, fun _ => hinexact, fun hle => absurd hle hsmall, ?_, ⟨rfl, rfl⟩⟩
      · intro _ _
        rw [hbits]
        exact ⟨hvalue.left, hvalue.right, rfl, rfl⟩
      · intro hlt
        exact absurd hlt (not_lt.mpr ((hrange (-126)).mpr hnormal))

theorem roundAndPack_rounded_narrow {mode : RoundingMode} {sign : Bool} {e : Int}
    {sig : BitVec 25} {guard roundBit sticky : Bool} {y : K} (hlow : 2 ^ 23 <= sig.toNat)
    (hhigh : sig.toNat < 2 ^ 24)
    (h : Truncates (2 * sig.toNat + guard.toNat) (roundBit || sticky) y) :
    Rounded mode (applySign sign (y * 2 ^ (e - 24)))
      (roundAndPack sign e sig guard roundBit sticky (modeBits mode)).out := by
  obtain ⟨s, e', hslow, hshigh, hvalue, hpacked⟩ :=
    @roundAndPack_narrow K _ _ _ sign e sig guard roundBit sticky (modeBits mode) hlow hhigh
  have hexp : e - 24 + 1 = e - 23 := by omega
  have hlsb : sig.getLsbD 0 = decide (sig.toNat % 2 = 1) := by
    rw [BitVec.getLsbD, Nat.testBit_zero]
  have hpos : 0 < y * 2 ^ (e - 24) := by
    have hfirst : (0 : K) < ((2 * sig.toNat + guard.toNat : Nat) : K) :=
      Nat.cast_pos.mpr (by omega)
    exact mul_pos (lt_of_lt_of_le hfirst h.le) (zpow_pos two_pos _)
  refine ⟨applySign sign ((s.toNat : K) * 2 ^ (e' - 23)), ?_, ?_⟩
  · intro u
    rw [h.roundsTo_signed_iff (by decide) hlow hhigh mode sign, hexp, ← hvalue, hlsb,
      roundUp_modeBits]
  · rw [hpacked]
    apply packed_delivers hslow hshigh
    · cases sign with
      | false => exact decide_eq_false (not_lt.mpr hpos.le)
      | true => exact decide_eq_true (neg_lt_zero.mpr hpos)
    · rw [representable_applySign_iff, h.representable_iff hlow hhigh, Bool.or_assoc]

/--
The function that rounds and packs returns the rounding of the value that its bits were
cut from.
-/
theorem roundAndPack_rounded {mode : RoundingMode} {sign : Bool} {e : Int} {sig : BitVec 25}
    {guard roundBit sticky : Bool} {y : K} (hlow : 2 ^ 23 <= sig.toNat)
    (h : Truncates (2 * sig.toNat + guard.toNat) (roundBit || sticky) y) :
    Rounded mode (applySign sign (y * 2 ^ (e - 24)))
      (roundAndPack sign e sig guard roundBit sticky (modeBits mode)).out := by
  rcases Nat.lt_or_ge sig.toNat (2 ^ 24) with hnarrow | hwide
  · exact roundAndPack_rounded_narrow hlow hnarrow h
  · have hlt := sig.isLt
    have hbit : sig.getLsbD 24 = true := by
      rw [BitVec.getLsbD, Nat.testBit_eq_decide_div_mod_eq]
      apply decide_eq_true
      omega
    have hshift : (sig >>> 1).toNat = sig.toNat / 2 := by
      rw [BitVec.toNat_ushiftRight]
      rfl
    have hcut := h.shift 1
    have hdiv : (2 * sig.toNat + guard.toNat) / 2 ^ 1
        = 2 * (sig >>> 1).toNat + (sig.getLsbD 0).toNat := by
      have hguard := Bool.toNat_le guard
      rw [hshift, BitVec.getLsbD, Nat.testBit_zero]
      rcases Nat.mod_two_eq_zero_or_one sig.toNat with hmod | hmod
      · rw [hmod, decide_eq_false (by omega), Bool.toNat_false]
        omega
      · rw [hmod, decide_eq_true rfl, Bool.toNat_true]
        omega
    have hrest : (roundBit || sticky || decide ((2 * sig.toNat + guard.toNat) % 2 ^ 1 ≠ 0))
        = (guard || (sticky || roundBit)) := by
      have hguard : decide ((2 * sig.toNat + guard.toNat) % 2 ^ 1 ≠ 0) = guard := by
        cases guard
        · apply decide_eq_false
          simp
        · apply decide_eq_true
          simp [Nat.add_mod]
      rw [hguard]
      cases roundBit <;> cases sticky <;> cases guard <;> rfl
    rw [hdiv, hrest] at hcut
    have hrounded := @roundAndPack_rounded_narrow K _ _ _ mode sign (e + 1) (sig >>> 1)
      (sig.getLsbD 0) guard (sticky || roundBit) (y / 2 ^ 1) (by omega) (by omega) hcut
    have hsame : y / 2 ^ 1 * 2 ^ (e + 1 - 24) = y * 2 ^ (e - 24) := by
      have hstep : e + 1 - 24 = (e - 24) + 1 := by omega
      rw [hstep, zpow_add_one₀ two_ne_zero]
      field_simp
    rw [roundAndPack_wide hbit, ← hsame]
    exact hrounded

/--
A result between two powers of two in the normal range is delivered as it is rounded.
-/
theorem Rounded.normal {mode : RoundingMode} {x : K} {out : FpOut} (h : Rounded mode x out)
    {e f : Int} (hlow : (2 : K) ^ e <= |x|) (hhigh : |x| <= 2 ^ f) (he : -126 <= e)
    (hf : f <= 127) :
    F32.Normal out.result ∧ (forall u, RoundsTo 24 mode x u <-> u = F32.value K out.result) ∧
      (out.flags.nx = true <-> ¬ Representable 24 x) ∧
      out.flags = { nx := out.flags.nx } := by
  obtain ⟨v, hrounds, hdelivers⟩ := h
  have hv := (hrounds v).mpr rfl
  obtain ⟨hfrom, hto⟩ := hv.abs_bounds (by decide) hlow hhigh
  have hmin : (2 : K) ^ (-126 : Int) <= |v| :=
    le_trans (zpow_le_zpow_right₀ one_le_two he) hfrom
  have hmax : |v| < (2 : K) ^ (128 : Int) :=
    lt_of_le_of_lt hto (zpow_lt_zpow_right₀ one_lt_two (by omega))
  obtain ⟨hnormal, hvalue, hof, huf⟩ := hdelivers.normal hmin hmax
  obtain ⟨hnv, hdz⟩ := hdelivers.valid
  refine ⟨hnormal, ?_, hdelivers.inexact hmax, ?_⟩
  · rw [hvalue]
    exact hrounds
  · cases hflags : out.flags
    rw [hflags] at hof huf hnv hdz
    simp only at hof huf hnv hdz
    rw [hof, huf, hnv, hdz]

end Block
end RvCores
