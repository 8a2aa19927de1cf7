import Mathlib.Analysis.Real.Sqrt
import RvCores.Block.DividerResult
import RvCores.Block.FloatArith

/-!
# The result of the square root

The significand is placed so that the exponent of the radicand is even.  Twenty-six steps
give its integer square root, which always has twenty-six bits.
-/

namespace RvCores
namespace Block

open Lib F32

namespace FSqrt

/--
The significand with an odd exponent is doubled.
-/
def radicand (a : F32) : Nat :=
  if (expUnbiased a).tmod 2 = 0 then (mant a).toNat * 2 ^ 27 else (mant a).toNat * 2 ^ 28

def rootExp (a : F32) : Int :=
  if (expUnbiased a).tmod 2 = 0 then (expUnbiased a).tdiv 2 else (expUnbiased a - 1).tdiv 2

theorem radicand_range (a : F32) : 4 ^ 25 <= radicand a ∧ radicand a < 4 ^ 26 := by
  have hlow := mant_low a
  have hhigh := (mant a).isLt
  unfold radicand
  split
  · constructor <;> omega
  · constructor <;> omega

theorem root_range (a : F32) :
    2 ^ 25 <= Nat.sqrt (radicand a) ∧ Nat.sqrt (radicand a) < 2 ^ 26 := by
  obtain ⟨hlow, hhigh⟩ := radicand_range a
  constructor
  · rw [Nat.le_sqrt']
    exact hlow
  · rw [Nat.sqrt_lt']
    exact hhigh

/-!
# The recurrence
-/

variable {i : FSqrtIn} {k : Nat} {u : FSqrt}

/--
The unit has done `k` steps on the radicand that it was started with.
-/
structure Iterating (i : FSqrtIn) (k : Nat) (u : FSqrt) : Prop where
  busy : u.busy = true
  done : u.done = false
  count : u.count = k
  resultExp : u.resultExp = rootExp i.a
  flags : u.flags = {}
  rad : u.rad.toNat = radicand i.a * 4 ^ k % 4 ^ 26
  rooting : Rooting 26 (radicand i.a) k u.r.toNat u.qRoot.toNat

theorem Iterating.rooting_iterate (h : Iterating i k u) (hk : k < 26) (rm : BitVec 3) :
    Rooting 26 (radicand i.a) (k + 1) (u.iterate rm).r.toNat (u.iterate rm).qRoot.toNat := by
  have hnext := h.rooting.step hk
  rw [← shifted_pair hk, ← h.rad] at hnext
  have hroot : u.qRoot.toNat < 2 ^ 25 :=
    lt_of_lt_of_le (h.rooting.root_lt (radicand_range i.a).right hk.le)
      (Nat.pow_le_pow_right two_pos (by omega))
  have hrest := h.rooting.remainder_le
  have hrad := u.rad.isLt
  have hshifted : ((u.r.extractLsb 25 0 : BitVec 26) ++ (u.rad.extractLsb 51 50 : BitVec 2)).toNat
      = 4 * u.r.toNat + u.rad.toNat / 4 ^ (26 - 1) := by
    rw [toNat_append_add, toNat_extract u.r (by omega) (by decide),
      toNat_extract u.rad hrad (by decide)]
    omega
  have htrial : (u.qRoot ++ 0b01#2).toNat = 4 * u.qRoot.toNat + 1 := by
    rw [toNat_append_add, BitVec.toNat_ofNat]
    omega
  have hr : (u.iterate rm).r.toNat
      = restored (4 * u.qRoot.toNat + 1) (4 * u.r.toNat + u.rad.toNat / 4 ^ (26 - 1)) := by
    rw [← hshifted, ← htrial]
    exact toNat_restored rfl
  have hq : (u.iterate rm).qRoot.toNat = 2 * u.qRoot.toNat
      + digit (4 * u.qRoot.toNat + 1) (4 * u.r.toNat + u.rad.toNat / 4 ^ (26 - 1)) := by
    have hfits : 2 * u.qRoot.toNat % 2 ^ 26 = 2 * u.qRoot.toNat := Nat.mod_eq_of_lt (by omega)
    rw [← hshifted, ← htrial, ← toNat_digit, ← hfits]
    exact toNat_shiftLeft_or_bit (by decide) _ _
  rw [hr, hq]
  exact hnext

theorem Iterating.iterate (h : Iterating i k u) (hk : k < 25) (rm : BitVec 3) :
    Iterating i (k + 1) (u.iterate rm) where
  busy := by
    rw [iterate_busy rm h.busy, h.count, decide_eq_false hk.ne]
    rfl
  done := by
    show decide (u.count = 25) = false
    rw [h.count, decide_eq_false hk.ne]
  count := by rw [count_iterate, h.count]
  resultExp := h.resultExp
  flags := by
    have hgoes : decide (u.count = 25) = false := by
      rw [h.count]
      exact decide_eq_false hk.ne
    unfold FSqrt.iterate
    simp only [hgoes, Bool.false_eq_true, if_false]
    exact h.flags
  rad := by
    show (u.rad <<< 2).toNat = _
    rw [BitVec.toNat_shiftLeft, Nat.shiftLeft_eq, h.rad, Nat.pow_succ _ k, ← Nat.mul_assoc]
    exact Nat.mod_mul_mod _ _ _
  rooting := h.rooting_iterate (by omega) rm

/--
The last step packs the root with its remainder.
-/
theorem Iterating.last (h : Iterating i 25 u) (rm : BitVec 3) :
    (u.iterate rm).busy = false ∧ (u.iterate rm).done = true ∧
      FpOut.mk (u.iterate rm).result (u.iterate rm).flags
        = (roundAndPack false (rootExp i.a)
            (0#1 ++ ((u.iterate rm).qRoot.extractLsb 25 2 : BitVec 24))
            ((u.iterate rm).qRoot.getLsbD 1) ((u.iterate rm).qRoot.getLsbD 0)
            (decide ((u.iterate rm).r ≠ 0)) rm).out := by
  have hlast : decide (u.count = 25) = true := decide_eq_true h.count
  refine ⟨?_, hlast, ?_⟩
  · rw [iterate_busy rm h.busy, h.count]
    rfl
  · rw [← h.resultExp]
    unfold FSqrt.iterate
    simp only [hlast, if_true, h.flags]
    rfl

/-!
# Packing
-/

theorem two_mul_tdiv {e : Int} (h : 2 ∣ e) : 2 * e.tdiv 2 = e := by
  have hsplit := Int.mul_tdiv_add_tmod e 2
  rw [Int.tmod_eq_zero_of_dvd h, add_zero] at hsplit
  exact hsplit

section

variable {K : Type} [Field K] [LinearOrder K] [IsStrictOrderedRing K] {mode : RoundingMode}

theorem value_radicand {a : F32} (hexp : F32.exp a ≠ 0) (hsign : a.sign = false) :
    value K a = (radicand a : K) * (2 ^ (rootExp a - 25)) ^ 2 := by
  rw [value_of_nonzero hexp, hsign, ← zpow_natCast, ← zpow_mul]
  show ((mant a).toNat : K) * 2 ^ (expUnbiased a - 23) = _
  unfold radicand rootExp
  split
  · next heven =>
      have hhalf := two_mul_tdiv (Int.dvd_of_tmod_eq_zero heven)
      have hscale : expUnbiased a - 23 = 27 + ((expUnbiased a).tdiv 2 - 25) * (2 : Nat) := by
        omega
      rw [hscale, zpow_add₀ two_ne_zero]
      push_cast
      norm_num
      ring
  · next hodd =>
      have hnot : ¬ 2 ∣ expUnbiased a := fun hdvd => hodd (Int.tmod_eq_zero_of_dvd hdvd)
      have hhalf := two_mul_tdiv (e := expUnbiased a - 1) (by omega)
      have hscale : expUnbiased a - 23
          = 28 + ((expUnbiased a - 1).tdiv 2 - 25) * (2 : Nat) := by omega
      rw [hscale, zpow_add₀ two_ne_zero]
      push_cast
      norm_num
      ring

theorem root_rounded {n : Nat} {e : Int} {newQ : BitVec 26} {newR : BitVec 28} {y : K}
    (hlow : 4 ^ 25 <= n) (h : Rooting 26 n 26 newR.toNat newQ.toNat) (hy : 0 <= y)
    (hsquare : y * y = n) :
    Rounded mode (y * 2 ^ (e - 25))
      (roundAndPack false e (0#1 ++ (newQ.extractLsb 25 2 : BitVec 24)) (newQ.getLsbD 1)
        (newQ.getLsbD 0) (decide (newR ≠ 0)) (modeBits mode)).out := by
  obtain ⟨hroot, hsplit⟩ := h.finish
  have hexact := truncates_sqrt hy hsquare hsplit h.remainder_le
  have hinexact : decide (newR ≠ 0) = decide (newR.toNat ≠ 0) := by
    congr 1
    apply propext
    rw [ne_eq, ne_eq, not_iff_not, ← BitVec.toNat_inj]
    rfl
  have hlead : 2 ^ 25 <= newQ.toNat := by
    rw [hroot, Nat.le_sqrt']
    exact hlow
  rw [hinexact, ← div_pow_mul_zpow y (k := 1) (f := e - 24) (by omega)]
  show Rounded mode (applySign false (y / 2 ^ 1 * 2 ^ (e - 24))) _
  refine roundAndPack_cut (n := newQ.toNat) (k := 1) hlead ?_ rfl ?_ (hexact.shift 1)
  · rw [toNat_append_add, toNat_extract _ newQ.isLt (by decide)]
    simp
  · rw [← bit_or_rest _ 0]
    simp only [BitVec.getLsbD, pow_zero, Nat.mod_one, ne_eq, not_true, decide_false,
      Bool.or_false]
    exact Bool.or_comm _ _

/-!
# The range of the roots
-/

/--
A normal operand is between two powers of two with even exponents.
-/
theorem value_range {a : F32} (ha : F32.Normal a) (hsign : a.sign = false) :
    ((2 : K) ^ (-63 : Int)) ^ 2 <= value K a ∧ value K a <= ((2 : K) ^ (64 : Int)) ^ 2 := by
  have hexp : -126 <= expUnbiased a ∧ expUnbiased a <= 127 := by
    have hlt := (F32.exp a).isLt
    have hzero : (F32.exp a).toNat ≠ 0 := fun heq => ha.left (BitVec.eq_of_toNat_eq heq)
    have hmax : (F32.exp a).toNat ≠ 255 := fun heq => ha.right (BitVec.eq_of_toNat_eq heq)
    unfold expUnbiased
    omega
  have hlow : (2 : K) ^ (23 : Int) <= (mant a).toNat := by exact_mod_cast mant_low a
  have hhigh : ((mant a).toNat : K) <= 2 ^ (24 : Int) := by exact_mod_cast (mant a).isLt.le
  have hscale : (0 : K) < 2 ^ (expUnbiased a - 23) := zpow_pos two_pos _
  have hvalue : value K a = (mant a).toNat * 2 ^ (expUnbiased a - 23) := by
    rw [value_of_nonzero ha.left, hsign]
    rfl
  rw [← zpow_natCast, ← zpow_natCast, ← zpow_mul, ← zpow_mul, hvalue]
  constructor
  · calc (2 : K) ^ ((-63 : Int) * (2 : Nat)) <= 2 ^ (23 + (expUnbiased a - 23)) :=
        zpow_le_zpow_right₀ one_le_two (by push_cast; omega)
      _ = 2 ^ (23 : Int) * 2 ^ (expUnbiased a - 23) := zpow_add₀ two_ne_zero _ _
      _ <= _ := mul_le_mul_of_nonneg_right hlow hscale.le
  · calc _ <= (2 : K) ^ (24 : Int) * 2 ^ (expUnbiased a - 23) :=
        mul_le_mul_of_nonneg_right hhigh hscale.le
      _ = 2 ^ (24 + (expUnbiased a - 23)) := (zpow_add₀ two_ne_zero _ _).symm
      _ <= 2 ^ ((64 : Int) * (2 : Nat)) :=
        zpow_le_zpow_right₀ one_le_two (by push_cast; omega)

theorem sqrt_range {a : F32} (ha : F32.Normal a) (hsign : a.sign = false) :
    (2 : Real) ^ (-63 : Int) <= Real.sqrt (value Real a) ∧
      Real.sqrt (value Real a) <= 2 ^ (64 : Int) := by
  obtain ⟨hfrom, hto⟩ := value_range (K := Real) ha hsign
  constructor
  · exact Real.le_sqrt_of_sq_le hfrom
  · exact (Real.sqrt_le_left (zpow_pos two_pos _).le).mpr hto

end

/-!
# Runs
-/

theorem iterating_begin (v : FSqrt) (ha : F32.Normal i.a) (hsign : i.a.sign = false) :
    Iterating i 0 (v.begin i) := by
  have hspecial : special? i.a = none := by
    unfold special? isZeroArith
    simp only [isNan_of_finite ha.right, isInf_of_finite ha.right, decide_eq_false ha.left, hsign,
      Bool.false_eq_true, if_false]
  unfold begin
  rw [hspecial]
  refine ⟨rfl, rfl, rfl, ?_, rfl, ?_, Rooting.start (radicand_range i.a).right⟩
  · unfold rootExp
    by_cases heven : (expUnbiased i.a).tmod 2 = 0
    · simp only [heven, decide_true, if_true]
    · simp only [heven, decide_false, Bool.false_eq_true, if_false]
  · have hlt := radicand_range i.a
    rw [pow_zero, Nat.mul_one, Nat.mod_eq_of_lt hlt.right]
    unfold radicand
    by_cases heven : (expUnbiased i.a).tmod 2 = 0
    · simp only [heven, decide_true, if_true]
      rw [toNat_append_add, toNat_append_add]
      simp
    · simp only [heven, decide_false, Bool.false_eq_true, if_false]
      rw [toNat_append_add]
      simp

def run (u : FSqrt) (j : Nat -> FSqrtIn) : Nat -> FSqrt
  | 0 => u
  | n + 1 => (run u j n).step (j n)

theorem run_eq (u : FSqrt) (j : Nat -> FSqrtIn) (n : Nat) :
    run u j n = sequencer.run u j n := by
  induction n with
  | zero => rfl
  | succ n ih =>
      rw [run, ih]
      rfl

/--
An idle unit that is started with a positive operand shows the rounded root in the
twenty-seventh cycle after.
-/
theorem roots_correctly_rounded (u : FSqrt) (hidle : u.busy = false) (hdone : u.done = false)
    (j : Nat -> FSqrtIn) (hstart : (j 0).start = true) (ha : F32.Normal (j 0).a)
    (hsign : (j 0).a.sign = false) (mode : RoundingMode) (hrm : (j 26).rm = modeBits mode) :
    (forall m, m < 27 -> (run u j m).done = false) ∧
      (run u j 27).done = true ∧ (run u j 28).done = false ∧
      (run u j 27).qRoot.toNat = Nat.sqrt (radicand (j 0).a) ∧
      2 ^ 25 <= (run u j 27).qRoot.toNat ∧
      F32.Normal (run u j 27).result ∧
      RoundsTo 24 mode (Real.sqrt (value Real (j 0).a)) (value Real (run u j 27).result) ∧
      ((run u j 27).flags.nx = true <-> ¬ Representable 24 (Real.sqrt (value Real (j 0).a))) ∧
      (run u j 27).flags = { nx := (run u j 27).flags.nx } := by
  have hiterating (m : Nat) (hm : m <= 25) : Iterating (j 0) m (run u j (m + 1)) := by
    rw [run_eq]
    exact Sequencer.run_of_invariant (S := sequencer) ⟨hidle, hdone⟩ hstart
      (iterating_begin u ha hsign) (fun _ _ h => h.busy) (fun _ _ hn h => h.iterate hn _) m hm
  have hend := hiterating 25 (le_refl 25)
  have hlast : run u j 27 = (run u j 26).iterate (modeBits mode) := by
    rw [← hrm]
    exact Sequencer.step_of_busy (S := sequencer) (i := j 26) hend.busy
  obtain ⟨hends, hshows, hout⟩ := hend.last (modeBits mode)
  have hrooting := hend.rooting_iterate (by decide) (modeBits mode)
  rw [← hlast] at hends hshows hout hrooting
  obtain ⟨hroot, -⟩ := hrooting.finish
  have hsqrt : Real.sqrt (value Real (j 0).a)
      = Real.sqrt (radicand (j 0).a) * 2 ^ (rootExp (j 0).a - 25) := by
    rw [value_radicand ha.left hsign, Real.sqrt_mul (Nat.cast_nonneg _),
      Real.sqrt_sq (zpow_pos two_pos _).le]
  have hrounded : Rounded mode (Real.sqrt (value Real (j 0).a))
      (FpOut.mk (run u j 27).result (run u j 27).flags) := by
    rw [hout, hsqrt]
    exact root_rounded (radicand_range (j 0).a).left hrooting (Real.sqrt_nonneg _)
      (Real.mul_self_sqrt (Nat.cast_nonneg _))
  obtain ⟨hfrom, hto⟩ := sqrt_range ha hsign
  refine ⟨?_, hshows, ?_, hroot, ?_, ?_⟩
  · intro m hm
    cases m with
    | zero => exact hdone
    | succ m => exact (hiterating m (by omega)).done
  · have hafter : (sequencer.step (run u j 27) (j 27)).done = false :=
      (Sequencer.idle_step_of_done sequencer_lawful hends hshows).right
    exact hafter
  · rw [hroot]
    exact (root_range (j 0).a).left
  · have habs : |Real.sqrt (value Real (j 0).a)| = Real.sqrt (value Real (j 0).a) :=
      abs_of_nonneg (Real.sqrt_nonneg _)
    rw [← habs] at hfrom hto
    obtain ⟨hnormal, hrounds, hflags⟩ := hrounded.normal hfrom hto (by decide) (by decide)
    exact ⟨hnormal, (hrounds _).mpr rfl, hflags⟩

/--
The root of two.
-/
theorem roots_correctly_rounded_two :
    RoundsTo 24 .nearestEven (Real.sqrt (value Real 0x40000000#32))
      (value Real (run fresh (fun _ => ⟨true, rmRne, 0x40000000#32⟩) 27).result) :=
  (roots_correctly_rounded fresh rfl rfl (fun _ => ⟨true, rmRne, 0x40000000#32⟩) rfl
    (by unfold F32.Normal; decide) (by decide) .nearestEven
    rfl).right.right.right.right.right.right.left

end FSqrt
end Block
end RvCores
