import RvCores.Block.DividerResult
import RvCores.Block.FloatArith

/-!
# The result of the floating-point divider

Fifty-one steps give the quotient of the significands with 26 or 27 bits after its
leading one, and a remainder for what lies below.
-/

namespace RvCores
namespace Block

open Lib F32

namespace FDivider

variable {i : FDividerIn} {k : Nat} {u : FDivider}

/-!
# The recurrence
-/

/--
The unit has done `k` steps of the division that it was started with.
-/
structure Iterating (i : FDividerIn) (k : Nat) (u : FDivider) : Prop where
  busy : u.busy = true
  count : u.count = k
  divisor : u.d = mant i.b
  resultSign : u.resultSign = (i.a.sign ^^ i.b.sign)
  expA : u.expA = expUnbiased i.a
  expB : u.expB = expUnbiased i.b
  flags : u.flags = {}
  dividing : Dividing 51 ((mant i.a).toNat * 2 ^ 27) (mant i.b).toNat k u.r.toNat u.q.toNat

theorem mant_pos (x : F32) : 0 < (mant x).toNat :=
  lt_of_lt_of_le (Nat.two_pow_pos 23) (mant_low x)

theorem dividend_lt (x : F32) : (mant x).toNat * 2 ^ 27 < 2 ^ 51 := by
  have hlt := (mant x).isLt
  omega

theorem Iterating.dividing_iterate (h : Iterating i k u) (hk : k < 51) (rm : BitVec 3) :
    Dividing 51 ((mant i.a).toNat * 2 ^ 27) (mant i.b).toNat (k + 1)
      (u.iterate rm).r.toNat (u.iterate rm).q.toNat := by
  have hnext := h.dividing.step (dividend_lt i.a) (mant_pos i.b) hk
  have hroom : u.r.toNat < 2 ^ 24 :=
    lt_trans (h.dividing.remainder_lt_divisor (mant_pos i.b)) (mant i.b).isLt
  have hmsb : u.q.toNat / 2 ^ (51 - 1) = (u.q.getLsbD 50).toNat := by
    rw [← toNat_msb (by decide), BitVec.msb_eq_getLsbD_last]
  rw [hmsb] at hnext
  have hwide : ((mant i.b).setWidth 25).toNat = (mant i.b).toNat := by
    rw [BitVec.toNat_setWidth]
    exact Nat.mod_eq_of_lt (lt_trans (mant i.b).isLt (by decide))
  have hshifted : (u.r <<< 1 ||| BitVec.ofNat 25 (u.q.getLsbD 50).toNat).toNat
      = 2 * u.r.toNat + (u.q.getLsbD 50).toNat := by
    rw [toNat_shiftLeft_or_bit (by decide), Nat.mod_eq_of_lt (by omega)]
  have hr : (u.iterate rm).r.toNat
      = restored (mant i.b).toNat (2 * u.r.toNat + (u.q.getLsbD 50).toNat) := by
    rw [← hshifted, ← hwide, ← h.divisor]
    exact toNat_restored rfl
  have hq : (u.iterate rm).q.toNat = 2 * u.q.toNat % 2 ^ 51
      + digit (mant i.b).toNat (2 * u.r.toNat + (u.q.getLsbD 50).toNat) := by
    rw [← hshifted, ← hwide, ← h.divisor, ← toNat_digit]
    exact toNat_shiftLeft_or_bit (by decide) _ _
  rw [hr, hq]
  exact hnext

theorem Iterating.iterate (h : Iterating i k u) (hk : k < 50) (rm : BitVec 3) :
    Iterating i (k + 1) (u.iterate rm) where
  busy := by
    rw [iterate_busy rm h.busy, h.count, decide_eq_false hk.ne]
    rfl
  count := by rw [count_iterate, h.count]
  divisor := h.divisor
  resultSign := h.resultSign
  expA := h.expA
  expB := h.expB
  flags := by
    have hgoes : decide (u.count = 50) = false := by
      rw [h.count]
      exact decide_eq_false hk.ne
    unfold FDivider.iterate
    simp only [hgoes, Bool.false_eq_true, if_false]
    exact h.flags
  dividing := h.dividing_iterate (by omega) rm

/--
The last step packs the whole quotient.
-/
theorem Iterating.last (h : Iterating i 50 u) (rm : BitVec 3) :
    (u.iterate rm).busy = false ∧
      FpOut.mk (u.iterate rm).result (u.iterate rm).flags
        = (u.packQuotient (u.iterate rm).q (u.iterate rm).r rm).out := by
  constructor
  · rw [iterate_busy rm h.busy, h.count]
    rfl
  · have hlast : decide (u.count = 50) = true := decide_eq_true h.count
    unfold FDivider.iterate
    simp only [hlast, if_true, h.flags]
    rfl

/-!
# Packing
-/

section

variable {K : Type} [Field K] [LinearOrder K] [IsStrictOrderedRing K] {mode : RoundingMode}

omit [LinearOrder K] [IsStrictOrderedRing K] in
theorem applySign_div (s t : Bool) (x y : K) :
    applySign s x / applySign t y = applySign (s ^^ t) (x / y) := by
  cases s <;> cases t <;> simp [applySign, neg_div, div_neg]

/--
The exact quotient in terms of the integers that are divided.
-/
theorem value_div {a b : F32} (ha : F32.exp a ≠ 0) (hb : F32.exp b ≠ 0) :
    value K a / value K b
      = applySign (a.sign ^^ b.sign)
          ((((mant a).toNat * 2 ^ 27 : Nat) : K) / (mant b).toNat
            * 2 ^ (expUnbiased a - expUnbiased b - 27)) := by
  have hb0 : ((mant b).toNat : K) ≠ 0 := Nat.cast_ne_zero.mpr (mant_pos b).ne'
  rw [value_of_nonzero ha, value_of_nonzero hb, applySign_div]
  congr 1
  have hexp : expUnbiased a - 23 = (expUnbiased a - expUnbiased b - 27) + 27
      + (expUnbiased b - 23) := by omega
  have hscale : (2 : K) ^ (expUnbiased b - 23) ≠ 0 := zpow_ne_zero _ two_ne_zero
  rw [hexp, zpow_add₀ two_ne_zero, zpow_add₀ two_ne_zero]
  field_simp
  push_cast
  norm_num

theorem quotient_range (a b : F32) :
    2 ^ 26 <= (mant a).toNat * 2 ^ 27 / (mant b).toNat ∧
      (mant a).toNat * 2 ^ 27 / (mant b).toNat < 2 ^ 28 := by
  have ha := mant_low a
  have hb := mant_low b
  have haLt := (mant a).isLt
  have hbLt := (mant b).isLt
  constructor
  · rw [Nat.le_div_iff_mul_le (mant_pos b)]
    omega
  · rw [Nat.div_lt_iff_lt_mul (mant_pos b)]
    omega

theorem packQuotient_rounded {div : FDivider} {newQ : BitVec 51} {newR : BitVec 25} {n d : Nat}
    (hd : 0 < d) (hq : newQ.toNat = n / d) (hr : newR.toNat = n % d) (hlow : 2 ^ 26 <= n / d)
    (hhigh : n / d < 2 ^ 28) :
    Rounded mode
      (applySign div.resultSign ((n : K) / d * 2 ^ (div.expA - div.expB - 27)))
      (div.packQuotient newQ newR (modeBits mode)).out := by
  have hexact := truncates_div (K := K) n hd
  have hinexact : decide (newR ≠ 0) = decide (n % d ≠ 0) := by
    rw [← hr]
    congr 1
    apply propext
    rw [ne_eq, ne_eq, not_iff_not, ← BitVec.toNat_inj]
    rfl
  rw [← hq] at hlow hhigh hexact
  unfold packQuotient
  dsimp only
  rw [hinexact]
  cases htop : newQ.getLsbD 27 with
  | true =>
      have hge := Nat.ge_two_pow_of_testBit htop
      rw [if_pos rfl, ← div_pow_mul_zpow ((n : K) / d) (k := 3)
        (f := div.expA - div.expB - 24) (by omega)]
      refine roundAndPack_cut (n := newQ.toNat) (k := 3) hge ?_ rfl ?_ (hexact.shift 3)
      · rw [toNat_append_add, toNat_extract _ hhigh (by decide)]
        simp
      · rw [← bit_or_rest _ 2, ← bit_or_rest _ 1, ← bit_or_rest _ 0]
        simp only [BitVec.getLsbD, pow_zero, Nat.mod_one, ne_eq, not_true, decide_false,
          Bool.or_false]
        cases newQ.toNat.testBit 2 <;> cases newQ.toNat.testBit 1 <;>
          cases newQ.toNat.testBit 0 <;> cases decide (¬ n % d = 0) <;> rfl
  | false =>
      have hlt : newQ.toNat < 2 ^ 27 := by
        by_contra hge
        rw [BitVec.getLsbD, Nat.testBit_eq_decide_div_mod_eq] at htop
        have hmod := of_decide_eq_false htop
        omega
      rw [if_neg Bool.false_ne_true, ← div_pow_mul_zpow ((n : K) / d) (k := 2)
        (f := div.expA - div.expB - 1 - 24) (by omega)]
      refine roundAndPack_cut (n := newQ.toNat) (k := 2) hlow ?_ rfl ?_ (hexact.shift 2)
      · rw [toNat_append_add, toNat_extract _ hlt (by decide)]
        simp
      · rw [← bit_or_rest _ 1, ← bit_or_rest _ 0]
        simp only [BitVec.getLsbD, pow_zero, Nat.mod_one, ne_eq, not_true, decide_false,
          Bool.or_false]
        cases newQ.toNat.testBit 1 <;> cases newQ.toNat.testBit 0 <;>
          cases decide (¬ n % d = 0) <;> rfl

/-!
# The result
-/

theorem special?_of_normal {a b : F32} (ha : F32.Normal a) (hb : F32.Normal b) :
    special? a b = none := by
  unfold special? isZeroArith
  simp only [isNan_of_finite ha.right, isNan_of_finite hb.right, isInf_of_finite ha.right,
    isInf_of_finite hb.right, decide_eq_false ha.left, decide_eq_false hb.left, Bool.or_self,
    Bool.and_self, Bool.false_eq_true, if_false]

theorem iterating_begin (v : FDivider) (hnone : special? i.a i.b = none) :
    Iterating i 0 (v.begin i) := by
  have hq : (mant i.a ++ 0#27).toNat = (mant i.a).toNat * 2 ^ 27 := by
    rw [toNat_append_add, BitVec.toNat_ofNat, Nat.zero_mod, Nat.add_zero]
  unfold begin
  rw [hnone]
  refine ⟨rfl, rfl, rfl, rfl, rfl, rfl, rfl, ?_⟩
  rw [hq]
  exact Dividing.start (dividend_lt i.a)

/--
Operands that are not divided are answered at once.
-/
theorem result_special {out : FpOut} (hspecial : special? i.a i.b = some out) :
    sequencer.result i = out := by
  have hbegin : fresh.begin i
      = { fresh with done := true, result := out.result, flags := out.flags } := by
    unfold begin
    rw [hspecial]
  have hidle : sequencer.busy (fresh.begin i) = false := by
    rw [hbegin]
    rfl
  show sequencer.output (sequencer.settle _ _ (fresh.begin i)) = out
  rw [Sequencer.settle_idle hidle, hbegin]
  rfl

theorem result_rounded (ha : F32.Normal i.a) (hb : F32.Normal i.b)
    (hrm : i.rm = modeBits mode) :
    Rounded mode (value K i.a / value K i.b) (sequencer.result i) := by
  unfold Sequencer.result
  refine Sequencer.settle_of_invariant (S := sequencer) (P := Iterating i)
    (Q := fun u => Rounded mode (value K i.a / value K i.b) (sequencer.output u))
    ?_ ?_ ?_ 51 (Nat.zero_le 50) (by decide)
    (iterating_begin fresh (special?_of_normal ha hb))
  · exact fun k u h => h.busy
  · exact fun k u hk h => h.iterate hk _
  · intro u h
    obtain ⟨hends, hout⟩ := h.last i.rm
    obtain ⟨hq, hr⟩ := (h.dividing_iterate (by decide) i.rm).finish
    obtain ⟨hlow, hhigh⟩ := quotient_range i.a i.b
    refine ⟨hends, ?_⟩
    show Rounded mode _ (FpOut.mk (u.iterate i.rm).result (u.iterate i.rm).flags)
    rw [hout, value_div ha.left hb.left, ← h.resultSign, ← h.expA, ← h.expB, hrm]
    rw [hrm] at hq hr
    exact packQuotient_rounded (mant_pos i.b) hq hr hlow hhigh

end

/-!
# Runs
-/

def run (u : FDivider) (j : Nat -> FDividerIn) : Nat -> FDivider
  | 0 => u
  | n + 1 => (run u j n).step (j n)

theorem run_eq (u : FDivider) (j : Nat -> FDividerIn) (n : Nat) :
    run u j n = sequencer.run u j n := by
  induction n with
  | zero => rfl
  | succ n ih =>
      rw [run, ih]
      rfl

/--
An idle unit answers a start with one pulse, in which it shows what a fresh unit would:
the flags of earlier divisions are gone, and a quotient is rounded once.
-/
theorem divides_correctly_rounded (u : FDivider) (hidle : u.busy = false)
    (hdone : u.done = false) (j : Nat -> FDividerIn) (hstart : (j 0).start = true)
    (mode : RoundingMode) (hrm : forall m, m <= 51 -> (j m).rm = modeBits mode) :
    exists n, 0 < n ∧ n <= 52 ∧
      (forall m, m < n -> (run u j m).done = false) ∧
      (run u j n).done = true ∧ (run u j (n + 1)).done = false ∧
      FpOut.mk (run u j n).result (run u j n).flags = sequencer.result (j 0) ∧
      (forall out, special? (j 0).a (j 0).b = some out ->
        FpOut.mk (run u j n).result (run u j n).flags = out) ∧
      (F32.Normal (j 0).a -> F32.Normal (j 0).b ->
        Rounded mode (value Rat (j 0).a / value Rat (j 0).b)
          (FpOut.mk (run u j n).result (run u j n).flags)) := by
  have hstarted : sequencer.Idle u := ⟨hidle, hdone⟩
  have hkey (m : Nat) (hm : m <= sequencer.limit) : (j m).rm = (j 0).rm := by
    rw [hrm m hm, hrm 0 (Nat.zero_le 51)]
  obtain ⟨n, hle, hpulses⟩ := Sequencer.pulses_of_start sequencer_lawful hstarted hstart hkey
  have hshown : FpOut.mk (run u j n).result (run u j n).flags = sequencer.result (j 0) := by
    rw [run_eq]
    exact hpulses.output
  refine ⟨n, hpulses.positive, hle, ?_, ?_, ?_, hshown, ?_, ?_⟩
  · intro m hm
    rw [run_eq]
    exact hpulses.before m hm
  · rw [run_eq]
    exact hpulses.shows.left
  · rw [run_eq]
    exact hpulses.after.right
  · intro out hspecial
    rw [hshown]
    exact result_special hspecial
  · intro ha hb
    rw [hshown]
    exact result_rounded ha hb (hrm 0 (Nat.zero_le 51))

/--
One by three after an overflow whose flags are still in the unit.
-/
theorem divides_correctly_rounded_third :
    exists n, n <= 52 ∧
      Rounded .nearestEven (value Rat 0x3F800000#32 / value Rat 0x40400000#32)
        (FpOut.mk
          (run { fresh with flags := { of := true, nx := true } }
            (fun _ => ⟨true, rmRne, 0x3F800000#32, 0x40400000#32⟩) n).result
          (run { fresh with flags := { of := true, nx := true } }
            (fun _ => ⟨true, rmRne, 0x3F800000#32, 0x40400000#32⟩) n).flags) := by
  obtain ⟨n, -, hle, -, -, -, -, -, hrounded⟩ :=
    divides_correctly_rounded { fresh with flags := { of := true, nx := true } } rfl rfl
      (fun _ => ⟨true, rmRne, 0x3F800000#32, 0x40400000#32⟩) rfl .nearestEven
      (fun _ _ => rfl)
  exact ⟨n, hle, hrounded (by unfold F32.Normal; decide) (by unfold F32.Normal; decide)⟩

end FDivider
end Block
end RvCores
