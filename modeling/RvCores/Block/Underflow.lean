import RvCores.Block.FDividerResult
import RvCores.Block.FMadd

/-!
# Underflow

A result below the normal range is flushed to a signed zero.  The underflow flag says so
whatever was lost; the inexact flag looks at the bits below the significand only.
-/

namespace RvCores
namespace Block

open Lib F32

variable {K : Type} [Field K] [LinearOrder K] [IsStrictOrderedRing K]

/-!
# What a flush reports
-/

theorem isZeroArith_of_normal {x : F32} (h : F32.Normal x) : isZeroArith x = false :=
  decide_eq_false h.left

theorem isZeroArith_overflowResult (mode : RoundingMode) (neg : Bool) :
    isZeroArith (overflowResult mode neg) = false := by
  cases mode <;> cases neg <;> rfl

/--
Only a result below the normal range comes out as a zero.
-/
theorem Rounded.flush {mode : RoundingMode} {x : K} {out : FpOut} (h : Rounded mode x out)
    (hzero : isZeroArith out.result = true) :
    out.flags.uf = true ∧ (out.flags.nx = true <-> ¬ Representable 24 x) := by
  obtain ⟨v, -, hdelivers⟩ := h
  rcases lt_or_ge |v| (2 ^ (-126 : Int)) with htiny | hmin
  · have hmax : |v| < (2 : K) ^ (128 : Int) :=
      lt_trans htiny (zpow_lt_zpow_right₀ one_lt_two (by decide))
    exact ⟨(hdelivers.tiny htiny).right.right, hdelivers.inexact hmax⟩
  · rcases lt_or_ge |v| (2 ^ (128 : Int)) with hmax | hover
    · rw [isZeroArith_of_normal (hdelivers.normal hmin hmax).left] at hzero
      cases hzero
    · rw [(hdelivers.overflow hover).left, isZeroArith_overflowResult] at hzero
      cases hzero

/-!
# The operations that round
-/

inductive ArithOp where
  | comb (op : RoundingOp)
  | fdiv
  | fused (op : BitVec 2)
deriving DecidableEq

namespace ArithOp

def exactValue (K : Type) [Field K] (op : ArithOp) (a b c : F32) : K :=
  match op with
  | comb op => op.exactValue K a b
  | fdiv => value K a / value K b
  | fused op => FMadd.exactValue K op a b c

/--
The divider shows its result after some cycles, the other units in the same one.
-/
def output (op : ArithOp) (mode : RoundingMode) (a b c : F32) : FpOut :=
  match op with
  | comb op => falu op.funct5 (modeBits mode) 0 a b
  | fdiv => FDivider.sequencer.result { start := true, rm := modeBits mode, a := a, b := b }
  | fused op => fmaddUnit op (modeBits mode) a b c

end ArithOp

omit [LinearOrder K] [IsStrictOrderedRing K] in
theorem normal_of_value {x : F32} (h : Finite x) (hne : value K x ≠ 0) : F32.Normal x :=
  ⟨fun hzero => hne (value_of_zero hzero), h⟩

theorem output_rounded {op : ArithOp} {mode : RoundingMode} {a b c : F32} (ha : Finite a)
    (hb : Finite b) (hc : Finite c) (hne : op.exactValue K a b c ≠ 0) :
    Rounded mode (op.exactValue K a b c) (op.output mode a b c) := by
  cases op with
  | comb op => exact falu_rounded ha hb hne 0
  | fdiv =>
      have hquotient : value K a / value K b ≠ 0 := hne
      rw [div_ne_zero_iff] at hquotient
      exact FDivider.result_rounded
        (i := { start := true, rm := modeBits mode, a := a, b := b })
        (normal_of_value ha hquotient.left) (normal_of_value hb hquotient.right) rfl
  | fused op => exact FMadd.fmaddUnit_rounded ha hb hc hne

/--
A flushed result sets both flags exactly when the result has more than 24 bits.
-/
theorem flush_reports_underflow (op : ArithOp) (mode : RoundingMode) (a b c : F32)
    (ha : Finite a) (hb : Finite b) (hc : Finite c) (hne : op.exactValue Rat a b c ≠ 0)
    (hflush : isZeroArith (op.output mode a b c).result = true) :
    ((op.output mode a b c).flags.uf = true ∧ (op.output mode a b c).flags.nx = true) <->
      ¬ Representable 24 (op.exactValue Rat a b c) := by
  have hrounded : Rounded mode (op.exactValue Rat a b c) (op.output mode a b c) :=
    output_rounded ha hb hc hne
  obtain ⟨huf, hnx⟩ := hrounded.flush hflush
  rw [← hnx]
  constructor
  · intro h
    exact h.right
  · intro h
    exact ⟨huf, h⟩

theorem finite_of_exp {x : F32} (h : F32.exp x ≠ 0xFF) : F32.Finite x := h

/--
The smallest normal value times one and a half of one half: the bits below are lost.
-/
theorem flush_reports_underflow_product :
    (((ArithOp.comb .fmul).output .nearestEven 0x00800001#32 0x3F400000#32 0).flags.uf = true ∧
      ((ArithOp.comb .fmul).output .nearestEven 0x00800001#32 0x3F400000#32 0).flags.nx = true) <->
      ¬ Representable 24
        ((ArithOp.comb .fmul).exactValue Rat 0x00800001#32 0x3F400000#32 0) :=
  flush_reports_underflow (.comb .fmul) .nearestEven 0x00800001#32 0x3F400000#32 0
    (finite_of_exp (by decide)) (finite_of_exp (by decide)) (finite_of_exp (by decide))
    (by decide +kernel) (by decide)

/--
Half of the smallest normal value is flushed, and counts as exact.
-/
theorem flush_keeps_inexact_clear :
    (ArithOp.comb .fmul).exactValue Rat 0x00800000#32 0x3F000000#32 0 ≠ 0 ∧
      (ArithOp.comb .fmul).output .nearestEven 0x00800000#32 0x3F000000#32 0
        = { result := F32.zero false, flags := { uf := true } } := by
  refine ⟨by decide +kernel, ?_⟩
  rfl

end Block
end RvCores
