import RvCores.Block.VectorElement

/-!
# The result of the vector arithmetic unit

The unit works through the elements of one register, one in each cycle.  Arithmetic
writes whole elements, a compare writes one bit for each element.
-/

namespace RvCores
namespace Block

variable {vlen n : Nat}

/-!
# Operations on elements

The operations of the manual, at the width of an element.
-/

inductive VectorArith where
  | add | sub | rsub | minu | min | maxu | max | and | or | xor
deriving DecidableEq, Repr

inductive VectorCmp where
  | seq | sne | sltu | slt | sleu | sle | sgtu | sgt
deriving DecidableEq, Repr

namespace VectorArith

def funct6 : VectorArith -> BitVec 6
  | add => vfunct6Add
  | sub => vfunct6Sub
  | rsub => vfunct6Rsub
  | minu => vfunct6Minu
  | min => vfunct6Min
  | maxu => vfunct6Maxu
  | max => vfunct6Max
  | and => vfunct6And
  | or => vfunct6Or
  | xor => vfunct6Xor

/--
The first operand is the element of `vs2`.
-/
def eval (op : VectorArith) (a b : BitVec n) : BitVec n :=
  match op with
  | add => a + b
  | sub => a - b
  | rsub => b - a
  | minu => if a.toNat < b.toNat then a else b
  | min => if a.toInt < b.toInt then a else b
  | maxu => if b.toNat < a.toNat then a else b
  | max => if b.toInt < a.toInt then a else b
  | and => a &&& b
  | or => a ||| b
  | xor => a ^^^ b

end VectorArith

namespace VectorCmp

def funct6 : VectorCmp -> BitVec 6
  | seq => vfunct6Mseq
  | sne => vfunct6Msne
  | sltu => vfunct6Msltu
  | slt => vfunct6Mslt
  | sleu => vfunct6Msleu
  | sle => vfunct6Msle
  | sgtu => vfunct6Msgtu
  | sgt => vfunct6Msgt

def eval (op : VectorCmp) (a b : BitVec n) : Bool :=
  match op with
  | seq => decide (a = b)
  | sne => decide (a ≠ b)
  | sltu => decide (a.toNat < b.toNat)
  | slt => decide (a.toInt < b.toInt)
  | sleu => decide (a.toNat <= b.toNat)
  | sle => decide (a.toInt <= b.toInt)
  | sgtu => decide (b.toNat < a.toNat)
  | sgt => decide (b.toInt < a.toInt)

end VectorCmp

inductive VectorOp where
  | arith (op : VectorArith)
  | cmp (op : VectorCmp)
deriving DecidableEq, Repr

def VectorOp.funct6 : VectorOp -> BitVec 6
  | arith op => op.funct6
  | cmp op => op.funct6

/-!
# Elements in wide words
-/

namespace Valu

theorem sextElem_setWidth (hpos : 0 < n) (hn : n <= 64) (x : BitVec n) :
    sextElem (x.setWidth 64) n = x.signExtend 64 := by
  have hmsb : (x.setWidth 64).getLsbD (n - 1) = x.msb := by
    rw [BitVec.getLsbD_setWidth, BitVec.msb_eq_getLsbD_last, decide_eq_true (by omega : n - 1 < 64),
      Bool.true_and]
  unfold sextElem
  rw [hmsb]
  apply BitVec.eq_of_getLsbD_eq
  intro k hk
  rw [BitVec.getLsbD_signExtend, decide_eq_true hk, Bool.true_and]
  cases x.msb with
  | false =>
      rw [if_neg Bool.false_ne_true, BitVec.getLsbD_setWidth, decide_eq_true hk, Bool.true_and]
      by_cases hkn : k < n
      · rw [if_pos hkn]
      · rw [if_neg hkn, BitVec.getLsbD_of_ge x k (Nat.le_of_not_lt hkn)]
  | true =>
      rw [if_pos rfl, BitVec.getLsbD_or, BitVec.getLsbD_setWidth, BitVec.getLsbD_shiftLeft,
        BitVec.getLsbD_allOnes, decide_eq_true hk]
      by_cases hkn : k < n
      · simp [hkn]
      · have hsub : k - n < 64 := by omega
        simp [hkn, hsub]

variable (a b : BitVec n)

theorem ult_setWidth (hn : n <= 64) :
    (a.setWidth 64).ult (b.setWidth 64) = decide (a.toNat < b.toNat) := by
  rw [BitVec.ult_eq_decide, BitVec.toNat_setWidth_of_le hn, BitVec.toNat_setWidth_of_le hn]

theorem ule_setWidth (hn : n <= 64) :
    (a.setWidth 64).ule (b.setWidth 64) = decide (a.toNat <= b.toNat) := by
  rw [BitVec.ule_eq_decide, BitVec.toNat_setWidth_of_le hn, BitVec.toNat_setWidth_of_le hn]

theorem slt_sextElem (hpos : 0 < n) (hn : n <= 64) :
    (sextElem (a.setWidth 64) n).slt (sextElem (b.setWidth 64) n)
      = decide (a.toInt < b.toInt) := by
  rw [sextElem_setWidth hpos hn, sextElem_setWidth hpos hn, BitVec.slt_eq_decide,
    BitVec.toInt_signExtend_of_le hn, BitVec.toInt_signExtend_of_le hn]

theorem sle_sextElem (hpos : 0 < n) (hn : n <= 64) :
    (sextElem (a.setWidth 64) n).sle (sextElem (b.setWidth 64) n)
      = decide (a.toInt <= b.toInt) := by
  rw [sextElem_setWidth hpos hn, sextElem_setWidth hpos hn, BitVec.sle_eq_decide,
    BitVec.toInt_signExtend_of_le hn, BitVec.toInt_signExtend_of_le hn]

theorem setWidth_inj (hn : n <= 64) : a.setWidth 64 = b.setWidth 64 <-> a = b := by
  constructor
  · intro heq
    have hnat := congrArg BitVec.toNat heq
    rw [BitVec.toNat_setWidth_of_le hn, BitVec.toNat_setWidth_of_le hn] at hnat
    exact BitVec.eq_of_toNat_eq hnat
  · rintro rfl
    rfl

theorem setWidth_setWidth_self (hn : n <= 64) : (a.setWidth 64).setWidth n = a := by
  apply BitVec.eq_of_toNat_eq
  rw [BitVec.toNat_setWidth, BitVec.toNat_setWidth_of_le hn, Nat.mod_eq_of_lt a.isLt]

theorem setWidth_sub_low (hn : n <= 64) :
    (a.setWidth 64 - b.setWidth 64).setWidth n = a - b := by
  rw [BitVec.sub_eq_add_neg, BitVec.setWidth_add _ _ hn, setWidth_setWidth_self a hn,
    BitVec.setWidth_neg_of_le hn, setWidth_setWidth_self b hn, ← BitVec.sub_eq_add_neg]

/--
The wide arithmetic gives the operation of the element width in its low bits.
-/
theorem setWidth_arith (hpos : 0 < n) (hn : n <= 64) (op : VectorArith) :
    (arith op.funct6 (a.setWidth 64) (b.setWidth 64) n).setWidth n = op.eval a b := by
  unfold arith
  simp only [ult_setWidth _ _ hn, slt_sextElem _ _ hpos hn, decide_eq_true_eq]
  have hpick (c : Prop) [Decidable c] (x y : BitVec n) :
      (if c then x.setWidth 64 else y.setWidth 64).setWidth n = if c then x else y := by
    split <;> exact setWidth_setWidth_self _ hn
  cases op with
  | add =>
      exact (BitVec.setWidth_add _ _ hn).trans (by
        rw [setWidth_setWidth_self a hn, setWidth_setWidth_self b hn]
        rfl)
  | sub => exact setWidth_sub_low a b hn
  | rsub => exact setWidth_sub_low b a hn
  | minu => exact hpick _ a b
  | min => exact hpick _ a b
  | maxu => exact hpick _ a b
  | max => exact hpick _ a b
  | and =>
      exact BitVec.setWidth_and.trans (by
        rw [setWidth_setWidth_self a hn, setWidth_setWidth_self b hn]
        rfl)
  | or =>
      exact BitVec.setWidth_or.trans (by
        rw [setWidth_setWidth_self a hn, setWidth_setWidth_self b hn]
        rfl)
  | xor =>
      exact BitVec.setWidth_xor.trans (by
        rw [setWidth_setWidth_self a hn, setWidth_setWidth_self b hn]
        rfl)

theorem cmpBit_setWidth (hpos : 0 < n) (hn : n <= 64) (op : VectorCmp) :
    cmpBit op.funct6 (a.setWidth 64) (b.setWidth 64) n = op.eval a b := by
  unfold cmpBit
  simp only [ult_setWidth _ _ hn, ule_setWidth _ _ hn, slt_sextElem _ _ hpos hn,
    sle_sextElem _ _ hpos hn, Ne, setWidth_inj _ _ hn]
  cases op <;> rfl

theorem isCmp_funct6 (op : VectorOp) :
    isCmp op.funct6 = match op with
      | .arith _ => false
      | .cmp _ => true := by
  cases op with
  | arith op => cases op <;> rfl
  | cmp op => cases op <;> rfl

/-!
# What a run should leave
-/

end Valu

namespace ValuIn

variable (i : ValuIn vlen) (e : Nat)

def width : Nat := elemWidth i.vsew
def count : Nat := elemCount vlen i.vsew

def operandA : BitVec i.width := element i.vs2Data i.width e

def operandB : BitVec i.width :=
  if i.useScalar then i.scalarData.setWidth i.width else element i.vs1Data i.width e

def active : Bool := elemActive e i.vl.toNat i.vm i.v0Data

def arithElement (op : VectorArith) : BitVec i.width :=
  if i.active e then op.eval (i.operandA e) (i.operandB e) else 0

def cmpElement (op : VectorCmp) : Bool :=
  i.active e && op.eval (i.operandA e) (i.operandB e)

/--
Arithmetic leaves an element of results, a compare a bit at the position of the element
and zeros elsewhere.
-/
def Elementwise (op : VectorOp) (result : BitVec vlen) : Prop :=
  match op with
  | .arith op =>
      forall e, e < i.count -> element result i.width e = i.arithElement e op
  | .cmp op =>
      forall b, result.getLsbD b = (decide (b < i.count) && i.cmpElement b op)

/--
The bits that the first elements determine.
-/
def covered (op : VectorOp) (k b : Nat) : Bool :=
  match op with
  | .arith _ => decide (b < k * i.width)
  | .cmp _ => decide (b < k)

def resultBit (op : VectorOp) (b : Nat) : Bool :=
  match op with
  | .arith op => (i.arithElement (b / i.width) op).getLsbD (b % i.width)
  | .cmp op => i.cmpElement b op

end ValuIn

namespace Valu

variable {i : ValuIn vlen} {op : VectorOp} {k : Nat} {u : Valu vlen}

/--
The unit has worked through `k` elements of the operands that it was started with.
-/
structure Working (i : ValuIn vlen) (op : VectorOp) (k : Nat) (u : Valu vlen) : Prop where
  busy : u.busy = true
  elem : u.elem.toNat = k
  shift : u.shift.toNat = k * i.width
  vs2 : u.vs2 = i.vs2Data
  vs1 : u.vs1 = i.vs1Data
  v0 : u.v0 = i.v0Data
  scalar : u.scalar = i.scalarData
  useScalar : u.useScalar = i.useScalar
  vm : u.vm = i.vm
  vsew : u.vsew = i.vsew
  vl : u.vl.toNat = i.vl.toNat
  funct6 : u.funct6 = op.funct6
  result : forall b, b < vlen -> u.result.getLsbD b = (i.covered op k b && i.resultBit op b)

theorem working_begin (u : Valu vlen) (hop : i.funct6 = op.funct6) :
    Working i op 0 (u.begin i) := by
  have hvl : (i.vl.setWidth (cntBits vlen)).toNat = i.vl.toNat :=
    BitVec.toNat_setWidth_of_le (vlBits_le vlen)
  refine ⟨rfl, rfl, (Nat.zero_mul _).symm, rfl, rfl, rfl, rfl, rfl, rfl, rfl, hvl, hop, ?_⟩
  intro b _
  have hnone : i.covered op 0 b = false := by cases op <;> simp [ValuIn.covered]
  rw [hnone, Bool.false_and]
  exact BitVec.getLsbD_zero

/-!
# One element
-/

/--
What one cycle writes, read off the operands of the start.
-/
theorem Working.iterate_result (h : Working i op k u) (hsew : i.vsew.toNat <= 3) :
    u.iterate.result =
      match op with
      | .arith op =>
          mergeSlice u.result ((elemMask i.width).setWidth vlen <<< (k * i.width))
            ((if i.active k then
                arith op.funct6 ((i.operandA k).setWidth 64) ((i.operandB k).setWidth 64) i.width
              else 0).setWidth vlen <<< (k * i.width))
      | .cmp op =>
          mergeSlice u.result ((1 : BitVec vlen) <<< k)
            (if i.cmpElement k op then (1 : BitVec vlen) <<< k else 0) := by
  have hn : i.width <= 64 := elemWidth_le hsew
  have hpos : 0 < i.width := elemWidth_pos hsew
  have hwidth : elemWidth u.vsew = i.width := congrArg elemWidth h.vsew
  have hA : elemSlice i.vs2Data (k * i.width) i.width = (i.operandA k).setWidth 64 :=
    elemSlice_eq hn i.vs2Data k
  have hB : (if i.useScalar then i.scalarData &&& elemMask i.width
        else elemSlice i.vs1Data (k * i.width) i.width)
      = (i.operandB k).setWidth 64 := by
    unfold ValuIn.operandB
    split
    · exact and_elemMask hn i.scalarData
    · exact elemSlice_eq hn i.vs1Data k
  have hactive : elemActive k i.vl.toNat i.vm i.v0Data = i.active k := rfl
  unfold iterate
  simp only [h.vs2, h.vs1, h.v0, h.scalar, h.useScalar, h.vm, h.vl, h.elem, h.shift, h.funct6,
    hwidth, hA, hB, hactive, isCmp_funct6]
  cases op with
  | arith op =>
      simp only [Bool.false_eq_true, if_false]
      cases i.active k with
      | true => rfl
      | false => simp
  | cmp op =>
      simp only [if_true]
      rw [show VectorOp.funct6 (.cmp op) = op.funct6 from rfl, cmpBit_setWidth _ _ hpos hn op]
      rfl

theorem div_mod_of_within {n b e : Nat} (h : e * n <= b ∧ b < (e + 1) * n) :
    b / n = e ∧ b % n = b - e * n := by
  have hquotient : b / n = e := Nat.div_eq_of_lt_le h.left h.right
  have hsplit := Nat.div_add_mod b n
  rw [hquotient, Nat.mul_comm] at hsplit
  exact ⟨hquotient, by omega⟩

theorem Working.covers (h : Working i op k u) (hsew : i.vsew.toNat <= 3) {b : Nat}
    (hb : b < vlen) :
    u.iterate.result.getLsbD b = (i.covered op (k + 1) b && i.resultBit op b) := by
  have hn : i.width <= 64 := elemWidth_le hsew
  have hpos : 0 < i.width := elemWidth_pos hsew
  rw [h.iterate_result hsew]
  have hold := h.result b hb
  cases op with
  | arith op =>
      simp only [ValuIn.covered, ValuIn.resultBit] at hold ⊢
      rw [getLsbD_mergeElement hn]
      by_cases hin : k * i.width <= b ∧ b < (k + 1) * i.width
      · obtain ⟨hquotient, hrest⟩ := div_mod_of_within hin
        have hlow : b - k * i.width < i.width := by
          have hsucc : (k + 1) * i.width = k * i.width + i.width := Nat.succ_mul k i.width
          omega
        rw [if_pos hin, decide_eq_true hb, decide_eq_true hin.right, hquotient, hrest,
          Bool.true_and, Bool.true_and]
        unfold ValuIn.arithElement
        cases i.active k with
        | false => simp
        | true =>
            rw [if_pos rfl, if_pos rfl, ← setWidth_arith _ _ hpos hn op, BitVec.getLsbD_setWidth,
              decide_eq_true hlow, Bool.true_and]
      · have hsucc : (k + 1) * i.width = k * i.width + i.width := Nat.succ_mul k i.width
        have hsame : decide (b < k * i.width) = decide (b < (k + 1) * i.width) := by
          apply decide_eq_decide.mpr
          omega
        rw [if_neg hin, hold, hsame]
  | cmp op =>
      simp only [ValuIn.covered, ValuIn.resultBit] at hold ⊢
      rw [getLsbD_mergeSlice, hold]
      by_cases hk : b = k
      · subst hk
        have hbit : ((1 : BitVec vlen) <<< b).getLsbD b = true := by
          simp [hb]
        rw [if_pos hbit, decide_eq_true (Nat.lt_succ_self b), Bool.true_and]
        cases i.cmpElement b op with
        | true => exact hbit
        | false => exact BitVec.getLsbD_zero
      · have hbit : ((1 : BitVec vlen) <<< k).getLsbD b = false := by
          simp [BitVec.getLsbD_one]
          omega
        have hsame : decide (b < k) = decide (b < k + 1) := by
          apply decide_eq_decide.mpr
          omega
        rw [hbit, if_neg Bool.false_ne_true, hsame]

theorem Working.iterate (h : Working i op k u) (hvlen : 64 ∣ vlen) (hsew : i.vsew.toNat <= 3)
    (hk : k + 1 < i.count) :
    Working i op (k + 1) u.iterate ∧ u.iterate.done = false := by
  have hlast : decide (u.elem.toNat + 1 = elemCount vlen u.vsew) = false := by
    rw [h.elem, h.vsew, decide_eq_false]
    exact hk.ne
  have hbytes := elemCount_le_pow vlen i.vsew
  have hfill := elemCount_mul_elemWidth hvlen hsew
  have hpos := elemWidth_pos hsew
  have hshift : (k + 1) * i.width < 2 ^ shiftBits vlen := by
    calc (k + 1) * i.width < i.count * i.width := Nat.mul_lt_mul_of_pos_right hk hpos
      _ = vlen := hfill
      _ <= 2 ^ shiftBits vlen := Nat.le_pow_clog (by decide) _
  constructor
  · refine ⟨?_, ?_, ?_, h.vs2, h.vs1, h.v0, h.scalar, h.useScalar, h.vm, h.vsew, h.vl, h.funct6,
      fun b hb => h.covers hsew hb⟩
    · simp only [Valu.iterate, hlast, Bool.false_eq_true, if_false]
      exact h.busy
    · simp only [Valu.iterate, hlast, Bool.false_eq_true, if_false]
      have hone : (1 : BitVec (eidxBits vlen)).toNat = 1 % 2 ^ eidxBits vlen := rfl
      rw [BitVec.toNat_add, hone, h.elem, Nat.add_mod_mod,
        Nat.mod_eq_of_lt (Nat.lt_of_lt_of_le hk hbytes)]
    · simp only [Valu.iterate, hlast, Bool.false_eq_true, if_false]
      have hnext : u.shift.toNat + elemWidth u.vsew = (k + 1) * i.width := by
        rw [h.shift, h.vsew, Nat.succ_mul]
        rfl
      rw [BitVec.toNat_add, BitVec.toNat_ofNat, Nat.add_mod_mod, hnext, Nat.mod_eq_of_lt hshift]
  · exact hlast

theorem Working.last (h : Working i op k u) (hvlen : 64 ∣ vlen) (hsew : i.vsew.toNat <= 3)
    (hk : k + 1 = i.count) :
    u.iterate.busy = false ∧ u.iterate.done = true ∧ i.Elementwise op u.iterate.result := by
  have hlast : decide (u.elem.toNat + 1 = elemCount vlen u.vsew) = true := by
    rw [h.elem, h.vsew, decide_eq_true]
    exact hk
  have hfill : i.count * i.width = vlen := elemCount_mul_elemWidth hvlen hsew
  have hpos : 0 < i.width := elemWidth_pos hsew
  refine ⟨?_, hlast, ?_⟩
  · simp only [Valu.iterate, hlast, if_true]
  · cases op with
    | arith op =>
        intro e he
        apply BitVec.eq_of_getLsbD_eq
        intro t ht
        have hlt : e * i.width + t < vlen := by
          calc e * i.width + t < (e + 1) * i.width := by
                rw [Nat.succ_mul]
                omega
            _ <= i.count * i.width := Nat.mul_le_mul_right _ he
            _ = vlen := hfill
        have hquotient : (e * i.width + t) / i.width = e := by
          rw [Nat.mul_comm, Nat.mul_add_div hpos, Nat.div_eq_of_lt ht, Nat.add_zero]
        have hrest : (e * i.width + t) % i.width = t := by
          rw [Nat.mul_comm, Nat.mul_add_mod, Nat.mod_eq_of_lt ht]
        unfold element
        rw [BitVec.getLsbD_extractLsb', decide_eq_true ht, Bool.true_and, h.covers hsew hlt, hk]
        simp only [ValuIn.covered, ValuIn.resultBit, hquotient, hrest, hfill,
          decide_eq_true hlt, Bool.true_and]
    | cmp op =>
        intro b
        by_cases hb : b < vlen
        · rw [h.covers hsew hb, hk]
          rfl
        · have hnone : ¬ b < i.count := by
            have hle := elemCount_le vlen i.vsew
            have hcount : i.count <= vlen / 8 := hle
            omega
          rw [BitVec.getLsbD_of_ge _ b (Nat.le_of_not_lt hb), decide_eq_false hnone,
            Bool.false_and]

/-!
# Runs
-/

def run (u : Valu vlen) (j : Nat -> ValuIn vlen) : Nat -> Valu vlen
  | 0 => u
  | m + 1 => (run u j m).step (j m)

theorem step_of_busy (hbusy : u.busy = true) (i : ValuIn vlen) : u.step i = u.iterate := by
  simp [step, hbusy]

theorem step_of_start (hidle : u.busy = false) (hstart : i.start = true) :
    u.step i = u.begin i := by
  simp [step, hidle, hstart]

theorem step_of_noStart (hidle : u.busy = false) (hstart : i.start = false) :
    u.step i = { u with done := false } := by
  simp [step, hidle, hstart]

variable {j : Nat -> ValuIn vlen}

/--
Whatever is on the port while it is busy, the unit works on the operands of the start.
-/
theorem working_run (hvlen : 64 ∣ vlen) (hidle : u.busy = false)
    (hstart : (j 0).start = true) (hsew : (j 0).vsew.toNat <= 3)
    (hop : (j 0).funct6 = op.funct6) (k : Nat) (hk : k < (j 0).count) :
    Working (j 0) op k (run u j (k + 1)) ∧ (run u j (k + 1)).done = false := by
  induction k with
  | zero =>
      have hbegin : run u j 1 = u.begin (j 0) := step_of_start hidle hstart
      rw [hbegin]
      exact ⟨working_begin u hop, rfl⟩
  | succ k ih =>
      obtain ⟨hworking, _⟩ := ih (Nat.lt_of_succ_lt hk)
      have hstep : run u j (k + 2) = (run u j (k + 1)).iterate :=
        step_of_busy hworking.busy (j (k + 1))
      rw [hstep]
      exact hworking.iterate hvlen hsew hk

/--
A unit that is not started again keeps its result and is done for one cycle.
-/
theorem run_rests {n : Nat} (hidle : (run u j n).busy = false)
    (hdone : (run u j n).done = true) (m : Nat)
    (hquiet : forall k, n <= k -> k < n + m -> (j k).start = false) :
    (run u j (n + m)).busy = false ∧ (run u j (n + m)).done = decide (m = 0) ∧
      (run u j (n + m)).result = (run u j n).result := by
  induction m with
  | zero => exact ⟨hidle, hdone, rfl⟩
  | succ m ih =>
      obtain ⟨hrest, _, hresult⟩ := ih fun k hle hlt => hquiet k hle (by omega)
      have hstep : run u j (n + (m + 1)) = { run u j (n + m) with done := false } :=
        step_of_noStart hrest (hquiet (n + m) (by omega) (by omega))
      rw [hstep]
      exact ⟨hrest, rfl, hresult⟩

/-!
# The widths of the source
-/

/--
The step of the shift is padded with `SHIFT_BITS-8` zeros, and the count register takes
its bits from the port of the vector length.
-/
structure Elaborates (vlen : Nat) : Prop where
  padded : 8 <= shiftBits vlen
  selected : cntBits vlen <= vlBits vlen

theorem elaborates_iff (hvlen : 64 ∣ vlen) :
    Elaborates vlen <-> exists k, 8 <= k ∧ vlen = 2 ^ k := by
  constructor
  · intro h
    have hbytes : vlen / 8 <= 2 ^ eidxBits vlen := Nat.le_pow_clog (by decide) _
    -- one byte more needs one bit more, so the bytes are a power of two
    have hfull : 2 ^ eidxBits vlen < vlen / 8 + 1 :=
      (Nat.lt_clog_iff_pow_lt (by decide)).mp h.selected
    have hpow : vlen = 2 ^ (eidxBits vlen + 3) := by
      rw [Nat.pow_add]
      omega
    refine ⟨eidxBits vlen + 3, ?_, hpow⟩
    have hpadded := h.padded
    unfold shiftBits at hpadded
    rwa [hpow, Nat.clog_pow 2 _ (by decide)] at hpadded
  · rintro ⟨k, hk, rfl⟩
    have hsplit : 2 ^ k = 2 ^ (k - 3) * 8 := by
      rw [show (8 : Nat) = 2 ^ 3 from rfl, ← Nat.pow_add, Nat.sub_add_cancel (by omega)]
    have heidx : eidxBits (2 ^ k) = k - 3 := by
      unfold eidxBits
      rw [hsplit, Nat.mul_div_cancel _ (by decide), Nat.clog_pow 2 _ (by decide)]
    constructor
    · unfold shiftBits
      rwa [Nat.clog_pow 2 _ (by decide)]
    · unfold cntBits vlBits
      apply (Nat.lt_clog_iff_pow_lt (by decide)).mpr
      rw [heidx, hsplit, Nat.mul_div_cancel _ (by decide)]
      exact Nat.lt_succ_self _

/--
At 64 bits the padding is negative; at 320 bits the port has no bit for the top of the
count.
-/
theorem not_every_width :
    (64 ∣ 64 ∧ shiftBits 64 = 6 ∧ ¬ Elaborates 64) ∧
      (64 ∣ 320 ∧ cntBits 320 = 7 ∧ vlBits 320 = 6 ∧ ¬ Elaborates 320) := by
  have hshift : shiftBits 64 = 6 := by decide
  have hcnt : cntBits 320 = 7 := by decide
  have hport : vlBits 320 = 6 := by decide
  refine ⟨⟨by decide, hshift, ?_⟩, by decide, hcnt, hport, ?_⟩
  · intro h
    have hpadded := h.padded
    omega
  · intro h
    have hselected := h.selected
    omega

/--
Registers are a power of two wide, of at least 256 bits.  Started while it is idle, the
unit is busy for one cycle for each element and then shows its result, with one pulse
until it is started again.
-/
theorem valu_elementwise (hvlen : exists k, 8 <= k ∧ vlen = 2 ^ k) (u : Valu vlen)
    (hidle : u.busy = false) (j : Nat -> ValuIn vlen) (hstart : (j 0).start = true)
    (hsew : (j 0).vsew.toNat <= 3) (op : VectorOp) (hop : (j 0).funct6 = op.funct6) :
    Elaborates vlen ∧
    (forall m, 0 < m -> m <= (j 0).count ->
      (run u j m).busy = true ∧ (run u j m).done = false) ∧
    (run u j ((j 0).count + 1)).done = true ∧
    (j 0).Elementwise op (run u j ((j 0).count + 1)).result ∧
    forall m, (j 0).count + 1 <= m ->
      (forall k, (j 0).count + 1 <= k -> k < m -> (j k).start = false) ->
      (run u j m).done = decide (m = (j 0).count + 1) ∧
        (run u j m).result = (run u j ((j 0).count + 1)).result := by
  have hdvd : 64 ∣ vlen := by
    obtain ⟨k, hk, rfl⟩ := hvlen
    exact Nat.pow_dvd_pow 2 (by omega : 6 <= k)
  have hpos : 0 < vlen := by
    obtain ⟨k, -, rfl⟩ := hvlen
    exact Nat.two_pow_pos k
  have hcount : 0 < (j 0).count := elemCount_pos hdvd hpos hsew
  have hlast : (j 0).count - 1 + 1 = (j 0).count := by omega
  obtain ⟨hworking, _⟩ := working_run hdvd hidle hstart hsew hop ((j 0).count - 1) (by omega)
  rw [hlast] at hworking
  have hstep : run u j ((j 0).count + 1) = (run u j (j 0).count).iterate :=
    step_of_busy hworking.busy (j (j 0).count)
  obtain ⟨hends, hpulse, hresult⟩ := hworking.last hdvd hsew hlast
  rw [← hstep] at hends hpulse hresult
  refine ⟨(elaborates_iff hdvd).mpr hvlen, ?_, hpulse, hresult, ?_⟩
  · intro m hm hle
    obtain ⟨k, rfl⟩ : exists k, m = k + 1 := ⟨m - 1, by omega⟩
    obtain ⟨hbusy, hdone⟩ := working_run hdvd hidle hstart hsew hop k (by omega)
    exact ⟨hbusy.busy, hdone⟩
  · intro m hm hquiet
    obtain ⟨d, rfl⟩ : exists d, m = (j 0).count + 1 + d := ⟨m - ((j 0).count + 1), by omega⟩
    obtain ⟨_, hdone, hsame⟩ := run_rests hends hpulse d hquiet
    refine ⟨hdone.trans (decide_eq_decide.mpr ?_), hsame⟩
    omega

/--
A masked signed minimum of bytes with a scalar.
-/
def minimumIn : ValuIn 256 :=
  { start := true
    vs2Data := 0x01FF7F8000050607
    vs1Data := 0
    scalarData := 0xFFFFFFFFFFFFFFFE
    useScalar := true
    v0Data := 0b01111101
    vm := false
    vsew := 0
    vl := 7
    funct6 := vfunct6Min }

def idleValu : Valu 256 :=
  { busy := false, done := false, result := 0, elem := 0, shift := 0, vs2 := 0, vs1 := 0, v0 := 0
    scalar := 0, useScalar := false, vm := false, vsew := 0, vl := 0, funct6 := 0 }

theorem valu_elementwise_minimum :
    (run idleValu (fun _ => minimumIn) 33).done = true ∧
      element (run idleValu (fun _ => minimumIn) 33).result 8 4 = 0x80#8 ∧
      element (run idleValu (fun _ => minimumIn) 33).result 8 1 = 0#8 := by
  obtain ⟨-, -, hpulse, hresult, -⟩ :=
    valu_elementwise ⟨8, by decide, rfl⟩ idleValu rfl (fun _ => minimumIn) rfl (by decide)
      (.arith .min) rfl
  exact ⟨hpulse, (hresult 4 (by decide)).trans rfl,
    (hresult 1 (by decide)).trans rfl⟩

end Valu
end Block
end RvCores
