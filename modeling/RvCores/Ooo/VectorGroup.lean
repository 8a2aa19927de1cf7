import Mathlib.Tactic.IntervalCases
import RvCores.Ooo.Cracking

/-!
# Vector arithmetic on register groups

Which registers and which elements the micro-operations of one vector arithmetic
instruction work on.  The micro-operations of a whole group cover every element once,
but only groups of one and two registers are dispatched as a whole.
-/

namespace RvCores
namespace Ooo
namespace Core

open Isa Block

variable {P : Params} {s : Core} {i : Input}

/-!
# Micro-operations
-/

structure VecOperands where
  vd : Nat
  vs2 : Nat
  vs1 : Option Nat

namespace VecOperands

def shift (k : Nat) (r : VecOperands) : VecOperands :=
  { vd := r.vd + k, vs2 := r.vs2 + k, vs1 := r.vs1.map (· + k) }

def toList (r : VecOperands) : List Nat := r.vd :: r.vs2 :: r.vs1.toList

end VecOperands

structure VecMicroOp where
  operands : VecOperands
  vl : Nat

/--
The registers in which a micro-operation computes elements, and their places there.
-/
def VecMicroOp.elements (op : VecMicroOp) : List (Nat × Nat) :=
  (List.range op.vl).map fun j => (op.operands.vd, j)

def vecMicroOp (P : Params) (s : Core) : VecMicroOp :=
  { operands :=
      { vd := s.vecVdAreg P
        vs2 := s.vecVs2Areg P
        vs1 := if s.vecArithUseScalar P then none else some (s.vecVs1Areg P) }
    vl := (s.valuPayload P).vl }

/--
The operands as the instruction names them.
-/
def vecOperands (P : Params) (s : Core) : VecOperands :=
  { vd := (s.instWord P).rd.toNat
    vs2 := (s.instWord P).rs2.toNat
    vs1 := if s.vecArithUseScalar P then none else some (s.instWord P).rs1.toNat }

/-!
# The slice of one register
-/

/--
How many of the first `vl` elements lie in register `k` of the group.
-/
def sliceLength (per vl k : Nat) : Nat := min per (vl - k * per)

theorem slices_cover {per vl : Nat} (hper : 0 < per) (base n : Nat) :
    (List.range n).flatMap (fun k =>
        (List.range (sliceLength per vl k)).map fun j => (base + k, j)) =
      (List.range (min vl (n * per))).map fun e => (base + e / per, e % per) := by
  induction n with
  | zero => simp
  | succ n ih =>
      have hsplit : min vl ((n + 1) * per) = min vl (n * per) + sliceLength per vl n := by
        unfold sliceLength
        rw [Nat.add_mul, Nat.one_mul]
        omega
      rw [List.range_succ, List.flatMap_append, ih, hsplit, List.range_add, List.map_append,
        List.flatMap_singleton, List.map_map]
      congr 1
      apply List.map_congr_left
      intro j hj
      have hlt : j < sliceLength per vl n := List.mem_range.mp hj
      unfold sliceLength at hlt
      have hfull : min vl (n * per) = n * per := by omega
      have hj : j < per := by omega
      simp only [Function.comp_apply, hfull]
      rw [Nat.mul_comm n per, Nat.mul_add_div hper, Nat.mul_add_mod, Nat.div_eq_of_lt hj,
        Nat.mod_eq_of_lt hj, Nat.add_zero]

theorem vecElemsPerReg_pos (h : s.csr.vsew.toNat <= 3) :
    0 < s.vecElemsPerReg ∧ s.vecElemsPerReg <= 64 := by
  unfold vecElemsPerReg vlen
  generalize s.csr.vsew.toNat = sew at h
  interval_cases sew <;> decide

theorem vecLocalVl_eq (hsew : s.csr.vsew.toNat <= 3) (hoffset : s.vecCrackOffset < 32) :
    (s.valuPayload P).vl = sliceLength s.vecElemsPerReg s.csr.vl.toNat s.vecCrackOffset := by
  obtain ⟨_, hper⟩ := vecElemsPerReg_pos hsew
  have hbase : s.vecCrackOffset * s.vecElemsPerReg <= 31 * 64 :=
    Nat.mul_le_mul (Nat.le_of_lt_succ hoffset) hper
  show s.vecLocalVl.toNat % 128 = _
  unfold vecLocalVl sliceLength
  generalize s.vecCrackOffset * s.vecElemsPerReg = base at hbase
  generalize s.vecElemsPerReg = per at hper
  have hbaseNat : (BitVec.ofNat 64 base).toNat = base := by
    rw [BitVec.toNat_ofNat]
    omega
  have hperNat : (BitVec.ofNat 64 per).toNat = per := by
    rw [BitVec.toNat_ofNat]
    omega
  have hvl := s.csr.vl.isLt
  simp only [BitVec.le_def, GT.gt, BitVec.lt_def, hbaseNat, hperNat]
  split
  · change 0 % 128 = _
    omega
  · have hsub : (s.csr.vl - BitVec.ofNat 64 base).toNat = s.csr.vl.toNat - base := by
      rw [BitVec.toNat_sub, hbaseNat]
      omega
    rw [hsub]
    split <;> omega

/-!
# Arithmetic on a group

The instruction is legal: its group size is a whole number of registers, its element
width is one of the four and its vector length fits the group.
-/

structure ArithRun (P : Params) extends GroupRun P where
  arith : (toGroupRun.core 0).isVecArith P = true
  wholeRegisters : (toGroupRun.core 0).csr.vlmul.getLsbD 2 = false
  legalWidth : (toGroupRun.core 0).csr.vsew.toNat <= 3
  fits : (toGroupRun.core 0).csr.vl.toNat <=
    2 ^ (toGroupRun.core 0).csr.vlmul.toNat * (toGroupRun.core 0).vecElemsPerReg

namespace ArithRun

variable (t : ArithRun P)

def lmul : Nat := 2 ^ (t.core 0).csr.vlmul.toNat
def vl : Nat := (t.core 0).csr.vl.toNat
def perReg : Nat := (t.core 0).vecElemsPerReg
def operands : VecOperands := (t.core 0).vecOperands P

def microOps (n : Nat) : List VecMicroOp := (t.history n).map (vecMicroOp P)

/--
Every register group starts at a multiple of its size.
-/
def Aligned : Prop := forall r, r ∈ t.operands.toList -> r % t.lmul = 0

instance : Decidable t.Aligned :=
  inferInstanceAs (Decidable (forall r, r ∈ t.operands.toList -> r % t.lmul = 0))

/--
One micro-operation for each register of the group is dispatched before the program
counter moves on, and together they compute each of the elements once, in the register
where it lies.
-/
def DispatchesGroup : Prop :=
  exists n, t.Held n ∧ t.dispatches n = true ∧ (t.core (n + 1)).pc = t.pc + 4 ∧
    (t.microOps (n + 1)).map VecMicroOp.operands =
      (List.range t.lmul).map (fun k => t.operands.shift k) ∧
    (t.microOps (n + 1)).flatMap VecMicroOp.elements =
      (List.range t.vl).map fun e => (t.operands.vd + e / t.perReg, e % t.perReg)

/--
The instruction becomes an illegal-instruction trap.
-/
def Rejected : Prop :=
  (t.core 1).trapInflight =
    { valid := true, isMret := false, pc := t.pc, cause := 2, robTag := (t.core 0).robAllocTag0 }

/--
The stall after the first micro-operation ends, and no trap or interrupt takes the fetch
elsewhere before it does.
-/
def Resumes : Prop :=
  exists n, 0 < n ∧ t.dispatches n = true ∧ forall m, 0 < m -> m < n ->
    (t.core m).csrTrapTaken (t.input m) = true -> (t.core m).csr.mtvec = t.pc

/--
A start of a group that the alignment mask stops.
-/
def Masked (r : Nat) : Prop :=
  t.lmul = 2 ∧ r % 2 ≠ 0 ∨ t.lmul = 4 ∧ 2 <= r % 4 ∨ t.lmul = 8 ∧ r % 4 ≠ 0

end ArithRun

namespace ArithRun

variable {t : ArithRun P} {n d : Nat}

/-!
# Group size, group count and alignment mask
-/

theorem lmul_count_table : forall v : BitVec 3, v.getLsbD 2 = false ->
    let count := if v.getLsbD 2 then 1 else (v.setWidth 2 : BitVec 2).toNat + 1
    2 ^ v.toNat = 1 ∧ count = 1 ∨ 2 ^ v.toNat = 2 ∧ count = 2 ∨
      2 ^ v.toNat = 4 ∧ count = 3 ∨ 2 ^ v.toNat = 8 ∧ count = 4 := by
  decide

theorem lmul_count (t : ArithRun P) :
    t.lmul = 1 ∧ t.count = 1 ∨ t.lmul = 2 ∧ t.count = 2 ∨ t.lmul = 4 ∧ t.count = 3 ∨
      t.lmul = 8 ∧ t.count = 4 :=
  lmul_count_table _ t.wholeRegisters

theorem mask_table : forall r : BitVec 5,
    (r &&& 0#5 = 0) ∧ (r &&& 1#5 ≠ 0 <-> r.toNat % 2 ≠ 0) ∧
      (r &&& 2#5 ≠ 0 <-> 2 <= r.toNat % 4) ∧ (r &&& 3#5 ≠ 0 <-> r.toNat % 4 ≠ 0) := by
  decide

theorem misaligned_iff (t : ArithRun P) (r : BitVec 5) :
    (t.core 0).misalignedGroup r = true <-> t.Masked r.toNat := by
  obtain ⟨hone, htwo, hfour, height⟩ := mask_table r
  have hmask : (t.core 0).misalignedGroup r =
      decide (r &&& BitVec.ofNat 5 (t.count - 1) ≠ 0) :=
    rfl
  rw [hmask, decide_eq_true_eq, Masked]
  rcases lmul_count t with ⟨hl, hc⟩ | ⟨hl, hc⟩ | ⟨hl, hc⟩ | ⟨hl, hc⟩
  · simp [hl, hc]
  · simpa [hl, hc] using htwo
  · simpa [hl, hc] using hfour
  · simpa [hl, hc] using height

theorem unaligned_iff (hidle : (t.core 0).vecCrack.active = false) :
    (t.core 0).vecUnaligned P = true <-> exists r, r ∈ t.operands.toList ∧ t.Masked r := by
  have hscalar : t.operands.vs1 =
      if (t.core 0).vecArithUseScalar P then none else some ((t.core 0).instWord P).rs1.toNat :=
    rfl
  have hvd : t.operands.vd = ((t.core 0).instWord P).rd.toNat := rfl
  have hvs2 : t.operands.vs2 = ((t.core 0).instWord P).rs2.toNat := rfl
  have hclass : (t.core 0).vecIsCrackedClass P = true := t.cracked
  cases huse : (t.core 0).vecArithUseScalar P <;>
    simp [vecUnaligned, hclass, hidle, t.arith, huse, VecOperands.toList, hscalar, hvd, hvs2,
      misaligned_iff]
  tauto

theorem not_masked_of_aligned (haligned : t.Aligned) {r : Nat} (hr : r ∈ t.operands.toList) :
    ¬ t.Masked r := by
  have hmod := haligned r hr
  unfold Masked
  rcases lmul_count t with ⟨hl, _⟩ | ⟨hl, _⟩ | ⟨hl, _⟩ | ⟨hl, _⟩ <;> rw [hl] at hmod ⊢ <;> omega

theorem unaligned_of_aligned (hidle : (t.core 0).vecCrack.active = false)
    (haligned : t.Aligned) : (t.core 0).vecUnaligned P = false := by
  rw [Bool.eq_false_iff, ne_eq, unaligned_iff hidle]
  rintro ⟨r, hr, hmasked⟩
  exact not_masked_of_aligned haligned hr hmasked

/-!
# The micro-operation at an offset
-/

theorem toNat_add_offset (t : ArithRun P) {r : BitVec 5} {k : Nat} (hr : r.toNat % t.lmul = 0)
    (hk : k < t.lmul) : (r + BitVec.ofNat 5 k).toNat = r.toNat + k := by
  have hlt := r.isLt
  rw [BitVec.toNat_add, BitVec.toNat_ofNat]
  rcases lmul_count t with ⟨hl, _⟩ | ⟨hl, _⟩ | ⟨hl, _⟩ | ⟨hl, _⟩ <;> rw [hl] at hr hk <;> omega

theorem vecMicroOp_of_repeats (haligned : t.Aligned) (h : t.Repeats s)
    (hk : s.vecCrackOffset < t.lmul) :
    s.vecMicroOp P =
      { operands := t.operands.shift s.vecCrackOffset
        vl := sliceLength t.perReg t.vl s.vecCrackOffset } := by
  have hvsew : s.csr.vsew = (t.core 0).csr.vsew := by
    simp only [Csr.vsew, h.vtype]
  have hper : s.vecElemsPerReg = t.perReg := by
    simp only [vecElemsPerReg, hvsew, perReg]
  have huse : s.vecArithUseScalar P = (t.core 0).vecArithUseScalar P := by
    simp only [vecArithUseScalar, vecArithIsVx, vecArithIsVi, isVecArith, ctrl, h.word]
    rfl
  have hsmall : s.vecCrackOffset < 32 := by
    rcases lmul_count t with ⟨hl, _⟩ | ⟨hl, _⟩ | ⟨hl, _⟩ | ⟨hl, _⟩ <;> omega
  have hvl : (s.valuPayload P).vl = sliceLength t.perReg t.vl s.vecCrackOffset := by
    rw [vecLocalVl_eq (hvsew ▸ t.legalWidth) hsmall, hper, h.vl]
    rfl
  have hvd : s.vecVdAreg P = t.operands.vd + s.vecCrackOffset := by
    rw [vecVdAreg, h.word]
    exact toNat_add_offset t (haligned _ List.mem_cons_self) hk
  have hvs2 : s.vecVs2Areg P = t.operands.vs2 + s.vecCrackOffset := by
    rw [vecVs2Areg, h.word]
    exact toNat_add_offset t (haligned _ (List.mem_cons_of_mem _ List.mem_cons_self)) hk
  have hvs1 : (if s.vecArithUseScalar P then none else some (s.vecVs1Areg P)) =
      t.operands.vs1.map (· + s.vecCrackOffset) := by
    cases hscalar : (t.core 0).vecArithUseScalar P with
    | true => simp [huse, hscalar, operands, vecOperands]
    | false =>
        have hnamed : t.operands.vs1 = some t.word.rs1.toNat := by
          simp [operands, vecOperands, hscalar, GroupRun.word]
        have hmem : t.word.rs1.toNat ∈ t.operands.toList := by
          simp [VecOperands.toList, hnamed]
        rw [huse, hscalar, hnamed, vecVs1Areg, h.word, toNat_add_offset t (haligned _ hmem) hk]
        rfl
  rw [vecMicroOp, hvl, hvd, hvs2, hvs1]
  rfl

theorem microOps_of_offsets (haligned : t.Aligned)
    (hoffsets : (t.history n).map vecCrackOffset = List.range d)
    (hrepeats : forall s, s ∈ t.history n -> t.Repeats s) (hd : d <= t.lmul) :
    t.microOps n = (List.range d).map fun k =>
      { operands := t.operands.shift k, vl := sliceLength t.perReg t.vl k } := by
  rw [← hoffsets, List.map_map]
  apply List.map_congr_left
  intro s hs
  apply vecMicroOp_of_repeats haligned (hrepeats s hs)
  have hmem : s.vecCrackOffset ∈ List.range d := hoffsets ▸ List.mem_map_of_mem hs
  exact Nat.lt_of_lt_of_le (List.mem_range.mp hmem) hd

/-!
# Groups that are dispatched as a whole
-/

theorem dispatchesGroup_of_last (haligned : t.Aligned) (h : t.Underway n d)
    (hidle : (t.core 0).vecCrack.active = false) (hfetch : t.Fetched) (hheld : t.Held n)
    (hd : t.dispatches n = true) (hlast : d + 1 = t.count) (hcount : t.count = t.lmul) :
    t.DispatchesGroup := by
  have hword := hfetch n hheld hd
  have hunaligned := unaligned_of_aligned hidle haligned
  obtain ⟨hoffsets, hrepeats⟩ := h.record hword hd
  rw [hlast, hcount] at hoffsets
  have hops := microOps_of_offsets haligned hoffsets hrepeats (Nat.le_refl _)
  refine ⟨n, hheld, hd, ?_, ?_, ?_⟩
  · rw [(h.last hword hunaligned hd hlast).right, hheld n (Nat.le_refl n)]
  · rw [hops, List.map_map]
    rfl
  · have hfit : min t.vl (t.lmul * t.perReg) = t.vl := Nat.min_eq_left t.fits
    have hcover := @slices_cover t.perReg t.vl (vecElemsPerReg_pos t.legalWidth).left
      t.operands.vd t.lmul
    rw [hops, List.flatMap_map]
    rw [hfit] at hcover
    exact hcover

theorem underway_until (hidle : (t.core 0).vecCrack.active = false) (haligned : t.Aligned)
    (hfetch : t.Fetched) (hmore : 1 < t.count)
    (hstall : forall m, 0 < m -> m < n -> t.dispatches m = false)
    (hquiet : forall m, 0 < m -> m < n ->
      (t.core m).csrTrapTaken (t.input m) = true -> (t.core m).csr.mtvec = t.pc) (hn : 0 < n) :
    t.Underway n 1 ∧ t.Held n := by
  induction n with
  | zero => exact absurd hn (Nat.lt_irrefl 0)
  | succ n ih =>
      rcases Nat.eq_zero_or_pos n with hzero | hpos
      · have hheld : t.Held 0 := fun m hm => by rw [Nat.le_zero.mp hm]; rfl
        obtain ⟨hunder, hpc⟩ := (GroupRun.underway_zero hidle).more
          (hfetch 0 hheld t.dispatches_zero) (unaligned_of_aligned hidle haligned)
          t.dispatches_zero hmore
        rw [hzero]
        refine ⟨hunder, ?_⟩
        intro m hm
        rcases Nat.eq_or_lt_of_le hm with heq | hlt
        · rw [heq]
          exact hpc
        · exact hheld m (Nat.le_of_lt_succ hlt)
      · obtain ⟨hunder, hheld⟩ := ih (fun m h0 hm => hstall m h0 (Nat.lt_succ_of_lt hm))
          (fun m h0 hm => hquiet m h0 (Nat.lt_succ_of_lt hm)) hpos
        have hnow := hstall n hpos (Nat.lt_succ_self n)
        exact ⟨hunder.stall hnow, hunder.held_stall hheld hnow
          (hquiet n hpos (Nat.lt_succ_self n))⟩

theorem dispatchesGroup_of_resumes (haligned : t.Aligned)
    (hidle : (t.core 0).vecCrack.active = false) (hfetch : t.Fetched) (hlmul : t.lmul = 2)
    (hresumes : t.Resumes) : t.DispatchesGroup := by
  have hcount : t.count = 2 := by
    rcases lmul_count t with ⟨hl, hc⟩ | ⟨hl, hc⟩ | ⟨hl, hc⟩ | ⟨hl, hc⟩ <;> omega
  obtain ⟨n, hn, hd, hquiet⟩ := hresumes
  -- the first dispatch after the start
  have hexists : exists m, 0 < m ∧ t.dispatches m = true := ⟨n, hn, hd⟩
  have hfirst := Nat.find_spec hexists
  have hbefore := fun m hm => Nat.find_min (m := m) hexists hm
  have hle : Nat.find hexists <= n := Nat.find_min' hexists ⟨hn, hd⟩
  generalize Nat.find hexists = first at hfirst hbefore hle
  have hstall : forall m, 0 < m -> m < first -> t.dispatches m = false := by
    intro m h0 hm
    exact Bool.eq_false_iff.mpr fun hdisp => hbefore m hm ⟨h0, hdisp⟩
  obtain ⟨hunder, hheld⟩ := underway_until hidle haligned hfetch (by omega) hstall
    (fun m h0 hm => hquiet m h0 (Nat.lt_of_lt_of_le hm hle)) hfirst.left
  exact dispatchesGroup_of_last haligned hunder hidle hfetch hheld hfirst.right (by omega)
    (by omega)

theorem dispatchesGroup_of_single (haligned : t.Aligned)
    (hidle : (t.core 0).vecCrack.active = false) (hfetch : t.Fetched) (hlmul : t.lmul = 1) :
    t.DispatchesGroup := by
  have hcount : t.count = 1 := by
    rcases lmul_count t with ⟨hl, hc⟩ | ⟨hl, hc⟩ | ⟨hl, hc⟩ | ⟨hl, hc⟩ <;> omega
  have hheld : t.Held 0 := fun m hm => by rw [Nat.le_zero.mp hm]; rfl
  exact dispatchesGroup_of_last haligned (GroupRun.underway_zero hidle) hidle hfetch hheld
    t.dispatches_zero (by omega) (by omega)

/-!
# Groups that are not
-/

theorem lmul_le_of_dispatchesGroup (haligned : t.Aligned)
    (hidle : (t.core 0).vecCrack.active = false) (hfetch : t.Fetched)
    (hgroup : t.DispatchesGroup) : t.lmul <= t.count := by
  obtain ⟨n, hheld, hd, _, hoperands, _⟩ := hgroup
  obtain ⟨d, hlt, hunder⟩ :=
    GroupRun.underway_of_held (fun m _ => hfetch m) hidle (unaligned_of_aligned hidle haligned)
      hheld
  obtain ⟨hoffsets, _⟩ := hunder.record (hfetch n hheld hd) hd
  have hlength := congrArg List.length hoffsets
  have hgroup := congrArg List.length hoperands
  simp only [microOps, List.length_map, List.length_range] at hlength hgroup
  omega

theorem history_first (t : ArithRun P) (n : Nat) :
    exists l, t.history (n + 1) = t.core 0 :: l := by
  induction n with
  | zero =>
      refine ⟨[], ?_⟩
      simp [GroupRun.history, t.dispatches_zero]
  | succ n ih =>
      obtain ⟨l, hl⟩ := ih
      rw [GroupRun.history, hl]
      exact ⟨_, rfl⟩

/--
A sequencer left over from an abandoned group starts in the middle of the next one.
-/
theorem idle_of_dispatchesGroup (hgroup : t.DispatchesGroup) :
    (t.core 0).vecCrack.active = false := by
  obtain ⟨n, _, _, _, hoperands, _⟩ := hgroup
  obtain ⟨l, hl⟩ := history_first t n
  have hpos : 0 < t.lmul := Nat.two_pow_pos _
  obtain ⟨rest, hrest⟩ : exists rest, t.lmul = rest + 1 := ⟨t.lmul - 1, by omega⟩
  rw [microOps, hl, hrest, List.range_succ_eq_map] at hoperands
  have hfirst := (List.cons.inj hoperands).left
  have hvd : (t.core 0).vecVdAreg P = ((t.core 0).instWord P).rd.toNat :=
    congrArg VecOperands.vd hfirst
  by_contra hactive
  have hstale : (t.core 0).vecCrack.active = true := Bool.not_eq_false _ ▸ hactive
  obtain ⟨hidx, hlt, hle⟩ :=
    crackInRange_afterInputs P t.powerUp t.inputs (t.start + 0) hstale
  have hoffset : (t.core 0).vecCrackOffset = (t.core 0).vecCrack.idx := by
    simp [vecCrackOffset, hstale]
  rw [vecVdAreg, hoffset, BitVec.toNat_add, BitVec.toNat_ofNat] at hvd
  have hrd := ((t.core 0).instWord P).rd.isLt
  have hsmall : (t.core 0).vecCrack.idx < 4 := Nat.lt_of_lt_of_le hlt hle
  have hpositive : 0 < (t.core 0).vecCrack.idx := hidx
  omega

theorem resumes_of_dispatchesGroup (hgroup : t.DispatchesGroup) (hlmul : t.lmul = 2) :
    t.Resumes := by
  obtain ⟨n, hheld, hd, _, hoperands, _⟩ := hgroup
  have hn : 0 < n := by
    rcases Nat.eq_zero_or_pos n with hzero | hpos
    · have hlength := congrArg List.length hoperands
      rw [hzero] at hlength
      simp [microOps, GroupRun.history, t.dispatches_zero, hlmul] at hlength
    · exact hpos
  refine ⟨n, hn, hd, ?_⟩
  intro m _ hm htaken
  have hpc : (t.core (m + 1)).pc = (t.core m).csr.mtvec := pc_step_of_trapTaken htaken
  rw [← hpc]
  exact hheld (m + 1) (Nat.succ_le_of_lt hm)

/-!
# Misaligned groups
-/

theorem rejected_iff_unaligned (t : ArithRun P) :
    t.Rejected <-> (t.core 0).vecUnaligned P = true := by
  have hclass : (t.core 0).vecIsCrackedClass P = true := t.cracked
  have hfault : (t.core 0).itlbFaultThisCycle = false := t.fetchable
  have hlegal : (t.core 0).vecArithIllegal P = false := t.accepted
  have hd : (t.core 0).doDispatch P (t.input 0) = true := t.dispatched
  obtain ⟨_, _, _, _, _, _, hecall, hmret, _⟩ := control_of_cracked hclass
  have htrap : (t.core 0).isTrapRelated P = (t.core 0).vecUnaligned P := by
    rw [isTrapRelated_of_cracked hclass, hfault, hlegal, Bool.or_false, Bool.false_or]
  have hnone := (serial_of_doDispatch hd).noTrap
  have hnext : (t.core 1).trapInflight = (t.core 0).nextTrapInflight P (t.input 0) := rfl
  rw [Rejected, hnext]
  cases hunaligned : (t.core 0).vecUnaligned P with
  | true =>
      rw [hunaligned] at htrap
      simp [nextTrapInflight, hd, htrap, hmret, hfault, hecall, GroupRun.pc]
  | false =>
      rw [hunaligned] at htrap
      simp [nextTrapInflight, hd, htrap, trapResolveDispatch, hnone]
      intro htaken
      rw [htaken] at hnone
      exact Bool.noConfusion hnone

theorem rejected_iff (t : ArithRun P) :
    t.Rejected <-> (t.core 0).vecCrack.active = false ∧
      exists r, r ∈ t.operands.toList ∧ t.Masked r := by
  rw [rejected_iff_unaligned]
  cases hactive : (t.core 0).vecCrack.active with
  | true => simp [vecUnaligned, hactive]
  | false => simp [unaligned_iff hactive]

/-!
# The result
-/

/--
An aligned group is dispatched as a whole, a misaligned one is rejected.
-/
def GroupHandled (t : ArithRun P) : Prop :=
  (t.Aligned -> t.DispatchesGroup) ∧ (¬ t.Aligned -> t.Rejected)

/--
The sequencer is idle; an aligned group has one register, or has two and is not cut
short; a misaligned group has a start that the mask stops.
-/
def GroupSupported (t : ArithRun P) : Prop :=
  (t.core 0).vecCrack.active = false ∧
    (t.Aligned -> t.lmul = 1 ∨ t.lmul = 2 ∧ t.Resumes) ∧
    (¬ t.Aligned -> exists r, r ∈ t.operands.toList ∧ t.Masked r)

theorem vector_group_iff (t : ArithRun P) (hfetch : t.Fetched) :
    t.GroupHandled <-> t.GroupSupported := by
  unfold GroupHandled GroupSupported
  rcases Decidable.em t.Aligned with haligned | hmisaligned
  · constructor
    · rintro ⟨hgroup, _⟩
      have hdispatches := hgroup haligned
      have hidle := idle_of_dispatchesGroup hdispatches
      have hle := lmul_le_of_dispatchesGroup haligned hidle hfetch hdispatches
      refine ⟨hidle, fun _ => ?_, fun hmis => absurd haligned hmis⟩
      rcases lmul_count t with ⟨hl, _⟩ | ⟨hl, _⟩ | ⟨hl, hc⟩ | ⟨hl, hc⟩
      · exact Or.inl hl
      · exact Or.inr ⟨hl, resumes_of_dispatchesGroup hdispatches hl⟩
      · omega
      · omega
    · rintro ⟨hidle, hsmall, _⟩
      refine ⟨fun _ => ?_, fun hmis => absurd haligned hmis⟩
      rcases hsmall haligned with hone | ⟨htwo, hresumes⟩
      · exact dispatchesGroup_of_single haligned hidle hfetch hone
      · exact dispatchesGroup_of_resumes haligned hidle hfetch htwo hresumes
  · constructor
    · rintro ⟨_, hrejects⟩
      obtain ⟨hidle, hmasked⟩ := (rejected_iff t).mp (hrejects hmisaligned)
      exact ⟨hidle, fun hal => absurd hal hmisaligned, fun _ => hmasked⟩
    · rintro ⟨hidle, _, hmasked⟩
      exact ⟨fun hal => absurd hal hmisaligned,
        fun _ => (rejected_iff t).mpr ⟨hidle, hmasked hmisaligned⟩⟩

/--
addi x1, x0, 12; vsetvli x0, x1, e64, m2; vadd.vv v2, v4, v6: twelve elements in groups
of two registers.
-/
def pairProgram : Params := defaultParams [0x00C00093, 0x0190F057, 0x02430157]

def pairRun : ArithRun pairProgram where
  powerUp := powerUp
  inputs := fun _ => quietInput
  start := 3
  dispatched := by decide +kernel
  cracked := by decide +kernel
  fetchable := by decide +kernel
  accepted := by decide +kernel
  arith := by decide +kernel
  wholeRegisters := by decide +kernel
  legalWidth := by decide +kernel
  fits := by decide +kernel

theorem fetched_pairRun : pairRun.Fetched :=
  GroupRun.fetched_of_untranslated (by decide +kernel) (by decide +kernel) (by decide +kernel)

theorem vector_group_iff_pair : pairRun.GroupHandled := by
  apply (vector_group_iff pairRun fetched_pairRun).mpr
  refine ⟨by decide +kernel, fun _ => Or.inr ⟨by decide +kernel, 1, Nat.one_pos, ?_, ?_⟩, ?_⟩
  · decide +kernel
  · exact fun m hpos hlt => absurd hpos (by omega)
  · exact fun hmis => absurd (by decide +kernel) hmis

/--
addi x1, x0, 32; vsetvli x0, x1, e64, m4; vadd.vv v4, v8, v12: 32 elements in groups of
four registers.
-/
def quadProgram : Params := defaultParams [0x02000093, 0x01a0F057, 0x02860257]

def quadRun : ArithRun quadProgram where
  powerUp := powerUp
  inputs := fun _ => quietInput
  start := 3
  dispatched := by decide +kernel
  cracked := by decide +kernel
  fetchable := by decide +kernel
  accepted := by decide +kernel
  arith := by decide +kernel
  wholeRegisters := by decide +kernel
  legalWidth := by decide +kernel
  fits := by decide +kernel

/--
The fourth register of each group is never worked on.
-/
theorem vector_group_quad_short :
    quadRun.Aligned ∧ quadRun.lmul = 4 ∧ quadRun.vl = 32 ∧ ¬ quadRun.GroupHandled ∧
      (quadRun.microOps 3).length = 3 ∧ (quadRun.core 3).pc = quadRun.pc + 4 := by
  have haligned : quadRun.Aligned := by decide +kernel
  have hidle : (quadRun.core 0).vecCrack.active = false := by decide +kernel
  have hfetch : quadRun.Fetched :=
    GroupRun.fetched_of_untranslated hidle (by decide +kernel) (by decide +kernel)
  refine ⟨haligned, by decide +kernel, by decide +kernel, ?_, by decide +kernel,
    by decide +kernel⟩
  intro hhandled
  have hle := lmul_le_of_dispatchesGroup haligned hidle hfetch (hhandled.left haligned)
  exact absurd hle (by decide +kernel)

end ArithRun

end Core
end Ooo
end RvCores
