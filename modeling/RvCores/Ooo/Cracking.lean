import RvCores.Ooo.Wakeup

/-!
# Cracking of vector groups

A vector instruction on a group of registers is dispatched as one micro-operation for
each register while the program counter stays.  The number of micro-operations is the
LMUL field plus one, the logarithm of the group size instead of the size, and the
alignment mask is derived from it: right for groups of one and two registers, short for
groups of four and eight.
-/

namespace RvCores
namespace Ooo
namespace Core

open Isa Block

variable {P : Params} {s : Core} {i : Input}

/-!
# Slot 0 holds a vector instruction
-/

theorem control_vector (inst : Word) :
    (control 64 inst).isVecArith = true ∨ (control 64 inst).isVecLoad = true ∨
        (control 64 inst).isVecStore = true ->
      (control 64 inst).jump = false ∧ (control 64 inst).jalr = false ∧
        (control 64 inst).branch = false ∧ (control 64 inst).isCsr = false ∧
        (control 64 inst).isVecCfg = false ∧ (control 64 inst).illegalOpcode = false ∧
        (control 64 inst).isEcall = false ∧ (control 64 inst).isMret = false ∧
        (control 64 inst).isSfenceVma = false :=
  control_shape 64 inst
    (p := fun c => c.isVecArith = true ∨ c.isVecLoad = true ∨ c.isVecStore = true ->
      c.jump = false ∧ c.jalr = false ∧ c.branch = false ∧ c.isCsr = false ∧
        c.isVecCfg = false ∧ c.illegalOpcode = false ∧ c.isEcall = false ∧
        c.isMret = false ∧ c.isSfenceVma = false) (by decide)

theorem control_of_cracked (h : s.vecIsCrackedClass P = true) :
    (s.ctrl P).jump = false ∧ (s.ctrl P).jalr = false ∧ (s.ctrl P).branch = false ∧
      (s.ctrl P).isCsr = false ∧ (s.ctrl P).isVecCfg = false ∧
      (s.ctrl P).illegalOpcode = false ∧ (s.ctrl P).isEcall = false ∧
      (s.ctrl P).isMret = false ∧ (s.ctrl P).isSfenceVma = false := by
  have hclass : s.isVecArith P = true ∨ s.isVecLoad P = true ∨ s.isVecStore P = true := by
    simpa [vecIsCrackedClass, isVecLs] using h
  exact control_vector _ hclass

theorem isTrapRelated_of_cracked (h : s.vecIsCrackedClass P = true) :
    s.isTrapRelated P =
      (s.vecArithIllegal P || s.vecUnaligned P || s.itlbFaultThisCycle) := by
  obtain ⟨_, _, _, _, _, hillegal, hecall, hmret, hsfence⟩ := control_of_cracked h
  simp [isTrapRelated, hasException, sfencePrivViolation, hillegal, hecall, hmret, hsfence]

theorem noSlot1_of_cracked (h : s.vecIsCrackedClass P = true) :
    s.doDispatchSlot1 P i = false := by
  have hclass : s.isVecArith P = true ∨ s.isVecLs P = true := by
    simpa [vecIsCrackedClass] using h
  have hplain : s.slot0IsPlainAlu P = false := by
    rcases hclass with harith | hls
    · simp [slot0IsPlainAlu, harith]
    · simp [slot0IsPlainAlu, hls]
  simp [doDispatchSlot1, tryDualIssue, hplain]

/-!
# No serialising instruction in flight

While a vector instruction is dispatched nothing that would redirect the fetch or change
the vector configuration is in flight.
-/

structure Serial (s : Core) : Prop where
  noBranch : s.brInflight.valid = false
  noJump : s.jrInflight.valid = false
  noTrap : s.trapInflight.valid = false
  noCsr : s.csrInflight.valid = false
  noVecCfg : s.vecCfgInflight.valid = false

theorem serial_of_doDispatch (hd : s.doDispatch P i = true) : s.Serial :=
  have h := canDispatch_of_doDispatch hd
  ⟨h.noBranch, h.noJump, h.noTrap, h.noCsr, h.noVecCfg⟩

theorem Serial.step (h : s.Serial)
    (hvec : s.doDispatch P i = true ->
      s.vecIsCrackedClass P = true ∧ s.isTrapRelated P = false) :
    (s.step P i).Serial := by
  cases hd : s.doDispatch P i with
  | false =>
      constructor
      · show (s.nextBrInflight P i).valid = false
        simp [nextBrInflight, brResolve, hd, h.noBranch]
      · show (s.nextJrInflight P i).valid = false
        simp [nextJrInflight, jrResolve, hd, h.noJump]
      · show (s.nextTrapInflight P i).valid = false
        simp [nextTrapInflight, trapResolveDispatch, hd, h.noTrap]
      · show (s.nextCsrInflight P i).valid = false
        simp [nextCsrInflight, csrWriteFire, hd, h.noCsr]
      · show (s.nextVecCfgInflight P i).valid = false
        simp [nextVecCfgInflight, vecCfgWriteFire, hd, h.noVecCfg]
  | true =>
      obtain ⟨hclass, htrap⟩ := hvec hd
      obtain ⟨_, hjalr, hbranch, hcsr, hcfg, _⟩ := control_of_cracked hclass
      constructor
      · show (s.nextBrInflight P i).valid = false
        simp [nextBrInflight, brResolve, isBranch, hbranch, h.noBranch]
      · show (s.nextJrInflight P i).valid = false
        simp [nextJrInflight, jrResolve, isJalr, hjalr, h.noJump]
      · show (s.nextTrapInflight P i).valid = false
        simp [nextTrapInflight, trapResolveDispatch, htrap, h.noTrap]
      · show (s.nextCsrInflight P i).valid = false
        simp [nextCsrInflight, csrWriteFire, isCsr, hcsr, h.noCsr]
      · show (s.nextVecCfgInflight P i).valid = false
        simp [nextVecCfgInflight, vecCfgWriteFire, isVecCfg, hcfg, h.noVecCfg]

theorem Serial.vecConfig_step (h : s.Serial) :
    (s.step P i).csr.vl = s.csr.vl ∧ (s.step P i).csr.vtypeFields = s.csr.vtypeFields := by
  have hquiet : (s.csrIn P i).vecCfgWriteEn = false := by
    simp [csrIn, vecCfgWriteFire, h.noVecCfg]
  constructor
  · show (if (s.csrIn P i).vecCfgWriteEn then _ else s.csr.vl) = s.csr.vl
    rw [hquiet]
    rfl
  · show (if (s.csrIn P i).vecCfgWriteEn then _ else s.csr.vtypeFields) = s.csr.vtypeFields
    rw [hquiet]
    rfl

/-!
# The program counter
-/

theorem noRedirect_of_doDispatch (hd : s.doDispatch P i = true) :
    s.csrTrapTaken i = false ∧ s.interruptTake i = false ∧ s.trapResolve = false := by
  have h := canDispatch_of_doDispatch hd
  have hirq : s.interruptTake i = false := by simp [interruptTake, h.noInterrupt]
  have htrap : s.trapResolve = false := by
    simp [trapResolve, trapResolveDispatch, dsideTrapResolve, h.noTrap, h.noDsideFault]
  exact ⟨by simp [csrTrapTaken, htrap, hirq], hirq, htrap⟩

theorem pc_step_of_trapTaken (h : s.csrTrapTaken i = true) :
    (s.step P i).pc = s.csr.mtvec := by
  show s.nextPc P i = s.csr.mtvec
  cases hirq : s.interruptTake i with
  | true => simp [nextPc, hirq]
  | false =>
      have htrap : s.trapResolve = true := by
        simp only [csrTrapTaken, hirq, Bool.or_false, Bool.and_eq_true] at h
        exact h.left
      simp [nextPc, hirq, htrap, h]

theorem pc_step_of_dispatch (hd : s.doDispatch P i = true)
    (hclass : s.vecIsCrackedClass P = true) :
    (s.step P i).pc = if s.vecCrackHoldsPc P then s.pc else s.pc + 4 := by
  have h := serial_of_doDispatch hd
  obtain ⟨_, hirq, htrap⟩ := noRedirect_of_doDispatch hd
  obtain ⟨hjump, hjalr, hbranch, _⟩ := control_of_cracked hclass
  have hbr : s.brMispredict P i = false := by simp [brMispredict, brResolve, h.noBranch]
  have hjr : s.jrMispredict P i = false := by simp [jrMispredict, jrResolve, h.noJump]
  show s.nextPc P i = _
  simp [nextPc, dispatchPc, isJal, isJalr, isBranch, hirq, htrap, hbr, hjr, hd, hjump, hjalr,
    hbranch, noSlot1_of_cracked hclass]

theorem Serial.pc_step_of_stall (h : s.Serial) (hd : s.doDispatch P i = false) :
    (s.step P i).pc = if s.csrTrapTaken i then s.csr.mtvec else s.pc := by
  have hbr : s.brMispredict P i = false := by simp [brMispredict, brResolve, h.noBranch]
  have hjr : s.jrMispredict P i = false := by simp [jrMispredict, jrResolve, h.noJump]
  have hdispatch : s.trapResolveDispatch = false := by
    simp [trapResolveDispatch, h.noTrap]
  show s.nextPc P i = _
  cases hirq : s.interruptTake i <;> cases htrap : s.trapResolve <;>
    simp [nextPc, csrTrapTaken, hirq, htrap, hbr, hjr, hd, hdispatch]

/--
A trap from machine mode stays in machine mode, and nothing else switches translation.
-/
theorem Serial.untranslated_step (h : s.Serial) (hoff : s.translateEnable = false) :
    (s.step P i).translateEnable = false := by
  have hwrite : (s.csrIn P i).writeEn = false := by simp [csrIn, csrWriteFire, h.noCsr]
  have hmret : (s.csrIn P i).mretTaken = false := by
    simp [csrIn, csrMretTaken, trapResolveDispatch, h.noTrap]
  have hsatp : (s.step P i).csr.satp = s.csr.satp := by
    show (if Csr.writes (s.csrIn P i) CsrAddr.satp then _ else s.csr.satp) = s.csr.satp
    simp [Csr.writes, hwrite]
  have hmode : (s.step P i).csr.satpModeVal = s.csr.satpModeVal := by
    simp only [Csr.satpModeVal, hsatp]
  have hpriv : s.csr.privMode = privM -> (s.step P i).csr.privMode = privM := by
    intro hm
    show s.csr.nextPrivMode (s.csrIn P i) = privM
    have hsret : (s.csrIn P i).sretTaken = false := rfl
    simp [Csr.nextPrivMode, Csr.trapTargetIsS, hm, hmret, hsret]
  simp only [translateEnable, Bool.and_eq_false_iff, decide_eq_false_iff_not, not_not] at hoff ⊢
  rcases hoff with hbare | hm
  · exact Or.inl (hmode.trans hbare)
  · exact Or.inr (hpriv hm)

/-!
# The crack sequencer

Before the first micro-operation the number of micro-operations is the fresh group
count, after it the latched one.
-/

def vecCrackTotal (s : Core) : Nat :=
  if s.vecCrack.active then s.vecCrack.groupCount else s.vecGroupCountFresh

theorem vecGroupCountFresh_pos (s : Core) : 0 < s.vecGroupCountFresh := by
  unfold vecGroupCountFresh
  split
  · exact Nat.one_pos
  · exact Nat.succ_pos _

theorem vecGroupCountFresh_le (s : Core) : s.vecGroupCountFresh <= 4 := by
  unfold vecGroupCountFresh
  split
  · decide
  · have hlt := (s.csr.vlmul.setWidth 2).isLt
    omega

theorem vecCrackLast_iff (s : Core) :
    s.vecCrackLast = true <-> s.vecCrackOffset + 1 = s.vecCrackTotal := by
  unfold vecCrackLast vecCrackOffset vecCrackTotal
  cases s.vecCrack.active with
  | true => simp
  | false => simp [eq_comm]

theorem active_of_offset (h : 0 < s.vecCrackOffset) : s.vecCrack.active = true := by
  by_contra hidle
  simp [vecCrackOffset, hidle] at h

theorem crack_step_of_stall (hd : s.doDispatch P i = false) :
    (s.step P i).vecCrack = s.vecCrack := by
  show s.nextVecCrack P i = s.vecCrack
  simp [nextVecCrack, hd]

section

variable (hd : s.doDispatch P i = true) (hclass : s.vecIsCrackedClass P = true)

include hd hclass

theorem crack_step_of_more (haligned : s.vecUnaligned P = false)
    (hmore : s.vecCrackOffset + 1 < s.vecCrackTotal) :
    (s.step P i).vecCrack =
      { active := true
        groupCount := s.vecCrackTotal
        idx := s.vecCrackOffset + 1 } := by
  show s.nextVecCrack P i = _
  cases hactive : s.vecCrack.active with
  | false =>
      simp only [vecCrackOffset, vecCrackTotal, hactive, Bool.false_eq_true, if_false] at hmore ⊢
      simp [nextVecCrack, hd, hclass, haligned, hactive, hmore]
  | true =>
      simp only [vecCrackOffset, vecCrackTotal, hactive, if_true] at hmore ⊢
      simp [nextVecCrack, hd, hclass, hactive, Nat.ne_of_lt hmore]

theorem crack_step_of_last (hlast : s.vecCrackOffset + 1 = s.vecCrackTotal) :
    (s.step P i).vecCrack.active = false := by
  show (s.nextVecCrack P i).active = false
  cases hactive : s.vecCrack.active with
  | false =>
      simp only [vecCrackOffset, vecCrackTotal, hactive, Bool.false_eq_true, if_false] at hlast
      simp [nextVecCrack, hactive, ← hlast]
  | true =>
      simp only [vecCrackOffset, vecCrackTotal, hactive, if_true] at hlast
      simp [nextVecCrack, hd, hclass, hactive, hlast]

end

theorem vecCrackHoldsPc_iff (hclass : s.vecIsCrackedClass P = true)
    (haligned : s.vecUnaligned P = false) :
    s.vecCrackHoldsPc P = true <-> s.vecCrackOffset + 1 ≠ s.vecCrackTotal := by
  rw [ne_eq, ← vecCrackLast_iff]
  simp [vecCrackHoldsPc, hclass, haligned]

/--
While a group is dispatched the index stays between one and the group count.
-/
def CrackInRange (crack : VecCrack) : Prop :=
  crack.active = true ->
    0 < crack.idx ∧ crack.idx < crack.groupCount ∧ crack.groupCount <= 4

theorem crackInRange_step (h : CrackInRange s.vecCrack) :
    CrackInRange (s.step P i).vecCrack := by
  show CrackInRange (s.nextVecCrack P i)
  unfold nextVecCrack
  split
  · rename_i hstart
    simp only [Bool.and_eq_true, decide_eq_true_eq] at hstart
    exact fun _ => ⟨Nat.one_pos, hstart.right, vecGroupCountFresh_le s⟩
  · split
    · rename_i hgoes
      simp only [Bool.and_eq_true] at hgoes
      obtain ⟨hpos, hlt, hle⟩ := h hgoes.right
      split
      · exact fun hactive => Bool.noConfusion hactive
      · intro _
        exact ⟨Nat.succ_pos _, by show s.vecCrack.idx + 1 < s.vecCrack.groupCount; omega, hle⟩
    · exact h

theorem crackInRange_afterInputs (P : Params) (s0 : Core) (inputs : Nat -> Input) (n : Nat) :
    CrackInRange (afterInputs P s0 inputs n).vecCrack := by
  induction n with
  | zero => exact fun hactive => Bool.noConfusion hactive
  | succ n ih => exact crackInRange_step ih

/-!
# Runs of one group instruction

The run starts in the cycle that dispatches the instruction for the first time.
-/

structure GroupRun (P : Params) where
  powerUp : Core
  inputs : Nat -> Input
  start : Nat
  dispatched :
    (afterInputs P powerUp inputs start).doDispatch P (inputs start) = true
  cracked : (afterInputs P powerUp inputs start).vecIsCrackedClass P = true
  fetchable : (afterInputs P powerUp inputs start).itlbFaultThisCycle = false
  accepted : (afterInputs P powerUp inputs start).vecArithIllegal P = false

namespace GroupRun

def core (t : GroupRun P) (n : Nat) : Core := afterInputs P t.powerUp t.inputs (t.start + n)

def input (t : GroupRun P) (n : Nat) : Input := t.inputs (t.start + n)

def dispatches (t : GroupRun P) (n : Nat) : Bool := (t.core n).doDispatch P (t.input n)

def pc (t : GroupRun P) : BitVec 64 := (t.core 0).pc
def word (t : GroupRun P) : Word := (t.core 0).instWord P

/--
The number of micro-operations the sequencer counts to.
-/
def count (t : GroupRun P) : Nat := (t.core 0).vecGroupCountFresh

/--
The states in which slot 0 has dispatched before cycle `n`.
-/
def history (t : GroupRun P) : Nat -> List Core
  | 0 => []
  | n + 1 => t.history n ++ if t.dispatches n then [t.core n] else []

def Held (t : GroupRun P) (n : Nat) : Prop := forall m, m <= n -> (t.core m).pc = t.pc

/--
As long as the program counter stays, the dispatched word is the same.
-/
def Fetched (t : GroupRun P) : Prop :=
  forall n, t.Held n -> t.dispatches n = true ->
    (t.core n).instWord P = t.word ∧ (t.core n).itlbFaultThisCycle = false

structure Repeats (t : GroupRun P) (s : Core) : Prop where
  word : s.instWord P = t.word
  vl : s.csr.vl = (t.core 0).csr.vl
  vtype : s.csr.vtypeFields = (t.core 0).csr.vtypeFields

/--
The sequencer has handed out `d` micro-operations.
-/
structure Underway (t : GroupRun P) (n d : Nat) : Prop where
  begun : d = 0 -> n = 0
  serial : (t.core n).Serial
  vl : (t.core n).csr.vl = (t.core 0).csr.vl
  vtype : (t.core n).csr.vtypeFields = (t.core 0).csr.vtypeFields
  offset : (t.core n).vecCrackOffset = d
  total : (t.core n).vecCrackTotal = t.count
  offsets : (t.history n).map vecCrackOffset = List.range d
  repeats : forall s, s ∈ t.history n -> t.Repeats s

end GroupRun

section

variable {s' : Core}

theorem vecIsCrackedClass_congr (hword : s.instWord P = s'.instWord P) :
    s.vecIsCrackedClass P = s'.vecIsCrackedClass P := by
  simp only [vecIsCrackedClass, isVecLs, isVecArith, isVecLoad, isVecStore, ctrl, hword]

theorem vecGroupCountFresh_congr (hvtype : s.csr.vtypeFields = s'.csr.vtypeFields) :
    s.vecGroupCountFresh = s'.vecGroupCountFresh := by
  simp only [vecGroupCountFresh, Csr.vlmul, hvtype]
  rfl

theorem vecArithIllegal_congr (hword : s.instWord P = s'.instWord P)
    (hvtype : s.csr.vtypeFields = s'.csr.vtypeFields) :
    s.vecArithIllegal P = s'.vecArithIllegal P := by
  simp only [vecArithIllegal, vecArithFunct6Legal, vecCmpLegal, isVecCmp, vecArithUseScalar,
    vecArithIsVi, vecArithIsVx, vecArithFunct6, isVecArith, ctrl, hword,
    vecGroupCountFresh_congr hvtype]
  rfl

end

namespace GroupRun

variable {t : GroupRun P} {n d : Nat}

theorem core_succ (t : GroupRun P) (n : Nat) :
    t.core (n + 1) = (t.core n).step P (t.input n) :=
  rfl

theorem dispatches_zero (t : GroupRun P) : t.dispatches 0 = true := t.dispatched

theorem underway_zero (hidle : (t.core 0).vecCrack.active = false) : t.Underway 0 0 where
  begun := fun _ => rfl
  serial := serial_of_doDispatch t.dispatched
  vl := rfl
  vtype := rfl
  offset := by simp [vecCrackOffset, hidle]
  total := by simp [vecCrackTotal, hidle, count]
  offsets := rfl
  repeats := by simp [history]

section

variable (h : t.Underway n d)

include h

theorem Underway.active (hd : 0 < d) : (t.core n).vecCrack.active = true := by
  apply active_of_offset
  rw [h.offset]
  exact hd

/--
A stalled cycle leaves the sequencer where it is.
-/
theorem Underway.stall (hstall : t.dispatches n = false) : t.Underway (n + 1) d := by
  have hcrack : (t.core (n + 1)).vecCrack = (t.core n).vecCrack :=
    crack_step_of_stall hstall
  obtain ⟨hvl, hvtype⟩ := h.serial.vecConfig_step (P := P) (i := t.input n)
  have hfresh : (t.core (n + 1)).vecGroupCountFresh = (t.core n).vecGroupCountFresh :=
    vecGroupCountFresh_congr hvtype
  have hhistory : t.history (n + 1) = t.history n := by simp [history, hstall]
  constructor
  · intro hd
    have hn := h.begun hd
    rw [hn, t.dispatches_zero] at hstall
    exact Bool.noConfusion hstall
  · exact h.serial.step fun hd => Bool.noConfusion (hd.symm.trans hstall)
  · exact hvl.trans h.vl
  · exact hvtype.trans h.vtype
  · rw [vecCrackOffset, hcrack]
    exact h.offset
  · rw [vecCrackTotal, hcrack, hfresh]
    exact h.total
  · rw [hhistory]
    exact h.offsets
  · rw [hhistory]
    exact h.repeats

variable (hfetch : (t.core n).instWord P = t.word ∧ (t.core n).itlbFaultThisCycle = false)

include hfetch

theorem Underway.vector (haligned : (t.core 0).vecUnaligned P = false) :
    (t.core n).vecIsCrackedClass P = true ∧ (t.core n).vecUnaligned P = false ∧
      (t.core n).isTrapRelated P = false := by
  have hclass : (t.core n).vecIsCrackedClass P = true :=
    (vecIsCrackedClass_congr hfetch.left).trans t.cracked
  have hlegal : (t.core n).vecArithIllegal P = false :=
    (vecArithIllegal_congr hfetch.left h.vtype).trans t.accepted
  have hunaligned : (t.core n).vecUnaligned P = false := by
    rcases Nat.eq_zero_or_pos d with hzero | hpos
    · rw [h.begun hzero]
      exact haligned
    · simp [vecUnaligned, h.active hpos]
  refine ⟨hclass, hunaligned, ?_⟩
  rw [isTrapRelated_of_cracked hclass, hlegal, hunaligned, hfetch.right]
  rfl

/--
What has been dispatched after another micro-operation.
-/
theorem Underway.record (hd : t.dispatches n = true) :
    (t.history (n + 1)).map vecCrackOffset = List.range (d + 1) ∧
      forall s, s ∈ t.history (n + 1) -> t.Repeats s := by
  have hhistory : t.history (n + 1) = t.history n ++ [t.core n] := by simp [history, hd]
  rw [hhistory]
  constructor
  · rw [List.map_append, h.offsets, List.range_succ, List.map_singleton, h.offset]
  · intro s hs
    rcases List.mem_append.mp hs with hold | hnew
    · exact h.repeats s hold
    · rw [List.mem_singleton.mp hnew]
      exact ⟨hfetch.left, h.vl, h.vtype⟩

theorem Underway.more (haligned : (t.core 0).vecUnaligned P = false)
    (hd : t.dispatches n = true) (hmore : d + 1 < t.count) :
    t.Underway (n + 1) (d + 1) ∧ (t.core (n + 1)).pc = (t.core n).pc := by
  obtain ⟨hclass, hunaligned, htrap⟩ := h.vector hfetch haligned
  obtain ⟨hoffsets, hrepeats⟩ := h.record hfetch hd
  obtain ⟨hvl, hvtype⟩ := h.serial.vecConfig_step (P := P) (i := t.input n)
  have hcrack : (t.core (n + 1)).vecCrack =
      { active := true, groupCount := t.count, idx := d + 1 } := by
    rw [← h.offset, ← h.total]
    apply crack_step_of_more hd hclass hunaligned
    rw [h.offset, h.total]
    exact hmore
  have hholds : (t.core n).vecCrackHoldsPc P = true := by
    rw [vecCrackHoldsPc_iff hclass hunaligned, h.offset, h.total]
    exact Nat.ne_of_lt hmore
  constructor
  · constructor
    · exact fun hzero => absurd hzero (Nat.succ_ne_zero d)
    · exact h.serial.step fun _ => ⟨hclass, htrap⟩
    · exact hvl.trans h.vl
    · exact hvtype.trans h.vtype
    · rw [vecCrackOffset, hcrack]
      rfl
    · rw [vecCrackTotal, hcrack]
      rfl
    · exact hoffsets
    · exact hrepeats
  · rw [core_succ, pc_step_of_dispatch hd hclass, hholds]
    rfl

theorem Underway.last (haligned : (t.core 0).vecUnaligned P = false)
    (hd : t.dispatches n = true) (hlast : d + 1 = t.count) :
    (t.core (n + 1)).vecCrack.active = false ∧
      (t.core (n + 1)).pc = (t.core n).pc + 4 := by
  obtain ⟨hclass, hunaligned, _⟩ := h.vector hfetch haligned
  have hend : (t.core n).vecCrackOffset + 1 = (t.core n).vecCrackTotal := by
    rw [h.offset, h.total]
    exact hlast
  have hholds : (t.core n).vecCrackHoldsPc P = false := by
    rw [Bool.eq_false_iff, ne_eq, vecCrackHoldsPc_iff hclass hunaligned]
    exact not_not.mpr hend
  constructor
  · exact crack_step_of_last hd hclass hend
  · rw [core_succ, pc_step_of_dispatch hd hclass, hholds]
    rfl

end

/--
Until the program counter moves, fewer micro-operations than the sequencer counts to have
been dispatched.
-/
theorem underway_of_held
    (hfetch : forall m, m < n -> t.Held m -> t.dispatches m = true ->
      (t.core m).instWord P = t.word ∧ (t.core m).itlbFaultThisCycle = false)
    (hidle : (t.core 0).vecCrack.active = false)
    (haligned : (t.core 0).vecUnaligned P = false) (hheld : t.Held n) :
    exists d, d < t.count ∧ t.Underway n d := by
  induction n with
  | zero => exact ⟨0, vecGroupCountFresh_pos _, underway_zero hidle⟩
  | succ n ih =>
      have hbefore : t.Held n := fun m hm => hheld m (Nat.le_succ_of_le hm)
      obtain ⟨d, hlt, h⟩ := ih (fun m hm => hfetch m (Nat.lt_succ_of_lt hm)) hbefore
      cases hd : t.dispatches n with
      | false => exact ⟨d, hlt, h.stall hd⟩
      | true =>
          have hword := hfetch n (Nat.lt_succ_self n) hbefore hd
          rcases Nat.lt_or_eq_of_le (Nat.succ_le_of_lt hlt) with hmore | hlast
          · exact ⟨d + 1, hmore, (h.more hword haligned hd hmore).left⟩
          · have hpc := (h.last hword haligned hd hlast).right
            rw [hheld (n + 1) (Nat.le_refl _), hheld n (Nat.le_succ n)] at hpc
            exact absurd hpc (by bv_omega)

/--
A stall that is not cut short by a trap or an interrupt keeps the program counter.
-/
theorem Underway.held_stall (h : t.Underway n d) (hheld : t.Held n)
    (hstall : t.dispatches n = false)
    (hquiet : (t.core n).csrTrapTaken (t.input n) = true -> (t.core n).csr.mtvec = t.pc) :
    t.Held (n + 1) := by
  intro m hm
  rcases Nat.eq_or_lt_of_le hm with heq | hlt
  · rw [heq, core_succ, h.serial.pc_step_of_stall hstall]
    split
    · rename_i htaken
      exact hquiet htaken
    · exact hheld n (Nat.le_refl n)
  · exact hheld m (Nat.le_of_lt_succ hlt)

/--
Without translation the program counter alone decides what is fetched.
-/
theorem fetched_of_untranslated (hidle : (t.core 0).vecCrack.active = false)
    (haligned : (t.core 0).vecUnaligned P = false)
    (hoff : (t.core 0).translateEnable = false) : t.Fetched := by
  have hfetch : forall m, t.Held m -> (t.core m).translateEnable = false ->
      (t.core m).instWord P = t.word ∧ (t.core m).itlbFaultThisCycle = false := by
    intro m hheld hm
    constructor
    · simp only [word, instWord, instFull, imemPhysAddr, hm, hoff, Bool.false_and,
        Bool.false_eq_true, if_false]
      rw [hheld m (Nat.le_refl m)]
      rfl
    · simp [itlbFaultThisCycle, itlbHitFault, hm]
  have hmode : forall n, t.Held n -> (t.core n).translateEnable = false := by
    intro n
    induction n using Nat.strongRecOn with
    | ind n ih =>
        intro hheld
        cases n with
        | zero => exact hoff
        | succ n =>
            have hbefore : t.Held n := fun m hm => hheld m (Nat.le_succ_of_le hm)
            obtain ⟨d, _, hunder⟩ := underway_of_held
              (fun m hm hm' _ => hfetch m hm' (ih m (Nat.lt_succ_of_lt hm) hm'))
              hidle haligned hbefore
            exact hunder.serial.untranslated_step (ih n (Nat.lt_succ_self n) hbefore)
  exact fun n hheld _ => hfetch n hheld (hmode n hheld)

end GroupRun

end Core
end Ooo
end RvCores
