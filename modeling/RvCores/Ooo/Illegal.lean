import RvCores.Ooo.PowerUp
import RvCores.Pipe.Core

/-!
# Illegal instructions

The in-order core traps on a reserved opcode, on arithmetic with reserved function
fields and on a breakpoint.  The out-of-order core recognises the first only, and a
vector instruction that it does trap on is renamed and executed all the same.
-/

namespace RvCores
namespace Pipe

open Isa Block

/-!
# The in-order core
-/

def reservedFields (w : Nat) (inst : Word) : Bool :=
  aluCtrl (control w inst).aluOp inst.funct7 inst.funct3 inst.rs2 == .illegal

/--
The words that raise an illegal-instruction or a breakpoint exception at every
privilege.
-/
def raisesFor (w : Nat) (inst : Word) : Bool :=
  (control w inst).illegalOpcode || reservedFields w inst || (control w inst).isEbreak

end Pipe

namespace Ooo
namespace Core

open Isa Block

/-!
# What the out-of-order core does with a word
-/

section

variable (P : Params) (s : Core) (i : Input)

/--
The instruction in slot 0 becomes a trap.
-/
def raises : Bool :=
  s.hasException P || s.itlbFaultThisCycle || s.sfencePrivViolation P

/--
The instruction has a destination, goes to memory, or writes a control register.
-/
def touchesState : Bool :=
  s.needsDest P || s.isFpOp P || s.isVecDest P || s.isMemOp P || s.isVecLs P ||
    s.isCsr P || s.isVecCfg P

/--
The instruction dispatched from slot 0 renames nothing, commits nothing when it
retires, and leaves no request to memory or to the control registers.
-/
structure NoEffect : Prop where
  intMap : (s.ratW0 P i).en = false
  floatMap : (s.ratFW0 P i).en = false
  vecMap : (s.ratVW0 P i).en = false
  commits : (s.robAlloc0 P i).hasDest = false
  scalarMemory : (s.lsqIn P i).dispEn0 = false
  vectorMemory : (s.rsVlsuIn P i).disp0.en = false
  csr : (s.step P i).csrInflight.valid = false
  vecCfg : (s.step P i).vecCfgInflight.valid = false

structure IllegalHandled : Prop where
  slot0 : s.doDispatch P i = true -> Pipe.raisesFor 64 (s.instWord P) = true ->
    s.raises P = true
  slot1 : s.doDispatchSlot1 P i = true -> Pipe.raisesFor 64 (s.instWord1 P) = false
  noEffect : s.doDispatch P i = true -> s.raises P = true -> s.NoEffect P i

/--
A breakpoint or reserved arithmetic.
-/
def unrecognised (inst : Word) : Bool :=
  (control 64 inst).isEbreak || Pipe.reservedFields 64 inst

/--
Neither slot carries an unrecognised word, slot 0 carries no vector instruction that
traps, and a word on a page without execute permission is harmless.
-/
structure ReservedAbsent : Prop where
  slot0 : s.doDispatch P i = true -> s.itlbFaultThisCycle = false ->
    unrecognised (s.instWord P) = false
  slot1 : s.doDispatchSlot1 P i = true -> unrecognised (s.instWord1 P) = false
  vector : s.doDispatch P i = true ->
    s.vecArithIllegal P = false ∧ s.vecUnaligned P = false
  fetchFault : s.doDispatch P i = true -> s.itlbFaultThisCycle = true ->
    s.touchesState P = false

end

variable {P : Params} {s : Core} {i : Input}

/-!
# Words that the decoder stops
-/

theorem control_stopped (inst : Word) :
    (control 64 inst).illegalOpcode = true ∨ (control 64 inst).isEcall = true ∨
        (control 64 inst).isSfenceVma = true ∨ (control 64 inst).isEbreak = true ->
      (control 64 inst).regWrite = false ∧ (control 64 inst).fRegWrite = false ∧
        (control 64 inst).isVecArith = false ∧ (control 64 inst).isVecLoad = false ∧
        (control 64 inst).isVecStore = false ∧ (control 64 inst).memRead = false ∧
        (control 64 inst).memWrite = false ∧ (control 64 inst).isAmo = false ∧
        (control 64 inst).isCsr = false ∧ (control 64 inst).isVecCfg = false ∧
        (control 64 inst).aluOp = .loadStore :=
  control_shape 64 inst
    (p := fun c => c.illegalOpcode = true ∨ c.isEcall = true ∨ c.isSfenceVma = true ∨
        c.isEbreak = true ->
      c.regWrite = false ∧ c.fRegWrite = false ∧ c.isVecArith = false ∧
        c.isVecLoad = false ∧ c.isVecStore = false ∧ c.memRead = false ∧
        c.memWrite = false ∧ c.isAmo = false ∧ c.isCsr = false ∧ c.isVecCfg = false ∧
        c.aluOp = .loadStore) (by decide)

theorem touchesState_of_stopped (h : (s.ctrl P).illegalOpcode = true ∨
    (s.ctrl P).isEcall = true ∨ (s.ctrl P).isSfenceVma = true ∨
      (s.ctrl P).isEbreak = true) : s.touchesState P = false := by
  obtain ⟨hreg, hfreg, harith, hload, hstore, hread, hwrite, hamo, hcsr, hcfg, _⟩ :=
    control_stopped _ h
  change (s.ctrl P).regWrite = false at hreg
  change (s.ctrl P).fRegWrite = false at hfreg
  change (s.ctrl P).isVecArith = false at harith
  change (s.ctrl P).isVecLoad = false at hload
  change (s.ctrl P).isVecStore = false at hstore
  change (s.ctrl P).memRead = false at hread
  change (s.ctrl P).memWrite = false at hwrite
  change (s.ctrl P).isAmo = false at hamo
  change (s.ctrl P).isCsr = false at hcsr
  change (s.ctrl P).isVecCfg = false at hcfg
  simp [touchesState, needsDest, isFpOp, isFpPure, isFpIntmove, isFpMulticycle, isFpDiv,
    isFpSqrt, isVecDest, isVecArith, isVecLoad, isVecLs, isVecStore, isMemOp, isCsr,
    isVecCfg, hreg, hfreg, harith, hload, hstore, hread, hwrite, hamo, hcsr, hcfg]

theorem touchesState_of_vector (h : s.vecArithIllegal P = true ∨ s.vecUnaligned P = true) :
    s.touchesState P = true := by
  have hclass : s.isVecArith P = true ∨ s.isVecLs P = true := by
    rcases h with harith | hunaligned
    · simp only [vecArithIllegal, Bool.and_eq_true] at harith
      exact Or.inl harith.left
    · simp only [vecUnaligned, Bool.and_eq_true] at hunaligned
      have hcracked := hunaligned.left.left
      simpa [vecIsCrackedClass] using hcracked
  rcases hclass with harith | hls
  · simp [touchesState, isVecDest, harith]
  · simp [touchesState, hls]

/-!
# Dispatch
-/

theorem dispatch_serial (hd : s.doDispatch P i = true) :
    s.csrInflight.valid = false ∧ s.vecCfgInflight.valid = false := by
  simp only [doDispatch, dispatchStall, Bool.not_eq_true', Bool.or_eq_false_iff] at hd
  obtain ⟨⟨⟨⟨⟨⟨⟨⟨⟨⟨⟨⟨⟨⟨_, _⟩, _⟩, _⟩, _⟩, _⟩, _⟩, _⟩, hcsr⟩, _⟩, _⟩, _⟩, _⟩, hcfg⟩, _⟩ := hd
  exact ⟨hcsr, hcfg⟩

theorem csrInflight_step (hd : s.doDispatch P i = true) :
    (s.step P i).csrInflight.valid = s.isCsr P := by
  have hidle := (dispatch_serial hd).left
  show (s.nextCsrInflight P i).valid = _
  cases hcsr : s.isCsr P with
  | true => simp [nextCsrInflight, hd, hcsr]
  | false =>
      simp only [nextCsrInflight, hd, hcsr, Bool.and_false, Bool.false_eq_true, if_false]
      split
      · rfl
      · exact hidle

theorem vecCfgInflight_step (hd : s.doDispatch P i = true) :
    (s.step P i).vecCfgInflight.valid = s.isVecCfg P := by
  have hidle := (dispatch_serial hd).right
  show (s.nextVecCfgInflight P i).valid = _
  cases hcfg : s.isVecCfg P with
  | true => simp [nextVecCfgInflight, hd, hcfg]
  | false =>
      simp only [nextVecCfgInflight, hd, hcfg, Bool.and_false, Bool.false_eq_true, if_false]
      split
      · rfl
      · exact hidle

theorem noEffect_iff (hd : s.doDispatch P i = true) :
    s.NoEffect P i ↔ s.touchesState P = false := by
  constructor
  · intro h
    have hint : s.needsDest P = false := by simpa [ratW0, hd] using h.intMap
    have hfloat : s.isFpOp P = false := by simpa [ratFW0, hd] using h.floatMap
    have hvec : s.isVecDest P = false := by simpa [ratVW0, hd] using h.vecMap
    have hmem : s.isMemOp P = false := by simpa [lsqIn, hd] using h.scalarMemory
    have hls : s.isVecLs P = false := by simpa [rsVlsuIn, hd] using h.vectorMemory
    have hcsr := (csrInflight_step hd).symm.trans h.csr
    have hcfg := (vecCfgInflight_step hd).symm.trans h.vecCfg
    simp [touchesState, hint, hfloat, hvec, hmem, hls, hcsr, hcfg]
  · intro h
    simp only [touchesState, Bool.or_eq_false_iff] at h
    obtain ⟨⟨⟨⟨⟨⟨hint, hfloat⟩, hvec⟩, hmem⟩, hls⟩, hcsr⟩, hcfg⟩ := h
    refine ⟨?_, ?_, ?_, ?_, ?_, ?_, ?_, ?_⟩
    · simp [ratW0, hint]
    · simp [ratFW0, hfloat]
    · simp [ratVW0, hvec]
    · simp [robAlloc0, hint, hfloat, hvec]
    · simp [lsqIn, hmem]
    · simp [rsVlsuIn, hls]
    · rw [csrInflight_step hd, hcsr]
    · rw [vecCfgInflight_step hd, hcfg]

/-!
# Which words raise
-/

theorem control_arith (inst : Word) :
    (control 64 inst).aluOp ≠ .loadStore ∨ (control 64 inst).isEbreak = true ->
      (control 64 inst).illegalOpcode = false ∧ (control 64 inst).isEcall = false ∧
        (control 64 inst).isSfenceVma = false ∧ (control 64 inst).isVecArith = false ∧
        (control 64 inst).isVecLoad = false ∧ (control 64 inst).isVecStore = false :=
  control_shape 64 inst
    (p := fun c => c.aluOp ≠ .loadStore ∨ c.isEbreak = true ->
      c.illegalOpcode = false ∧ c.isEcall = false ∧ c.isSfenceVma = false ∧
        c.isVecArith = false ∧ c.isVecLoad = false ∧ c.isVecStore = false) (by decide)

theorem arith_of_unrecognised {inst : Word} (h : unrecognised inst = true) :
    (control 64 inst).aluOp ≠ .loadStore ∨ (control 64 inst).isEbreak = true := by
  simp only [unrecognised, Bool.or_eq_true] at h
  rcases h with hbreak | hfields
  · exact Or.inr hbreak
  · left
    intro hop
    simp [Pipe.reservedFields, hop, aluCtrl] at hfields

theorem raises_of_unrecognised (h : unrecognised (s.instWord P) = true) :
    s.raises P = s.itlbFaultThisCycle := by
  obtain ⟨hopcode, hecall, hsfence, harith, hload, hstore⟩ :=
    control_arith _ (arith_of_unrecognised h)
  change (s.ctrl P).illegalOpcode = false at hopcode
  change (s.ctrl P).isEcall = false at hecall
  change (s.ctrl P).isSfenceVma = false at hsfence
  change (s.ctrl P).isVecArith = false at harith
  change (s.ctrl P).isVecLoad = false at hload
  change (s.ctrl P).isVecStore = false at hstore
  simp [raises, hasException, sfencePrivViolation, vecArithIllegal, vecUnaligned,
    vecIsCrackedClass, isVecArith, isVecLs, isVecLoad, isVecStore, hopcode, hecall, hsfence,
    harith, hload, hstore]

theorem raises_of_opcode (h : (s.ctrl P).illegalOpcode = true) : s.raises P = true := by
  simp [raises, hasException, h]

theorem raisesFor_eq (inst : Word) :
    Pipe.raisesFor 64 inst = ((control 64 inst).illegalOpcode || unrecognised inst) := by
  rw [Pipe.raisesFor, unrecognised, Bool.or_assoc]
  rw [Bool.or_comm (Pipe.reservedFields 64 inst)]

theorem slot0_iff :
    (Pipe.raisesFor 64 (s.instWord P) = true -> s.raises P = true) ↔
      (s.itlbFaultThisCycle = false -> unrecognised (s.instWord P) = false) := by
  rw [raisesFor_eq]
  cases hword : unrecognised (s.instWord P) with
  | true => simp [raises_of_unrecognised hword]
  | false =>
      simp only [Bool.or_false, implies_true, iff_true]
      exact raises_of_opcode

theorem slot1_iff (hd : s.doDispatchSlot1 P i = true) :
    Pipe.raisesFor 64 (s.instWord1 P) = false ↔ unrecognised (s.instWord1 P) = false := by
  have hplain : s.slot1IsPlainAlu P = true := by
    simp only [doDispatchSlot1, tryDualIssue, Bool.and_eq_true] at hd
    exact hd.left.right.left.right
  have hopcode : (control 64 (s.instWord1 P)).illegalOpcode = false := by
    simp only [slot1IsPlainAlu, isTrapRelated1, Bool.and_eq_true, Bool.not_eq_true',
      Bool.or_eq_false_iff] at hplain
    exact hplain.left.left.left.left.left.right.left.left
  rw [raisesFor_eq, hopcode, Bool.false_or]

/-!
# Effects
-/

theorem touches_iff :
    (s.raises P = true -> s.touchesState P = false) ↔
      (s.vecArithIllegal P = false ∧ s.vecUnaligned P = false) ∧
        (s.itlbFaultThisCycle = true -> s.touchesState P = false) := by
  constructor
  · intro h
    have hvector : ¬ (s.vecArithIllegal P = true ∨ s.vecUnaligned P = true) := by
      intro hv
      have hraises : s.raises P = true := by
        rcases hv with harith | hunaligned
        · simp [raises, hasException, harith]
        · simp [raises, hasException, hunaligned]
      have htouches := touchesState_of_vector hv
      rw [h hraises] at htouches
      exact absurd htouches Bool.false_ne_true
    refine ⟨by simpa using hvector, ?_⟩
    intro hfault
    exact h (by simp [raises, hfault])
  · rintro ⟨⟨harith, hunaligned⟩, hfault⟩ hraises
    simp only [raises, hasException, sfencePrivViolation, harith, hunaligned, Bool.or_false,
      Bool.or_eq_true, Bool.and_eq_true] at hraises
    rcases hraises with ((hopcode | hecall) | hfetch) | hsfence
    · exact touchesState_of_stopped (Or.inl hopcode)
    · exact touchesState_of_stopped (Or.inr (Or.inl hecall))
    · exact hfault hfetch
    · exact touchesState_of_stopped (Or.inr (Or.inr (Or.inl hsfence.left)))

/--
In every state the core treats the words it dispatches as the in-order core does, and
lets no trapping instruction take effect, exactly when the words it mistakes are absent.
-/
theorem illegal_handled_iff (P : Params) (s : Core) (i : Input) :
    s.IllegalHandled P i ↔ s.ReservedAbsent P i := by
  constructor
  · intro h
    have heffect : s.doDispatch P i = true ->
        (s.raises P = true -> s.touchesState P = false) := fun hd hraises =>
      (noEffect_iff hd).mp (h.noEffect hd hraises)
    constructor
    · intro hd
      exact slot0_iff.mp (h.slot0 hd)
    · intro hd
      exact (slot1_iff hd).mp (h.slot1 hd)
    · intro hd
      exact (touches_iff.mp (heffect hd)).left
    · intro hd
      exact (touches_iff.mp (heffect hd)).right
  · intro h
    constructor
    · intro hd
      exact slot0_iff.mpr (h.slot0 hd)
    · intro hd
      exact (slot1_iff hd).mpr (h.slot1 hd)
    · intro hd hraises
      have htouches := touches_iff.mpr ⟨h.vector hd, h.fetchFault hd⟩ hraises
      exact (noEffect_iff hd).mpr htouches

/-!
A breakpoint is dispatched without a trap, and a vector instruction with a reserved
function field renames its destination before it traps.
-/

def resetWith (words : List Word) : Core := powerUp.reset (defaultParams words)

def ebreakWords : List Word := [0x00100073]
def reservedVectorWords : List Word := [0xfe0000d7]

theorem illegal_not_handled :
    ¬ (resetWith ebreakWords).IllegalHandled (defaultParams ebreakWords) quietInput ∧
      ¬ (resetWith reservedVectorWords).IllegalHandled (defaultParams reservedVectorWords)
          quietInput := by
  constructor
  · intro h
    have hraises := h.slot0 (by decide +kernel) (by decide +kernel)
    exact absurd hraises (by decide +kernel)
  · intro h
    have heffect := h.noEffect (by decide +kernel) (by decide +kernel)
    exact absurd heffect.vecMap (by decide +kernel)

end Core
end Ooo
end RvCores
