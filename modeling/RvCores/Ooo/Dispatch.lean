import RvCores.Ooo.Core

/-!
# What a dispatch guarantees

The stall signal is one long disjunction.  This module turns its absence into
named facts once, so that the invariants do not unfold it again.
-/

namespace RvCores
namespace Ooo
namespace Core

open Isa Block Lib

variable {P : Params} {s : Core} {i : Input}

structure CanDispatch (P : Params) (s : Core) (i : Input) : Prop where
  robRoom : s.rob.count < P.robEntries
  stationRoom : s.stationFull P = false
  intFree : s.needsDest P = true -> s.flAllocOk0 P = true
  floatFree : s.isFpOp P = true -> s.flFAllocOk0 P = true
  vecFree : s.isVecDest P = true -> s.flVAllocOk0 P = true
  noBranch : s.brInflight.valid = false
  noTrap : s.trapInflight.valid = false
  noJump : s.jrInflight.valid = false
  noCsr : s.csrInflight.valid = false
  fetched : s.itlbMiss = false
  noDtlbStall : s.dtlbStall P i = false
  noDsideFault : s.dsideFault.valid = false
  noInterrupt : s.interruptPending i = false
  noVecCfg : s.vecCfgInflight.valid = false
  vlsuQuiet : s.vlsuInflightValid = true -> s.isVecLs P = true ∧ s.vecCrack.active = true

theorem canDispatch_of_doDispatch (h : s.doDispatch P i = true) : CanDispatch P s i := by
  simp only [doDispatch, dispatchStall, Bool.not_eq_true', Bool.or_eq_false_iff,
    Bool.and_eq_false_iff, Bool.not_eq_false', ReorderBuffer.full, decide_eq_false_iff_not,
    Nat.not_le, ge_iff_le, Bool.and_eq_true] at h
  rcases h with ⟨⟨⟨⟨⟨⟨⟨⟨⟨⟨⟨⟨⟨⟨hrob, hstation⟩, hint⟩, hfloat⟩, hvec⟩, hbr⟩, htrap⟩, hjr⟩,
    hcsr⟩, hitlb⟩, hdtlb⟩, hdside⟩, hirq⟩, hcfg⟩, hvlsu⟩
  exact
    { robRoom := hrob
      stationRoom := hstation
      intFree := fun hd => hint.resolve_left (by simp [hd])
      floatFree := fun hd => hfloat.resolve_left (by simp [hd])
      vecFree := fun hd => hvec.resolve_left (by simp [hd])
      noBranch := hbr
      noTrap := htrap
      noJump := hjr
      noCsr := hcsr
      fetched := hitlb
      noDtlbStall := hdtlb
      noDsideFault := hdside
      noInterrupt := hirq
      noVecCfg := hcfg
      vlsuQuiet := fun hv => hvlsu.resolve_left (by simp [hv]) }

/-!
# The second slot
-/

structure CanDispatchSlot1 (P : Params) (s : Core) (i : Input) : Prop where
  first : s.doDispatch P i = true
  dual : s.tryDualIssue P = true
  robRoom : s.rob.count <= P.robEntries - 2
  stationRoom : s.rsAlu.count P.rsAluCfg <= P.rsAluEntries - 2
  intFree : s.needsDest1 P = true -> s.flAllocOk1 P = true

theorem canDispatchSlot1_of_doDispatchSlot1 (h : s.doDispatchSlot1 P i = true) :
    CanDispatchSlot1 P s i := by
  simp only [doDispatchSlot1, dualDispatchRoom, Bool.and_eq_true, decide_eq_true_eq,
    Bool.or_eq_true, Bool.not_eq_true'] at h
  rcases h with ⟨⟨hfirst, hdual⟩, ⟨hrob, hrs⟩, hfree⟩
  exact
    { first := hfirst
      dual := hdual
      robRoom := hrob
      stationRoom := hrs
      intFree := fun hd => hfree.resolve_left (by simp [hd]) }

theorem doDispatch_of_slot1 (h : s.doDispatchSlot1 P i = true) :
    s.doDispatch P i = true :=
  (canDispatchSlot1_of_doDispatchSlot1 h).first

theorem robIn_order : (s.robIn P i).allocEn1 = true -> (s.robIn P i).allocEn0 = true :=
  doDispatch_of_slot1

theorem robIn_room (hvalid : P.Valid) (hcount : s.rob.count <= P.robEntries) :
    s.rob.count + (s.robIn P i).allocCount <= P.robEntries := by
  have hrobRoom := hvalid.robRoom
  change s.rob.count + ((s.doDispatch P i).toNat + (s.doDispatchSlot1 P i).toNat) <= _
  cases h1 : s.doDispatchSlot1 P i with
  | true =>
      have hroom := (canDispatchSlot1_of_doDispatchSlot1 h1).robRoom
      rw [doDispatch_of_slot1 h1]
      simp only [Bool.toNat_true]
      omega
  | false =>
      cases h0 : s.doDispatch P i with
      | true =>
          have hroom := (canDispatch_of_doDispatch h0).robRoom
          simp only [Bool.toNat_true, Bool.toNat_false]
          omega
      | false => simpa using hcount

/-!
# The reorder buffer stays well formed
-/

theorem rob_wellFormed_step (hvalid : P.Valid)
    (hwf : s.rob.WellFormed P.robEntries) :
    (s.step P i).rob.WellFormed P.robEntries :=
  ReorderBuffer.step_wellFormed hwf (robIn_room hvalid hwf.count_le)

theorem rob_infos_step (hvalid : P.Valid) (hwf : s.rob.WellFormed P.robEntries) :
    (s.step P i).rob.infos P.robEntries =
      (s.rob.infos P.robEntries ++ (s.robIn P i).allocated).drop
        (s.rob.retireCount P.robEntries) :=
  ReorderBuffer.step_infos hwf (robIn_room hvalid hwf.count_le)

/-!
# Destination classes

An instruction writes at most one of the three register files.
-/

theorem needsDest_class (h : s.needsDest P = true) :
    s.isFpOp P = false ∧ s.isVecArith P = false ∧ s.isVecLs P = false := by
  simp only [needsDest, Bool.and_eq_true] at h
  rcases control_regWrite xlen (s.instWord P) h.left with ⟨hfp, harith, hload, hstore⟩
  change (s.ctrl P).fRegWrite = false at hfp
  refine ⟨?_, harith, ?_⟩
  · simp [isFpOp, isFpPure, isFpIntmove, isFpMulticycle, isFpDiv, isFpSqrt, hfp]
  · simp [isVecLs, isVecLoad, isVecStore, ctrl, hload, hstore]

theorem fRegWrite_of_isFpOp (h : s.isFpOp P = true) : (s.ctrl P).fRegWrite = true := by
  simp only [isFpOp, isFpPure, isFpIntmove, isFpMulticycle, isFpDiv, isFpSqrt,
    Bool.or_eq_true, Bool.and_eq_true] at h
  rcases h with (h | h) | h | h <;> exact h.left

theorem isFpOp_class (h : s.isFpOp P = true) :
    s.needsDest P = false ∧ s.isVecArith P = false ∧ s.isVecLs P = false := by
  rcases control_fRegWrite xlen (s.instWord P) (fRegWrite_of_isFpOp h) with
    ⟨hint, harith, hload, hstore⟩
  refine ⟨?_, harith, ?_⟩
  · simp [needsDest, ctrl, hint]
  · simp [isVecLs, isVecLoad, isVecStore, ctrl, hload, hstore]

theorem isVecDest_class (h : s.isVecDest P = true) :
    s.needsDest P = false ∧ s.isFpOp P = false := by
  constructor
  · cases hd : s.needsDest P with
    | false => rfl
    | true =>
        rcases needsDest_class hd with ⟨_, harith, hls⟩
        simp only [isVecLs, Bool.or_eq_false_iff] at hls
        simp [isVecDest, harith, hls.left] at h
  · cases hf : s.isFpOp P with
    | false => rfl
    | true =>
        rcases isFpOp_class hf with ⟨_, harith, hls⟩
        simp only [isVecLs, Bool.or_eq_false_iff] at hls
        simp [isVecDest, harith, hls.left] at h

theorem isDivOp_class (h : s.isDivOp P = true) :
    s.isMemOp P = false ∧ s.isFpOp P = false := by
  have hrtype : (s.ctrl P).aluOp = .rtype := rtype_of_isDiv h
  rcases control_rtype xlen (s.instWord P) hrtype with ⟨hread, hwrite, hamo, hfp⟩
  change (s.ctrl P).memRead = false at hread
  change (s.ctrl P).memWrite = false at hwrite
  change (s.ctrl P).isAmo = false at hamo
  change (s.ctrl P).fRegWrite = false at hfp
  constructor
  · simp [isMemOp, hread, hwrite, hamo]
  · simp [isFpOp, isFpPure, isFpIntmove, isFpMulticycle, isFpDiv, isFpSqrt, hfp]

end Core
end Ooo
end RvCores
