import RvCores.Lib.Run
import RvCores.Ooo.Dispatch
import RvCores.Ooo.RenameFile
import RvCores.Ooo.PowerUp

/-!
# Renaming in the core

The core renames an integer, a float and a vector register file.  The float and
vector files allocate at most one register in a cycle and conserve their
registers in every run.  The integer file allocates in two slots; it conserves
its registers as long as the second slot never allocates alone.
-/

namespace RvCores
namespace Ooo
namespace Core

open Isa Block Lib

/-!
# The three files
-/

def intFile (P : Params) : RenameFile :=
  { hardwireReg0 := true
    cap := P.intCap
    numPregs := P.numPregs
    writes := fun info => info.hasDest && !info.isFpDest && !info.isVecDest }

def floatFile (P : Params) : RenameFile :=
  { hardwireReg0 := false
    cap := P.floatCap
    numPregs := P.numFpregs
    writes := fun info => info.hasDest && info.isFpDest }

def vecFile (P : Params) : RenameFile :=
  { hardwireReg0 := false
    cap := P.vecCap
    numPregs := P.numVpregs
    writes := fun info => info.hasDest && info.isVecDest }

def robInfos (P : Params) (s : Core) : List RobInfo := s.rob.infos P.robEntries

variable {P : Params} {s : Core} {i : Input}

/-!
# Retirement

The release and commit ports of a file serve the retiring entries that write it.
-/

section Retire

variable {F : RenameFile} {fl : FreeList} {rat : RegisterAliasTable} {en0 en1 : Bool}

theorem retired_le_infos : s.rob.retireCount P.robEntries <= (s.robInfos P).length := by
  rw [robInfos, ReorderBuffer.infos_length]
  exact ReorderBuffer.retireCount_le P.robEntries s.rob

theorem freeListIn_pushed {c0 c1 : Bool}
    (h0 : en0 = (s.robRetireValid0 && F.writes s.rob.retire0))
    (h1 : en1 = (s.robRetireValid1 P && F.writes (s.rob.retire1 P.robEntries))) :
    (s.freeListIn P c0 c1 en0 en1).pushed =
      (F.allocations ((s.robInfos P).take (s.rob.retireCount P.robEntries))).map
        Allocation.old := by
  rw [robInfos, ReorderBuffer.infos_take_retireCount, ReorderBuffer.retired,
    <- RenameFile.pushed_retire, freeListIn, h0, h1]
  rfl

theorem commit_eq (h : F.Consistent fl rat (s.robInfos P))
    (h0 : en0 = (s.robRetireValid0 && F.writes s.rob.retire0))
    (h1 : en1 = (s.robRetireValid1 P && F.writes (s.rob.retire1 P.robEntries))) :
    RegisterAliasTable.write F.hardwireReg0
        (RegisterAliasTable.write F.hardwireReg0 rat.archMap (s.ratCommit0 en0))
        (s.ratCommit1 P en1) =
      (F.allocations ((s.robInfos P).take (s.rob.retireCount P.robEntries))).foldl
        Renamer.apply rat.archMap := by
  have htake : (s.robInfos P).take (s.rob.retireCount P.robEntries) =
      (if s.robRetireValid0 then [s.rob.retire0] else []) ++
        (if s.robRetireValid1 P then [s.rob.retire1 P.robEntries] else []) :=
    ReorderBuffer.infos_take_retireCount P.robEntries s.rob
  have hmem : forall a, a ∈ F.allocations
      ((s.robInfos P).take (s.rob.retireCount P.robEntries)) ->
      a ∈ F.allocations (s.robInfos P) := by
    intro a ha
    rw [<- List.take_append_drop (s.rob.retireCount P.robEntries) (s.robInfos P),
      RenameFile.allocations_append]
    exact List.mem_append_left _ ha
  rw [htake, RenameFile.allocations_append] at hmem
  rw [htake, RenameFile.allocations_append, List.foldl_append, h0, h1,
    <- RenameFile.write_commit (fun a ha => h.writable a (hmem a (List.mem_append_left _ ha))),
    <- RenameFile.write_commit (fun a ha => h.writable a (hmem a (List.mem_append_right _ ha)))]
  rfl

end Retire

/-!
# Dispatch

The entry that slot 0 allocates writes one file at most, and the write port of
that file's alias table is on in the same cycle.
-/

theorem rdAreg_lt : s.rdAreg P < numAregs := (s.instWord P).rd.isLt
theorem rdAreg1_lt : s.rdAreg1 P < numAregs := (s.instWord1 P).rd.isLt
theorem vecVdAreg_lt : s.vecVdAreg P < numAregs := BitVec.isLt _

theorem robAlloc0_int :
    (intFile P).writes (s.robAlloc0 P i) = s.needsDest P ∧
      (s.needsDest P = true -> (s.robAlloc0 P i).allocation =
        { areg := s.rdAreg P
          preg := s.flAllocPreg0
          old := s.rat.oldPreg0 (s.ratW0 P i) }) := by
  cases hdest : s.needsDest P with
  | true =>
      rcases needsDest_class hdest with ⟨hfp, harith, hls⟩
      have hvec : s.isVecDest P = false := by
        simp only [isVecLs, Bool.or_eq_false_iff] at hls
        simp [isVecDest, harith, hls.left]
      simp [intFile, robAlloc0, RobInfo.allocation, hdest, hfp, harith, hls, hvec,
        intDestPreg]
  | false =>
      cases hfp : s.isFpOp P <;> cases hvec : s.isVecDest P <;>
        simp [intFile, robAlloc0, hdest, hfp, hvec]

theorem robAlloc0_float :
    (floatFile P).writes (s.robAlloc0 P i) = s.isFpOp P ∧
      (s.isFpOp P = true -> (s.robAlloc0 P i).allocation =
        { areg := s.rdAreg P
          preg := s.flFAllocPreg0
          old := s.ratFloat.oldPreg0 (s.ratFW0 P i) }) := by
  cases hfp : s.isFpOp P with
  | true =>
      rcases isFpOp_class hfp with ⟨_, harith, hls⟩
      simp [floatFile, robAlloc0, RobInfo.allocation, hfp, harith, hls]
  | false => simp [floatFile, robAlloc0, hfp]

theorem robAlloc0_vec :
    (vecFile P).writes (s.robAlloc0 P i) = s.isVecDest P ∧
      (s.isVecDest P = true -> (s.robAlloc0 P i).allocation =
        { areg := s.vecVdAreg P
          preg := s.flVAllocPreg0
          old := s.ratVec.oldPreg0 (s.ratVW0 P i) }) := by
  cases hvec : s.isVecDest P with
  | true =>
      rcases isVecDest_class hvec with ⟨_, hfp⟩
      have hclass : s.isVecArith P = true ∨ s.isVecLs P = true := by
        simp only [isVecDest, Bool.or_eq_true] at hvec
        rcases hvec with harith | hload
        · exact Or.inl harith
        · exact Or.inr (by simp [isVecLs, hload])
      simp [vecFile, robAlloc0, RobInfo.allocation, hvec, hfp, hclass]
  | false => simp [vecFile, robAlloc0, hvec]

theorem robAlloc1_writes :
    (intFile P).writes (s.robAlloc1 P i) = s.needsDest1 P ∧
      (floatFile P).writes (s.robAlloc1 P i) = false ∧
      (vecFile P).writes (s.robAlloc1 P i) = false := by
  simp [intFile, floatFile, vecFile, robAlloc1]

/-!
# The integer file
-/

/--
A bundle whose second slot takes a register while the first one does not.
-/
def Slot1AllocatesAlone (P : Params) (s : Core) (i : Input) : Prop :=
  s.doDispatchSlot1 P i = true ∧ s.needsDest1 P = true ∧ s.needsDest P = false

theorem int_edge (hint : (intFile P).Consistent s.fl s.rat (s.robInfos P))
    (hdside : s.dsideFault.valid = false) (hslot : ¬ Slot1AllocatesAlone P s i) :
    (intFile P).Edge s.fl s.rat (s.robInfos P) (s.flIn P i) (s.ratIn P i)
      (s.robIn P i).allocated (s.rob.retireCount P.robEntries) := by
  have hresolve : s.dsideTrapResolve = false := by simp [dsideTrapResolve, hdside]
  have hen0 : s.retireIntDest0 =
      (s.robRetireValid0 && (intFile P).writes s.rob.retire0) := by
    simp [retireIntDest0, intFile, hresolve, Bool.and_assoc]
  have hen1 : s.retireIntDest1 P =
      (s.robRetireValid1 P && (intFile P).writes (s.rob.retire1 P.robEntries)) := by
    simp [retireIntDest1, intFile, Bool.and_assoc]
  have horder : (s.ratW1 P i).en = true -> (s.ratW0 P i).en = true := by
    intro h1
    simp only [ratW1, Bool.and_eq_true] at h1
    have hdest : s.needsDest P = true := by
      cases hdest : s.needsDest P with
      | true => rfl
      | false => exact absurd ⟨h1.left, h1.right, hdest⟩ hslot
    simp [ratW0, doDispatch_of_slot1 h1.left, hdest]
  have hgrant0 : (s.ratW0 P i).en = true -> 1 <= s.fl.count := by
    intro h0
    simp only [ratW0, Bool.and_eq_true] at h0
    have hok := (canDispatch_of_doDispatch h0.left).intFree h0.right
    simp only [flAllocOk0, FreeList.allocOk0, Bool.and_eq_true, decide_eq_true_eq] at hok
    exact hok.right
  exact
    { restore := rfl
      commit0 := rfl
      commit1 := rfl
      order := horder
      grant0 := fun h0 => ⟨hgrant0 h0, rfl⟩
      grant1 := by
        intro h1
        have h0 := horder h1
        have hcount := hgrant0 h0
        simp only [ratIn, ratW0, ratW1, Bool.and_eq_true] at h0 h1
        have hok0 : s.fl.allocOk0 (s.needsDest P) = true := by
          simp [FreeList.allocOk0, h0.right, hcount]
        have hok1 := (canDispatchSlot1_of_doDispatchSlot1 h1.left).intFree h1.right
        simp only [flAllocOk1, FreeList.allocOk1, hok0, if_true, Bool.and_eq_true,
          decide_eq_true_eq] at hok1
        refine ⟨hok1.right, ?_⟩
        simp [ratIn, ratW1, flAllocPreg1, FreeList.allocPreg1, hok0, intFile]
      target0 := by
        intro h0
        simp only [ratIn, ratW0, needsDest, Bool.and_eq_true, decide_eq_true_eq] at h0
        exact ⟨rdAreg_lt, fun _ => h0.right.right⟩
      target1 := by
        intro h1
        simp only [ratIn, ratW1, needsDest1, Bool.and_eq_true, decide_eq_true_eq] at h1
        exact ⟨rdAreg1_lt, fun _ => h1.right.right⟩
      dispatched := by
        rw [RobIn.allocated, RenameFile.allocations_append]
        congr 1
        · apply RenameFile.allocations_slot
          · rw [robIn, robAlloc0_int.left]
            rfl
          · intro h0
            simp only [ratIn, ratW0, Bool.and_eq_true] at h0
            exact robAlloc0_int.right h0.right
        · apply RenameFile.allocations_slot
          · rw [robIn, robAlloc1_writes.left]
            rfl
          · intro h1
            simp only [ratIn, ratW1, Bool.and_eq_true] at h1
            simp [robIn, robAlloc1, RobInfo.allocation, intDestPreg1, h1.right, ratIn,
              ratW1]
      retired_le := retired_le_infos
      released := freeListIn_pushed hen0 hen1
      committed := commit_eq hint hen0 hen1 }

/-!
# The float and vector files

Only slot 0 writes these files, so nothing has to be assumed about a cycle.
-/

theorem float_edge (hfloat : (floatFile P).Consistent s.flFloat s.ratFloat (s.robInfos P)) :
    (floatFile P).Edge s.flFloat s.ratFloat (s.robInfos P) (s.flFloatIn P i)
      (s.ratFloatIn P i) (s.robIn P i).allocated (s.rob.retireCount P.robEntries) := by
  have hen0 : s.retireFpDest0 =
      (s.robRetireValid0 && (floatFile P).writes s.rob.retire0) := by
    simp [retireFpDest0, floatFile, Bool.and_assoc]
  have hen1 : s.retireFpDest1 P =
      (s.robRetireValid1 P && (floatFile P).writes (s.rob.retire1 P.robEntries)) := by
    simp [retireFpDest1, floatFile, Bool.and_assoc]
  exact
    { restore := rfl
      commit0 := rfl
      commit1 := rfl
      order := fun h1 => absurd h1 (by simp [ratFloatIn, noWrite])
      grant0 := by
        intro h0
        simp only [ratFloatIn, ratFW0, Bool.and_eq_true] at h0
        have hok := (canDispatch_of_doDispatch h0.left).floatFree h0.right
        simp only [flFAllocOk0, FreeList.allocOk0, Bool.and_eq_true,
          decide_eq_true_eq] at hok
        exact ⟨hok.right, rfl⟩
      grant1 := fun h1 => absurd h1 (by simp [ratFloatIn, noWrite])
      target0 := fun _ => ⟨rdAreg_lt, fun h => absurd h (by simp [floatFile])⟩
      target1 := fun h1 => absurd h1 (by simp [ratFloatIn, noWrite])
      dispatched := by
        rw [RobIn.allocated, RenameFile.allocations_append]
        congr 1
        · apply RenameFile.allocations_slot
          · rw [robIn, robAlloc0_float.left]
            rfl
          · intro h0
            simp only [ratFloatIn, ratFW0, Bool.and_eq_true] at h0
            exact robAlloc0_float.right h0.right
        · apply RenameFile.allocations_slot
          · rw [robIn, robAlloc1_writes.right.left, Bool.and_false]
            rfl
          · exact fun h1 => absurd h1 (by simp [ratFloatIn, noWrite])
      retired_le := retired_le_infos
      released := freeListIn_pushed hen0 hen1
      committed := commit_eq hfloat hen0 hen1 }

theorem vec_edge (hvec : (vecFile P).Consistent s.flVec s.ratVec (s.robInfos P)) :
    (vecFile P).Edge s.flVec s.ratVec (s.robInfos P) (s.flVecIn P i)
      (s.ratVecIn P i) (s.robIn P i).allocated (s.rob.retireCount P.robEntries) := by
  have hen0 : s.retireVecDest0 =
      (s.robRetireValid0 && (vecFile P).writes s.rob.retire0) := by
    simp [retireVecDest0, vecFile, Bool.and_assoc]
  have hen1 : s.retireVecDest1 P =
      (s.robRetireValid1 P && (vecFile P).writes (s.rob.retire1 P.robEntries)) := by
    simp [retireVecDest1, vecFile, Bool.and_assoc]
  exact
    { restore := rfl
      commit0 := rfl
      commit1 := rfl
      order := fun h1 => absurd h1 (by simp [ratVecIn, noWrite])
      grant0 := by
        intro h0
        simp only [ratVecIn, ratVW0, Bool.and_eq_true] at h0
        have hok := (canDispatch_of_doDispatch h0.left).vecFree h0.right
        simp only [flVAllocOk0, FreeList.allocOk0, Bool.and_eq_true,
          decide_eq_true_eq] at hok
        exact ⟨hok.right, rfl⟩
      grant1 := fun h1 => absurd h1 (by simp [ratVecIn, noWrite])
      target0 := fun _ => ⟨vecVdAreg_lt, fun h => absurd h (by simp [vecFile])⟩
      target1 := fun h1 => absurd h1 (by simp [ratVecIn, noWrite])
      dispatched := by
        rw [RobIn.allocated, RenameFile.allocations_append]
        congr 1
        · apply RenameFile.allocations_slot
          · rw [robIn, robAlloc0_vec.left]
            rfl
          · intro h0
            simp only [ratVecIn, ratVW0, Bool.and_eq_true] at h0
            exact robAlloc0_vec.right h0.right
        · apply RenameFile.allocations_slot
          · rw [robIn, robAlloc1_writes.right.right, Bool.and_false]
            rfl
          · exact fun h1 => absurd h1 (by simp [ratVecIn, noWrite])
      retired_le := retired_le_infos
      released := freeListIn_pushed hen0 hen1
      committed := commit_eq hvec hen0 hen1 }

/-!
# Invariants of a run
-/

structure FloatVecRenamed (P : Params) (s : Core) : Prop where
  rob : s.rob.WellFormed P.robEntries
  float : (floatFile P).Consistent s.flFloat s.ratFloat (s.robInfos P)
  vec : (vecFile P).Consistent s.flVec s.ratVec (s.robInfos P)

structure IntRenamed (P : Params) (s : Core) : Prop where
  rob : s.rob.WellFormed P.robEntries
  int : (intFile P).Consistent s.fl s.rat (s.robInfos P)
  noFault : s.dsideFault.valid = false

theorem step_floatVecRenamed (hvalid : P.Valid) (h : FloatVecRenamed P s) :
    FloatVecRenamed P (s.step P i) := by
  have hinfos := rob_infos_step (i := i) hvalid h.rob
  have hfroom := hvalid.floatRoom
  have hvroom := hvalid.vecRoom
  constructor
  · exact rob_wellFormed_step hvalid h.rob
  · rw [robInfos, hinfos]
    refine RenameFile.step_consistent ?_ h.float (float_edge h.float)
    change P.numFpregs - numAregs + numAregs = P.numFpregs
    omega
  · rw [robInfos, hinfos]
    refine RenameFile.step_consistent ?_ h.vec (vec_edge h.vec)
    change P.numVpregs - numAregs + numAregs = P.numVpregs
    omega

theorem dtlbPageFault_of_off (hoff : s.translateEnable = false) :
    s.dtlbPageFault P i = false := by
  simp [dtlbPageFault, dtlbHitFault, dtlbNeeded, hoff]

theorem dsideFault_step (hoff : s.translateEnable = false)
    (h : s.dsideFault.valid = false) :
    (s.step P i).dsideFault.valid = false := by
  change (s.nextDsideFault P i).valid = false
  simp [nextDsideFault, dsideFaultPulse, dtlbPageFault_of_off hoff, dsideTrapResolve, h]

theorem step_intRenamed (hvalid : P.Valid) (hoff : s.translateEnable = false)
    (hslot : ¬ Slot1AllocatesAlone P s i) (h : IntRenamed P s) :
    IntRenamed P (s.step P i) := by
  have hroom := hvalid.intRoom
  constructor
  · exact rob_wellFormed_step hvalid h.rob
  · rw [robInfos, rob_infos_step hvalid h.rob]
    refine RenameFile.step_consistent ?_ h.int (int_edge h.int h.noFault hslot)
    change P.numPregs - numAregs + numAregs = P.numPregs
    omega
  · exact dsideFault_step hoff h.noFault

theorem reset_floatVecRenamed (hvalid : P.Valid) (s : Core) :
    FloatVecRenamed P (s.reset P) := by
  have hrob := hvalid.robRoom
  have hfroom := hvalid.floatRoom
  have hvroom := hvalid.vecRoom
  constructor
  · exact ReorderBuffer.reset_wellFormed (by omega) s.rob
  · apply RenameFile.reset_consistent
    · change P.numFpregs - numAregs + numAregs = P.numFpregs
      omega
    · change 0 < P.numFpregs - numAregs
      omega
  · apply RenameFile.reset_consistent
    · change P.numVpregs - numAregs + numAregs = P.numVpregs
      omega
    · change 0 < P.numVpregs - numAregs
      omega

theorem reset_intRenamed (hvalid : P.Valid) (s : Core) : IntRenamed P (s.reset P) := by
  have hrob := hvalid.robRoom
  have hroom := hvalid.intRoom
  constructor
  · exact ReorderBuffer.reset_wellFormed (by omega) s.rob
  · apply RenameFile.reset_consistent
    · change P.numPregs - numAregs + numAregs = P.numPregs
      omega
    · change 0 < P.numPregs - numAregs
      omega
  · rfl

theorem floatVecRenamed_of_reachable (hvalid : P.Valid) {s0 : Core}
    (hrun : Reachable (step P) (s0.reset P) s) :
    FloatVecRenamed P s :=
  invariant_of_reachableWhen (reset_floatVecRenamed hvalid s0)
    (fun _ _ h _ => step_floatVecRenamed hvalid h) hrun

/-!
# Conservation of the integer registers

In a run without translation in which no bundle allocates in its second slot
alone, the free window, the retired map and the instructions in flight share the
physical registers without overlap, and so the free list only grants registers
that nothing uses.
-/

def inFlightPregs (P : Params) (s : Core) : List Nat :=
  ((s.robInfos P).filter (intFile P).writes).map RobInfo.preg

def archPregs (s : Core) : List Nat := (List.range numAregs).map s.rat.archMap

def IntConserved (P : Params) (s : Core) : Prop :=
  (s.fl.free P.intCap ++ (s.archPregs ++ s.inFlightPregs P)).Perm (List.range P.numPregs)

def Unused (P : Params) (s : Core) (p : Nat) : Prop :=
  p ∉ s.archPregs ∧ p ∉ s.inFlightPregs P ∧ forall a, a < numAregs -> s.rat.specMap a ≠ p

def GrantsUnused (P : Params) (s : Core) : Prop :=
  (s.flAllocOk0 P = true -> s.Unused P s.flAllocPreg0) ∧
    (s.flAllocOk1 P = true -> s.Unused P (s.flAllocPreg1 P))

def QuietRename (P : Params) (s : Core) (i : Input) : Prop :=
  s.translateEnable = false ∧ ¬ Slot1AllocatesAlone P s i

instance (P : Params) (s : Core) (i : Input) : Decidable (Slot1AllocatesAlone P s i) :=
  inferInstanceAs (Decidable (_ ∧ _ ∧ _))

instance (P : Params) (s : Core) (i : Input) : Decidable (QuietRename P s i) :=
  inferInstanceAs (Decidable (_ ∧ _))

theorem held_eq (P : Params) (s : Core) :
    Renamer.held (List.range numAregs) ((intFile P).renamer s.fl s.rat (s.robInfos P)) =
      s.archPregs ++ s.inFlightPregs P := by
  simp only [Renamer.held, RenameFile.renamer, RenameFile.allocations, List.map_map]
  rfl

theorem intConserved_of_renamed (h : IntRenamed P s) : IntConserved P s := by
  have hperm := h.int.conserves.perm
  rw [held_eq] at hperm
  exact hperm

theorem unused_of_free (h : IntRenamed P s) {p : Nat} (hp : p ∈ s.fl.free P.intCap) :
    s.Unused P p := by
  have hheld := Renamer.free_not_held h.int.conserves List.nodup_range hp
  have hspec : forall a, a < numAregs -> s.rat.specMap a ≠ p := by
    intro a ha heq
    apply hheld
    rw [<- heq, h.int.spec a ha]
    exact Renamer.spec_mem_held (List.mem_range.mpr ha)
  rw [held_eq, List.mem_append, not_or] at hheld
  exact ⟨hheld.left, hheld.right, hspec⟩

theorem grant_mem_free {k : Nat} (h : IntRenamed P s) (hk : k < s.fl.count) :
    s.fl.queue (wrapAdd P.intCap s.fl.head k) ∈ s.fl.free P.intCap := by
  have hwf := h.int.wellFormed
  exact (mem_window hwf.head_lt hwf.count_le).mpr ⟨_, ⟨k, hk, rfl⟩, rfl⟩

theorem grantsUnused_of_renamed (h : IntRenamed P s) : GrantsUnused P s := by
  constructor
  · intro hok
    simp only [flAllocOk0, FreeList.allocOk0, Bool.and_eq_true, decide_eq_true_eq] at hok
    have hhead : s.fl.head < P.intCap := h.int.wellFormed.head_lt
    have hmem := grant_mem_free h (k := 0) (by omega)
    rw [wrapAdd_zero hhead] at hmem
    exact unused_of_free h hmem
  · intro hok
    simp only [flAllocOk1, FreeList.allocOk1, Bool.and_eq_true, decide_eq_true_eq] at hok
    apply unused_of_free h
    apply grant_mem_free h
    cases hok0 : s.fl.allocOk0 (s.needsDest P) <;> simp [hok0] at hok ⊢ <;> omega

theorem int_registers_conserved (hvalid : P.Valid) {s0 : Core}
    (hrun : ReachableWhen (step P) (QuietRename P) (s0.reset P) s) :
    IntConserved P s ∧ GrantsUnused P s := by
  have hinv : IntRenamed P s :=
    invariant_of_reachableWhen (reset_intRenamed hvalid s0)
      (fun _ _ h hcond => step_intRenamed hvalid hcond.left hcond.right h) hrun
  exact ⟨intConserved_of_renamed hinv, grantsUnused_of_renamed hinv⟩

/--
addi x1, x0, 5; addi x2, x1, 7: both slots of the first bundle allocate.
-/
def dualDestProgram : Params := defaultParams [0x00500093, 0x00708113]

theorem int_registers_conserved_dualDest :
    IntConserved dualDestProgram
        (run (step dualDestProgram) (powerUp.reset dualDestProgram)
          (List.replicate 4 quietInput)) ∧
      GrantsUnused dualDestProgram
        (run (step dualDestProgram) (powerUp.reset dualDestProgram)
          (List.replicate 4 quietInput)) :=
  int_registers_conserved (defaultParams_valid _) (reachableWhen_run (by decide +kernel))

/--
addi x0, x0, 0; addi x1, x0, 5; addi x2, x1, 7: only the second slot of the
first bundle allocates, and the next instruction is granted the same register.
-/
def slot1DestProgram : Params := defaultParams [0x00000013, 0x00500093, 0x00708113]

theorem slot1_allocation_breaks_conservation :
    exists s, ReachableWhen (step slot1DestProgram) (fun s _ => s.translateEnable = false)
        (powerUp.reset slot1DestProgram) s ∧
      ¬ IntConserved slot1DestProgram s ∧ ¬ GrantsUnused slot1DestProgram s := by
  refine ⟨run (step slot1DestProgram) (powerUp.reset slot1DestProgram) [quietInput],
    reachableWhen_run (by decide +kernel), ?_, ?_⟩
  · intro hperm
    have hcount := hperm.count_eq 32
    revert hcount
    decide +kernel
  · intro hgrants
    have hunused := hgrants.left (by decide +kernel)
    exact hunused.right.left (by decide +kernel)

/-!
# Conservation of the float registers

Only slot 0 writes the float file and no register of it is hardwired, so nothing
is assumed about the cycles of the run.
-/

def floatPending (P : Params) (s : Core) : List RobInfo :=
  (s.robInfos P).filter (floatFile P).writes

def floatArchPregs (s : Core) : List Nat := (List.range numAregs).map s.ratFloat.archMap

/--
The free window, the retired map and the un-retired float instructions hold every
float register once, and the speculative map is the retired one updated by the
un-retired instructions in program order.
-/
structure FloatConserved (P : Params) (s : Core) : Prop where
  once : (s.flFloat.free P.floatCap ++
    (s.floatArchPregs ++ (s.floatPending P).map RobInfo.preg)).Perm (List.range P.numFpregs)
  injective : forall a b, a < numAregs -> b < numAregs ->
    s.ratFloat.archMap a = s.ratFloat.archMap b -> a = b
  spec : forall a, a < numAregs ->
    s.ratFloat.specMap a =
      (s.floatPending P).foldl (fun map info => setAt map info.areg info.preg)
        s.ratFloat.archMap a

theorem floatConserved_of_renamed (h : FloatVecRenamed P s) : FloatConserved P s := by
  have hperm : (s.flFloat.free P.floatCap ++
      (s.floatArchPregs ++ (s.floatPending P).map RobInfo.preg)).Perm
        (List.range P.numFpregs) := by
    have hconserves := h.float.conserves.perm
    simp only [Renamer.held, RenameFile.renamer, RenameFile.allocations, List.map_map]
      at hconserves
    exact hconserves
  constructor
  · exact hperm
  · have hnodup : s.floatArchPregs.Nodup := by
      have hall := hperm.nodup_iff.mpr List.nodup_range
      exact (List.nodup_append.mp (List.nodup_append.mp hall).right.left).left
    intro a b ha hb heq
    exact List.inj_on_of_nodup_map hnodup (List.mem_range.mpr ha) (List.mem_range.mpr hb) heq
  · intro a ha
    rw [h.float.spec a ha]
    simp only [Renamer.spec, RenameFile.renamer, RenameFile.allocations, List.foldl_map]
    rfl

theorem float_registers_conserved (hvalid : P.Valid) {s0 : Core}
    (hrun : Reachable (step P) (s0.reset P) s) :
    FloatConserved P s :=
  floatConserved_of_renamed (floatVecRenamed_of_reachable hvalid hrun)

/--
fadd.s f0, f1, f2; fsub.s f0, f0, f1; fmul.s f3, f0, f0: two renames of f0 back to
back.
-/
def floatZeroProgram : Params := defaultParams [0x00208053, 0x08100053, 0x100001d3]

def floatZeroRun : Core :=
  run (step floatZeroProgram) (powerUp.reset floatZeroProgram)
    (List.replicate 3 quietInput)

theorem float_registers_conserved_floatZero :
    (floatZeroRun.floatPending floatZeroProgram).length = 2 ∧
      FloatConserved floatZeroProgram floatZeroRun :=
  ⟨by decide +kernel, float_registers_conserved (defaultParams_valid _) (reachable_run _ _)⟩

end Core
end Ooo
end RvCores
