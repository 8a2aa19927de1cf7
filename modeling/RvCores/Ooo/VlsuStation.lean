import RvCores.Block.VectorMemory
import RvCores.Ooo.Cracking

/-!
# The station of the vector load-store unit

Vector loads and stores wait in a pool of their own and the unit takes them one by one.
Other instructions are held back until the pool is empty and the unit is at rest.
-/

namespace RvCores
namespace Ooo
namespace Core

open Isa Block

variable {P : Params} {s : Core} {i : Input}

/-!
# Vector loads and stores
-/

theorem control_vecLs (inst : Word) :
    (control 64 inst).isVecLoad = true ∨ (control 64 inst).isVecStore = true ->
      (control 64 inst).memRead = false ∧ (control 64 inst).memWrite = false ∧
        (control 64 inst).isAmo = false ∧ (control 64 inst).aluOp ≠ .rtype ∧
        (control 64 inst).isVecArith = false ∧
        (control 64 inst).isVecLoad = !(control 64 inst).isVecStore :=
  control_shape 64 inst
    (p := fun c => c.isVecLoad = true ∨ c.isVecStore = true ->
      c.memRead = false ∧ c.memWrite = false ∧ c.isAmo = false ∧ c.aluOp ≠ .rtype ∧
        c.isVecArith = false ∧ c.isVecLoad = !c.isVecStore) (by decide)

section

variable (h : s.isVecLs P = true)

include h

theorem control_of_vecLs :
    (s.ctrl P).memRead = false ∧ (s.ctrl P).memWrite = false ∧ (s.ctrl P).isAmo = false ∧
      (s.ctrl P).aluOp ≠ .rtype ∧ s.isVecArith P = false ∧
      s.isVecLoad P = !s.isVecStore P := by
  have hclass : s.isVecLoad P = true ∨ s.isVecStore P = true := by
    simpa [isVecLs] using h
  exact control_vecLs _ hclass

theorem cracked_of_vecLs : s.vecIsCrackedClass P = true := by
  simp [vecIsCrackedClass, h]

theorem plain_of_vecLs :
    s.isMemOp P = false ∧ s.isDivOp P = false ∧ s.isFpOp P = false ∧ s.needsDest P = false := by
  obtain ⟨hread, hwrite, hamo, hrtype, _⟩ := control_of_vecLs h
  have hmem : s.isMemOp P = false := by simp [isMemOp, hread, hwrite, hamo]
  have hdiv : s.isDivOp P = false := Bool.eq_false_iff.mpr fun hd => hrtype (rtype_of_isDiv hd)
  have hfp : s.isFpOp P = false := Bool.eq_false_iff.mpr fun hf =>
    Bool.noConfusion ((isFpOp_class hf).right.right.symm.trans h)
  have hint : s.needsDest P = false := Bool.eq_false_iff.mpr fun hd =>
    Bool.noConfusion ((needsDest_class hd).right.right.symm.trans h)
  exact ⟨hmem, hdiv, hfp, hint⟩

theorem stationFull_of_vecLs : s.stationFull P = s.rsVlsu.full rsVlsuCfg := by
  obtain ⟨hmem, hdiv, hfp, _⟩ := plain_of_vecLs h
  obtain ⟨_, _, _, _, harith, _⟩ := control_of_vecLs h
  simp [stationFull, hmem, hdiv, hfp, harith, h]

end

/-!
# Operations that wait
-/

def vlsuWaiting (s : Core) : Nat := s.rsVlsu.count rsVlsuCfg

def vlsuEnters (P : Params) (s : Core) (i : Input) : Bool := s.doDispatch P i && s.isVecLs P

theorem vlsuWaiting_step (P : Params) (s : Core) (i : Input) :
    (s.step P i).vlsuWaiting + s.vlsuStart.toNat =
      s.vlsuWaiting + (s.vlsuEnters P i).toNat := by
  show (s.rsVlsu.step rsVlsuCfg (s.rsVlsuIn P i)).count rsVlsuCfg +
      (s.rsVlsuIn P i).issueAck.toNat =
    s.rsVlsu.count rsVlsuCfg + (s.rsVlsuIn P i).disp0.en.toNat
  apply ReservationStation.count_step
  · rfl
  · intro hen
    have hdisp : s.doDispatch P i = true ∧ s.isVecLs P = true := by
      simpa [rsVlsuIn] using hen
    rw [← stationFull_of_vecLs hdisp.right]
    exact (canDispatch_of_doDispatch hdisp.left).stationRoom
  · intro hack
    have hstart : s.vlsuStart = true := hack
    simp only [vlsuStart, Bool.and_eq_true] at hstart
    exact hstart.left

theorem vlsuWaiting_pos_of_start (h : s.vlsuStart = true) : 0 < s.vlsuWaiting := by
  simp only [vlsuStart, Bool.and_eq_true] at h
  obtain ⟨hlt, hvalid, _⟩ := ReservationStation.issueIdx_spec h.left
  exact List.countP_pos_iff.mpr ⟨_, List.mem_range.mpr hlt, hvalid⟩

theorem busy_of_start (h : s.vlsuStart = true) : s.vlsu.busy = false := by
  simp only [vlsuStart, Bool.and_eq_true, Bool.not_eq_true'] at h
  exact h.right

/-!
# The unit at rest
-/

theorem vlen_words : 64 ∣ 512 := by decide

theorem vlsu_sound_step (h : s.vlsu.Sound) : (s.step P i).vlsu.Sound := by
  show (s.vlsu.step (s.vlsuIn P i)).Sound
  cases hbusy : s.vlsu.busy with
  | true => exact (Vlsu.owed_step vlen_words hbusy (h hbusy) _).right
  | false =>
      cases hstart : (s.vlsuIn P i).start with
      | true =>
          exact (Vlsu.step_of_start vlen_words (by decide) hbusy hstart).right.right.right.right
      | false =>
          intro hbusy'
          exact Bool.noConfusion
            ((Vlsu.step_of_idle hbusy hstart).right.right.symm.trans hbusy')

/--
Nothing waits and the unit neither works nor drives its port.
-/
structure VlsuRests (s : Core) : Prop where
  empty : s.vlsuWaiting = 0
  idle : s.vlsu.busy = false
  silent : s.vlsu.port = []

theorem vlsuRests_step (hempty : s.vlsuWaiting = 0) (hidle : s.vlsu.busy = false)
    (hnone : s.vlsuEnters P i = false) : (s.step P i).VlsuRests := by
  have hstart : s.vlsuStart = false := Bool.eq_false_iff.mpr fun hstart =>
    absurd (vlsuWaiting_pos_of_start hstart) (by rw [hempty]; exact Nat.lt_irrefl 0)
  have hcount := vlsuWaiting_step P s i
  obtain ⟨hport, _, hbusy⟩ := Vlsu.step_of_idle (i := s.vlsuIn P i) hidle hstart
  constructor
  · rw [hstart, hnone, hempty] at hcount
    exact hcount
  · exact hbusy
  · exact hport

theorem nextVlsuInflightValid_of_enters (h : s.vlsuEnters P i = true) :
    (s.step P i).vlsuInflightValid = true := by
  have hen : s.doDispatch P i = true ∧ s.isVecLs P = true := by
    simpa [vlsuEnters] using h
  show s.nextVlsuInflightValid P i = true
  cases hvalid : s.vlsuInflightValid <;> simp [nextVlsuInflightValid, hen, hvalid]

theorem nextVlsuInflightValid_of_none (h : s.vlsuEnters P i = false) :
    (s.step P i).vlsuInflightValid =
      (s.vlsuInflightValid && !(decide (s.vlsuWaiting = 0) && !s.vlsu.busy)) := by
  have hen : (s.doDispatch P i && s.isVecLs P) = false := h
  show s.nextVlsuInflightValid P i = _
  unfold nextVlsuInflightValid
  rw [hen]
  simp only [Bool.false_and, Bool.false_eq_true, if_false, Bool.not_false, Bool.and_true]
  cases s.vlsuInflightValid with
  | false => rfl
  | true =>
      show (if decide (s.vlsuWaiting = 0) && !s.vlsu.busy then false else true) = _
      cases decide (s.vlsuWaiting = 0) && !s.vlsu.busy <;> rfl

/--
Unless a vector load or store is in flight, the unit is at rest.
-/
structure VlsuTracked (s : Core) : Prop where
  sound : s.vlsu.Sound
  rests : s.vlsuInflightValid = false -> s.VlsuRests

theorem vlsuTracked_step (h : s.VlsuTracked) : (s.step P i).VlsuTracked := by
  constructor
  · exact vlsu_sound_step h.sound
  · intro hnext
    cases hen : s.vlsuEnters P i with
    | true =>
        rw [nextVlsuInflightValid_of_enters hen] at hnext
        exact Bool.noConfusion hnext
    | false =>
        rw [nextVlsuInflightValid_of_none hen] at hnext
        cases hvalid : s.vlsuInflightValid with
        | false =>
            have hrests := h.rests hvalid
            exact vlsuRests_step hrests.empty hrests.idle hen
        | true =>
            simp [hvalid] at hnext
            exact vlsuRests_step hnext.left hnext.right hen

theorem vlsuTracked_reset (P : Params) (s : Core) : (s.reset P).VlsuTracked := by
  constructor
  · intro hbusy
    exact Bool.noConfusion hbusy
  · intro _
    constructor
    · apply List.countP_eq_zero.mpr
      intro k hk
      simp [reset, ReservationStation.reset_valid s.rsVlsu (List.mem_range.mp hk)]
    · rfl
    · rfl

theorem vlsuTracked_afterInputs (P : Params) (s0 : Core) (inputs : Nat -> Input) (n : Nat) :
    (afterInputs P s0 inputs n).VlsuTracked := by
  induction n with
  | zero => exact vlsuTracked_reset P s0
  | succ n ih => exact vlsuTracked_step ih

/-!
# What waits in the pool
-/

/--
Every waiting operation has a property that its wakeups do not change.
-/
def Staged (s : Core) (Q : RsEntry VlsuPayload -> Prop) : Prop :=
  forall k, k < rsVlsuCfg.entries -> (s.rsVlsu.entry k).valid = true -> Q (s.rsVlsu.entry k)

theorem staged_step {Q : RsEntry VlsuPayload -> Prop} (h : s.Staged Q)
    (hwakeup : forall cdb e, Q e -> Q (ReservationStation.wakeup rsVlsuCfg cdb e))
    (henters : s.vlsuEnters P i = true ->
      Q (ReservationStation.newEntry rsVlsuCfg (s.rsVlsuIn P i).cdb (s.rsVlsuIn P i).disp0)) :
    (s.step P i).Staged Q := by
  intro k hk hvalid
  rcases ReservationStation.step_valid_cases hk hvalid with
    ⟨hold, _, hentry⟩ | ⟨hen, _, hentry⟩ | ⟨hen, _⟩
  · have hentry : (s.step P i).rsVlsu.entry k = _ := hentry
    rw [hentry]
    exact hwakeup _ _ (h k hk hold)
  · have hentry : (s.step P i).rsVlsu.entry k = _ := hentry
    rw [hentry]
    exact henters hen
  · exact Bool.noConfusion hen

theorem staged_of_empty (Q : RsEntry VlsuPayload -> Prop) (h : s.vlsuWaiting = 0) :
    s.Staged Q := by
  intro k hk hvalid
  exact absurd hvalid (List.countP_eq_zero.mp h k (List.mem_range.mpr hk))

theorem staged_issue {Q : RsEntry VlsuPayload -> Prop} (h : s.Staged Q)
    (hstart : s.vlsuStart = true) : Q s.issueVlsu := by
  simp only [vlsuStart, Bool.and_eq_true] at hstart
  obtain ⟨hlt, hvalid, _⟩ := ReservationStation.issueIdx_spec hstart.left
  exact h _ hlt hvalid

/-!
# The mappings
-/

/--
A vector load or store leaves the integer registers where they are.
-/
theorem rat_step_of_vecLs (h : s.doDispatch P i = true -> s.isVecLs P = true) :
    (s.step P i).rat.specMap = s.rat.specMap := by
  have hint : (s.doDispatch P i && s.needsDest P) = false := by
    cases hd : s.doDispatch P i with
    | false => rfl
    | true => exact (plain_of_vecLs (h hd)).right.right.right
  have hsingle : s.doDispatchSlot1 P i = false := by
    cases hd : s.doDispatch P i with
    | false => simp [doDispatchSlot1, hd]
    | true => exact noSlot1_of_cracked (cracked_of_vecLs (h hd))
  show RegisterAliasTable.write true
    (RegisterAliasTable.write true s.rat.specMap (s.ratW0 P i)) (s.ratW1 P i) = s.rat.specMap
  simp [RegisterAliasTable.write, RegisterAliasTable.writes, ratW0, ratW1, hint, hsingle]

theorem ratVec_step_of_plain (h : s.doDispatch P i = true -> s.isVecDest P = false) :
    (s.step P i).ratVec.specMap = s.ratVec.specMap := by
  have hplain : (s.doDispatch P i && s.isVecDest P) = false := by
    cases hd : s.doDispatch P i with
    | false => rfl
    | true => exact h hd
  funext a
  rw [ratVec_step, hplain]
  exact if_neg fun hwrites => Bool.noConfusion hwrites.left

theorem vecDest_of_store (h : s.isVecStore P = true) : s.isVecDest P = false := by
  have hls : s.isVecLs P = true := by simp [isVecLs, h]
  obtain ⟨_, _, _, _, harith, hload⟩ := control_of_vecLs hls
  simp [isVecDest, harith, hload, h]

end Core
end Ooo
end RvCores
