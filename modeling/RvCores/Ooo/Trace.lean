import RvCores.Lib.Run
import RvCores.Ooo.Dispatch

/-!
# Where an operation is

An instruction owns a reorder-buffer entry and travels through the station and
the functional unit of its class.  This module gives the seven units one
interface: which operation waits in which slot, which one runs, and what a clock
edge does to them.
-/

namespace RvCores
namespace Ooo

inductive ExecUnit where
  | alu
  | lsq
  | div
  | falu
  | fdiv
  | valu
  | vlsu
deriving DecidableEq, Repr

namespace Core

open Isa Block Lib

/--
The class of the instruction in slot 0, in the order in which the stall logic
tests the classes.
-/
def owner (P : Params) (s : Core) : ExecUnit :=
  if s.isMemOp P then .lsq
  else if s.isDivOp P then .div
  else if s.isFpOp P then if s.isFpMulticycle P then .fdiv else .falu
  else if s.isVecArith P then .valu
  else if s.isVecLs P then .vlsu
  else .alu

/-!
# Stations
-/

def Waits (P : Params) (s : Core) : ExecUnit -> Nat -> Nat -> Prop
  | .alu, k, t => s.rsAlu.Holds P.rsAluCfg k t
  | .lsq, k, t =>
      InWindow LoadStoreQueue.entries s.lsq.head s.lsq.count k ∧
        (s.lsq.entry k).robTag = t
  | .div, k, t => s.rsDiv.Holds rsDivCfg k t
  | .falu, k, t => s.rsFalu.Holds P.rsFaluCfg k t
  | .fdiv, k, t => s.rsFdiv.Holds rsFdivCfg k t
  | .valu, k, t => s.rsValu.Holds rsValuCfg k t
  | .vlsu, k, t => s.rsVlsu.Holds rsVlsuCfg k t

/--
The slot that the instruction in slot 0 of the bundle enters.
-/
def enters0 (P : Params) (s : Core) (i : Input) : ExecUnit -> Option Nat
  | .alu => if s.rsAluDispEn0 P i then s.rsAlu.alloc0? P.rsAluCfg else none
  | .lsq => if s.doDispatch P i && s.isMemOp P then some s.lsq.tail else none
  | .div => if s.doDispatch P i && s.isDivOp P then s.rsDiv.alloc0? rsDivCfg else none
  | .falu =>
      if s.doDispatch P i && s.isFpOp P && !s.isFpMulticycle P then
        s.rsFalu.alloc0? P.rsFaluCfg
      else none
  | .fdiv =>
      if s.doDispatch P i && s.isFpMulticycle P then s.rsFdiv.alloc0? rsFdivCfg else none
  | .valu =>
      if s.doDispatch P i && s.isVecArith P then s.rsValu.alloc0? rsValuCfg else none
  | .vlsu =>
      if s.doDispatch P i && s.isVecLs P then s.rsVlsu.alloc0? rsVlsuCfg else none

def enters1 (P : Params) (s : Core) (i : Input) : ExecUnit -> Option Nat
  | .alu =>
      if s.doDispatchSlot1 P i then s.rsAlu.alloc1? P.rsAluCfg (s.rsAluDispEn0 P i)
      else none
  | _ => none

/--
The slot whose operation leaves its station in this cycle.
-/
def leavesSlot (P : Params) (s : Core) (i : Input) : ExecUnit -> Option Nat
  | .alu => if s.issueValid P then s.rsAlu.issue? P.rsAluCfg else none
  | .lsq => if s.lsq.leaves (s.lsqIn P i) then some s.lsq.head else none
  | .div => if s.divStart then s.rsDiv.issue? rsDivCfg else none
  | .falu => if s.issueValidFalu P then s.rsFalu.issue? P.rsFaluCfg else none
  | .fdiv => if s.fdivStart then s.rsFdiv.issue? rsFdivCfg else none
  | .valu => if s.valuStart then s.rsValu.issue? rsValuCfg else none
  | .vlsu => if s.vlsuStart then s.rsVlsu.issue? rsVlsuCfg else none

/-!
# Multi-cycle units
-/

def unitStart (s : Core) : ExecUnit -> Bool
  | .div => s.divStart
  | .fdiv => s.fdivStart
  | .valu => s.valuStart
  | .vlsu => s.vlsuStart
  | _ => false

def unitBusy (s : Core) : ExecUnit -> Bool
  | .div => s.divider.busy
  | .fdiv => s.fdivider.busy || s.fsqrt.busy
  | .valu => s.valu.busy
  | .vlsu => s.vlsu.busy
  | _ => false

def unitDone (s : Core) : ExecUnit -> Bool
  | .div => s.divider.done
  | .fdiv => s.fdivDone
  | .valu => s.valu.done
  | .vlsu => s.vlsu.done
  | _ => false

def unitTag (s : Core) : ExecUnit -> Nat
  | .div => s.divInflight.robTag
  | .fdiv => s.fdivInflight.robTag
  | .valu => s.valuInflight.robTag
  | .vlsu => s.vlsuInflight.robTag
  | _ => 0

def Runs (s : Core) (u : ExecUnit) (t : Nat) : Prop :=
  (s.unitBusy u = true ∨ s.unitDone u = true) ∧ s.unitTag u = t

/--
The units whose operations complete on leaving the station.
-/
def direct : ExecUnit -> Bool
  | .alu => true
  | .lsq => true
  | .falu => true
  | _ => false

/-!
# Completion pulses

The completion ports of the reorder buffer, one for each unit.
-/

def pulse (P : Params) (s : Core) (i : Input) : ExecUnit -> Option Nat
  | .alu => whenValid (s.issueValid P) (s.issue P).robTag
  | .lsq => s.lsqCompletion P i
  | .div => whenValid s.divider.done s.divInflight.robTag
  | .falu => whenValid (s.issueValidFalu P) (s.issueFalu P).robTag
  | .fdiv => whenValid s.fdivDone s.fdivInflight.robTag
  | .valu => whenValid s.valu.done s.valuInflight.robTag
  | .vlsu => whenValid s.vlsu.done s.vlsuInflight.robTag

def units : List ExecUnit := [.alu, .lsq, .div, .falu, .fdiv, .valu, .vlsu]

theorem mem_units (u : ExecUnit) : u ∈ units := by
  cases u <;> decide

theorem completions_eq (P : Params) (s : Core) (i : Input) :
    s.completions P i = units.map (s.pulse P i) := rfl

variable {P : Params} {s : Core} {i : Input}

theorem completions_any {t : Nat} :
    (s.completions P i).any (fun port => decide (port = some t)) = true ↔
      exists u, s.pulse P i u = some t := by
  rw [completions_eq, List.any_map, List.any_eq_true]
  constructor
  · rintro ⟨u, _, hu⟩
    exact ⟨u, by simpa using hu⟩
  · rintro ⟨u, hu⟩
    exact ⟨u, mem_units u, by simpa using hu⟩

theorem whenValid_eq_some {en : Bool} {preg t : Nat} (h : whenValid en preg = some t) :
    en = true ∧ preg = t := by
  cases en with
  | false => simp [whenValid] at h
  | true => exact ⟨rfl, by simpa [whenValid] using h⟩

/-!
# Invariants of the units and the queue
-/

structure UnitsOk (s : Core) : Prop where
  exclusive : forall u, ¬ (s.unitBusy u = true ∧ s.unitDone u = true)
  fdivider : s.fdivider.Exclusive
  fsqrt : s.fsqrt.Exclusive
  oneFloat : ¬ (s.fdivider.active = true ∧ s.fsqrt.active = true)
  lsq : s.lsq.WellFormed

theorem lsq_fits (P : Params) (s : Core) (i : Input) : s.lsq.Fits (s.lsqIn P i) := by
  constructor
  · rfl
  · intro hen
    simp only [lsqIn, Bool.and_eq_true] at hen
    have hfull := (canDispatch_of_doDispatch hen.left).stationRoom
    simp only [stationFull, hen.right, if_true, LoadStoreQueue.full,
      decide_eq_false_iff_not] at hfull
    omega
  · intro hforce
    simp only [lsqIn, dsideFaultPulse, dtlbPageFault, dtlbHitFault, dtlbNeeded,
      Bool.and_eq_true, Bool.or_eq_true] at hforce
    rcases hforce.left with hhit | hwalk
    · exact hhit.left.left.right
    · exact hwalk.left.left.right

theorem fdivStart_idle (h : s.fdivStart = true) :
    s.fdivider.busy = false ∧ s.fdivider.done = false ∧
      s.fsqrt.busy = false ∧ s.fsqrt.done = false := by
  simp only [fdivStart, Bool.and_eq_true, Bool.not_eq_true'] at h
  exact ⟨h.left.left.left.right, h.left.left.right, h.left.right, h.right⟩

theorem fdivider_active_step (P : Params) (s : Core) (i : Input) :
    (s.step P i).fdivider.active =
      ((s.fdivStart && !s.issueFdiv.data.isSqrt) || s.fdivider.busy) := by
  change (s.fdivider.step (s.fdividerIn P i)).active = _
  rw [FDivider.step_active]
  cases hstart : s.fdivStart with
  | false => simp [FDivider.accepts, fdividerIn, hstart]
  | true =>
      rcases fdivStart_idle hstart with ⟨hbusy, hdone, _, _⟩
      simp [FDivider.accepts, fdividerIn, hstart, hbusy, hdone]

theorem fsqrt_active_step (P : Params) (s : Core) (i : Input) :
    (s.step P i).fsqrt.active =
      ((s.fdivStart && s.issueFdiv.data.isSqrt) || s.fsqrt.busy) := by
  change (s.fsqrt.step (s.fsqrtIn P i)).active = _
  rw [FSqrt.step_active]
  cases hstart : s.fdivStart with
  | false => simp [FSqrt.accepts, fsqrtIn, hstart]
  | true =>
      rcases fdivStart_idle hstart with ⟨_, _, hbusy, hdone⟩
      simp [FSqrt.accepts, fsqrtIn, hstart, hbusy, hdone]

theorem oneFloat_step (h : UnitsOk s) :
    ¬ ((s.step P i).fdivider.active = true ∧ (s.step P i).fsqrt.active = true) := by
  rw [fdivider_active_step, fsqrt_active_step]
  cases hstart : s.fdivStart with
  | true =>
      rcases fdivStart_idle hstart with ⟨hbusy, _, hbusy', _⟩
      cases hsqrt : s.issueFdiv.data.isSqrt <;> simp [hbusy, hbusy']
  | false =>
      rintro ⟨hdiv, hsqrt⟩
      simp only [Bool.false_and, Bool.false_or] at hdiv hsqrt
      exact h.oneFloat ⟨by simp [FDivider.active, hdiv], by simp [FSqrt.active, hsqrt]⟩

theorem unitsOk_step (h : UnitsOk s) : UnitsOk (s.step P i) := by
  have hone := oneFloat_step (P := P) (i := i) h
  have hdivider : (s.step P i).fdivider.Exclusive := FDivider.step_exclusive _ _
  have hsqrt : (s.step P i).fsqrt.Exclusive := FSqrt.step_exclusive _ _
  constructor
  · intro u
    cases u with
    | div => exact Divider.step_exclusive s.divider (s.dividerIn P i)
    | fdiv =>
        rintro ⟨hbusy, hdone⟩
        change ((s.step P i).fdivider.busy || (s.step P i).fsqrt.busy) = true at hbusy
        change ((s.step P i).fdivider.done || (s.step P i).fsqrt.done) = true at hdone
        simp only [FDivider.active, FSqrt.active, FDivider.Exclusive, FSqrt.Exclusive,
          Bool.or_eq_true] at hone hdivider hsqrt hbusy hdone
        tauto
    | valu => exact Valu.step_exclusive s.valu (s.valuIn P i)
    | vlsu => exact Vlsu.step_exclusive s.vlsu (s.vlsuIn P i)
    | alu => simp [unitBusy]
    | lsq => simp [unitBusy]
    | falu => simp [unitBusy]
  · exact hdivider
  · exact hsqrt
  · exact hone
  · exact LoadStoreQueue.step_wellFormed h.lsq (lsq_fits P s i)

/-!
# One clock edge of a station

An operation that waits after the edge has waited before and did not leave, or it
is one of the instructions dispatched in this cycle.
-/

theorem waits_step (hok : UnitsOk s) {u : ExecUnit} {k t : Nat}
    (h : Waits P (s.step P i) u k t) :
    (Waits P s u k t ∧ s.leavesSlot P i u ≠ some k) ∨
      (s.enters0 P i u = some k ∧ t = s.robAllocTag0) ∨
      (s.enters1 P i u = some k ∧ t = s.robAllocTag1 P i) := by
  cases u with
  | alu => exact ReservationStation.holds_step h
  | lsq =>
      rcases h with ⟨hwindow, htag⟩
      rcases LoadStoreQueue.step_window_cases hok.lsq (lsq_fits P s i) hwindow with
        ⟨hold, hstay, hentry⟩ | ⟨hen, htail, hentry⟩
      · left
        have htag' : (s.lsq.entry k).robTag = t := by
          rw [<- htag]
          exact (congrArg LsqEntry.robTag hentry).symm
        refine ⟨⟨hold, htag'⟩, ?_⟩
        intro hleave
        cases hleaves : s.lsq.leaves (s.lsqIn P i) with
        | false => simp [leavesSlot, hleaves] at hleave
        | true =>
            simp only [leavesSlot, hleaves, if_true, Option.some.injEq] at hleave
            exact hstay hleaves hleave.symm
      · right
        left
        have htag' : t = s.robAllocTag0 := by
          rw [<- htag]
          exact congrArg LsqEntry.robTag hentry
        refine ⟨?_, htag'⟩
        change (if (s.lsqIn P i).dispEn0 then some s.lsq.tail else none) = some k
        rw [hen, htail]
        rfl
  | div =>
      rcases ReservationStation.holds_step h with hold | hnew | hnone
      · exact Or.inl hold
      · exact Or.inr (Or.inl hnew)
      · simp [rsDivIn, RsDispatch.idle] at hnone
  | falu =>
      rcases ReservationStation.holds_step h with hold | hnew | hnone
      · exact Or.inl hold
      · exact Or.inr (Or.inl hnew)
      · simp [rsFaluIn, RsDispatch.idle] at hnone
  | fdiv =>
      rcases ReservationStation.holds_step h with hold | hnew | hnone
      · exact Or.inl hold
      · exact Or.inr (Or.inl hnew)
      · simp [rsFdivIn, RsDispatch.idle] at hnone
  | valu =>
      rcases ReservationStation.holds_step h with hold | hnew | hnone
      · exact Or.inl hold
      · exact Or.inr (Or.inl hnew)
      · simp [rsValuIn, RsDispatch.idle] at hnone
  | vlsu =>
      rcases ReservationStation.holds_step h with hold | hnew | hnone
      · exact Or.inl hold
      · exact Or.inr (Or.inl hnew)
      · simp [rsVlsuIn, RsDispatch.idle] at hnone

/-!
# One clock edge of a unit
-/

theorem leaves_issue {payload : Type} {cfg : RsConfig} {rs : ReservationStation payload}
    {start : Bool} (hstart : start = true) (hvalid : rs.issueValid cfg = true) :
    (if start then rs.issue? cfg else none) = some (rs.issueIdx cfg) := by
  rw [hstart, if_pos rfl]
  exact ReservationStation.issue_of_issueValid hvalid

theorem start_leaves {u : ExecUnit} (h : s.unitStart u = true) :
    exists k, s.leavesSlot P i u = some k ∧
      Waits P s u k ((s.step P i).unitTag u) := by
  cases u with
  | div =>
      have hstart : s.divStart = true := h
      have hvalid : s.rsDiv.issueValid rsDivCfg = true := by
        simp only [divStart, Bool.and_eq_true] at hstart
        exact hstart.left.left
      have htag : (s.step P i).unitTag .div = s.issueDiv.robTag := by
        simp [step, unitTag, hstart]
      refine ⟨_, leaves_issue hstart hvalid, ?_⟩
      rw [htag]
      exact ReservationStation.holds_issue hvalid
  | fdiv =>
      have hstart : s.fdivStart = true := h
      have hvalid : s.rsFdiv.issueValid rsFdivCfg = true := by
        simp only [fdivStart, Bool.and_eq_true] at hstart
        exact hstart.left.left.left.left
      have htag : (s.step P i).unitTag .fdiv = s.issueFdiv.robTag := by
        simp [step, unitTag, hstart]
      refine ⟨_, leaves_issue hstart hvalid, ?_⟩
      rw [htag]
      exact ReservationStation.holds_issue hvalid
  | valu =>
      have hstart : s.valuStart = true := h
      have hvalid : s.rsValu.issueValid rsValuCfg = true := by
        simp only [valuStart, Bool.and_eq_true] at hstart
        exact hstart.left
      have htag : (s.step P i).unitTag .valu = s.issueValu.robTag := by
        simp [step, unitTag, hstart]
      refine ⟨_, leaves_issue hstart hvalid, ?_⟩
      rw [htag]
      exact ReservationStation.holds_issue hvalid
  | vlsu =>
      have hstart : s.vlsuStart = true := h
      have hvalid : s.rsVlsu.issueValid rsVlsuCfg = true := by
        simp only [vlsuStart, Bool.and_eq_true] at hstart
        exact hstart.left
      have htag : (s.step P i).unitTag .vlsu = s.issueVlsu.robTag := by
        simp [step, unitTag, hstart]
      refine ⟨_, leaves_issue hstart hvalid, ?_⟩
      rw [htag]
      exact ReservationStation.holds_issue hvalid
  | alu => simp [unitStart] at h
  | lsq => simp [unitStart] at h
  | falu => simp [unitStart] at h

theorem unitTag_step {u : ExecUnit} (h : s.unitStart u = false) :
    (s.step P i).unitTag u = s.unitTag u := by
  cases u <;> simp_all [step, unitTag, unitStart]

theorem unit_occupied_step (P : Params) (s : Core) (i : Input) (u : ExecUnit) :
    ((s.step P i).unitBusy u || (s.step P i).unitDone u) =
      (s.unitStart u || s.unitBusy u) := by
  cases u with
  | div =>
      change (s.divider.step (s.dividerIn P i)).active = (s.divStart || s.divider.busy)
      rw [Divider.step_active]
      cases hstart : s.divStart with
      | false => simp [Divider.accepts, dividerIn, hstart]
      | true =>
          have hidle := hstart
          simp only [divStart, Bool.and_eq_true, Bool.not_eq_true'] at hidle
          simp [Divider.accepts, dividerIn, hstart, hidle.left.right, hidle.right]
  | fdiv =>
      have hdiv := fdivider_active_step P s i
      have hsqrt := fsqrt_active_step P s i
      simp only [FDivider.active, FSqrt.active] at hdiv hsqrt
      change ((s.step P i).fdivider.busy || (s.step P i).fsqrt.busy ||
        ((s.step P i).fdivider.done || (s.step P i).fsqrt.done)) =
          (s.fdivStart || (s.fdivider.busy || s.fsqrt.busy))
      have hgroup : forall a b c d : Bool, (a || b || (c || d)) = ((a || c) || (b || d)) := by
        decide
      rw [hgroup, hdiv, hsqrt]
      cases s.fdivStart <;> cases s.issueFdiv.data.isSqrt <;> simp
  | valu =>
      change ((s.valu.step (s.valuIn P i)).busy || (s.valu.step (s.valuIn P i)).done) = _
      rw [Valu.step_occupied]
      simp only [unitStart, unitBusy, valuIn, valuStart]
      cases s.valu.busy <;> simp
  | vlsu =>
      change ((s.vlsu.step (s.vlsuIn P i)).busy || (s.vlsu.step (s.vlsuIn P i)).done) = _
      rw [Vlsu.step_occupied]
      simp only [unitStart, unitBusy, vlsuIn, vlsuStart]
      cases s.vlsu.busy <;> simp
  | alu => rfl
  | lsq => rfl
  | falu => rfl

theorem runs_step {u : ExecUnit} {t : Nat} (h : Runs (s.step P i) u t) :
    (s.unitStart u = true ∧
        exists k, s.leavesSlot P i u = some k ∧ Waits P s u k t) ∨
      (s.unitStart u = false ∧ s.unitBusy u = true ∧ s.unitTag u = t) := by
  rcases h with ⟨hoccupied, htag⟩
  cases hstart : s.unitStart u with
  | true =>
      left
      rcases start_leaves (P := P) (i := i) hstart with ⟨k, hleaves, hwaits⟩
      exact ⟨rfl, k, hleaves, htag ▸ hwaits⟩
  | false =>
      right
      have hbusy := unit_occupied_step P s i u
      rw [hstart, Bool.false_or] at hbusy
      refine ⟨rfl, ?_, ?_⟩
      · rw [<- hbusy, Bool.or_eq_true]
        exact hoccupied
      · rw [<- htag, unitTag_step hstart]

/-!
# Who sends a pulse
-/

theorem pulse_cases (hok : UnitsOk s) {u : ExecUnit} {t : Nat}
    (h : s.pulse P i u = some t) :
    (direct u = true ∧ exists k, s.leavesSlot P i u = some k ∧ Waits P s u k t) ∨
      (direct u = false ∧ s.unitDone u = true ∧ s.unitTag u = t) := by
  cases u with
  | alu =>
      rcases whenValid_eq_some h with ⟨hvalid, htag⟩
      left
      refine ⟨rfl, _, leaves_issue hvalid hvalid, ?_⟩
      exact htag ▸ ReservationStation.holds_issue hvalid
  | falu =>
      rcases whenValid_eq_some h with ⟨hvalid, htag⟩
      left
      refine ⟨rfl, _, leaves_issue hvalid hvalid, ?_⟩
      exact htag ▸ ReservationStation.holds_issue hvalid
  | lsq =>
      rcases whenValid_eq_some h with ⟨hcomplete, htag⟩
      have hleaves : s.lsq.leaves (s.lsqIn P i) = true := by
        rw [LoadStoreQueue.leaves_eq]
        exact hcomplete
      have hpos := LoadStoreQueue.count_pos_of_leaves hok.lsq (lsq_fits P s i) hleaves
      left
      refine ⟨rfl, s.lsq.head, by simp [leavesSlot, hleaves], ?_, htag⟩
      exact inWindow_head hok.lsq.head_lt hpos
  | div =>
      rcases whenValid_eq_some h with ⟨hdone, htag⟩
      exact Or.inr ⟨rfl, hdone, htag⟩
  | fdiv =>
      rcases whenValid_eq_some h with ⟨hdone, htag⟩
      exact Or.inr ⟨rfl, hdone, htag⟩
  | valu =>
      rcases whenValid_eq_some h with ⟨hdone, htag⟩
      exact Or.inr ⟨rfl, hdone, htag⟩
  | vlsu =>
      rcases whenValid_eq_some h with ⟨hdone, htag⟩
      exact Or.inr ⟨rfl, hdone, htag⟩

end Core
end Ooo
end RvCores
