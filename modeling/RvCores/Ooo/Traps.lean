import RvCores.Ooo.Retirement

/-!
# No lost trap

A trapping instruction blocks dispatch until its reorder-buffer entry retires in
slot 0, and so does an access that took a page fault.  Retirement looks at two
entries, the comparison with the tracked tag at one: an entry that leaves through
slot 1 takes its trap with it.
-/

namespace RvCores
namespace Ooo
namespace Core

open Lib

variable {P : Params} {s : Core} {i : Input}

/-!
# The tracked entries
-/

def TrapLive (P : Params) (s : Core) : Prop :=
  s.trapInflight.valid = true -> s.rob.Live P.robEntries s.trapInflight.robTag

def FaultLive (P : Params) (s : Core) : Prop :=
  s.dsideFault.valid = true -> s.rob.Live P.robEntries s.dsideFault.robTag

def TrapResolvedOnRetire (P : Params) (s : Core) : Prop :=
  s.trapInflight.valid = true ->
    s.rob.retiring P.robEntries s.trapInflight.robTag = true ->
    s.trapResolveDispatch = true

def FaultResolvedOnRetire (P : Params) (s : Core) : Prop :=
  s.dsideFault.valid = true ->
    s.rob.retiring P.robEntries s.dsideFault.robTag = true ->
    s.dsideTrapResolve = true

/--
The second-oldest entry is the tracked one, and the two oldest are both done.
-/
def TrapRetiresSecond (P : Params) (s : Core) : Prop :=
  s.robRetireValid1 P = true ∧ s.trapInflight.valid = true ∧
    s.trapInflight.robTag = s.rob.retireTag1 P.robEntries

def FaultRetiresSecond (P : Params) (s : Core) : Prop :=
  s.robRetireValid1 P = true ∧ s.dsideFault.valid = true ∧
    s.dsideFault.robTag = s.rob.retireTag1 P.robEntries

instance (P : Params) (s : Core) : Decidable (TrapRetiresSecond P s) :=
  inferInstanceAs (Decidable (_ ∧ _ ∧ _))

instance (P : Params) (s : Core) : Decidable (FaultRetiresSecond P s) :=
  inferInstanceAs (Decidable (_ ∧ _ ∧ _))

theorem retiring_cases {t : Nat} (h : s.rob.retiring P.robEntries t = true) :
    (s.robRetireValid0 = true ∧ t = s.rob.retireTag0) ∨
      (s.robRetireValid1 P = true ∧ t = s.rob.retireTag1 P.robEntries) := by
  simp only [ReorderBuffer.retiring, Bool.or_eq_true, Bool.and_eq_true,
    decide_eq_true_eq] at h
  exact h

theorem trapResolvedOnRetire_of (h : ¬ TrapRetiresSecond P s) :
    TrapResolvedOnRetire P s := by
  intro hvalid hretiring
  rcases retiring_cases hretiring with ⟨h0, htag⟩ | ⟨h1, htag⟩
  · simp [trapResolveDispatch, h0, hvalid, htag]
  · exact absurd ⟨h1, hvalid, htag⟩ h

theorem faultResolvedOnRetire_of (h : ¬ FaultRetiresSecond P s) :
    FaultResolvedOnRetire P s := by
  intro hvalid hretiring
  rcases retiring_cases hretiring with ⟨h0, htag⟩ | ⟨h1, htag⟩
  · simp [dsideTrapResolve, h0, hvalid, htag]
  · exact absurd ⟨h1, hvalid, htag⟩ h

/-!
# One clock edge
-/

theorem trapLive_step (hvalid : P.Valid) (hwf : s.rob.WellFormed P.robEntries)
    (hresolved : TrapResolvedOnRetire P s) (h : TrapLive P s) :
    TrapLive P (s.step P i) := by
  have hroom := robIn_room (i := i) hvalid hwf.count_le
  change (s.nextTrapInflight P i).valid = true ->
    (s.rob.step P.robEntries (s.robIn P i)).Live P.robEntries (s.nextTrapInflight P i).robTag
  cases hnew : s.doDispatch P i && s.isTrapRelated P with
  | true =>
      simp only [Bool.and_eq_true] at hnew
      simp only [nextTrapInflight, hnew.left, hnew.right, Bool.and_self, if_true]
      intro _
      exact ReorderBuffer.live_allocTag0 hwf hroom hnew.left
  | false =>
      cases hresolve : s.trapResolveDispatch with
      | true => simp [nextTrapInflight, hnew, hresolve]
      | false =>
          simp only [nextTrapInflight, hnew, hresolve, Bool.false_eq_true, if_false]
          intro htrap
          apply ReorderBuffer.live_step_of_not_retiring hwf hroom (h htrap)
          apply Bool.eq_false_iff.mpr
          intro hretiring
          simp [hresolved htrap hretiring] at hresolve

theorem faultLive_step (hvalid : P.Valid) (hwf : s.rob.WellFormed P.robEntries)
    (hpulse : s.dsideFaultPulse P i = true ->
      s.rob.Live P.robEntries s.lsq.headEntry.robTag ∧
        (s.rob.entry s.lsq.headEntry.robTag).done = false)
    (hresolved : FaultResolvedOnRetire P s) (h : FaultLive P s) :
    FaultLive P (s.step P i) := by
  have hroom := robIn_room (i := i) hvalid hwf.count_le
  change (s.nextDsideFault P i).valid = true ->
    (s.rob.step P.robEntries (s.robIn P i)).Live P.robEntries (s.nextDsideFault P i).robTag
  cases hnew : s.dsideFaultPulse P i with
  | true =>
      simp only [nextDsideFault, hnew, if_true]
      intro _
      rcases hpulse hnew with ⟨hlive, hundone⟩
      exact ReorderBuffer.live_step_of_undone hwf hroom hlive hundone
  | false =>
      cases hresolve : s.dsideTrapResolve with
      | true => simp [nextDsideFault, hnew, hresolve]
      | false =>
          simp only [nextDsideFault, hnew, hresolve, Bool.false_eq_true, if_false]
          intro hfault
          apply ReorderBuffer.live_step_of_not_retiring hwf hroom (h hfault)
          apply Bool.eq_false_iff.mpr
          intro hretiring
          simp [hresolved hfault hretiring] at hresolve

/--
The queue head that faults still owns its entry if no instruction was
dispatched twice.
-/
theorem head_live_of_tracked {g : Traced} (h : g.Tracked P)
    (hpulse : g.core.dsideFaultPulse P i = true) :
    g.core.rob.Live P.robEntries g.core.lsq.headEntry.robTag ∧
      (g.core.rob.entry g.core.lsq.headEntry.robTag).done = false := by
  have hport : g.core.pulse P i .lsq = some g.core.lsq.headEntry.robTag := by
    simp [pulse, lsqCompletion, whenValid, hpulse]
  have hreported := Traced.pulsesOwned_of_tracked h .lsq _ hport
  exact ⟨hreported.live, hreported.undone⟩

/-!
# Retiring second

The condition is exact: an entry that retires in slot 1 leaves its trap behind.
-/

theorem dispatch_blocked_of_trap (h : s.trapInflight.valid = true) :
    s.doDispatch P i = false := by
  simp [doDispatch, dispatchStall, h]

theorem retireTag0_ne_retireTag1 (hwf : s.rob.WellFormed P.robEntries)
    (h1 : s.robRetireValid1 P = true) :
    s.rob.retireTag0 ≠ s.rob.retireTag1 P.robEntries := by
  have htwo := ReorderBuffer.retireValid1_count h1
  have hcount := hwf.count_le
  intro heq
  have hzero : wrapAdd P.robEntries s.rob.head 0 = wrapAdd P.robEntries s.rob.head 1 := by
    rw [wrapAdd_zero hwf.head_lt]
    exact heq
  have hbad : 0 = 1 := wrapAdd_injective (by omega) (by omega) hzero
  omega

theorem retiring_retireTag1 (h1 : s.robRetireValid1 P = true) :
    s.rob.retiring P.robEntries (s.rob.retireTag1 P.robEntries) = true := by
  have h1' : s.rob.retireValid1 P.robEntries = true := h1
  simp [ReorderBuffer.retiring, ReorderBuffer.retireTag1, h1']

theorem trap_lost_of_retiresSecond (hvalid : P.Valid)
    (hwf : s.rob.WellFormed P.robEntries) (h : TrapRetiresSecond P s) :
    ¬ TrapLive P (s.step P i) := by
  rcases h with ⟨h1, htrap, htag⟩
  have hne : s.rob.retireTag0 ≠ s.trapInflight.robTag := by
    rw [htag]
    exact retireTag0_ne_retireTag1 hwf h1
  have hsame : s.nextTrapInflight P i = s.trapInflight := by
    simp [nextTrapInflight, dispatch_blocked_of_trap htrap, trapResolveDispatch, hne]
  intro hlive
  change (s.nextTrapInflight P i).valid = true ->
    (s.step P i).rob.Live P.robEntries (s.nextTrapInflight P i).robTag at hlive
  rw [hsame, htag] at hlive
  exact ReorderBuffer.not_live_step_of_retire1 hwf
    (robIn_room (i := i) hvalid hwf.count_le) h1 (hlive htrap)

theorem fault_lost_of_retiresSecond (hvalid : P.Valid)
    (hwf : s.rob.WellFormed P.robEntries) (h : FaultRetiresSecond P s) :
    ¬ FaultLive P (s.step P i) := by
  rcases h with ⟨h1, hfault, htag⟩
  have hne : s.rob.retireTag0 ≠ s.dsideFault.robTag := by
    rw [htag]
    exact retireTag0_ne_retireTag1 hwf h1
  have hsame : s.nextDsideFault P i = s.dsideFault := by
    simp [nextDsideFault, dsideFaultPulse, hfault, dsideTrapResolve, hne]
  intro hlive
  change (s.nextDsideFault P i).valid = true ->
    (s.step P i).rob.Live P.robEntries (s.nextDsideFault P i).robTag at hlive
  rw [hsame, htag] at hlive
  exact ReorderBuffer.not_live_step_of_retire1 hwf
    (robIn_room (i := i) hvalid hwf.count_le) h1 (hlive hfault)

/--
Once the tracked instruction has left and the buffer has drained, nothing can
resolve the trap any more.
-/
def TrapStuck (s : Core) : Prop := s.trapInflight.valid = true ∧ s.rob.count = 0

theorem trapStuck_step (h : TrapStuck s) : TrapStuck (s.step P i) := by
  rcases h with ⟨htrap, hcount⟩
  have hblocked : s.doDispatch P i = false := dispatch_blocked_of_trap htrap
  have hslot1 : s.doDispatchSlot1 P i = false := by simp [doDispatchSlot1, hblocked]
  have hretire : s.robRetireValid0 = false := by
    simp [robRetireValid0, ReorderBuffer.retireValid0, ReorderBuffer.empty, hcount]
  constructor
  · change (s.nextTrapInflight P i).valid = true
    simp [nextTrapInflight, hblocked, trapResolveDispatch, hretire, htrap]
  · change s.rob.count + (s.robIn P i).allocCount - s.rob.retireCount P.robEntries = 0
    simp [robIn, RobIn.allocCount, hblocked, hslot1, hcount]

theorem no_dispatch_after_trapStuck {t : Core} (h : TrapStuck s)
    (hrun : Reachable (step P) s t) (i : Input) :
    t.doDispatch P i = false := by
  have hstuck : TrapStuck t :=
    invariant_of_reachableWhen h (fun _ _ hs _ => trapStuck_step hs) hrun
  exact dispatch_blocked_of_trap hstuck.left

/-!
# The result
-/

structure TrapInv (P : Params) (s : Core) : Prop where
  rob : s.rob.WellFormed P.robEntries
  live : TrapLive P s

theorem trapInv_of_reachable (hvalid : P.Valid) {s0 : Core}
    (hrun : ReachableWhen (step P) (fun s _ => ¬ TrapRetiresSecond P s) (s0.reset P) s) :
    TrapInv P s := by
  have hrob := hvalid.robRoom
  apply invariant_of_reachableWhen _ _ hrun
  · exact ⟨ReorderBuffer.reset_wellFormed (by omega) s0.rob, fun h => absurd h (by simp [reset])⟩
  · intro u i h hcond
    exact ⟨rob_wellFormed_step hvalid h.rob,
      trapLive_step hvalid h.rob (trapResolvedOnRetire_of hcond) h.live⟩

def FaultQuiet (P : Params) (s : Core) (i : Input) : Prop :=
  ¬ DoubleDispatch P s i ∧ ¬ FaultRetiresSecond P s

theorem faultInv_of_reachable (hvalid : P.Valid) {s0 : Core}
    (hrun : ReachableWhen (step P) (FaultQuiet P) (s0.reset P) s) :
    exists g : Traced, g.core = s ∧ g.Tracked P ∧ FaultLive P s := by
  rcases Traced.exists_traced hrun with ⟨g, rfl, htraced⟩
  have hinv : g.Tracked P ∧ FaultLive P g.core := by
    apply invariant_of_reachableWhen _ _ htraced
    · exact ⟨Traced.tracked_start hvalid s0, fun h => absurd h (by simp [Traced.start, reset])⟩
    · rintro u i ⟨htracked, hlive⟩ hcond
      exact ⟨Traced.tracked_step hvalid htracked hcond.left,
        faultLive_step hvalid htracked.rob (head_live_of_tracked htracked)
          (faultResolvedOnRetire_of hcond.right) hlive⟩
  exact ⟨g, rfl, hinv⟩

theorem trapResolvedOnRetire_iff (hwf : s.rob.WellFormed P.robEntries) :
    TrapResolvedOnRetire P s ↔ ¬ TrapRetiresSecond P s := by
  refine ⟨?_, trapResolvedOnRetire_of⟩
  rintro hresolved ⟨h1, htrap, htag⟩
  have hresolve := hresolved htrap (htag ▸ retiring_retireTag1 h1)
  simp only [trapResolveDispatch, Bool.and_eq_true, decide_eq_true_eq] at hresolve
  exact retireTag0_ne_retireTag1 hwf h1 (hresolve.right.trans htag)

theorem faultResolvedOnRetire_iff (hwf : s.rob.WellFormed P.robEntries) :
    FaultResolvedOnRetire P s ↔ ¬ FaultRetiresSecond P s := by
  refine ⟨?_, faultResolvedOnRetire_of⟩
  rintro hresolved ⟨h1, hfault, htag⟩
  have hresolve := hresolved hfault (htag ▸ retiring_retireTag1 h1)
  simp only [dsideTrapResolve, Bool.and_eq_true, decide_eq_true_eq] at hresolve
  exact retireTag0_ne_retireTag1 hwf h1 (hresolve.right.trans htag)

theorem no_lost_trap (hvalid : P.Valid) (s0 : Core) :
    (forall s, ReachableWhen (step P) (fun s _ => ¬ TrapRetiresSecond P s) (s0.reset P) s ->
      TrapLive P s ∧ (TrapResolvedOnRetire P s ↔ ¬ TrapRetiresSecond P s) ∧
        forall i, TrapLive P (s.step P i) ↔ ¬ TrapRetiresSecond P s) ∧
    (forall s, ReachableWhen (step P) (FaultQuiet P) (s0.reset P) s ->
      FaultLive P s ∧ (FaultResolvedOnRetire P s ↔ ¬ FaultRetiresSecond P s) ∧
        forall i, FaultLive P (s.step P i) ↔ ¬ FaultRetiresSecond P s) := by
  constructor
  · intro s hrun
    have hinv := trapInv_of_reachable hvalid hrun
    refine ⟨hinv.live, trapResolvedOnRetire_iff hinv.rob, fun i => ⟨?_, ?_⟩⟩
    · exact fun hlive hsecond => trap_lost_of_retiresSecond hvalid hinv.rob hsecond hlive
    · exact fun hfirst =>
        trapLive_step hvalid hinv.rob (trapResolvedOnRetire_of hfirst) hinv.live
  · intro s hrun
    rcases faultInv_of_reachable hvalid hrun with ⟨g, rfl, htracked, hlive⟩
    refine ⟨hlive, faultResolvedOnRetire_iff htracked.rob, fun i => ⟨?_, ?_⟩⟩
    · exact fun hnext hsecond =>
        fault_lost_of_retiresSecond hvalid htracked.rob hsecond hnext
    · exact fun hfirst =>
        faultLive_step hvalid htracked.rob (head_live_of_tracked htracked)
          (faultResolvedOnRetire_of hfirst) hlive

instance (P : Params) (s : Core) (i : Input) : Decidable (FaultQuiet P s i) :=
  inferInstanceAs (Decidable (_ ∧ _))

/--
addi x1, x0, 5; ecall: the trap retires in slot 0.
-/
def addEcallProgram : Params := defaultParams [0x00500093, 0x00000073]

def addEcallRun : Core :=
  run (step addEcallProgram) (powerUp.reset addEcallProgram) (List.replicate 3 quietInput)

/--
Machine mode maps the first gigapage by one leaf entry, fences and returns to user mode,
where a load from the second gigapage faults.
-/
def loadFaultProgram : Params :=
  defaultParams
    [0x01b00093, 0x00100113, 0x03f11113, 0x00103023, 0x18011073, 0x02800193, 0x34119073,
      0x400002b7, 0x12000073, 0x30200073, 0x0002b303]

def loadFaultRun : Core :=
  run (step loadFaultProgram) (powerUp.reset loadFaultProgram) (List.replicate 24 quietInput)

theorem no_lost_trap_ecallAndLoad :
    (addEcallRun.trapInflight.valid = true ∧ TrapLive addEcallProgram addEcallRun) ∧
      loadFaultRun.dsideFault.valid = true ∧ FaultLive loadFaultProgram loadFaultRun ∧
        FaultLive loadFaultProgram (loadFaultRun.step loadFaultProgram quietInput) := by
  have htrap := (no_lost_trap (defaultParams_valid _) powerUp).left addEcallRun
    (reachableWhen_run (by decide +kernel))
  have hfault := (no_lost_trap (defaultParams_valid _) powerUp).right loadFaultRun
    (reachableWhen_run (by decide +kernel))
  refine ⟨⟨by decide +kernel, htrap.left⟩, by decide +kernel, hfault.left, ?_⟩
  exact (hfault.right.right quietInput).mpr (by decide +kernel)

/--
lw x3, 0(x0); ecall: the load completes after the trap, both retire together,
and the core never dispatches again.
-/
def loadEcallProgram : Params := defaultParams [0x00002183, 0x00000073]

theorem trap_lost_behind_load :
    exists s, Reachable (step loadEcallProgram) (powerUp.reset loadEcallProgram) s ∧
      ¬ TrapLive loadEcallProgram s ∧
      forall t i, Reachable (step loadEcallProgram) s t ->
        t.doDispatch loadEcallProgram i = false := by
  have hstuck : TrapStuck (run (step loadEcallProgram) (powerUp.reset loadEcallProgram)
      (List.replicate 5 quietInput)) := by
    constructor <;> decide +kernel
  refine ⟨_, reachable_run _ (List.replicate 5 quietInput), ?_, ?_⟩
  · intro hlive
    have hwindow := hlive hstuck.left
    rw [ReorderBuffer.Live, hstuck.right] at hwindow
    exact not_inWindow_zero _ _ _ hwindow
  · exact fun t i hrun => no_dispatch_after_trapStuck hstuck hrun i

end Core
end Ooo
end RvCores
