import RvCores.Block.Timer
import RvCores.Firmware.SbiConvention

/-!
# Supervisor timer

The supervisor has no timer of its own.  It asks the firmware for an interrupt at a given
time; the firmware arms the machine timer, and when that fires it silences the machine
timer and raises the supervisor's interrupt instead.
-/

namespace RvCores
namespace Firmware

open Block Lib

/--
The timer and what else the calls change.
-/
structure Board where
  timer : Timer
  mip : BitVec 64
  sent : List (BitVec 8)
deriving DecidableEq, Repr

namespace Board

def reset : Board := { timer := Timer.reset, mip := 0, sent := [] }

def devices (b : Board) : Devices :=
  { mip := b.mip, mtimecmp := b.timer.mtimecmp, sent := b.sent }

def stip (b : Board) : Bool := b.mip.getLsbD 5

/--
The store of the firmware to the compare value.
-/
def storeMtimecmp (x : BitVec 64) : TimerReq 64 :=
  { sCyc := true, sStb := true, sWe := true, sAddr := 0x10104000, sDataO := x }

/--
The supervisor does not run before the call returns.  A call that leaves the compare
value alone is shown here as a store of the same value, which the timer cannot tell from
no store.
-/
def commit (b : Board) (dev : Devices) : Board :=
  { timer := b.timer.clock (storeMtimecmp dev.mtimecmp), mip := dev.mip, sent := dev.sent }

end Board

inductive Event where
  | cycle (r : TimerReq 64)
  | call (regs : SavedRegs) (seen : Readings)
  | interrupt (regs : SavedRegs) (seen : Readings)

def Board.step (version : BitVec 64) (b : Board) : Event -> Option Board
  | .cycle r =>
      if r.storesCompare || r.storesTime then none
      else some { b with timer := b.timer.clock r }
  | .call regs seen =>
      (sbiDispatch version mcauseEcallFromS regs seen b.devices).map fun out =>
        b.commit out.2
  | .interrupt regs seen =>
      if b.timer.pending then
        (sbiDispatch version mcauseIntMachineTimer regs seen b.devices).map fun out =>
          b.commit out.2
      else none

/--
A board after some events, the newest first.
-/
inductive Reaches (version : BitVec 64) : List Event -> Board -> Prop where
  | reset : Reaches version [] Board.reset
  | step {es : List Event} {b b' : Board} {e : Event} (h : Reaches version es b)
      (hstep : b.step version e = some b') : Reaches version (e :: es) b'

/-!
# What has been asked for
-/

def callOf (version : BitVec 64) (regs : SavedRegs) (seen : Readings) : Option Call :=
  match legacyCall regs seen with
  | some call => some call
  | none => extensionCall version regs

def requested (version : BitVec 64) (regs : SavedRegs) (seen : Readings) :
    Option (BitVec 64) :=
  match callOf version regs seen with
  | some (.setTimer target) => some target
  | _ => none

/--
The time last asked for; after reset the machine timer is due at once.
-/
def deadline (version : BitVec 64) : List Event -> BitVec 64
  | [] => 0
  | .call regs seen :: es => (requested version regs seen).getD (deadline version es)
  | _ :: es => deadline version es

section

variable {version : BitVec 64} {regs regs' : SavedRegs} {seen : Readings}
  {dev dev' : Devices}

theorem sbiDispatchEcall_effect
    (h : sbiDispatchEcall version regs seen dev = some (regs', dev')) :
    dev' = match callOf version regs seen with
      | some call => call.effect dev
      | none => dev := by
  unfold sbiDispatchEcall at h
  unfold callOf
  cases hlegacy : legacyCall regs seen with
  | some call =>
      rw [sbiSwitch_legacy hlegacy, Option.map_some] at h
      exact (congrArg Prod.snd (Option.some.inj h)).symm
  | none =>
      by_cases hshutdown : regs regA7 = eidShutdown
      · have hnone : sbiSwitch version regs seen dev = none := by
          unfold sbiSwitch
          simp only [hshutdown]
          rfl
        rw [hnone] at h
        cases h
      · rw [sbiSwitch_new hlegacy hshutdown] at h
        dsimp only
        cases hext : extensionCall version regs with
        | some call =>
            rw [hext] at h
            exact (congrArg Prod.snd (Option.some.inj h)).symm
        | none =>
            rw [hext] at h
            exact (congrArg Prod.snd (Option.some.inj h)).symm

theorem getLsbD_mipStip : mipStip.getLsbD 5 = true := by decide
theorem getLsbD_mipSsip : mipSsip.getLsbD 5 = false := by decide

theorem effect_setTimer (dev : Devices) (target : BitVec 64) :
    ((Call.setTimer target).effect dev).mtimecmp = target ∧
      ((Call.setTimer target).effect dev).mip.getLsbD 5 = false := by
  refine ⟨rfl, ?_⟩
  change (dev.mip &&& ~~~mipStip).getLsbD 5 = false
  rw [BitVec.getLsbD_and, BitVec.getLsbD_not, getLsbD_mipStip]
  simp

theorem effect_other {call : Call} (h : forall target, call ≠ .setTimer target)
    (dev : Devices) :
    (call.effect dev).mtimecmp = dev.mtimecmp ∧
      (call.effect dev).mip.getLsbD 5 = dev.mip.getLsbD 5 := by
  cases call with
  | setTimer target => exact absurd rfl (h target)
  | putchar byte => exact ⟨rfl, rfl⟩
  | getchar => exact ⟨rfl, rfl⟩
  | clearIpi =>
      refine ⟨rfl, ?_⟩
      change (dev.mip &&& ~~~mipSsip).getLsbD 5 = _
      rw [BitVec.getLsbD_and, BitVec.getLsbD_not, getLsbD_mipSsip]
      simp
  | sendIpi selected =>
      cases selected with
      | false => exact ⟨rfl, rfl⟩
      | true =>
          refine ⟨rfl, ?_⟩
          change (dev.mip ||| mipSsip).getLsbD 5 = _
          rw [BitVec.getLsbD_or, getLsbD_mipSsip, Bool.or_false]
  | fence => exact ⟨rfl, rfl⟩
  | query value => exact ⟨rfl, rfl⟩

/--
A call either asks for a time and takes the interrupt back, or leaves both alone.
-/
theorem sbiDispatchEcall_timer
    (h : sbiDispatchEcall version regs seen dev = some (regs', dev')) :
    match requested version regs seen with
    | some target => dev'.mtimecmp = target ∧ dev'.mip.getLsbD 5 = false
    | none => dev'.mtimecmp = dev.mtimecmp ∧ dev'.mip.getLsbD 5 = dev.mip.getLsbD 5 := by
  rw [sbiDispatchEcall_effect h]
  unfold requested
  cases hcall : callOf version regs seen with
  | none => exact ⟨rfl, rfl⟩
  | some call =>
      cases call with
      | setTimer target => exact effect_setTimer dev target
      | putchar byte => exact effect_other (fun _ => Call.noConfusion) dev
      | getchar => exact effect_other (fun _ => Call.noConfusion) dev
      | clearIpi => exact effect_other (fun _ => Call.noConfusion) dev
      | sendIpi selected => exact effect_other (fun _ => Call.noConfusion) dev
      | fence => exact effect_other (fun _ => Call.noConfusion) dev
      | query value => exact effect_other (fun _ => Call.noConfusion) dev

end

/-!
# One event
-/

namespace Board

theorem clock_storeMtimecmp (t : Timer) (x : BitVec 64) :
    (t.clock (storeMtimecmp x)).mtimecmp = x ∧
      (t.clock (storeMtimecmp x)).mtime = t.mtime + 1 := by
  constructor
  · change t.nextMtimecmp (storeMtimecmp x) = x
    have hsel : ((storeMtimecmp x).busWrite && (storeMtimecmp x).selMtimecmp) = true := by
      change ((0x10104000#64).setWidth 16 == clintOffMtimecmp) = true
      decide
    unfold Timer.nextMtimecmp
    rw [if_pos hsel, if_pos (Nat.le_refl 64), BitVec.setWidth_eq]
    rfl
  · apply Timer.nextMtime_of_not_stores
    change (true && (((0x10104000#64).setWidth 16 == clintOffMtime) ||
      (((0x10104000#64).setWidth 16 == clintOffMtime + 4) && decide (64 < 64)))) = false
    decide

/--
What an event does to the compare value and the supervisor's interrupt.
-/
def TimerEffect (version : BitVec 64) (b b' : Board) : Event -> Prop
  | .cycle _ => b'.timer.mtimecmp = b.timer.mtimecmp ∧ b'.stip = b.stip
  | .call regs seen =>
      match requested version regs seen with
      | some target => b'.timer.mtimecmp = target ∧ b'.stip = false
      | none => b'.timer.mtimecmp = b.timer.mtimecmp ∧ b'.stip = b.stip
  | .interrupt _ _ =>
      b.timer.pending = true ∧ b'.timer.mtimecmp = -1 ∧ b'.stip = true

theorem step_timer {version : BitVec 64} {b b' : Board} {e : Event}
    (h : b.step version e = some b') :
    b'.timer.mtime = b.timer.mtime + 1 ∧ TimerEffect version b b' e := by
  cases e with
  | cycle r =>
      dsimp only [step] at h
      split at h
      · cases h
      · rename_i hquiet
        rw [Bool.not_eq_true, Bool.or_eq_false_iff] at hquiet
        rw [← Option.some.inj h]
        exact ⟨Timer.nextMtime_of_not_stores hquiet.right,
          Timer.nextMtimecmp_of_not_stores hquiet.left, rfl⟩
  | call regs seen =>
      obtain ⟨⟨regs', dev'⟩, hdispatch, rfl⟩ := Option.map_eq_some_iff.mp h
      have heffect := sbiDispatchEcall_timer hdispatch
      obtain ⟨hcmp, htime⟩ := clock_storeMtimecmp b.timer dev'.mtimecmp
      refine ⟨htime, ?_⟩
      dsimp only [TimerEffect]
      cases hreq : requested version regs seen with
      | some target =>
          rw [hreq] at heffect
          exact And.intro (hcmp.trans heffect.left) heffect.right
      | none =>
          rw [hreq] at heffect
          exact And.intro (hcmp.trans heffect.left) heffect.right
  | interrupt regs seen =>
      dsimp only [step] at h
      split at h
      · rename_i hpending
        obtain ⟨⟨regs', dev'⟩, hdispatch, rfl⟩ := Option.map_eq_some_iff.mp h
        have hdev : Devices.mipSet { b.devices with mtimecmp := -1 } mipStip = dev' :=
          congrArg Prod.snd (Option.some.inj hdispatch)
        obtain ⟨hcmp, htime⟩ := clock_storeMtimecmp b.timer dev'.mtimecmp
        refine ⟨htime, hpending, ?_, ?_⟩
        · rw [← hdev] at hcmp ⊢
          exact hcmp
        · rw [← hdev]
          change (b.mip ||| mipStip).getLsbD 5 = true
          rw [BitVec.getLsbD_or, getLsbD_mipStip, Bool.or_true]
      · cases h

end Board

/-!
# Every run

The interrupt is raised or the machine timer is armed for the time last asked for; a
machine timer that is silenced has been due.
-/

structure Served (version : BitVec 64) (es : List Event) (b : Board) : Prop where
  time : b.timer.mtime = BitVec.ofNat 64 es.length
  armed : b.stip = false -> b.timer.mtimecmp = deadline version es
  raised : b.stip = true ->
    b.timer.mtimecmp = -1 ∧ (deadline version es).toNat <= es.length

theorem Served.toNat_mtime {version : BitVec 64} {es : List Event} {b : Board}
    (h : Served version es b) (hlen : es.length < 2 ^ 64) :
    b.timer.mtime.toNat = es.length := by
  rw [h.time, BitVec.toNat_ofNat, Nat.mod_eq_of_lt hlen]

theorem Served.due_of_pending {version : BitVec 64} {es : List Event} {b : Board}
    (h : Served version es b) (hlen : es.length < 2 ^ 64)
    (hpending : b.timer.pending = true) :
    (deadline version es).toNat <= es.length := by
  cases hstip : b.stip with
  | true => exact (h.raised hstip).right
  | false =>
      have hle : b.timer.mtimecmp <= b.timer.mtime := of_decide_eq_true hpending
      rw [h.armed hstip, BitVec.le_def, h.toNat_mtime hlen] at hle
      exact hle

theorem Served.step {version : BitVec 64} {es : List Event} {b b' : Board} {e : Event}
    (h : Served version es b) (hlen : es.length < 2 ^ 64)
    (hstep : b.step version e = some b') : Served version (e :: es) b' := by
  obtain ⟨htime, heffect⟩ := Board.step_timer hstep
  have hnow : b'.timer.mtime = BitVec.ofNat 64 (e :: es).length := by
    rw [htime, h.time, List.length_cons, BitVec.ofNat_add]
    rfl
  -- an event that leaves the compare value and the interrupt alone
  have hsame : deadline version (e :: es) = deadline version es ->
      b'.timer.mtimecmp = b.timer.mtimecmp -> b'.stip = b.stip ->
      Served version (e :: es) b' := by
    intro hdeadline hcmp hstip
    refine ⟨hnow, fun hlow => ?_, fun hhigh => ?_⟩
    · rw [hcmp, hdeadline]
      exact h.armed (hstip.symm.trans hlow)
    · rw [hcmp, hdeadline]
      obtain ⟨hones, hdue⟩ := h.raised (hstip.symm.trans hhigh)
      exact ⟨hones, Nat.le_succ_of_le hdue⟩
  cases e with
  | cycle r => exact hsame rfl heffect.left heffect.right
  | call regs seen =>
      dsimp only [Board.TimerEffect] at heffect
      cases hreq : requested version regs seen with
      | none =>
          rw [hreq] at heffect
          refine hsame ?_ heffect.left heffect.right
          change (requested version regs seen).getD _ = _
          rw [hreq]
          rfl
      | some target =>
          rw [hreq] at heffect
          have hdeadline : deadline version (.call regs seen :: es) = target := by
            change (requested version regs seen).getD _ = _
            rw [hreq]
            rfl
          refine ⟨hnow, fun _ => heffect.left.trans hdeadline.symm, fun hhigh => ?_⟩
          rw [heffect.right] at hhigh
          cases hhigh
  | interrupt regs seen =>
      obtain ⟨hpending, hones, hstip⟩ := heffect
      refine ⟨hnow, fun hlow => ?_, fun _ => ⟨hones, ?_⟩⟩
      · rw [hstip] at hlow
        cases hlow
      · exact Nat.le_succ_of_le (h.due_of_pending hlen hpending)

theorem Reaches.served {version : BitVec 64} {es : List Event} {b : Board}
    (h : Reaches version es b) (hlen : es.length < 2 ^ 64) : Served version es b := by
  induction h with
  | reset =>
      refine ⟨rfl, fun _ => rfl, fun hhigh => ?_⟩
      exact absurd hhigh (by decide)
  | step hprev hstep ih =>
      rw [List.length_cons] at hlen
      exact (ih (Nat.lt_of_succ_lt hlen)).step (Nat.lt_of_succ_lt hlen) hstep

theorem Served.not_both {version : BitVec 64} {es : List Event} {b : Board}
    (h : Served version es b) (hlen : es.length < 2 ^ 64 - 1) :
    ¬ (b.stip = true ∧ b.timer.pending = true) := by
  rintro ⟨hstip, hpending⟩
  have hle : b.timer.mtimecmp <= b.timer.mtime := of_decide_eq_true hpending
  have hones : (-1 : BitVec 64).toNat = 2 ^ 64 - 1 := by decide
  rw [(h.raised hstip).left, BitVec.le_def, h.toNat_mtime (by omega)] at hle
  omega

/-!
# No storm

A machine timer interrupt uses up a request, except one for the time after reset.
-/

def interrupts : List Event -> Nat
  | [] => 0
  | .interrupt _ _ :: es => interrupts es + 1
  | _ :: es => interrupts es

def requests (version : BitVec 64) : List Event -> Nat
  | [] => 0
  | .call regs seen :: es => requests version es + (requested version regs seen).isSome.toNat
  | _ :: es => requests version es

theorem Reaches.interrupts_add_le {version : BitVec 64} {es : List Event} {b : Board}
    (h : Reaches version es b) (hlen : es.length < 2 ^ 64 - 1) :
    interrupts es + (!b.stip).toNat <= requests version es + 1 := by
  induction h with
  | reset => exact Nat.le_refl 1
  | @step es b b' e hprev hstep ih =>
      rw [List.length_cons] at hlen
      have hbefore := ih (Nat.lt_of_succ_lt hlen)
      obtain ⟨-, heffect⟩ := Board.step_timer hstep
      cases e with
      | cycle r =>
          change interrupts es + (!b'.stip).toNat <= requests version es + 1
          rwa [heffect.right]
      | call regs seen =>
          dsimp only [Board.TimerEffect] at heffect
          change interrupts es + (!b'.stip).toNat <=
            requests version es + (requested version regs seen).isSome.toNat + 1
          cases hreq : requested version regs seen with
          | none =>
              rw [hreq] at heffect
              rwa [heffect.right]
          | some target =>
              rw [hreq] at heffect
              rw [heffect.right]
              have := Nat.le_of_add_right_le hbefore
              exact Nat.succ_le_succ this
      | interrupt regs seen =>
          obtain ⟨hpending, -, hstip⟩ := heffect
          have hlow : b.stip = false := by
            rw [← Bool.not_eq_true]
            exact fun hhigh => (hprev.served (by omega)).not_both (by omega) ⟨hhigh, hpending⟩
          rw [hlow] at hbefore
          rwa [hstip]

/--
Whatever else happens, from the time last asked for on there is an interrupt waiting,
either at the machine timer or at the supervisor and never at both; before that time
there is none.
-/
theorem timer_service (version : BitVec 64) {es : List Event} {b : Board}
    (h : Reaches version es b) (hlen : es.length < 2 ^ 64 - 1) :
    b.timer.mtime.toNat = es.length ∧
      ((b.stip = true ∨ b.timer.pending = true) <->
        (deadline version es).toNat <= es.length) ∧
      ¬ (b.stip = true ∧ b.timer.pending = true) ∧
      interrupts es <= requests version es + 1 := by
  have hlt : es.length < 2 ^ 64 := by omega
  have hserved := h.served hlt
  have htime := hserved.toNat_mtime hlt
  refine ⟨htime, ⟨?_, ?_⟩, hserved.not_both hlen,
    Nat.le_of_add_right_le (h.interrupts_add_le hlen)⟩
  · rintro (hstip | hpending)
    · exact (hserved.raised hstip).right
    · exact hserved.due_of_pending hlt hpending
  · intro hdue
    cases hstip : b.stip with
    | true => exact Or.inl rfl
    | false =>
        refine Or.inr (decide_eq_true ?_)
        rw [hserved.armed hstip, BitVec.le_def, htime]
        exact hdue

def askForCycleThree : SavedRegs := setAt (setAt (fun _ => 0) regA7 eidTime) regA0 3

/--
The interrupt after reset, a request for cycle 3, and the interrupt of that request.
-/
def oneTick : List Event :=
  let seen : Readings := { mask := 0, received := none }
  [.interrupt askForCycleThree seen, .cycle ⟨false, false, false, 0, 0⟩,
    .call askForCycleThree seen, .interrupt askForCycleThree seen]

theorem timer_service_oneTick :
    let b : Board := { timer := { msip := 0, mtime := 4, mtimecmp := -1 }, mip := 32, sent := [] }
    b.timer.mtime.toNat = oneTick.length ∧
      ((b.stip = true ∨ b.timer.pending = true) <->
        (deadline 0 oneTick).toNat <= oneTick.length) ∧
      ¬ (b.stip = true ∧ b.timer.pending = true) ∧
      interrupts oneTick <= requests 0 oneTick + 1 := by
  intro b
  have hreset : Reaches 0 [] Board.reset := Reaches.reset
  have hboot : Reaches 0 _ ⟨⟨0, 1, -1⟩, 32, []⟩ := hreset.step
    (show Board.reset.step 0 (.interrupt askForCycleThree ⟨0, none⟩) = _ by decide)
  have hask : Reaches 0 _ ⟨⟨0, 2, 3⟩, 0, []⟩ := hboot.step
    (show Board.step 0 _ (.call askForCycleThree ⟨0, none⟩) = _ by decide)
  have hidle : Reaches 0 _ ⟨⟨0, 3, 3⟩, 0, []⟩ := hask.step
    (show Board.step 0 _ (.cycle ⟨false, false, false, 0, 0⟩) = _ by decide)
  have htick : Reaches 0 _ b := hidle.step
    (show Board.step 0 _ (.interrupt askForCycleThree ⟨0, none⟩) = _ by decide)
  exact timer_service 0 htick (by decide)

end Firmware
end RvCores
