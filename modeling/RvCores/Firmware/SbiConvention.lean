import RvCores.Firmware.Sbi
import RvCores.Lib.Table

/-!
# Calling conventions of supervisor calls

The older calls return one result in `a0` and keep every other register.  The calls of the
extensions return an error in `a0` and a value in `a1`.  The firmware answers both kinds and
writes both registers in both.
-/

namespace RvCores
namespace Firmware

open Lib

/-!
# What a call asks for
-/

inductive Call where
  | setTimer (target : BitVec 64)
  | putchar (byte : BitVec 8)
  | getchar
  | clearIpi
  | sendIpi (selected : Bool)
  | fence
  | query (value : BitVec 64)
deriving DecidableEq, Repr

namespace Call

def effect (dev : Devices) : Call -> Devices
  | setTimer target => Firmware.setTimer dev target
  | putchar byte => { dev with sent := byte :: dev.sent }
  | clearIpi => dev.mipClear mipSsip
  | sendIpi selected => if selected then dev.mipSet mipSsip else dev
  | _ => dev

def value (seen : Readings) : Call -> BitVec 64
  | getchar => Firmware.getchar seen.received
  | query value => value
  | _ => 0

end Call

/--
The calls of the first version, numbered 0 to 7.
-/
def legacyCall (regs : SavedRegs) (seen : Readings) : Option Call :=
  let eid := regs regA7
  let a0 := regs regA0
  if eid = eidSetTimer then some (.setTimer a0)
  else if eid = eidConsolePutchar then some (.putchar (a0.setWidth 8))
  else if eid = eidConsoleGetchar then some .getchar
  else if eid = eidClearIpi then some .clearIpi
  else if eid = eidSendIpi then some (.sendIpi (seen.mask.getLsbD 0))
  else if eid = eidRemoteFenceI ∨ eid = eidRemoteSfenceVma ∨ eid = eidRemoteSfenceAsid then
    some .fence
  else none

def baseQuery (version fid a0 : BitVec 64) : Option Call :=
  if fid = 0 then some (.query version)
  else if fid = 1 then some (.query 0x5350355253)
  else if fid = 2 then some (.query 1)
  else if fid = 3 then some (.query (probe a0))
  else if fid = 4 ∨ fid = 5 ∨ fid = 6 then some (.query 0)
  else none

def extensionCall (version : BitVec 64) (regs : SavedRegs) : Option Call :=
  let eid := regs regA7
  let fid := regs regA6
  let a0 := regs regA0
  if eid = eidBase then baseQuery version fid a0
  else if eid = eidTime then if fid = 0 then some (.setTimer a0) else none
  else if eid = eidIpi then
    if fid = 0 then some (.sendIpi (a0.getLsbD 0 && regs regA1 == 0)) else none
  else if eid = eidRfence then
    if fid = 0 ∨ fid = 1 ∨ fid = 2 then some .fence else none
  else none

def legacyReturn (regs : SavedRegs) (result : BitVec 64) : SavedRegs := setAt regs regA0 result

def pairReturn (regs : SavedRegs) (err val : BitVec 64) : SavedRegs :=
  setAt (setAt regs regA0 err) regA1 val

/--
What a caller gets back: from an older call one result, from a call of an extension a pair,
from any other call an error and nothing else.  The call to shut down promises nothing.
-/
def Conforms (version : BitVec 64) (regs : SavedRegs) (seen : Readings) (dev : Devices)
    (out : Option (SavedRegs × Devices)) : Prop :=
  match legacyCall regs seen with
  | some call => out = some (legacyReturn regs (call.value seen), call.effect dev)
  | none =>
      match extensionCall version regs with
      | some call => out = some (pairReturn regs sbiSuccess (call.value seen), call.effect dev)
      | none => regs regA7 = eidShutdown ∨ out = some (pairReturn regs sbiErrNotSupp 0, dev)

/-!
# What the firmware answers
-/

section

variable {version : BitVec 64} {regs : SavedRegs} {seen : Readings} {dev : Devices}

def Call.answer (call : Call) (seen : Readings) (dev : Devices) : Answer :=
  { val := call.value seen, dev := call.effect dev }

theorem legacy_cases {call : Call} (h : legacyCall regs seen = some call) :
    (regs regA7 = eidSetTimer ∧ call = .setTimer (regs regA0)) ∨
      (regs regA7 = eidConsolePutchar ∧ call = .putchar ((regs regA0).setWidth 8)) ∨
      (regs regA7 = eidConsoleGetchar ∧ call = .getchar) ∨
      (regs regA7 = eidClearIpi ∧ call = .clearIpi) ∨
      (regs regA7 = eidSendIpi ∧ call = .sendIpi (seen.mask.getLsbD 0)) ∨
      ((regs regA7 = eidRemoteFenceI ∨ regs regA7 = eidRemoteSfenceVma ∨
        regs regA7 = eidRemoteSfenceAsid) ∧ call = .fence) := by
  unfold legacyCall at h
  dsimp only at h
  split_ifs at h with h0 h1 h2 h3 h4 h5
  · exact Or.inl ⟨h0, (Option.some.inj h).symm⟩
  · exact Or.inr (Or.inl ⟨h1, (Option.some.inj h).symm⟩)
  · exact Or.inr (Or.inr (Or.inl ⟨h2, (Option.some.inj h).symm⟩))
  · exact Or.inr (Or.inr (Or.inr (Or.inl ⟨h3, (Option.some.inj h).symm⟩)))
  · exact Or.inr (Or.inr (Or.inr (Or.inr (Or.inl ⟨h4, (Option.some.inj h).symm⟩))))
  · exact Or.inr (Or.inr (Or.inr (Or.inr (Or.inr ⟨h5, (Option.some.inj h).symm⟩))))

theorem sbiSwitch_legacy {call : Call} (h : legacyCall regs seen = some call) :
    sbiSwitch version regs seen dev = some (call.answer seen dev) := by
  rcases legacy_cases h with ⟨heid, rfl⟩ | ⟨heid, rfl⟩ | ⟨heid, rfl⟩ | ⟨heid, rfl⟩ | ⟨heid, rfl⟩ |
    ⟨heid | heid | heid, rfl⟩ <;>
    · unfold sbiSwitch
      simp only [heid]
      rfl

theorem baseCall_query {fid a0 : BitVec 64} :
    baseCall version fid a0 dev =
      match baseQuery version fid a0 with
      | some call => call.answer seen dev
      | none => notSupported dev := by
  unfold baseCall baseQuery
  split_ifs <;> rfl

theorem selected_eq (mask base : BitVec 64) (x y : Devices) :
    (if mask.getLsbD 0 = true ∧ base = 0 then x else y) =
      if (mask.getLsbD 0 && base == 0) = true then x else y := by
  simp only [Bool.and_eq_true, beq_iff_eq]

/--
A call that is not one of the older ones.
-/
theorem sbiSwitch_new (hlegacy : legacyCall regs seen = none) (hne : regs regA7 ≠ eidShutdown) :
    sbiSwitch version regs seen dev =
      match extensionCall version regs with
      | some call => some (call.answer seen dev)
      | none => some (notSupported dev) := by
  unfold legacyCall at hlegacy
  dsimp only at hlegacy
  split_ifs at hlegacy with h0 h1 h2 h3 h4 h5
  unfold sbiSwitch extensionCall
  dsimp only
  rw [if_neg h0, if_neg h1, if_neg h2, if_neg h3, if_neg h4, if_neg h5, if_neg hne]
  by_cases hbase : regs regA7 = eidBase
  · rw [if_pos hbase, if_pos hbase, @baseCall_query version seen dev]
    cases baseQuery version (regs regA6) (regs regA0) <;> rfl
  · rw [if_neg hbase, if_neg hbase]
    by_cases htime : regs regA7 = eidTime
    · rw [if_pos htime, if_pos htime]
      split <;> rfl
    · rw [if_neg htime, if_neg htime]
      by_cases hipi : regs regA7 = eidIpi
      · rw [if_pos hipi, if_pos hipi]
        by_cases hfid : regs regA6 = 0
        · rw [if_pos hfid, if_pos hfid, selected_eq]
          rfl
        · rw [if_neg hfid, if_neg hfid]
      · rw [if_neg hipi, if_neg hipi]
        by_cases hfence : regs regA7 = eidRfence
        · rw [if_pos hfence, if_pos hfence]
          by_cases hfid : regs regA6 = 0 ∨ regs regA6 = 1 ∨ regs regA6 = 2
          · rw [if_pos hfid, if_pos hfid]
            rfl
          · rw [if_neg hfid, if_neg hfid]
        · rw [if_neg hfence, if_neg hfence]

theorem putAnswer_eq_legacyReturn_iff (call : Call) :
    putAnswer regs (call.answer seen dev) = legacyReturn regs (call.value seen) <->
      call.value seen = 0 ∧ regs regA1 = 0 := by
  constructor
  · intro h
    have ha0 : sbiSuccess = call.value seen := by
      have hreg := congrFun h regA0
      rwa [show putAnswer regs (call.answer seen dev) regA0 = sbiSuccess from rfl,
        show legacyReturn regs (call.value seen) regA0 = call.value seen from setAt_self _ _ _]
        at hreg
    have ha1 : call.value seen = regs regA1 := by
      have hreg := congrFun h regA1
      rwa [show putAnswer regs (call.answer seen dev) regA1 = call.value seen from rfl,
        show legacyReturn regs (call.value seen) regA1 = regs regA1 from
          setAt_of_ne (by decide)] at hreg
    exact ⟨ha0.symm, ha1.symm.trans ha0.symm⟩
  · rintro ⟨hzero, ha1⟩
    funext r
    unfold putAnswer legacyReturn
    rw [setAt_apply, hzero]
    by_cases hr0 : r = regA0
    · rw [if_pos hr0, if_pos hr0]
      rfl
    · rw [if_neg hr0, if_neg hr0]
      by_cases hr1 : r = regA1
      · rw [if_pos hr1, hr1, ha1]
        exact hzero
      · rw [if_neg hr1]

theorem putAnswer_eq_pairReturn (answer : Answer) :
    putAnswer regs answer = pairReturn regs answer.err answer.val := by
  funext r
  unfold putAnswer pairReturn
  rw [setAt_apply, setAt_apply]
  by_cases hr0 : r = regA0
  · have hr1 : r ≠ regA1 := by
      rw [hr0]
      decide
    rw [if_pos hr0, if_neg hr1, if_pos hr0]
  · rw [if_neg hr0, if_neg hr0]

/-!
# Which calls are older calls
-/

theorem legacy_le {call : Call} (h : legacyCall regs seen = some call) : regs regA7 <= 7 := by
  rcases legacy_cases h with ⟨heid, _⟩ | ⟨heid, _⟩ | ⟨heid, _⟩ | ⟨heid, _⟩ | ⟨heid, _⟩ |
    ⟨heid | heid | heid, _⟩ <;>
    · rw [heid]
      decide

theorem not_le_of_legacy (h : legacyCall regs seen = none) : ¬ regs regA7 <= 7 := by
  unfold legacyCall at h
  dsimp only at h
  split_ifs at h with h0 h1 h2 h3 h4 h5
  unfold eidSetTimer at h0
  unfold eidConsolePutchar at h1
  unfold eidConsoleGetchar at h2
  unfold eidClearIpi at h3
  unfold eidSendIpi at h4
  unfold eidRemoteFenceI eidRemoteSfenceVma eidRemoteSfenceAsid at h5
  bv_omega

theorem getchar_eq_zero_iff {received : Option (BitVec 8)} :
    getchar received = 0 <-> received = some 0 := by
  cases received with
  | none =>
      constructor
      · intro h
        exact absurd h (by decide)
      · intro h
        cases h
  | some byte =>
      unfold getchar
      rw [Option.some.injEq]
      constructor
      · intro h
        bv_omega
      · intro h
        rw [h]
        rfl

theorem legacy_value {call : Call} (h : legacyCall regs seen = some call) :
    call.value seen = 0 <-> (regs regA7 = eidConsoleGetchar -> seen.received = some 0) := by
  rcases legacy_cases h with ⟨heid, rfl⟩ | ⟨heid, rfl⟩ | ⟨heid, rfl⟩ | ⟨heid, rfl⟩ | ⟨heid, rfl⟩ |
    ⟨heid | heid | heid, rfl⟩
  case inr.inr.inl =>
    rw [heid]
    constructor
    · intro h _
      exact getchar_eq_zero_iff.mp h
    · intro h
      exact getchar_eq_zero_iff.mpr (h rfl)
  all_goals
    rw [heid]
    exact iff_of_true rfl fun hget => absurd hget (by decide)

/--
A call is answered as its convention says exactly when it is not one of the older calls, or
`a1`, which they may not touch, is zero already and so is the result.
-/
theorem sbiDispatchEcall_conforms_iff (version : BitVec 64) (regs : SavedRegs) (seen : Readings)
    (dev : Devices) :
    Conforms version regs seen dev (sbiDispatchEcall version regs seen dev) <->
      (regs regA7 <= 7 ->
        regs regA1 = 0 ∧ (regs regA7 = eidConsoleGetchar -> seen.received = some 0)) := by
  unfold Conforms sbiDispatchEcall
  cases hlegacy : legacyCall regs seen with
  | some call =>
      have heffect : (call.answer seen dev).dev = call.effect dev := rfl
      simp only [sbiSwitch_legacy hlegacy, Option.map_some, Option.some.injEq, Prod.mk.injEq,
        heffect, and_true]
      rw [putAnswer_eq_legacyReturn_iff, legacy_value hlegacy]
      constructor
      · intro h _
        exact h.symm
      · intro h
        exact (h (legacy_le hlegacy)).symm
  | none =>
      apply iff_of_true
      · by_cases hshutdown : regs regA7 = eidShutdown
        · have hnone : extensionCall version regs = none := by
            unfold extensionCall
            simp only [hshutdown]
            rfl
          rw [hnone]
          exact Or.inl hshutdown
        · rw [sbiSwitch_new hlegacy hshutdown]
          cases extensionCall version regs with
          | some call => exact congrArg some (congrArg (·, _) (putAnswer_eq_pairReturn _))
          | none => exact Or.inr (congrArg some (congrArg (·, _) (putAnswer_eq_pairReturn _)))
      · intro hle
        exact absurd hle (not_le_of_legacy hlegacy)

end

/--
A caller asks for a character while an A is waiting.
-/
def askForCharacter : SavedRegs := setAt (fun _ => 0) regA7 eidConsoleGetchar

theorem getchar_answers_in_a1 :
    let seen : Readings := { mask := 0, received := some 0x41 }
    let dev : Devices := { mip := 0, mtimecmp := 0, sent := [] }
    ¬ Conforms 0 askForCharacter seen dev (sbiDispatchEcall 0 askForCharacter seen dev) := by
  intro seen dev h
  have ha0 := congrArg (Option.map fun out : SavedRegs × Devices => out.1 regA0) h
  exact absurd ha0 (by decide)

end Firmware
end RvCores
