import RvCores.Ooo.Operands

/-!
# Sources are written before they are read

A station entry becomes ready by watching tags on broadcast ports.  Tags do not
name their register file, and a register can be granted again while something
still refers to it, so readiness is only sound in cycles in which neither
happens.  This module states the two events and shows that nothing else can make
a station select an operation too early.
-/

namespace RvCores
namespace Ooo
namespace Core

open Lib

variable {P : Params} {s : Core} {i : Input} {u : ExecUnit}

/-!
# Operations after one clock edge
-/

/--
The register that the instruction in slot 0 owes at the station it enters.
-/
def dest0 (P : Params) (s : Core) (i : Input) : ExecUnit -> Option PReg
  | .lsq =>
      if s.lsqOpType P ≠ .store then some { file := .int, num := s.intDestPreg P } else none
  | u =>
      (s.stationIn P i u).disp0.data.writes.map
        (fun file => { file := file, num := (s.stationIn P i u).disp0.destPreg })

theorem dest0_of_ne (hu : u ≠ .lsq) :
    s.dest0 P i u = (s.stationIn P i u).disp0.data.writes.map
      (fun file => PReg.mk file (s.stationIn P i u).disp0.destPreg) := by
  cases u with
  | lsq => exact absurd rfl hu
  | _ => rfl

theorem enters0_eq (hu : u ≠ .lsq) :
    s.enters0 P i u =
      if (s.stationIn P i u).disp0.en then (s.station u).alloc0? (stationCfg P u) else none := by
  cases u with
  | lsq => exact absurd rfl hu
  | _ => rfl

theorem leavesSlot_eq (hu : u ≠ .lsq) :
    s.leavesSlot P i u =
      if (s.stationIn P i u).issueAck then (s.station u).issue? (stationCfg P u) else none := by
  cases u with
  | lsq => exact absurd rfl hu
  | _ => rfl

theorem alu_of_disp1 (hu : u ≠ .lsq) (h : (s.stationIn P i u).disp1.en = true) : u = .alu := by
  cases u with
  | alu => rfl
  | lsq => exact absurd rfl hu
  | _ => exact absurd h Bool.false_ne_true

theorem enters1_eq :
    s.enters1 P i .alu =
      if (s.stationIn P i .alu).disp1.en then
        (s.station .alu).alloc1? (stationCfg P .alu) (s.stationIn P i .alu).disp0.en
      else none := by
  have hen1 : (s.stationIn P i .alu).disp1.en = s.doDispatchSlot1 P i := rfl
  have hen0 : (s.stationIn P i .alu).disp0.en = s.rsAluDispEn0 P i := rfl
  rw [hen1, hen0]
  rfl

/--
An entry after the edge is an old one that stays, or one of the two dispatched.
-/
theorem station_step_cases {k : Nat} (hk : k < (stationCfg P u).entries)
    (h : (((s.step P i).station u).entry k).valid = true) :
    (((s.station u).entry k).valid = true ∧ s.leavesSlot P i u ≠ some k ∧
        ((s.step P i).station u).entry k =
          ReservationStation.wakeup (stationCfg P u) (s.stationIn P i u).cdb
            ((s.station u).entry k)) ∨
      ((s.stationIn P i u).disp0.en = true ∧ s.enters0 P i u = some k ∧
        ((s.step P i).station u).entry k =
          ReservationStation.newEntry (stationCfg P u) (s.stationIn P i u).cdb
            (s.stationIn P i u).disp0) ∨
      ((s.stationIn P i u).disp1.en = true ∧ u = .alu ∧ s.enters1 P i .alu = some k ∧
        ((s.step P i).station u).entry k =
          ReservationStation.newEntry (stationCfg P u) (s.stationIn P i u).cdb
            (s.stationIn P i u).disp1) := by
  have hu := not_lsq_of_slot hk
  rw [station_step hu] at h ⊢
  rcases ReservationStation.step_valid_cases hk h with
    ⟨hold, hstay, hentry⟩ | ⟨hen, hslot, hentry⟩ | ⟨hen, hslot, hentry⟩
  · left
    refine ⟨hold, ?_, hentry⟩
    rw [leavesSlot_eq hu]
    intro hleaves
    apply hstay
    cases hack : (s.stationIn P i u).issueAck with
    | false => simp [hack] at hleaves
    | true => exact ⟨rfl, by simpa [hack] using hleaves⟩
  · right
    left
    refine ⟨hen, ?_, hentry⟩
    rw [enters0_eq hu, hen, if_pos rfl, hslot]
  · right
    right
    have halu := alu_of_disp1 hu hen
    subst halu
    refine ⟨hen, rfl, ?_, hentry⟩
    rw [enters1_eq, hen, if_pos rfl, hslot]

theorem stationOwes_eq_some {k : Nat} {r : PReg} :
    s.stationOwes u k = some r ↔
      ((s.station u).entry k).valid = true ∧
        ((s.station u).entry k).data.writes = some r.file ∧
        ((s.station u).entry k).destPreg = r.num := by
  rcases r with ⟨file, num⟩
  unfold stationOwes
  cases ((s.station u).entry k).valid <;> simp

theorem lsqOwes_eq_some {k : Nat} {r : PReg} :
    s.lsqOwes k = some r ↔
      (s.lsq.entry k).valid = true ∧ (s.lsq.entry k).opType ≠ .store ∧
        r = { file := .int, num := (s.lsq.entry k).destPreg } := by
  unfold lsqOwes
  by_cases hstore : (s.lsq.entry k).opType = .store
  · simp [hstore]
  · cases (s.lsq.entry k).valid <;> simp [hstore, eq_comm]

theorem owes_running_eq_some {r : PReg} :
    s.owes (.running u) = some r ↔
      (s.unitBusy u || s.unitDone u) = true ∧ s.unitWrites u = some r.file ∧
        s.unitDest u = r.num := by
  rcases r with ⟨file, num⟩
  unfold owes
  cases hoccupied : s.unitBusy u || s.unitDone u <;> simp [hoccupied]

theorem unitDest_step_of_idle (h : s.unitStart u = false) :
    (s.step P i).unitDest u = s.unitDest u ∧
      (s.step P i).unitWrites u = s.unitWrites u := by
  cases u <;> simp_all [step, unitDest, unitWrites, unitStart]

/--
A unit that starts takes the destination of the operation its station selects.
-/
theorem unitDest_step_of_start (h : s.unitStart u = true) :
    exists k, k < (stationCfg P u).entries ∧ s.leavesSlot P i u = some k ∧
      ((s.station u).entry k).valid = true ∧
      (s.step P i).unitDest u = ((s.station u).entry k).destPreg ∧
      (s.step P i).unitWrites u = ((s.station u).entry k).data.writes := by
  cases u with
  | div =>
      have hstart : s.divStart = true := h
      have hvalid : s.rsDiv.issueValid rsDivCfg = true := by
        simp only [divStart, Bool.and_eq_true] at hstart
        exact hstart.left.left
      have hspec := ReservationStation.issueIdx_spec hvalid
      refine ⟨_, hspec.left, leaves_issue hstart hvalid, hspec.right.left, ?_, rfl⟩
      simp only [step, unitDest, hstart, if_true]
      rfl
  | fdiv =>
      have hstart : s.fdivStart = true := h
      have hvalid : s.rsFdiv.issueValid rsFdivCfg = true := by
        simp only [fdivStart, Bool.and_eq_true] at hstart
        exact hstart.left.left.left.left
      have hspec := ReservationStation.issueIdx_spec hvalid
      refine ⟨_, hspec.left, leaves_issue hstart hvalid, hspec.right.left, ?_, rfl⟩
      simp only [step, unitDest, hstart, if_true]
      rfl
  | valu =>
      have hstart : s.valuStart = true := h
      have hvalid : s.rsValu.issueValid rsValuCfg = true := by
        simp only [valuStart, Bool.and_eq_true] at hstart
        exact hstart.left
      have hspec := ReservationStation.issueIdx_spec hvalid
      refine ⟨_, hspec.left, leaves_issue hstart hvalid, hspec.right.left, ?_, rfl⟩
      simp only [step, unitDest, hstart, if_true]
      rfl
  | vlsu =>
      have hstart : s.vlsuStart = true := h
      have hvalid : s.rsVlsu.issueValid rsVlsuCfg = true := by
        simp only [vlsuStart, Bool.and_eq_true] at hstart
        exact hstart.left
      have hspec := ReservationStation.issueIdx_spec hvalid
      refine ⟨_, hspec.left, leaves_issue hstart hvalid, hspec.right.left, ?_, ?_⟩
      · simp only [step, unitDest, hstart, if_true]
        rfl
      · simp only [step, unitWrites, hstart, if_true]
        rfl
  | alu => simp [unitStart] at h
  | lsq => simp [unitStart] at h
  | falu => simp [unitStart] at h

/--
Whatever an operation owes after the edge, it owed before without completing, or
it is one of the instructions dispatched now.
-/
theorem owes_step (hok : UnitsOk s) {p : Pos} {r : PReg} (hp : p ∈ positions P)
    (h : (s.step P i).owes p = some r) :
    (exists q, q ∈ positions P ∧ s.owes q = some r ∧ ¬ Completes P s i q ∧
        p = nextPos P s i q) ∨
      (exists v k, p = .waiting v k ∧ s.enters0 P i v = some k ∧ s.dest0 P i v = some r) ∨
      (exists k, p = .waiting .alu k ∧ s.enters1 P i .alu = some k ∧
        r = { file := .int, num := s.intDestPreg1 P }) := by
  cases p with
  | waiting v k =>
      have hk := mem_positions_waiting.mp hp
      by_cases hv : v = .lsq
      · subst hv
        rcases lsqOwes_eq_some.mp h with ⟨hvalid, hkind, hr⟩
        change ((s.lsq.step (s.lsqIn P i)).entry k).valid = true at hvalid
        change ((s.lsq.step (s.lsqIn P i)).entry k).opType ≠ .store at hkind
        change r = { file := .int, num := ((s.lsq.step (s.lsqIn P i)).entry k).destPreg } at hr
        rw [LoadStoreQueue.step_entry (lsq_fits P s i) hk] at hvalid hkind hr
        by_cases hnew : (s.lsqIn P i).dispEn0 = true ∧ k = s.lsq.tail
        · right
          left
          rw [if_pos hnew] at hkind hr
          refine ⟨.lsq, k, rfl, ?_, ?_⟩
          · change (if (s.lsqIn P i).dispEn0 then some s.lsq.tail else none) = some k
            rw [hnew.left, hnew.right, if_pos rfl]
          · have hkind' : s.lsqOpType P ≠ .store := hkind
            rw [dest0, if_pos hkind', hr]
            rfl
        · left
          rw [if_neg hnew] at hvalid hkind hr
          have hstay : ¬ (s.lsq.leaves (s.lsqIn P i) = true ∧ k = s.lsq.head) := by
            intro hleaves
            rw [if_pos hleaves] at hvalid
            simp at hvalid
          rw [if_neg hstay] at hvalid hkind hr
          have hleaves : s.leavesSlot P i .lsq ≠ some k := by
            intro hleaves
            cases hl : s.lsq.leaves (s.lsqIn P i) with
            | false => simp [leavesSlot, hl] at hleaves
            | true =>
                simp only [leavesSlot, hl, if_true, Option.some.injEq] at hleaves
                exact hstay ⟨hl, hleaves.symm⟩
          refine ⟨.waiting .lsq k, hp, lsqOwes_eq_some.mpr ⟨hvalid, hkind, hr⟩, ?_, ?_⟩
          · exact fun hc => hleaves hc.right
          · rw [nextPos, if_neg hleaves]
      · rw [slots_of_ne hv] at hk
        rw [owes_waiting hv, stationOwes_eq_some] at h
        rcases h with ⟨hvalid, hwrites, hdest⟩
        rcases station_step_cases hk hvalid with
          ⟨hold, hstay, hentry⟩ | ⟨_, henters, hentry⟩ | ⟨_, rfl, henters, hentry⟩
        · left
          refine ⟨.waiting v k, hp, ?_, fun hc => hstay hc.right, ?_⟩
          · rw [owes_waiting hv, stationOwes_eq_some]
            rw [hentry] at hwrites hdest
            exact ⟨hold, hwrites, hdest⟩
          · rw [nextPos, if_neg hstay]
        · right
          left
          refine ⟨v, k, rfl, henters, ?_⟩
          rw [hentry] at hwrites hdest
          change (s.stationIn P i v).disp0.data.writes = some r.file at hwrites
          change (s.stationIn P i v).disp0.destPreg = r.num at hdest
          rw [dest0_of_ne hv, hwrites, hdest]
          rfl
        · right
          right
          refine ⟨k, rfl, henters, ?_⟩
          rw [hentry] at hwrites hdest
          rcases r with ⟨file, num⟩
          cases hwrites
          cases hdest
          rfl
  | running v =>
      left
      rcases owes_running_eq_some.mp h with ⟨hoccupied, hwrites, hdest⟩
      rw [unit_occupied_step, Bool.or_eq_true] at hoccupied
      cases hstart : s.unitStart v with
      | true =>
          rcases unitDest_step_of_start (P := P) (i := i) hstart with
            ⟨k, hk, hleaves, hvalid, hdest', hwrites'⟩
          have hv := not_lsq_of_slot hk
          refine ⟨.waiting v k, mem_positions_waiting.mpr ?_, ?_, ?_, ?_⟩
          · rw [slots_of_ne hv]
            exact hk
          · rw [owes_waiting hv, stationOwes_eq_some, <- hdest', <- hwrites']
            exact ⟨hvalid, hwrites, hdest⟩
          · rintro ⟨hdirect, _⟩
            simp [direct_of_unitStart hstart] at hdirect
          · rw [nextPos, if_pos hleaves]
      | false =>
          have hbusy := hoccupied.resolve_left (by simp [hstart])
          have hkept := unitDest_step_of_idle (P := P) (i := i) hstart
          refine ⟨.running v, hp, ?_, ?_, rfl⟩
          · rw [owes_running_eq_some, <- hkept.left, <- hkept.right]
            exact ⟨by simp [hbusy], hwrites, hdest⟩
          · intro hdone
            exact hok.exclusive v ⟨hbusy, hdone⟩

/-!
# The condition on a cycle

Wakeups from the own file: a tag that makes a waiting or entering source ready
belongs to the file the source is read from, or the register is valid anyway.
Fresh grants: nothing in flight refers to a register that a free list grants.
Stable mask: the mask register is not renamed under a waiting masked operation.
-/

/--
The register stays valid over the clock edge without being written.
-/
def KeptValid (P : Params) (s : Core) (i : Input) (r : PReg) : Prop :=
  s.fileValid r = true ∧ r ∉ s.grants P i

def OwnPorts (P : Params) (s : Core) (i : Input) (u : ExecUnit) (second : Bool)
    (file : RegFile) (preg : Nat) : Prop :=
  forall port, port ∈ s.heard P u second -> port.2 = some preg ->
    port.1 = file ∨ KeptValid P s i { file := file, num := preg }

def regFiles : List RegFile := [.int, .float, .vec]

def EntryWakeups (P : Params) (s : Core) (i : Input) (u : ExecUnit) (k : Nat) : Prop :=
  ((s.station u).entry k).valid = true ->
    forall second, ((s.station u).entry k).srcReady second = false ->
      forall file, file ∈ regFiles ->
        ((s.station u).entry k).data.reads second = some file ->
        OwnPorts P s i u second file (((s.station u).entry k).srcPreg second)

def DispatchWakeups (P : Params) (s : Core) (i : Input) (u : ExecUnit)
    (d : RsDispatch Roles) : Prop :=
  d.en = true ->
    forall second, d.srcReady second = false ->
      forall file, file ∈ regFiles -> d.data.reads second = some file ->
        OwnPorts P s i u second file (d.srcPreg second)

def OwnWakeups (P : Params) (s : Core) (i : Input) : Prop :=
  forall u, u ∈ units -> u ≠ .lsq ->
    (forall k, k < (stationCfg P u).entries -> EntryWakeups P s i u k) ∧
      DispatchWakeups P s i u (s.stationIn P i u).disp0 ∧
      DispatchWakeups P s i u (s.stationIn P i u).disp1

def specMap (s : Core) : RegFile -> Nat -> Nat
  | .int => s.rat.specMap
  | .float => s.ratFloat.specMap
  | .vec => s.ratVec.specMap

def Mapped (s : Core) (r : PReg) : Prop :=
  exists a, a < numAregs ∧ s.specMap r.file a = r.num

def ReadBy (P : Params) (s : Core) (r : PReg) : Prop :=
  exists u, u ∈ units ∧ exists k, k < (stationCfg P u).entries ∧
    ((s.station u).entry k).valid = true ∧ exists second,
      ((s.station u).entry k).data.reads second = some r.file ∧
      ((s.station u).entry k).srcPreg second = r.num

/--
No operation in flight reads or owes a granted register, and no architectural
register maps to it.
-/
def FreshGrants (P : Params) (s : Core) (i : Input) : Prop :=
  (s.grants P i).Nodup ∧
    forall r, r ∈ s.grants P i -> ¬ Owed P s r ∧ ¬ ReadBy P s r ∧ ¬ Mapped s r

def maskReg (s : Core) : PReg := { file := .vec, num := s.ratVec.specMap 0 }

def MaskWaits (P : Params) (s : Core) : Prop :=
  exists u, u ∈ units ∧ exists k, k < (stationCfg P u).entries ∧
    ((s.station u).entry k).valid = true ∧ ((s.station u).entry k).data.masked = true

def MaskEnters (P : Params) (s : Core) (i : Input) : Prop :=
  exists u, u ∈ units ∧ u ≠ .lsq ∧ (s.stationIn P i u).disp0.en = true ∧
    (s.stationIn P i u).disp0.data.masked = true

def RenamesMask (P : Params) (s : Core) (i : Input) : Prop :=
  s.doDispatch P i = true ∧ s.isVecDest P = true ∧ s.vecVdAreg P = 0

/--
While a masked operation waits or enters a station, v0 is not renamed; and when
one enters, what v0 maps to is not still owed after this cycle.
-/
def StableMask (P : Params) (s : Core) (i : Input) : Prop :=
  (MaskWaits P s ∨ MaskEnters P s i -> ¬ RenamesMask P s i) ∧
    (MaskEnters P s i -> Owed P s s.maskReg -> Written P s s.maskReg)

def SoundCycle (P : Params) (s : Core) (i : Input) : Prop :=
  OwnWakeups P s i ∧ FreshGrants P s i ∧ StableMask P s i

section Decidable

variable (P : Params) (s : Core) (i : Input) (r : PReg)

instance : Decidable (Owed P s r) :=
  inferInstanceAs (Decidable (exists p, p ∈ positions P ∧ _))

instance : Decidable (Written P s r) :=
  inferInstanceAs (Decidable (exists u, u ∈ units ∧ _))

instance : Decidable (Mapped s r) :=
  inferInstanceAs (Decidable (exists a, a < numAregs ∧ _))

instance : Decidable (ReadBy P s r) :=
  inferInstanceAs (Decidable (exists u, u ∈ units ∧
    exists k, k < (stationCfg P u).entries ∧ ((s.station u).entry k).valid = true ∧
      exists second, ((s.station u).entry k).data.reads second = some r.file ∧
        ((s.station u).entry k).srcPreg second = r.num))

instance : Decidable (MaskWaits P s) :=
  inferInstanceAs (Decidable (exists u, u ∈ units ∧ exists k : Nat, k < _ ∧ _ ∧ _))

instance : Decidable (MaskEnters P s i) :=
  inferInstanceAs (Decidable (exists u, u ∈ units ∧ _ ∧ _ ∧ _))

instance : Decidable (RenamesMask P s i) :=
  inferInstanceAs (Decidable (_ ∧ _ ∧ _))

instance (u : ExecUnit) (second : Bool) (file : RegFile) (preg : Nat) :
    Decidable (OwnPorts P s i u second file preg) :=
  inferInstanceAs (Decidable (forall port, port ∈ s.heard P u second -> _ -> _ ∨ _ ∧ _))

instance (u : ExecUnit) (k : Nat) : Decidable (EntryWakeups P s i u k) :=
  inferInstanceAs (Decidable (_ -> forall _second, _ -> forall file, file ∈ regFiles -> _ -> _))

instance (u : ExecUnit) (d : RsDispatch Roles) : Decidable (DispatchWakeups P s i u d) :=
  inferInstanceAs (Decidable (_ -> forall _second, _ -> forall file, file ∈ regFiles -> _ -> _))

instance : Decidable (SoundCycle P s i) :=
  inferInstanceAs (Decidable (
    (forall u, u ∈ units -> _ -> (forall k, k < _ -> _) ∧ _ ∧ _) ∧
      (_ ∧ forall r, r ∈ s.grants P i -> _ ∧ _ ∧ _) ∧ (_ -> _) ∧ (_ -> _ -> _)))

end Decidable

/-!
# Soundness

The invariant: what is owed is not valid and is owed once, ready sources are
valid, and the registers behind the vector map are valid or owed.
-/

structure Sound (P : Params) (s : Core) : Prop where
  units : UnitsOk s
  undone : forall p r, p ∈ positions P -> s.owes p = some r -> r ≠ PReg.zero ->
    s.fileValid r = false
  unique : forall p q r, p ∈ positions P -> q ∈ positions P -> s.owes p = some r ->
    s.owes q = some r -> r ≠ PReg.zero -> p = q
  ready : forall u k second file, k < (stationCfg P u).entries ->
    ((s.station u).entry k).valid = true ->
    ((s.station u).entry k).data.reads second = some file ->
    ((s.station u).entry k).srcReady second = true ->
    s.fileValid { file := file, num := ((s.station u).entry k).srcPreg second } = true
  vecMapped : forall a, a < numAregs ->
    s.fileValid { file := .vec, num := s.ratVec.specMap a } = true ∨
      Owed P s { file := .vec, num := s.ratVec.specMap a }
  mask : MaskWaits P s -> s.fileValid s.maskReg = true

theorem fileValid_step_of_written {r : PReg} (h : Written P s r) :
    (s.step P i).fileValid r = true := by
  by_cases hr : r = PReg.zero
  · rw [hr]
    exact fileValid_zero _
  · exact (fileValid_step hr).mpr (Or.inl h)

theorem fileValid_step_of_kept {r : PReg} (h : KeptValid P s i r) :
    (s.step P i).fileValid r = true := by
  by_cases hr : r = PReg.zero
  · rw [hr]
    exact fileValid_zero _
  · exact (fileValid_step hr).mpr (Or.inr h)

/-!
# Destinations of the dispatched instructions
-/

theorem isVecArith_class (h : s.isVecArith P = true) : s.isVecLs P = false := by
  have hload := Isa.control_shape xlen (s.instWord P)
    (p := fun c => c.isVecArith = true -> c.isVecLoad = false ∧ c.isVecStore = false)
    (by decide) h
  simp [isVecLs, isVecLoad, isVecStore, ctrl, hload.left, hload.right]

/--
The one unit whose station records the renamed destination of slot 0 in a file.
-/
def writer (P : Params) (s : Core) : RegFile -> ExecUnit
  | .int => if s.isMemOp P then .lsq else if s.isDivOp P then .div else .alu
  | .float => if s.isFpMulticycle P then .fdiv else .falu
  | .vec => if s.isVecArith P then .valu else .vlsu

theorem some_of_ite {en : Bool} {slot : Option Nat} {k : Nat}
    (h : (if en then slot else none) = some k) : en = true ∧ slot = some k := by
  cases en with
  | true => exact ⟨rfl, h⟩
  | false => simp at h

/--
A renamed destination of slot 0 is granted in this cycle, in the integer file by
the first port, and is recorded in one station only.
-/
theorem enters0_dest {k : Nat} {r : PReg} (h : s.enters0 P i u = some k)
    (hdest : s.dest0 P i u = some r) (hr : r ≠ PReg.zero) :
    (((s.doDispatch P i && s.needsDest P) = true ∧ r = ⟨.int, s.flAllocPreg0⟩) ∨
        (r.file ≠ .int ∧ r ∈ s.grants P i)) ∧
      u = s.writer P r.file := by
  rw [mem_grants]
  have hint : r = { file := .int, num := s.intDestPreg P } -> s.doDispatch P i = true ->
      (s.doDispatch P i && s.needsDest P) = true ∧ r = ⟨.int, s.flAllocPreg0⟩ := by
    intro heq hgo
    cases hneeds : s.needsDest P with
    | false =>
        rw [intDestPreg, hneeds, if_neg Bool.false_ne_true] at heq
        exact absurd heq hr
    | true =>
        rw [intDestPreg, hneeds, if_pos rfl] at heq
        exact ⟨by rw [hgo]; rfl, heq⟩
  cases u with
  | alu =>
      have hen := (some_of_ite h).left
      simp only [rsAluDispEn0, Bool.and_eq_true, Bool.not_eq_true'] at hen
      have heq : r = { file := .int, num := s.intDestPreg P } := by
        cases hdest
        rfl
      refine ⟨Or.inl (hint heq hen.left.left.left), ?_⟩
      rw [heq]
      simp [writer, hen.left.left.right, hen.left.right]
  | lsq =>
      have hen := (some_of_ite h).left
      simp only [Bool.and_eq_true] at hen
      have heq : r = { file := .int, num := s.intDestPreg P } := by
        unfold dest0 at hdest
        by_cases hkind : s.lsqOpType P ≠ .store
        · rw [if_pos hkind] at hdest
          exact (Option.some.inj hdest).symm
        · rw [if_neg hkind] at hdest
          exact absurd hdest (by simp)
      refine ⟨Or.inl (hint heq hen.left), ?_⟩
      rw [heq]
      simp [writer, hen.right]
  | div =>
      have hen := (some_of_ite h).left
      simp only [Bool.and_eq_true] at hen
      have heq : r = { file := .int, num := s.intDestPreg P } := by
        cases hdest
        rfl
      refine ⟨Or.inl (hint heq hen.left), ?_⟩
      rw [heq]
      simp [writer, (isDivOp_class hen.right).left, hen.right]
  | falu =>
      have hen := (some_of_ite h).left
      simp only [Bool.and_eq_true, Bool.not_eq_true'] at hen
      cases hdest
      refine ⟨Or.inr ⟨RegFile.noConfusion, Or.inr (Or.inr (Or.inl ⟨?_, rfl⟩))⟩, ?_⟩
      · simp [hen.left.left, hen.left.right]
      · simp [writer, hen.right]
  | fdiv =>
      have hen := (some_of_ite h).left
      simp only [Bool.and_eq_true] at hen
      cases hdest
      refine ⟨Or.inr ⟨RegFile.noConfusion, Or.inr (Or.inr (Or.inl ⟨?_, rfl⟩))⟩, ?_⟩
      · simp [hen.left, isFpOp, hen.right]
      · simp [writer, hen.right]
  | valu =>
      have hen := (some_of_ite h).left
      simp only [Bool.and_eq_true] at hen
      cases hdest
      refine ⟨Or.inr ⟨RegFile.noConfusion, Or.inr (Or.inr (Or.inr ⟨?_, rfl⟩))⟩, ?_⟩
      · simp [hen.left, isVecDest, hen.right]
      · simp [writer, hen.right]
  | vlsu =>
      have hen := (some_of_ite h).left
      simp only [Bool.and_eq_true] at hen
      have harith : s.isVecArith P = false := by
        apply Bool.eq_false_iff.mpr
        intro harith
        simp [isVecArith_class harith] at hen
      have hload : s.isVecStore P = false ∧ r = ⟨.vec, s.flVAllocPreg0⟩ := by
        change (if s.isVecStore P then none else some RegFile.vec).map
          (fun file => PReg.mk file s.flVAllocPreg0) = some r at hdest
        cases hstore : s.isVecStore P with
        | true => simp [hstore] at hdest
        | false =>
            rw [hstore] at hdest
            cases hdest
            exact ⟨rfl, rfl⟩
      have hls := hen.right
      simp only [isVecLs, hload.left, Bool.or_false] at hls
      refine ⟨Or.inr ⟨?_, Or.inr (Or.inr (Or.inr ⟨?_, hload.right⟩))⟩, ?_⟩
      · rw [hload.right]
        exact RegFile.noConfusion
      · simp [hen.left, isVecDest, hls]
      · rw [hload.right]
        simp [writer, harith]

theorem grant_of_enters0 {k : Nat} {r : PReg} (h : s.enters0 P i u = some k)
    (hdest : s.dest0 P i u = some r) (hr : r ≠ PReg.zero) :
    r ∈ s.grants P i := by
  rcases (enters0_dest h hdest hr).left with hint | ⟨_, hgrant⟩
  · exact mem_grants.mpr (Or.inl hint)
  · exact hgrant

theorem enters1_dest {k : Nat} (h : s.enters1 P i .alu = some k)
    (hr : PReg.mk .int (s.intDestPreg1 P) ≠ PReg.zero) :
    s.intDestPreg1 P = s.flAllocPreg1 P ∧
      (s.doDispatchSlot1 P i && s.needsDest1 P) = true := by
  have hgo := (enters1_alu h).right
  cases hneeds : s.needsDest1 P with
  | false =>
      rw [intDestPreg1, hneeds, if_neg Bool.false_ne_true] at hr
      exact absurd rfl hr
  | true =>
      rw [intDestPreg1, hneeds, if_pos rfl]
      exact ⟨rfl, by rw [hgo]; rfl⟩

section Edge

variable (h : Sound P s) (hcycle : SoundCycle P s i)

include h

theorem owed_of_written {r : PReg} (hw : Written P s r) :
    exists p, p ∈ positions P ∧ s.owes p = some r ∧ Completes P s i p := by
  rcases hw with ⟨u, _, hu⟩
  exact completes_of_broadcast h.units hu

include hcycle

omit h in
theorem not_owed_of_grant {p : Pos} {r : PReg} (hr : r ∈ s.grants P i)
    (hp : p ∈ positions P) :
    s.owes p ≠ some r := by
  intro howes
  exact (hcycle.right.left.right r hr).left ⟨p, hp, howes⟩

/--
A register granted in this cycle is not valid afterwards.
-/
theorem grant_invalid {r : PReg} (hr : r ∈ s.grants P i) (hzero : r ≠ PReg.zero) :
    (s.step P i).fileValid r = false := by
  apply Bool.eq_false_iff.mpr
  intro hvalid
  rcases (fileValid_step hzero).mp hvalid with hwritten | ⟨_, hnot⟩
  · rcases owed_of_written (i := i) h hwritten with ⟨p, hp, howes, _⟩
    exact not_owed_of_grant hcycle hr hp howes
  · exact hnot hr

theorem undone_step {p : Pos} {r : PReg} (hp : p ∈ positions P)
    (howes : (s.step P i).owes p = some r) (hzero : r ≠ PReg.zero) :
    (s.step P i).fileValid r = false := by
  rcases owes_step h.units hp howes with
    ⟨q, hq, hold, hstay, _⟩ | ⟨v, k, _, henters, hdest⟩ | ⟨k, _, henters, rfl⟩
  · apply Bool.eq_false_iff.mpr
    intro hvalid
    rcases (fileValid_step hzero).mp hvalid with hwritten | ⟨hvalid, _⟩
    · -- Only the operation that owes the register writes it, and it then leaves.
      rcases owed_of_written (i := i) h hwritten with ⟨c, hc, hcowes, hcompletes⟩
      exact hstay (h.unique c q r hc hq hcowes hold hzero ▸ hcompletes)
    · rw [h.undone q r hq hold hzero] at hvalid
      exact absurd hvalid Bool.false_ne_true
  · exact grant_invalid h hcycle (grant_of_enters0 henters hdest hzero) hzero
  · rcases enters1_dest henters hzero with ⟨hdest, hgo⟩
    apply grant_invalid h hcycle _ hzero
    rw [hdest, mem_grants]
    exact Or.inr (Or.inl ⟨hgo, rfl⟩)

omit h in
theorem grants_distinct (h0 : (s.doDispatch P i && s.needsDest P) = true)
    (h1 : (s.doDispatchSlot1 P i && s.needsDest1 P) = true) :
    s.flAllocPreg0 ≠ s.flAllocPreg1 P := by
  intro heq
  have hnodup := hcycle.right.left.left
  unfold grants at hnodup
  rw [h0, h1, heq] at hnodup
  simp at hnodup

theorem unique_owes_step {p q : Pos} {r : PReg} (hp : p ∈ positions P)
    (hq : q ∈ positions P) (hpr : (s.step P i).owes p = some r)
    (hqr : (s.step P i).owes q = some r) (hzero : r ≠ PReg.zero) :
    p = q := by
  have hfresh0 : forall {c : Pos} {v : ExecUnit} {k : Nat}, c ∈ positions P ->
      s.owes c = some r -> s.enters0 P i v = some k -> s.dest0 P i v = some r -> False := by
    intro c v k hc howes henters hdest
    exact not_owed_of_grant hcycle (grant_of_enters0 henters hdest hzero) hc howes
  have hslot1 : forall {k : Nat}, s.enters1 P i .alu = some k ->
      r = { file := .int, num := s.intDestPreg1 P } ->
      (s.doDispatchSlot1 P i && s.needsDest1 P) = true ∧ r = ⟨.int, s.flAllocPreg1 P⟩ := by
    intro k henters heq
    rcases enters1_dest henters (heq ▸ hzero) with ⟨hdest, hgo⟩
    exact ⟨hgo, by rw [heq, hdest]⟩
  have hfresh1 : forall {c : Pos} {k : Nat}, c ∈ positions P -> s.owes c = some r ->
      s.enters1 P i .alu = some k -> r = { file := .int, num := s.intDestPreg1 P } ->
      False := by
    intro c k hc howes henters heq
    apply not_owed_of_grant hcycle _ hc howes
    exact mem_grants.mpr (Or.inr (Or.inl (hslot1 henters heq)))
  have hboth : forall {v : ExecUnit} {k l : Nat}, s.enters0 P i v = some k ->
      s.dest0 P i v = some r -> s.enters1 P i .alu = some l ->
      r = { file := .int, num := s.intDestPreg1 P } -> False := by
    intro v k l henters hdest henters1 heq
    rcases hslot1 henters1 heq with ⟨hgo1, hr⟩
    rcases (enters0_dest henters hdest hzero).left with ⟨hgo0, hsame⟩ | ⟨hfile, _⟩
    · rw [hsame] at hr
      exact grants_distinct hcycle hgo0 hgo1 (congrArg PReg.num hr)
    · exact hfile (by rw [heq])
  rcases owes_step h.units hp hpr with
    ⟨p0, hp0, hpold, _, hpnext⟩ | ⟨v, k, rfl, henters, hdest⟩ | ⟨k, rfl, henters, heq⟩
  · rcases owes_step h.units hq hqr with
      ⟨q0, hq0, hqold, _, hqnext⟩ | ⟨v, k, rfl, henters, hdest⟩ | ⟨k, rfl, henters, heq⟩
    · rw [hpnext, hqnext, h.unique p0 q0 r hp0 hq0 hpold hqold hzero]
    · exact (hfresh0 hp0 hpold henters hdest).elim
    · exact (hfresh1 hp0 hpold henters heq).elim
  · rcases owes_step h.units hq hqr with
      ⟨q0, hq0, hqold, _, _⟩ | ⟨v', k', rfl, henters', hdest'⟩ | ⟨k', rfl, henters', heq⟩
    · exact (hfresh0 hq0 hqold henters hdest).elim
    · have hv : v = v' := by
        rw [(enters0_dest henters hdest hzero).right,
          (enters0_dest henters' hdest' hzero).right]
      subst hv
      rw [henters] at henters'
      cases henters'
      rfl
    · exact (hboth henters hdest henters' heq).elim
  · rcases owes_step h.units hq hqr with
      ⟨q0, hq0, hqold, _, _⟩ | ⟨v', k', rfl, henters', hdest'⟩ | ⟨k', rfl, henters', _⟩
    · exact (hfresh1 hq0 hqold henters heq).elim
    · exact (hboth henters' hdest' henters heq).elim
    · rw [henters] at henters'
      cases henters'
      rfl

/-!
# Ready sources stay valid
-/

omit h in
theorem kept_of_readBy {r : PReg} (hvalid : s.fileValid r = true) (hread : ReadBy P s r) :
    (s.step P i).fileValid r = true :=
  fileValid_step_of_kept ⟨hvalid, fun hr => (hcycle.right.left.right r hr).right.left hread⟩

omit h in
theorem kept_of_mapped {r : PReg} (hvalid : s.fileValid r = true) (hmapped : Mapped s r) :
    (s.step P i).fileValid r = true :=
  fileValid_step_of_kept ⟨hvalid, fun hr => (hcycle.right.left.right r hr).right.right hmapped⟩

omit h hcycle in
theorem fileValid_step_of_ownPorts (hu : u ≠ .lsq) {second : Bool} {file : RegFile} {p : Nat}
    (hown : OwnPorts P s i u second file p)
    (hhit : ReservationStation.cdbHit ((stationCfg P u).portMask second)
      (s.stationIn P i u).cdb p = true) :
    (s.step P i).fileValid { file := file, num := p } = true := by
  rcases mem_heard_of_cdbHit hu hhit with ⟨file', hheard⟩
  rcases hown _ hheard rfl with hsame | hkept
  · have hwritten := written_of_heard hheard
    rw [<- hsame]
    exact fileValid_step_of_written hwritten
  · exact fileValid_step_of_kept hkept

omit h hcycle in
theorem mem_regFiles (file : RegFile) : file ∈ regFiles := by
  cases file <;> decide

omit h hcycle in
theorem newEntry_srcReady (cfg : RsConfig) (cdb : List (Option Nat)) (d : RsDispatch Roles)
    (second : Bool) :
    (ReservationStation.newEntry cfg cdb d).srcReady second =
      (d.srcReady second ||
        ReservationStation.cdbHit (cfg.portMask second) cdb (d.srcPreg second)) := by
  cases second <;> rfl

omit h hcycle in
theorem newEntry_srcPreg (cfg : RsConfig) (cdb : List (Option Nat)) (d : RsDispatch Roles)
    (second : Bool) :
    (ReservationStation.newEntry cfg cdb d).srcPreg second = d.srcPreg second := by
  cases second <;> rfl

omit h hcycle in
theorem wakeup_srcReady (cfg : RsConfig) (cdb : List (Option Nat)) (e : RsEntry Roles)
    (second : Bool) :
    (ReservationStation.wakeup cfg cdb e).srcReady second =
      (e.srcReady second || (e.valid &&
        ReservationStation.cdbHit (cfg.portMask second) cdb (e.srcPreg second))) := by
  cases second <;> rfl

omit h hcycle in
theorem wakeup_srcPreg (cfg : RsConfig) (cdb : List (Option Nat)) (e : RsEntry Roles)
    (second : Bool) :
    (ReservationStation.wakeup cfg cdb e).srcPreg second = e.srcPreg second := by
  cases second <;> rfl

omit h hcycle in
/--
What the readiness bit of a dispatched source stands for.
-/
def SourceOk (P : Params) (s : Core) (r : PReg) : Prop :=
  r = PReg.zero ∨ Written P s r ∨ (s.fileValid r = true ∧ Mapped s r)

omit h in
theorem fileValid_step_of_sourceOk {r : PReg} (hok : SourceOk P s r) :
    (s.step P i).fileValid r = true := by
  rcases hok with rfl | hwritten | ⟨hvalid, hmapped⟩
  · exact fileValid_zero _
  · exact fileValid_step_of_written hwritten
  · exact kept_of_mapped hcycle hvalid hmapped

omit h hcycle in
theorem int_sourceOk {a : Nat} (ha : a < numAregs)
    (hvalid : s.prfRvalid P i (s.rat.rpreg true a) = true) :
    SourceOk P s { file := .int, num := s.rat.rpreg true a } := by
  by_cases hzero : a = 0
  · left
    simp [RegisterAliasTable.rpreg, hzero, PReg.zero]
  · right
    have hpreg : s.rat.rpreg true a = s.rat.specMap a := by
      simp [RegisterAliasTable.rpreg, hzero]
    have hmapped : Mapped s { file := .int, num := s.rat.rpreg true a } :=
      ⟨a, ha, hpreg.symm⟩
    simp only [prfRvalid, PhysicalRegisterFile.rvalid, Bool.true_and, Bool.or_eq_true,
      decide_eq_true_eq, List.any_eq_true, PhysicalRegisterFile.hit, Bool.and_eq_true] at hvalid
    rcases hvalid with (hp | ⟨port, hport, hen, haddr⟩) | hvalid
    · exact Or.inr ⟨by simp [fileValid, hp], hmapped⟩
    · left
      rw [written_iff]
      simp only [prfWrites, List.mem_cons, List.not_mem_nil, or_false] at hport
      rcases hport with rfl | rfl | rfl
      · left
        exact whenValid_iff.mpr ⟨hen, haddr⟩
      · right
        left
        exact whenValid_iff.mpr ⟨hen, haddr⟩
      · right
        right
        exact whenValid_iff.mpr ⟨hen, haddr⟩
    · exact Or.inr ⟨by simp [fileValid, hvalid], hmapped⟩

omit h hcycle in
theorem float_sourceOk {a : Nat} (ha : a < numAregs)
    (hvalid : s.prfFloatRvalid P i (s.ratFloat.rpreg false a) = true) :
    SourceOk P s { file := .float, num := s.ratFloat.rpreg false a } := by
  right
  simp only [prfFloatRvalid, PhysicalRegisterFile.rvalid, Bool.false_and, Bool.false_or,
    Bool.or_eq_true, List.any_eq_true, PhysicalRegisterFile.hit, Bool.and_eq_true,
    decide_eq_true_eq] at hvalid
  rcases hvalid with ⟨port, hport, hen, haddr⟩ | hvalid
  · left
    rw [written_iff]
    simp only [prfFloatWrites, List.mem_cons, List.not_mem_nil, or_false] at hport
    rcases hport with rfl | rfl
    · left
      exact whenValid_iff.mpr ⟨hen, haddr⟩
    · right
      exact whenValid_iff.mpr ⟨hen, haddr⟩
  · exact Or.inr ⟨hvalid, a, ha, rfl⟩

omit h hcycle in
theorem vec_sourceOk {a : Nat} (ha : a < numAregs)
    (hvalid : s.prfVecRvalid (s.ratVec.rpreg false a) = true) :
    SourceOk P s { file := .vec, num := s.ratVec.rpreg false a } := by
  right
  simp only [prfVecRvalid, PhysicalRegisterFile.rvalid, Bool.false_and, Bool.false_or,
    Bool.or_eq_true, List.any_eq_true, PhysicalRegisterFile.hit, Bool.and_eq_true,
    decide_eq_true_eq] at hvalid
  rcases hvalid with ⟨port, hport, hen, haddr⟩ | hvalid
  · left
    rw [written_iff]
    simp only [prfVecWrites, List.mem_cons, List.not_mem_nil, or_false] at hport
    rcases hport with rfl | rfl
    · left
      exact whenValid_iff.mpr ⟨hen, haddr⟩
    · right
      exact whenValid_iff.mpr ⟨hen, haddr⟩
  · exact Or.inr ⟨hvalid, a, ha, rfl⟩

omit h hcycle in
theorem disp0_sourceOk (hu : u ≠ .lsq) {second : Bool} {file : RegFile}
    (hreads : (s.stationIn P i u).disp0.data.reads second = some file)
    (hready : (s.stationIn P i u).disp0.srcReady second = true) :
    SourceOk P s
      { file := file, num := (s.stationIn P i u).disp0.srcPreg second } := by
  have hrs1 : s.rs1Areg P < numAregs := (s.instWord P).rs1.isLt
  have hrs2 : s.rs2Areg P < numAregs := (s.instWord P).rs2.isLt
  have hvs2 : s.vecVs2Areg P < numAregs := BitVec.isLt _
  have hvs1 : s.vecVs1Areg P < numAregs := BitVec.isLt _
  have hvd : s.vecVdAreg P < numAregs := BitVec.isLt _
  cases u with
  | lsq => exact absurd rfl hu
  | alu =>
      cases second with
      | false =>
          cases hreads
          exact int_sourceOk hrs1 hready
      | true =>
          cases hreads
          exact int_sourceOk hrs2 hready
  | div =>
      cases second with
      | false =>
          cases hreads
          exact int_sourceOk hrs1 hready
      | true =>
          cases hreads
          exact int_sourceOk hrs2 hready
  | fdiv =>
      cases second with
      | false =>
          cases hreads
          exact float_sourceOk hrs1 hready
      | true =>
          change (if true && s.isFpSqrt P then none else some RegFile.float) = some file at hreads
          change (if s.isFpSqrt P then true else s.prfFloatRvalid P i (s.ratFRpreg1 P)) = true
            at hready
          cases hsqrt : s.isFpSqrt P with
          | true => simp [hsqrt] at hreads
          | false =>
              rw [hsqrt] at hreads hready
              cases hreads
              exact float_sourceOk hrs2 hready
  | falu =>
      cases second with
      | false =>
          change (if s.isFpIntmove P then if false then none else some RegFile.int
            else some RegFile.float) = some file at hreads
          change (if s.isFpIntmove P then s.prfRvalid P i (s.ratRpreg0 P)
            else s.prfFloatRvalid P i (s.ratFRpreg0 P)) = true at hready
          change SourceOk P s
            { file := file, num := if s.isFpIntmove P then s.ratRpreg0 P else s.ratFRpreg0 P }
          cases hmove : s.isFpIntmove P with
          | true =>
              rw [hmove] at hreads hready
              cases hreads
              exact int_sourceOk hrs1 hready
          | false =>
              rw [hmove] at hreads hready
              cases hreads
              exact float_sourceOk hrs1 hready
      | true =>
          change (if s.isFpIntmove P then if true then none else some RegFile.int
            else some RegFile.float) = some file at hreads
          change (if s.isFpIntmove P then true
            else s.prfFloatRvalid P i (s.ratFRpreg1 P)) = true at hready
          cases hmove : s.isFpIntmove P with
          | true => simp [hmove] at hreads
          | false =>
              rw [hmove] at hreads hready
              cases hreads
              exact float_sourceOk hrs2 hready
  | valu =>
      cases second with
      | false =>
          cases hreads
          exact vec_sourceOk hvs2 hready
      | true =>
          change (if true && s.vecArithUseScalar P then
            if s.vecArithIsVi P then none else some RegFile.int else some RegFile.vec) =
              some file at hreads
          change (if s.vecArithIsVi P then true else if s.vecArithIsVx P then
            s.prfRvalid P i (s.ratRpreg0 P) else s.prfVecRvalid (s.ratVRpreg1 P)) = true
              at hready
          change SourceOk P s (PReg.mk file
            (if s.vecArithUseScalar P then s.ratRpreg0 P else s.ratVRpreg1 P))
          rw [vecArithUseScalar] at hreads ⊢
          cases hvi : s.vecArithIsVi P with
          | true => simp [hvi] at hreads
          | false =>
              cases hvx : s.vecArithIsVx P with
              | true =>
                  rw [hvi, hvx] at hreads hready
                  cases hreads
                  exact int_sourceOk hrs1 hready
              | false =>
                  rw [hvi, hvx] at hreads hready
                  cases hreads
                  exact vec_sourceOk hvs1 hready
  | vlsu =>
      cases second with
      | false =>
          cases hreads
          exact int_sourceOk hrs1 hready
      | true =>
          change (if true then if s.isVecStore P then some RegFile.vec else none
            else some RegFile.int) = some file at hreads
          change (if s.isVecStore P then s.prfVecRvalid (s.ratVRpregVs3 P) else true) = true
            at hready
          change SourceOk P s
            { file := file, num := if s.isVecStore P then s.ratVRpregVs3 P else 0 }
          cases hstore : s.isVecStore P with
          | false => simp [hstore] at hreads
          | true =>
              rw [hstore] at hreads hready
              cases hreads
              exact vec_sourceOk hvd hready

omit h hcycle in
theorem disp1_sourceOk {second : Bool} {file : RegFile}
    (hreads : (s.stationIn P i .alu).disp1.data.reads second = some file)
    (hready : (s.stationIn P i .alu).disp1.srcReady second = true) :
    SourceOk P s
      { file := file, num := (s.stationIn P i .alu).disp1.srcPreg second } := by
  have hrs1 : s.rs1Areg1 P < numAregs := (s.instWord1 P).rs1.isLt
  have hrs2 : s.rs2Areg1 P < numAregs := (s.instWord1 P).rs2.isLt
  cases hreads
  cases second with
  | false =>
      change (if s.slot1Src1FromSlot0 P then false else s.prfRvalid P i (s.ratRpreg2 P)) = true
        at hready
      change SourceOk P s (PReg.mk .int
        (if s.slot1Src1FromSlot0 P then s.flAllocPreg0 else s.ratRpreg2 P))
      cases hfrom : s.slot1Src1FromSlot0 P with
      | true => simp [hfrom] at hready
      | false =>
          rw [hfrom] at hready
          exact int_sourceOk hrs1 hready
  | true =>
      change (if s.slot1Src2FromSlot0 P then false else s.prfRvalid P i (s.ratRpreg3 P)) = true
        at hready
      change SourceOk P s (PReg.mk .int
        (if s.slot1Src2FromSlot0 P then s.flAllocPreg0 else s.ratRpreg3 P))
      cases hfrom : s.slot1Src2FromSlot0 P with
      | true => simp [hfrom] at hready
      | false =>
          rw [hfrom] at hready
          exact int_sourceOk hrs2 hready

omit h in
/--
A source that is ready on entering a station is valid after the edge.
-/
theorem entering_ready (hu : u ≠ .lsq) {d : RsDispatch Roles} {second : Bool}
    {file : RegFile} (hen : d.en = true) (hwake : DispatchWakeups P s i u d)
    (hok : d.srcReady second = true ->
      SourceOk P s { file := file, num := d.srcPreg second })
    (hreads : d.data.reads second = some file)
    (hready : (ReservationStation.newEntry (stationCfg P u) (s.stationIn P i u).cdb
      d).srcReady second = true) :
    (s.step P i).fileValid { file := file, num := d.srcPreg second } = true := by
  rw [newEntry_srcReady] at hready
  cases hd : d.srcReady second with
  | true => exact fileValid_step_of_sourceOk hcycle (hok hd)
  | false =>
      rw [hd, Bool.false_or] at hready
      exact fileValid_step_of_ownPorts hu
        (hwake hen second hd file (mem_regFiles file) hreads) hready

theorem ready_step {k : Nat} {second : Bool} {file : RegFile}
    (hk : k < (stationCfg P u).entries)
    (hvalid : (((s.step P i).station u).entry k).valid = true)
    (hreads : (((s.step P i).station u).entry k).data.reads second = some file)
    (hready : (((s.step P i).station u).entry k).srcReady second = true) :
    (s.step P i).fileValid
      { file := file, num := (((s.step P i).station u).entry k).srcPreg second } = true := by
  have hu := not_lsq_of_slot hk
  have hown := hcycle.left u (mem_units u) hu
  rcases station_step_cases hk hvalid with
    ⟨hold, _, hentry⟩ | ⟨hen, _, hentry⟩ | ⟨hen, rfl, _, hentry⟩
  · rw [hentry] at hreads hready ⊢
    rw [wakeup_srcReady, hold, Bool.true_and] at hready
    rw [wakeup_srcPreg]
    cases hr : ((s.station u).entry k).srcReady second with
    | true =>
        apply kept_of_readBy hcycle (h.ready u k second file hk hold hreads hr)
        exact ⟨u, mem_units u, k, hk, hold, second, hreads, rfl⟩
    | false =>
        rw [hr, Bool.false_or] at hready
        exact fileValid_step_of_ownPorts hu
          (hown.left k hk hold second hr file (mem_regFiles file) hreads) hready
  · rw [hentry] at hreads hready ⊢
    rw [newEntry_srcPreg]
    exact entering_ready hcycle hu hen hown.right.left
      (fun hd => disp0_sourceOk hu hreads hd) hreads hready
  · rw [hentry] at hreads hready ⊢
    rw [newEntry_srcPreg]
    exact entering_ready hcycle hu hen hown.right.right
      (fun hd => disp1_sourceOk hreads hd) hreads hready

/-!
# The vector map
-/

omit h hcycle in
/--
A vector register that is owed is written in this cycle or owed afterwards.
-/
theorem vec_owed_step {num : Nat} (howed : Owed P s { file := .vec, num := num }) :
    Written P s { file := .vec, num := num } ∨
      Owed P (s.step P i) { file := .vec, num := num } := by
  rcases howed with ⟨q, hq, howes⟩
  have hrunning : forall {v : ExecUnit}, (s.unitStart v || s.unitBusy v) = true ->
      (s.step P i).unitWrites v = some .vec -> (s.step P i).unitDest v = num ->
      Owed P (s.step P i) { file := .vec, num := num } := by
    intro v hgo hwrites hdest
    refine ⟨.running v, mem_positions_running P v, owes_running_eq_some.mpr ?_⟩
    rw [unit_occupied_step]
    exact ⟨hgo, hwrites, hdest⟩
  cases q with
  | waiting v k =>
      by_cases hv : v = .lsq
      · subst hv
        have hkind := (lsqOwes_eq_some.mp howes).right.right
        cases hkind
      · have hk := mem_positions_waiting.mp hq
        rw [slots_of_ne hv] at hk
        rw [owes_waiting hv, stationOwes_eq_some] at howes
        rcases howes with ⟨hvalid, hwrites, hdest⟩
        by_cases hleaves : s.leavesSlot P i v = some k
        · -- Leaving a vector station means starting the unit.
          have hstart : s.unitStart v = true := by
            cases v with
            | lsq => exact absurd rfl hv
            | alu => cases hwrites
            | div => cases hwrites
            | falu => cases hwrites
            | fdiv => cases hwrites
            | valu => exact (some_of_ite hleaves).left
            | vlsu => exact (some_of_ite hleaves).left
          right
          rcases unitDest_step_of_start (P := P) (i := i) hstart with
            ⟨k', _, hleaves', _, hdest', hwrites'⟩
          rw [hleaves] at hleaves'
          cases hleaves'
          apply hrunning (v := v)
          · rw [hstart, Bool.true_or]
          · rw [hwrites', hwrites]
          · rw [hdest', hdest]
        · right
          refine ⟨.waiting v k, hq, ?_⟩
          have hne0 : ¬ ((s.stationIn P i v).disp0.en = true ∧
              (s.station v).alloc0? (stationCfg P v) = some k) := by
            rintro ⟨_, hslot⟩
            rw [(ReservationStation.alloc0_spec hslot).right] at hvalid
            exact absurd hvalid Bool.false_ne_true
          have hne1 : ¬ ((s.stationIn P i v).disp1.en = true ∧
              (s.station v).alloc1? (stationCfg P v) (s.stationIn P i v).disp0.en =
                some k) := by
            rintro ⟨_, hslot⟩
            rw [(ReservationStation.alloc1_spec hslot).right.left] at hvalid
            exact absurd hvalid Bool.false_ne_true
          have hstay : ¬ ((s.stationIn P i v).issueAck = true ∧
              (s.station v).issue? (stationCfg P v) = some k) := by
            rintro ⟨hack, hissue⟩
            rw [leavesSlot_eq hv, hack, if_pos rfl] at hleaves
            exact hleaves hissue
          rw [owes_waiting hv, stationOwes_eq_some, station_step hv,
            ReservationStation.step_entry hk, if_neg hne1, if_neg hne0, if_neg hstay]
          exact ⟨hvalid, hwrites, hdest⟩
  | running v =>
      rcases owes_running_eq_some.mp howes with ⟨hoccupied, hwrites, hdest⟩
      cases hdone : s.unitDone v with
      | true =>
          left
          cases v with
          | alu => simp [unitDone] at hdone
          | lsq => simp [unitDone] at hdone
          | falu => simp [unitDone] at hdone
          | div => cases hwrites
          | fdiv => cases hwrites
          | valu =>
              exact written_iff.mpr (Or.inl (whenValid_iff.mpr ⟨hdone, hdest⟩))
          | vlsu =>
              have hload : s.vlsuInflight.isStore = false := by
                cases hstore : s.vlsuInflight.isStore with
                | false => rfl
                | true => simp [unitWrites, hstore] at hwrites
              have hdone' : s.vlsu.done = true := hdone
              have hcomplete : s.vlsuCompleteValid = true := by
                simp [vlsuCompleteValid, hdone', hload]
              exact written_iff.mpr (Or.inr (whenValid_iff.mpr ⟨hcomplete, hdest⟩))
      | false =>
          right
          rw [hdone, Bool.or_false] at hoccupied
          have hidle : s.unitStart v = false := by
            apply Bool.eq_false_iff.mpr
            intro hstart
            cases v with
            | alu => simp [unitStart] at hstart
            | lsq => simp [unitStart] at hstart
            | falu => simp [unitStart] at hstart
            | div => cases hwrites
            | fdiv => cases hwrites
            | valu =>
                have hbusy : s.valu.busy = true := hoccupied
                simp [unitStart, valuStart, hbusy] at hstart
            | vlsu =>
                have hbusy : s.vlsu.busy = true := hoccupied
                simp [unitStart, vlsuStart, hbusy] at hstart
          have hkept := unitDest_step_of_idle (P := P) (i := i) hidle
          apply hrunning (v := v)
          · rw [hoccupied, Bool.or_true]
          · rw [hkept.right, hwrites]
          · rw [hkept.left, hdest]

omit h hcycle in
theorem isVecDest_ne (hd : s.isVecDest P = true) :
    s.isMemOp P = false ∧ s.isDivOp P = false := by
  have hmem := Isa.control_shape xlen (s.instWord P)
    (p := fun c => (c.isVecArith || c.isVecLoad) = true ->
      c.memRead = false ∧ c.memWrite = false ∧ c.isAmo = false ∧ c.aluOp ≠ .rtype)
    (by decide) hd
  rcases hmem with ⟨hread, hwrite, hamo, hop⟩
  constructor
  · simp [isMemOp, ctrl, hread, hwrite, hamo]
  · apply Bool.eq_false_iff.mpr
    intro hdiv
    exact hop (Isa.rtype_of_isDiv hdiv)

omit h hcycle in
/--
An instruction with a vector destination finds a slot in its station.
-/
theorem vec_enters (h0 : s.doDispatch P i = true) (hd : s.isVecDest P = true) :
    Owed P (s.step P i) { file := .vec, num := s.flVAllocPreg0 } := by
  have hroom := (canDispatch_of_doDispatch h0).stationRoom
  have hfp := (isVecDest_class hd).right
  rcases isVecDest_ne hd with ⟨hmem, hdiv⟩
  have hinsert : forall {v : ExecUnit} {k : Nat}, v ≠ .lsq -> v ≠ .alu ->
      (s.stationIn P i v).disp0.en = true ->
      (s.station v).alloc0? (stationCfg P v) = some k ->
      (s.stationIn P i v).disp0.data.writes = some .vec ->
      (s.stationIn P i v).disp0.destPreg = s.flVAllocPreg0 ->
      Owed P (s.step P i) { file := .vec, num := s.flVAllocPreg0 } := by
    intro v k hv halu hen hslot hwrites hdest
    have hk := (ReservationStation.alloc0_spec hslot).left
    refine ⟨.waiting v k, mem_positions_waiting.mpr ?_, ?_⟩
    · rw [slots_of_ne hv]
      exact hk
    · have hne1 : ¬ ((s.stationIn P i v).disp1.en = true ∧
          (s.station v).alloc1? (stationCfg P v) (s.stationIn P i v).disp0.en = some k) :=
        fun h1 => halu (alu_of_disp1 hv h1.left)
      rw [owes_waiting hv, stationOwes_eq_some, station_step hv,
        ReservationStation.step_entry hk, if_neg hne1, if_pos ⟨hen, hslot⟩]
      exact ⟨rfl, hwrites, hdest⟩
  cases harith : s.isVecArith P with
  | true =>
      simp only [stationFull, hmem, hdiv, hfp, harith, Bool.false_eq_true, if_false, if_true]
        at hroom
      rcases ReservationStation.exists_alloc0 hroom with ⟨k, hslot⟩
      refine hinsert (v := .valu) (k := k) (by decide) (by decide) ?_ hslot rfl rfl
      change (s.doDispatch P i && s.isVecArith P) = true
      rw [h0, harith]
      rfl
  | false =>
      have hload : s.isVecLoad P = true := by simpa [isVecDest, harith] using hd
      have hls : s.isVecLs P = true := by simp [isVecLs, hload]
      have hstore : s.isVecStore P = false :=
        Isa.control_shape xlen (s.instWord P)
          (p := fun c => c.isVecLoad = true -> c.isVecStore = false) (by decide) hload
      simp only [stationFull, hmem, hdiv, hfp, harith, hls, Bool.false_eq_true, if_false,
        if_true] at hroom
      rcases ReservationStation.exists_alloc0 hroom with ⟨k, hslot⟩
      refine hinsert (v := .vlsu) (k := k) (by decide) (by decide) ?_ hslot ?_ rfl
      · change (s.doDispatch P i && s.isVecLs P) = true
        rw [h0, hls]
        rfl
      · change (if s.isVecStore P then none else some RegFile.vec) = some RegFile.vec
        rw [hstore]
        rfl

omit h hcycle in
theorem ratVec_step (a : Nat) :
    (s.step P i).ratVec.specMap a =
      if (s.doDispatch P i && s.isVecDest P) = true ∧ a = s.vecVdAreg P then
        s.flVAllocPreg0
      else s.ratVec.specMap a := by
  change RegisterAliasTable.write false
    (RegisterAliasTable.write false s.ratVec.specMap (s.ratVW0 P i)) noWrite a = _
  by_cases hen : (s.doDispatch P i && s.isVecDest P) = true
  · by_cases ha : a = s.vecVdAreg P
    · simp [RegisterAliasTable.write, RegisterAliasTable.writes, ratVW0, noWrite, hen, ha]
    · simp [RegisterAliasTable.write, RegisterAliasTable.writes, ratVW0, noWrite, hen, ha,
        setAt_of_ne ha]
  · simp [RegisterAliasTable.write, RegisterAliasTable.writes, ratVW0, noWrite, hen]

theorem vecMapped_step {a : Nat} (ha : a < numAregs) :
    (s.step P i).fileValid { file := .vec, num := (s.step P i).ratVec.specMap a } = true ∨
      Owed P (s.step P i) { file := .vec, num := (s.step P i).ratVec.specMap a } := by
  rw [ratVec_step]
  by_cases hnew : (s.doDispatch P i && s.isVecDest P) = true ∧ a = s.vecVdAreg P
  · rw [if_pos hnew]
    rcases hnew with ⟨hen, _⟩
    rw [Bool.and_eq_true] at hen
    exact Or.inr (vec_enters hen.left hen.right)
  · rw [if_neg hnew]
    rcases h.vecMapped a ha with hvalid | howed
    · left
      exact kept_of_mapped hcycle hvalid ⟨a, ha, rfl⟩
    · rcases vec_owed_step (i := i) howed with hwritten | howed'
      · exact Or.inl (fileValid_step_of_written hwritten)
      · exact Or.inr howed'

/-!
# The mask register
-/

omit h hcycle in
theorem maskReg_step (hstable : ¬ RenamesMask P s i) : (s.step P i).maskReg = s.maskReg := by
  unfold maskReg
  rw [ratVec_step, if_neg]
  rintro ⟨hen, hzero⟩
  rw [Bool.and_eq_true] at hen
  exact hstable ⟨hen.left, hen.right, hzero.symm⟩

theorem mask_step (hwaits : MaskWaits P (s.step P i)) :
    (s.step P i).fileValid (s.step P i).maskReg = true := by
  have hmapped : Mapped s s.maskReg := ⟨0, by decide, rfl⟩
  rcases hwaits with ⟨u, _, k, hk, hvalid, hmasked⟩
  have hu := not_lsq_of_slot hk
  rcases station_step_cases hk hvalid with
    ⟨hold, _, hentry⟩ | ⟨hen, _, hentry⟩ | ⟨hen, rfl, _, hentry⟩
  · rw [hentry] at hmasked
    have hwaits : MaskWaits P s := ⟨u, mem_units u, k, hk, hold, hmasked⟩
    rw [maskReg_step (hcycle.right.right.left (Or.inl hwaits))]
    exact kept_of_mapped hcycle (h.mask hwaits) hmapped
  · rw [hentry] at hmasked
    have henters : MaskEnters P s i := ⟨u, mem_units u, hu, hen, hmasked⟩
    rw [maskReg_step (hcycle.right.right.left (Or.inr henters))]
    rcases h.vecMapped 0 (by decide) with hvalid | howed
    · exact kept_of_mapped hcycle hvalid hmapped
    · exact fileValid_step_of_written (hcycle.right.right.right henters howed)
  · rw [hentry] at hmasked
    exact absurd hmasked Bool.false_ne_true

theorem sound_step : Sound P (s.step P i) := by
  constructor
  · exact unitsOk_step h.units
  · intro p r hp howes hzero
    exact undone_step h hcycle hp howes hzero
  · intro p q r hp hq hpr hqr hzero
    exact unique_owes_step h hcycle hp hq hpr hqr hzero
  · intro u k second file hk hvalid hreads hready
    exact ready_step h hcycle hk hvalid hreads hready
  · intro a ha
    exact vecMapped_step h hcycle ha
  · exact mask_step h hcycle

end Edge

/-!
# Runs
-/

theorem owes_reset {p : Pos} (hp : p ∈ positions P) : (s.reset P).owes p = none := by
  cases p with
  | waiting u k =>
      have hk := mem_positions_waiting.mp hp
      by_cases hu : u = .lsq
      · subst hu
        have hvalid : ((s.reset P).lsq.entry k).valid = false := by
          change (s.lsq.reset.entry k).valid = false
          have hk' : k < LoadStoreQueue.entries := hk
          simp [LoadStoreQueue.reset, hk']
        simp [owes, lsqOwes, hvalid]
      · rw [slots_of_ne hu] at hk
        rw [owes_waiting hu]
        have hvalid : (((s.reset P).station u).entry k).valid = false :=
          station_reset_valid hk
        simp [stationOwes, hvalid]
  | running u =>
      have hidle : ((s.reset P).unitBusy u || (s.reset P).unitDone u) = false := by
        cases u <;> rfl
      simp [owes, hidle]

theorem sound_reset (hvalid : P.Valid) (s : Core) : Sound P (s.reset P) := by
  have hroom := hvalid.vecRoom
  constructor
  · exact Traced.unitsOk_reset s
  · intro p r hp howes
    rw [owes_reset hp] at howes
    exact absurd howes (by simp)
  · intro p q r hp _ howes
    rw [owes_reset hp] at howes
    exact absurd howes (by simp)
  · intro u k second file hk hvalid
    rw [station_reset_valid hk] at hvalid
    exact absurd hvalid Bool.false_ne_true
  · intro a ha
    left
    change (if (s.ratVec.reset numAregs).specMap a < P.numVpregs then
      decide ((s.ratVec.reset numAregs).specMap a < numAregs) else _) = true
    have hmap : (s.ratVec.reset numAregs).specMap a = a := if_pos ha
    rw [hmap, if_pos (Nat.lt_trans ha hroom)]
    exact decide_eq_true ha
  · rintro ⟨u, _, k, hk, hvalid, _⟩
    rw [station_reset_valid hk] at hvalid
    exact absurd hvalid Bool.false_ne_true

/--
The registers that a waiting operation reads when it issues, the mask register of
a masked vector operation included.
-/
def readsAt (s : Core) (u : ExecUnit) (k : Nat) : List PReg :=
  let e := (s.station u).entry k
  ((e.data.reads false).map (fun file => PReg.mk file (e.srcPreg false))).toList ++
    ((e.data.reads true).map (fun file => PReg.mk file (e.srcPreg true))).toList ++
    (if e.data.masked then [s.maskReg] else [])

/--
A selected operation only reads registers that are valid in the file its unit
reads them from and that no operation in flight still owes.
-/
def SourcesWritten (P : Params) (s : Core) : Prop :=
  forall u k, s.selected P u = some k -> forall r, r ∈ s.readsAt u k ->
    s.fileValid r = true ∧ (r ≠ PReg.zero -> ¬ Owed P s r)

theorem sourcesWritten_of_sound (h : Sound P s) : SourcesWritten P s := by
  intro u k hselected r hr
  rcases ReservationStation.issue_spec hselected with ⟨hk, hcand⟩
  simp only [ReservationStation.candReady, Bool.and_eq_true] at hcand
  rcases hcand with ⟨⟨hvalid, hready1⟩, hready2⟩
  have hsource : forall second,
      r ∈ ((((s.station u).entry k).data.reads second).map (fun file =>
        PReg.mk file (((s.station u).entry k).srcPreg second))).toList ->
      s.fileValid r = true := by
    intro second hmem
    rcases Option.map_eq_some_iff.mp (Option.mem_toList.mp hmem) with ⟨file, hreads, rfl⟩
    apply h.ready u k second file hk hvalid hreads
    cases second with
    | false => exact hready1
    | true => exact hready2
  have hfile : s.fileValid r = true := by
    unfold readsAt at hr
    rw [List.mem_append, List.mem_append, mem_ite_singleton] at hr
    rcases hr with (hfirst | hsecond) | ⟨hmasked, rfl⟩
    · exact hsource false hfirst
    · exact hsource true hsecond
    · exact h.mask ⟨u, mem_units u, k, hk, hvalid, hmasked⟩
  refine ⟨hfile, ?_⟩
  rintro hzero ⟨p, hp, howes⟩
  rw [h.undone p r hp howes hzero] at hfile
  exact absurd hfile Bool.false_ne_true

theorem sources_written (hvalid : P.Valid) {s0 : Core}
    (hrun : ReachableWhen (step P) (SoundCycle P) (s0.reset P) s) :
    SourcesWritten P s :=
  sourcesWritten_of_sound
    (invariant_of_reachableWhen (sound_reset hvalid s0)
      (fun _ _ h hcycle => sound_step h hcycle) hrun)

/--
addi x1, x0, 5; div x3, x1, x2; fadd.s f1, f2, f3; vadd.vv v1, v2, v3.
-/
def threeFilesProgram : Params :=
  defaultParams [0x00500093, 0x0220c1b3, 0x003100d3, 0x022180d7]

def threeFilesRun : Core :=
  run (step threeFilesProgram) (powerUp.reset threeFilesProgram)
    (List.replicate 4 quietInput)

theorem sources_written_threeFiles :
    threeFilesRun.selected threeFilesProgram .valu = some 0 ∧
      SourcesWritten threeFilesProgram threeFilesRun :=
  ⟨by decide +kernel,
    sources_written (defaultParams_valid _) (reachableWhen_run (by decide +kernel))⟩

/--
lui x5, 0x3f800; fmv.w.x f2, x5; fdiv.s f1, f2, f2; fadd.s f4, f1, f1;
addi x1, x0, 1: the integer result of the last instruction has the tag of f1 and
wakes the addition while the division is still running.
-/
def sharedTagProgram : Params :=
  defaultParams [0x3f8002b7, 0xf0028153, 0x182100d3, 0x00108253, 0x00100093]

def sharedTagRun : Core :=
  run (step sharedTagProgram) (powerUp.reset sharedTagProgram)
    (List.replicate 6 quietInput)

theorem integer_tag_wakes_float_source :
    Reachable (step sharedTagProgram) (powerUp.reset sharedTagProgram) sharedTagRun ∧
      sharedTagRun.unitBusy .fdiv = true ∧
      ¬ SourcesWritten sharedTagProgram sharedTagRun := by
  refine ⟨reachable_run _ _, by decide +kernel, ?_⟩
  intro hwritten
  have hvalid := (hwritten .falu 0 (by decide +kernel) { file := .float, num := 33 }
    (by decide +kernel)).left
  revert hvalid
  decide +kernel

end Core
end Ooo
end RvCores
