import RvCores.Ooo.Retirement

/-!
# Operands in flight

The stations differ in their payloads and in the register files their functional
units read and write.  This module gives them one view: every waiting operation
reads up to two registers and writes at most one, each in a named file, and every
broadcast port carries a register of a named file.
-/

namespace RvCores
namespace Ooo

open Lib

inductive RegFile where
  | int
  | float
  | vec
deriving DecidableEq, Repr

structure PReg where
  file : RegFile
  num : Nat
deriving DecidableEq, Repr

/--
Integer register 0 reads as zero and is never allocated; operations without a
destination name it as their destination.
-/
def PReg.zero : PReg := { file := .int, num := 0 }

/--
What an operation does with the register numbers of its station entry.  The
argument of `reads` selects the second source.
-/
structure Roles where
  reads : Bool -> Option RegFile
  writes : Option RegFile
  masked : Bool

def intRoles : Roles :=
  { reads := fun _ => some .int, writes := some .int, masked := false }

/--
A square root has no second operand.
-/
def fdivRoles (d : FdivPayload) : Roles :=
  { reads := fun second => if second && d.isSqrt then none else some .float
    writes := some .float
    masked := false }

/--
A move from an integer register reads its one operand in the integer file.
-/
def faluRoles (d : FaluPayload) : Roles :=
  { reads := fun second =>
      if d.isIntmove then if second then none else some .int else some .float
    writes := some .float
    masked := false }

def valuRoles (d : ValuPayload) : Roles :=
  { reads := fun second =>
      if second && d.useScalar then if d.isVi then none else some .int else some .vec
    writes := some .vec
    masked := !d.vm }

/--
The base address is an integer; only a store reads a vector register.
-/
def vlsuRoles (d : VlsuPayload) : Roles :=
  { reads := fun second =>
      if second then if d.isStore then some .vec else none else some .int
    writes := if d.isStore then none else some .vec
    masked := !d.vm }

namespace RsEntry

def srcPreg {payload : Type} (e : RsEntry payload) (second : Bool) : Nat :=
  if second then e.src2Preg else e.src1Preg

def srcReady {payload : Type} (e : RsEntry payload) (second : Bool) : Bool :=
  if second then e.src2Ready else e.src1Ready

end RsEntry

namespace RsDispatch

def srcPreg {payload : Type} (d : RsDispatch payload) (second : Bool) : Nat :=
  if second then d.src2Preg else d.src1Preg

def srcReady {payload : Type} (d : RsDispatch payload) (second : Bool) : Bool :=
  if second then d.src2Ready else d.src1Ready

end RsDispatch

def RsConfig.portMask (cfg : RsConfig) (second : Bool) : List Bool :=
  if second then cfg.src2PortMask else cfg.src1PortMask

namespace Core

open Isa Block

/-!
# The stations
-/

/--
The load-store queue is not a station: its view has no slots.
-/
def stationCfg (P : Params) : ExecUnit -> RsConfig
  | .alu => P.rsAluCfg
  | .lsq => { entries := 0, src1PortMask := [], src2PortMask := [] }
  | .div => rsDivCfg
  | .falu => P.rsFaluCfg
  | .fdiv => rsFdivCfg
  | .valu => rsValuCfg
  | .vlsu => rsVlsuCfg

def station (s : Core) : ExecUnit -> ReservationStation Roles
  | .alu => s.rsAlu.viewAs (fun _ => intRoles)
  | .lsq => s.rsDiv.viewAs (fun _ => intRoles)
  | .div => s.rsDiv.viewAs (fun _ => intRoles)
  | .falu => s.rsFalu.viewAs faluRoles
  | .fdiv => s.rsFdiv.viewAs fdivRoles
  | .valu => s.rsValu.viewAs valuRoles
  | .vlsu => s.rsVlsu.viewAs vlsuRoles

def stationIn (P : Params) (s : Core) (i : Input) : ExecUnit -> RsIn Roles
  | .alu => (s.rsAluIn P i).viewAs (fun _ => intRoles)
  | .lsq => (s.rsDivIn P i).viewAs (fun _ => intRoles)
  | .div => (s.rsDivIn P i).viewAs (fun _ => intRoles)
  | .falu => (s.rsFaluIn P i).viewAs faluRoles
  | .fdiv => (s.rsFdivIn P i).viewAs fdivRoles
  | .valu => (s.rsValuIn P i).viewAs valuRoles
  | .vlsu => (s.rsVlsuIn P i).viewAs vlsuRoles

/--
The operation that a station selects for issue.
-/
def selected (P : Params) (s : Core) (u : ExecUnit) : Option Nat :=
  (s.station u).issue? (stationCfg P u)

/--
The broadcast ports of a station, each with the file its tags belong to.
-/
def ports (P : Params) (s : Core) : ExecUnit -> List (RegFile × Option Nat)
  | .alu => [(.int, s.aluCdb P), (.int, s.lsqCdb), (.int, s.divCdb), (.int, none)]
  | .lsq => []
  | .div => [(.int, s.aluCdb P), (.int, s.lsqCdb), (.int, s.divCdb), (.int, none)]
  | .falu => [(.float, s.faluCdb P), (.int, s.aluCdb P), (.int, s.divCdb), (.float, s.fdivCdb)]
  | .fdiv => [(.int, s.aluCdb P), (.float, s.faluCdb P), (.float, s.fdivCdb), (.int, none)]
  | .valu => [(.vec, s.valuCdb), (.int, s.aluCdb P), (.int, s.lsqCdb), (.int, s.divCdb)]
  | .vlsu => [(.vec, s.vlsuCdb), (.vec, s.valuCdb), (.int, s.aluCdb P), (.int, s.lsqCdb)]

/--
The ports that one source of a station listens to.
-/
def heard (P : Params) (s : Core) (u : ExecUnit) (second : Bool) :
    List (RegFile × Option Nat) :=
  ((((stationCfg P u).portMask second).zip (s.ports P u)).filter Prod.fst).map Prod.snd

variable {P : Params} {s : Core} {i : Input} {u : ExecUnit}

theorem station_step (hu : u ≠ .lsq) :
    (s.step P i).station u = (s.station u).step (stationCfg P u) (s.stationIn P i u) := by
  cases u with
  | lsq => exact absurd rfl hu
  | alu => exact ReservationStation.step_viewAs s.rsAlu (s.rsAluIn P i)
  | div => exact ReservationStation.step_viewAs s.rsDiv (s.rsDivIn P i)
  | falu => exact ReservationStation.step_viewAs s.rsFalu (s.rsFaluIn P i)
  | fdiv => exact ReservationStation.step_viewAs s.rsFdiv (s.rsFdivIn P i)
  | valu => exact ReservationStation.step_viewAs s.rsValu (s.rsValuIn P i)
  | vlsu => exact ReservationStation.step_viewAs s.rsVlsu (s.rsVlsuIn P i)

theorem station_reset_valid {k : Nat} (hk : k < (stationCfg P u).entries) :
    (((s.reset P).station u).entry k).valid = false := by
  cases u with
  | lsq => exact absurd hk (Nat.not_lt_zero k)
  | alu => exact ReservationStation.reset_valid s.rsAlu hk
  | div => exact ReservationStation.reset_valid s.rsDiv hk
  | falu => exact ReservationStation.reset_valid s.rsFalu hk
  | fdiv => exact ReservationStation.reset_valid s.rsFdiv hk
  | valu => exact ReservationStation.reset_valid s.rsValu hk
  | vlsu => exact ReservationStation.reset_valid s.rsVlsu hk

theorem not_lsq_of_slot {k : Nat} (hk : k < (stationCfg P u).entries) : u ≠ .lsq := by
  intro hu
  rw [hu] at hk
  exact absurd hk (Nat.not_lt_zero k)

theorem stationIn_cdb (hu : u ≠ .lsq) :
    (s.stationIn P i u).cdb = (s.ports P u).map Prod.snd := by
  cases u with
  | lsq => exact absurd rfl hu
  | _ => rfl

theorem mem_heard_of_cdbHit (hu : u ≠ .lsq) {second : Bool} {p : Nat}
    (h : ReservationStation.cdbHit ((stationCfg P u).portMask second)
      (s.stationIn P i u).cdb p = true) :
    exists file, (file, some p) ∈ s.heard P u second := by
  rw [stationIn_cdb hu, ReservationStation.cdbHit, List.any_eq_true] at h
  rcases h with ⟨⟨m, tag⟩, hmem, hhit⟩
  simp only [Bool.and_eq_true, decide_eq_true_eq] at hhit
  rcases hhit with ⟨rfl, rfl⟩
  rw [<- List.map_id ((stationCfg P u).portMask second), List.zip_map, List.mem_map] at hmem
  rcases hmem with ⟨⟨m, file, tag⟩, hzip, heq⟩
  simp only [Prod.map, id, Prod.mk.injEq] at heq
  rcases heq with ⟨rfl, rfl⟩
  refine ⟨file, List.mem_map.mpr ⟨(true, file, some p), ?_, rfl⟩⟩
  exact List.mem_filter.mpr ⟨hzip, rfl⟩

theorem mem_ports_of_mem_heard {second : Bool} {port : RegFile × Option Nat}
    (h : port ∈ s.heard P u second) :
    port ∈ s.ports P u := by
  rcases List.mem_map.mp h with ⟨⟨m, port'⟩, hmem, rfl⟩
  exact (List.of_mem_zip (List.mem_filter.mp hmem).left).right

/-!
# What is owed

An operation in flight owes the register it will write.
-/

def unitWrites (s : Core) : ExecUnit -> Option RegFile
  | .div => some .int
  | .fdiv => some .float
  | .valu => some .vec
  | .vlsu => if s.vlsuInflight.isStore then none else some .vec
  | _ => none

def unitDest (s : Core) : ExecUnit -> Nat
  | .div => s.divInflight.destPreg
  | .fdiv => s.fdivInflight.destPreg
  | .valu => s.valuInflight.destPreg
  | .vlsu => s.vlsuInflight.destPreg
  | _ => 0

def stationOwes (s : Core) (u : ExecUnit) (k : Nat) : Option PReg :=
  if ((s.station u).entry k).valid then
    ((s.station u).entry k).data.writes.map
      (fun file => { file := file, num := ((s.station u).entry k).destPreg })
  else none

def lsqOwes (s : Core) (k : Nat) : Option PReg :=
  if (s.lsq.entry k).valid && decide ((s.lsq.entry k).opType ≠ .store) then
    some { file := .int, num := (s.lsq.entry k).destPreg }
  else none

def owes (s : Core) : Pos -> Option PReg
  | .waiting .lsq k => s.lsqOwes k
  | .waiting u k => s.stationOwes u k
  | .running u =>
      if s.unitBusy u || s.unitDone u then
        (s.unitWrites u).map (fun file => { file := file, num := s.unitDest u })
      else none

def slots (P : Params) : ExecUnit -> Nat
  | .lsq => LoadStoreQueue.entries
  | u => (stationCfg P u).entries

def positions (P : Params) : List Pos :=
  units.flatMap (fun u => Pos.running u :: (List.range (slots P u)).map (Pos.waiting u))

def Owed (P : Params) (s : Core) (r : PReg) : Prop :=
  exists p, p ∈ positions P ∧ s.owes p = some r

theorem mem_positions_waiting {k : Nat} :
    Pos.waiting u k ∈ positions P ↔ k < slots P u := by
  constructor
  · intro h
    rcases List.mem_flatMap.mp h with ⟨v, _, hmem⟩
    rcases List.mem_cons.mp hmem with hrun | hmap
    · cases hrun
    · rcases List.mem_map.mp hmap with ⟨j, hj, heq⟩
      cases heq
      exact List.mem_range.mp hj
  · intro h
    refine List.mem_flatMap.mpr ⟨u, mem_units u, List.mem_cons_of_mem _ ?_⟩
    exact List.mem_map.mpr ⟨k, List.mem_range.mpr h, rfl⟩

theorem mem_positions_running (P : Params) (u : ExecUnit) :
    Pos.running u ∈ positions P :=
  List.mem_flatMap.mpr ⟨u, mem_units u, List.mem_cons_self ..⟩

theorem slots_of_ne (hu : u ≠ .lsq) : slots P u = (stationCfg P u).entries := by
  cases u with
  | lsq => exact absurd rfl hu
  | _ => rfl

theorem owes_waiting (hu : u ≠ .lsq) (k : Nat) :
    s.owes (.waiting u k) = s.stationOwes u k := by
  cases u with
  | lsq => exact absurd rfl hu
  | _ => rfl

/-!
# Broadcasts are writes
-/

def broadcast (P : Params) (s : Core) : ExecUnit -> Option PReg
  | .alu => (s.aluCdb P).map (fun p => { file := .int, num := p })
  | .lsq => s.lsqCdb.map (fun p => { file := .int, num := p })
  | .div => s.divCdb.map (fun p => { file := .int, num := p })
  | .falu => (s.faluCdb P).map (fun p => { file := .float, num := p })
  | .fdiv => s.fdivCdb.map (fun p => { file := .float, num := p })
  | .valu => s.valuCdb.map (fun p => { file := .vec, num := p })
  | .vlsu => s.vlsuCdb.map (fun p => { file := .vec, num := p })

def Written (P : Params) (s : Core) (r : PReg) : Prop :=
  exists u, u ∈ units ∧ s.broadcast P u = some r

theorem written_of_broadcast {r : PReg} (h : s.broadcast P u = some r) : Written P s r :=
  ⟨u, mem_units u, h⟩

theorem written_of_heard {second : Bool} {file : RegFile} {p : Nat}
    (h : (file, some p) ∈ s.heard P u second) :
    Written P s { file := file, num := p } := by
  have hport := mem_ports_of_mem_heard h
  have hsend : forall {v : ExecUnit} {tag : Option Nat} {g : RegFile},
      s.broadcast P v = tag.map (fun p => { file := g, num := p }) ->
      (file, some p) = (g, tag) -> Written P s { file := file, num := p } := by
    intro v tag g hv heq
    cases heq
    exact written_of_broadcast hv
  have halu := hsend (v := .alu) rfl
  have hlsq := hsend (v := .lsq) rfl
  have hdiv := hsend (v := .div) rfl
  have hfalu := hsend (v := .falu) rfl
  have hfdiv := hsend (v := .fdiv) rfl
  have hvalu := hsend (v := .valu) rfl
  have hvlsu := hsend (v := .vlsu) rfl
  cases u with
  | lsq => simp [ports] at hport
  | _ =>
      simp only [ports, List.mem_cons, List.not_mem_nil, or_false] at hport
      rcases hport with hport | hport | hport | hport <;>
        first
          | exact halu hport
          | exact hlsq hport
          | exact hdiv hport
          | exact hfalu hport
          | exact hfdiv hport
          | exact hvalu hport
          | exact hvlsu hport
          | cases hport

/--
The operation that broadcasts leaves its position in the same cycle.
-/
theorem completes_of_broadcast (hok : UnitsOk s) {r : PReg} (h : s.broadcast P u = some r) :
    exists p, p ∈ positions P ∧ s.owes p = some r ∧ Completes P s i p := by
  have hstation : forall {v : ExecUnit} {k : Nat}, v ≠ .lsq -> k < (stationCfg P v).entries ->
      direct v = true -> s.leavesSlot P i v = some k ->
      s.stationOwes v k = some r ->
      exists p, p ∈ positions P ∧ s.owes p = some r ∧ Completes P s i p := by
    intro v k hv hk hdirect hleaves howes
    refine ⟨.waiting v k, mem_positions_waiting.mpr ?_, ?_, hdirect, hleaves⟩
    · rw [slots_of_ne hv]
      exact hk
    · rw [owes_waiting hv]
      exact howes
  have hrunning : forall {v : ExecUnit}, s.unitDone v = true ->
      (s.unitWrites v).map (fun file => PReg.mk file (s.unitDest v)) = some r ->
      exists p, p ∈ positions P ∧ s.owes p = some r ∧ Completes P s i p := by
    intro v hdone hwrites
    refine ⟨.running v, mem_positions_running P v, ?_, hdone⟩
    simp [owes, hdone, hwrites]
  cases u with
  | alu =>
      rcases Option.map_eq_some_iff.mp h with ⟨p, hcdb, rfl⟩
      rcases whenValid_eq_some hcdb with ⟨hvalid, rfl⟩
      have hspec := ReservationStation.issueIdx_spec hvalid
      refine hstation (v := .alu) (by decide) hspec.left rfl (leaves_issue hvalid hvalid) ?_
      exact if_pos hspec.right.left
  | falu =>
      rcases Option.map_eq_some_iff.mp h with ⟨p, hcdb, rfl⟩
      rcases whenValid_eq_some hcdb with ⟨hvalid, rfl⟩
      have hspec := ReservationStation.issueIdx_spec hvalid
      refine hstation (v := .falu) (by decide) hspec.left rfl (leaves_issue hvalid hvalid) ?_
      exact if_pos hspec.right.left
  | lsq =>
      rcases Option.map_eq_some_iff.mp h with ⟨p, hcdb, rfl⟩
      rcases whenValid_eq_some hcdb with ⟨hwrites, rfl⟩
      simp only [lsqCompleteWrites, Bool.and_eq_true] at hwrites
      have hleaves : s.lsq.leaves (s.lsqIn P i) = true := by
        rw [LoadStoreQueue.leaves_eq, hwrites.left, Bool.true_or]
      have hpos := LoadStoreQueue.count_pos_of_leaves hok.lsq (lsq_fits P s i) hleaves
      have hvalid := hok.lsq.valid s.lsq.head (inWindow_head hok.lsq.head_lt hpos)
      refine ⟨.waiting .lsq s.lsq.head, mem_positions_waiting.mpr hok.lsq.head_lt, ?_, rfl,
        by simp [leavesSlot, hleaves]⟩
      have hload : (s.lsq.entry s.lsq.head).opType ≠ .store := by
        have hkind := hwrites.right
        rw [LoadStoreQueue.completeIsLoad, Bool.not_eq_true', decide_eq_false_iff_not] at hkind
        exact hkind
      simp [owes, lsqOwes, hvalid, hload, LoadStoreQueue.headEntry]
  | div =>
      rcases Option.map_eq_some_iff.mp h with ⟨p, hcdb, rfl⟩
      rcases whenValid_eq_some hcdb with ⟨hdone, rfl⟩
      exact hrunning (v := .div) hdone rfl
  | fdiv =>
      rcases Option.map_eq_some_iff.mp h with ⟨p, hcdb, rfl⟩
      rcases whenValid_eq_some hcdb with ⟨hdone, rfl⟩
      exact hrunning (v := .fdiv) hdone rfl
  | valu =>
      rcases Option.map_eq_some_iff.mp h with ⟨p, hcdb, rfl⟩
      rcases whenValid_eq_some hcdb with ⟨hdone, rfl⟩
      exact hrunning (v := .valu) hdone rfl
  | vlsu =>
      rcases Option.map_eq_some_iff.mp h with ⟨p, hcdb, rfl⟩
      rcases whenValid_eq_some hcdb with ⟨hdone, rfl⟩
      simp only [vlsuCompleteValid, Bool.and_eq_true, Bool.not_eq_true'] at hdone
      exact hrunning (v := .vlsu) hdone.left (by simp [unitWrites, unitDest, hdone.right])

/-!
# Valid bits
-/

def fileValid (s : Core) (r : PReg) : Bool :=
  match r.file with
  | .int => decide (r.num = 0) || s.prf.valid r.num
  | .float => s.prfFloat.valid r.num
  | .vec => s.prfVec.valid r.num

/--
The registers that the free lists grant in this cycle.
-/
def grants (P : Params) (s : Core) (i : Input) : List PReg :=
  (if s.doDispatch P i && s.needsDest P then [{ file := .int, num := s.flAllocPreg0 }]
    else []) ++
  (if s.doDispatchSlot1 P i && s.needsDest1 P then
    [{ file := .int, num := s.flAllocPreg1 P }] else []) ++
  (if s.doDispatch P i && s.isFpOp P then [{ file := .float, num := s.flFAllocPreg0 }]
    else []) ++
  (if s.doDispatch P i && s.isVecDest P then [{ file := .vec, num := s.flVAllocPreg0 }]
    else [])

theorem mem_ite_singleton {alpha : Type} {b : Bool} {x y : alpha} :
    x ∈ (if b then [y] else []) ↔ b = true ∧ x = y := by
  cases b <;> simp

theorem mem_grants {r : PReg} :
    r ∈ s.grants P i ↔
      ((s.doDispatch P i && s.needsDest P) = true ∧ r = ⟨.int, s.flAllocPreg0⟩) ∨
      ((s.doDispatchSlot1 P i && s.needsDest1 P) = true ∧ r = ⟨.int, s.flAllocPreg1 P⟩) ∨
      ((s.doDispatch P i && s.isFpOp P) = true ∧ r = ⟨.float, s.flFAllocPreg0⟩) ∨
      ((s.doDispatch P i && s.isVecDest P) = true ∧ r = ⟨.vec, s.flVAllocPreg0⟩) := by
  unfold grants
  simp only [List.mem_append, mem_ite_singleton, or_assoc]

theorem written_iff {r : PReg} :
    Written P s r ↔
      match r.file with
      | .int => s.aluCdb P = some r.num ∨ s.lsqCdb = some r.num ∨ s.divCdb = some r.num
      | .float => s.faluCdb P = some r.num ∨ s.fdivCdb = some r.num
      | .vec => s.valuCdb = some r.num ∨ s.vlsuCdb = some r.num := by
  rcases r with ⟨file, num⟩
  simp only [Written, units, List.mem_cons, List.not_mem_nil, or_false, exists_eq_or_imp,
    exists_eq_left, broadcast, Option.map_eq_some_iff, PReg.mk.injEq]
  cases file <;> simp

theorem whenValid_iff {en : Bool} {a num : Nat} :
    whenValid en a = some num ↔ en = true ∧ a = num := by
  cases en <;> simp [whenValid]

theorem fileValid_step {r : PReg} (hr : r ≠ PReg.zero) :
    (s.step P i).fileValid r = true ↔
      Written P s r ∨ (s.fileValid r = true ∧ r ∉ s.grants P i) := by
  rw [written_iff, mem_grants]
  rcases r with ⟨file, num⟩
  have hswap : forall {a : Nat}, num = a ↔ a = num := eq_comm
  cases file with
  | int =>
      have hnum : num ≠ 0 := by
        intro h
        exact hr (by rw [h]; rfl)
      change (decide (num = 0) || (s.prf.step true _).valid num) = true ↔ _
      rw [decide_eq_false hnum, Bool.false_or, PhysicalRegisterFile.step_valid]
      simp [prfWrites, aluPort, lsqPort, divPort, aluCdb, lsqCdb, divCdb, whenValid_iff, fileValid,
        hnum, PhysicalRegisterFile.Writable, hswap]
  | float =>
      change (s.prfFloat.step false _).valid num = true ↔ _
      rw [PhysicalRegisterFile.step_valid]
      simp [prfFloatWrites, faluPort, fdivPort, faluCdb, fdivCdb, whenValid_iff, fileValid,
        PhysicalRegisterFile.Writable, hswap]
  | vec =>
      change (s.prfVec.step false _).valid num = true ↔ _
      rw [PhysicalRegisterFile.step_valid]
      simp [prfVecWrites, valuCdb, vlsuCdb, whenValid_iff, fileValid,
        PhysicalRegisterFile.Writable, hswap]

theorem fileValid_zero (s : Core) : s.fileValid PReg.zero = true := rfl

end Core
end Ooo
end RvCores
