import RvCores.Ooo.Readiness

/-!
# No lost wakeup

A source that waits in a station is woken by the broadcast of the unit that writes its
register.  Three stations do not listen to every unit that can do so: moves to the
float file miss loads, vector arithmetic misses vector loads, and vector memory
operations miss a base address that comes from the divider.  Nothing else loses a
wakeup: outside these pairs a waiting source has not been written yet.
-/

namespace RvCores
namespace Ooo
namespace Core

open Lib

variable {P : Params} {s : Core} {i : Input} {u : ExecUnit} {k : Nat} {second : Bool}
  {r : PReg}

/-!
# Waiting sources
-/

/--
A source of the operation in slot `k` that is marked not ready, and its register.
-/
structure SourceWaits (P : Params) (s : Core) (u : ExecUnit) (k : Nat) (second : Bool)
    (r : PReg) : Prop where
  slot : k < (stationCfg P u).entries
  valid : ((s.station u).entry k).valid = true
  reads : ((s.station u).entry k).data.reads second = some r.file
  preg : ((s.station u).entry k).srcPreg second = r.num
  unready : ((s.station u).entry k).srcReady second = false

/--
No producer has written the register of a waiting source.  Register zero has no
producer.
-/
def NoneLost (P : Params) (s : Core) : Prop :=
  forall u k second r, SourceWaits P s u k second r -> r ≠ PReg.zero ->
    s.fileValid r = false

def Heard (P : Params) (s : Core) (u : ExecUnit) (second : Bool) (num : Nat) : Prop :=
  exists file, (file, some num) ∈ s.heard P u second

/--
The register is written in this cycle by a unit that the station does not listen to.
-/
def unsnooped (s : Core) (u : ExecUnit) (r : PReg) : Bool :=
  match u, r.file with
  | .falu, .int => decide (s.lsqCdb = some r.num)
  | .valu, .vec => decide (s.vlsuCdb = some r.num)
  | .vlsu, .int => decide (s.divCdb = some r.num)
  | _, _ => false

/--
A source whose register is written by such a unit hears its number all the same, from a
unit that writes another register of that number.
-/
def ProducersHeard (P : Params) (s : Core) : Prop :=
  forall u k second r, SourceWaits P s u k second r -> r ≠ PReg.zero ->
    s.unsnooped u r = true -> Heard P s u second r.num

/-!
# Broadcast ports
-/

theorem cdbHit_of_heard (hu : u ≠ .lsq) {num : Nat} (h : Heard P s u second num) :
    ReservationStation.cdbHit ((stationCfg P u).portMask second)
      (s.stationIn P i u).cdb num = true := by
  rcases h with ⟨file, hmem⟩
  rcases List.mem_map.mp hmem with ⟨⟨listens, port⟩, hzip, hport⟩
  change port = (file, some num) at hport
  rcases List.mem_filter.mp hzip with ⟨hzip, hlistens⟩
  change listens = true at hlistens
  rw [stationIn_cdb hu, ReservationStation.cdbHit, List.any_eq_true]
  refine ⟨(listens, port.2), ?_, by simp [hlistens, hport]⟩
  rw [<- List.map_id ((stationCfg P u).portMask second), List.zip_map, List.mem_map]
  exact ⟨(listens, port), hzip, rfl⟩

theorem cdbHit_of_unheard (hu : u ≠ .lsq) {num : Nat} (h : ¬ Heard P s u second num) :
    ReservationStation.cdbHit ((stationCfg P u).portMask second)
      (s.stationIn P i u).cdb num = false := by
  apply Bool.eq_false_iff.mpr
  intro hhit
  exact h (mem_heard_of_cdbHit hu hhit)

/--
The register files that the sources of a station name.
-/
def sourceFiles : ExecUnit -> Bool -> List RegFile
  | .alu, _ => [.int]
  | .lsq, _ => []
  | .div, _ => [.int]
  | .falu, false => [.int, .float]
  | .falu, true => [.float]
  | .fdiv, _ => [.float]
  | .valu, false => [.vec]
  | .valu, true => [.vec, .int]
  | .vlsu, false => [.int]
  | .vlsu, true => [.vec]

theorem mem_sourceFiles (hu : u ≠ .lsq) {file : RegFile}
    (h : ((s.station u).entry k).data.reads second = some file) :
    file ∈ sourceFiles u second := by
  cases u with
  | lsq => exact absurd rfl hu
  | alu =>
      cases h
      exact List.mem_singleton.mpr rfl
  | div =>
      cases h
      exact List.mem_singleton.mpr rfl
  | falu =>
      change (if (s.rsFalu.entry k).data.isIntmove then
        if second then none else some RegFile.int else some RegFile.float) = some file at h
      generalize (s.rsFalu.entry k).data.isIntmove = isIntmove at h
      cases second <;> cases isIntmove <;> cases h <;> decide
  | fdiv =>
      change (if second && (s.rsFdiv.entry k).data.isSqrt then none
        else some RegFile.float) = some file at h
      generalize (s.rsFdiv.entry k).data.isSqrt = isSqrt at h
      cases second <;> cases isSqrt <;> cases h <;> decide
  | valu =>
      change (if second && (s.rsValu.entry k).data.useScalar then
        if (s.rsValu.entry k).data.isVi then none else some RegFile.int
          else some RegFile.vec) = some file at h
      generalize (s.rsValu.entry k).data.useScalar = useScalar at h
      generalize (s.rsValu.entry k).data.isVi = isVi at h
      cases second <;> cases useScalar <;> cases isVi <;> cases h <;> decide
  | vlsu =>
      change (if second then if (s.rsVlsu.entry k).data.isStore then some RegFile.vec else none
        else some RegFile.int) = some file at h
      generalize (s.rsVlsu.entry k).data.isStore = isStore at h
      cases second <;> cases isStore <;> cases h <;> decide

/--
A station hears every write of a register that it can wait for, except those of the
units it does not listen to.
-/
theorem heard_or_unsnooped (hfile : r.file ∈ sourceFiles u second) (hw : Written P s r) :
    Heard P s u second r.num ∨ s.unsnooped u r = true := by
  rcases r with ⟨file, num⟩
  rw [written_iff] at hw
  unfold Heard heard unsnooped
  cases u <;> cases second <;> cases file <;>
    simp [sourceFiles, stationCfg, RsConfig.portMask, ports, Params.rsAluCfg,
      Params.rsFaluCfg, rsDivCfg, rsFdivCfg, rsValuCfg, rsVlsuCfg, allPorts] at hfile hw ⊢ <;>
    grind

theorem written_of_unsnooped (h : s.unsnooped u r = true) : Written P s r := by
  rcases r with ⟨file, num⟩
  rw [written_iff]
  unfold unsnooped at h
  cases u <;> cases file <;> simp at h ⊢ <;> simp [h]

/-!
# Sources on entering a station
-/

/--
The register is neither valid nor written in this cycle.
-/
def Unwritten (P : Params) (s : Core) (r : PReg) : Prop :=
  s.fileValid r = false ∧ ¬ Written P s r

theorem int_unwritten {p : Nat} (h : s.prfRvalid P i p = false) :
    Unwritten P s { file := .int, num := p } := by
  simp only [prfRvalid, PhysicalRegisterFile.rvalid, Bool.true_and, Bool.or_eq_false_iff,
    decide_eq_false_iff_not, List.any_eq_false, PhysicalRegisterFile.hit] at h
  rcases h with ⟨⟨hzero, hports⟩, hvalid⟩
  constructor
  · simp [fileValid, hzero, hvalid]
  · rw [written_iff]
    simp only [prfWrites, List.mem_cons, List.not_mem_nil, or_false, forall_eq_or_imp,
      forall_eq, Bool.and_eq_true, decide_eq_true_eq] at hports
    rintro (hw | hw | hw)
    · exact hports.left (whenValid_iff.mp hw)
    · exact hports.right.left (whenValid_iff.mp hw)
    · exact hports.right.right (whenValid_iff.mp hw)

theorem float_unwritten {p : Nat} (h : s.prfFloatRvalid P i p = false) :
    Unwritten P s { file := .float, num := p } := by
  simp only [prfFloatRvalid, PhysicalRegisterFile.rvalid, Bool.false_and, Bool.false_or,
    Bool.or_eq_false_iff, List.any_eq_false, PhysicalRegisterFile.hit] at h
  rcases h with ⟨hports, hvalid⟩
  refine ⟨hvalid, ?_⟩
  rw [written_iff]
  simp only [prfFloatWrites, List.mem_cons, List.not_mem_nil, or_false, forall_eq_or_imp,
    forall_eq, Bool.and_eq_true, decide_eq_true_eq] at hports
  rintro (hw | hw)
  · exact hports.left (whenValid_iff.mp hw)
  · exact hports.right (whenValid_iff.mp hw)

theorem vec_unwritten {p : Nat} (h : s.prfVecRvalid p = false) :
    Unwritten P s { file := .vec, num := p } := by
  simp only [prfVecRvalid, PhysicalRegisterFile.rvalid, Bool.false_and, Bool.false_or,
    Bool.or_eq_false_iff, List.any_eq_false, PhysicalRegisterFile.hit] at h
  rcases h with ⟨hports, hvalid⟩
  refine ⟨hvalid, ?_⟩
  rw [written_iff]
  simp only [prfVecWrites, List.mem_cons, List.not_mem_nil, or_false, forall_eq_or_imp,
    forall_eq, Bool.and_eq_true, decide_eq_true_eq] at hports
  rintro (hw | hw)
  · exact hports.left (whenValid_iff.mp hw)
  · exact hports.right (whenValid_iff.mp hw)

theorem disp0_unwritten (hu : u ≠ .lsq) {file : RegFile}
    (hreads : (s.stationIn P i u).disp0.data.reads second = some file)
    (hunready : (s.stationIn P i u).disp0.srcReady second = false) :
    Unwritten P s { file := file, num := (s.stationIn P i u).disp0.srcPreg second } := by
  cases u with
  | lsq => exact absurd rfl hu
  | alu =>
      cases hreads
      cases second <;> exact int_unwritten hunready
  | div =>
      cases hreads
      cases second <;> exact int_unwritten hunready
  | fdiv =>
      cases second with
      | false =>
          cases hreads
          exact float_unwritten hunready
      | true =>
          change (if true && s.isFpSqrt P then none else some RegFile.float) = some file at hreads
          change (if s.isFpSqrt P then true else s.prfFloatRvalid P i (s.ratFRpreg1 P)) = false
            at hunready
          cases hsqrt : s.isFpSqrt P with
          | true => simp [hsqrt] at hreads
          | false =>
              rw [hsqrt] at hreads hunready
              cases hreads
              exact float_unwritten hunready
  | falu =>
      cases second with
      | false =>
          change (if s.isFpIntmove P then if false then none else some RegFile.int
            else some RegFile.float) = some file at hreads
          change (if s.isFpIntmove P then s.prfRvalid P i (s.ratRpreg0 P)
            else s.prfFloatRvalid P i (s.ratFRpreg0 P)) = false at hunready
          change Unwritten P s
            { file := file, num := if s.isFpIntmove P then s.ratRpreg0 P else s.ratFRpreg0 P }
          cases hmove : s.isFpIntmove P with
          | true =>
              rw [hmove] at hreads hunready
              cases hreads
              exact int_unwritten hunready
          | false =>
              rw [hmove] at hreads hunready
              cases hreads
              exact float_unwritten hunready
      | true =>
          change (if s.isFpIntmove P then if true then none else some RegFile.int
            else some RegFile.float) = some file at hreads
          change (if s.isFpIntmove P then true
            else s.prfFloatRvalid P i (s.ratFRpreg1 P)) = false at hunready
          cases hmove : s.isFpIntmove P with
          | true => simp [hmove] at hreads
          | false =>
              rw [hmove] at hreads hunready
              cases hreads
              exact float_unwritten hunready
  | valu =>
      cases second with
      | false =>
          cases hreads
          exact vec_unwritten hunready
      | true =>
          change (if true && s.vecArithUseScalar P then
            if s.vecArithIsVi P then none else some RegFile.int else some RegFile.vec) =
              some file at hreads
          change (if s.vecArithIsVi P then true else if s.vecArithIsVx P then
            s.prfRvalid P i (s.ratRpreg0 P) else s.prfVecRvalid (s.ratVRpreg1 P)) = false
              at hunready
          change Unwritten P s (PReg.mk file
            (if s.vecArithUseScalar P then s.ratRpreg0 P else s.ratVRpreg1 P))
          rw [vecArithUseScalar] at hreads ⊢
          cases hvi : s.vecArithIsVi P with
          | true => simp [hvi] at hreads
          | false =>
              cases hvx : s.vecArithIsVx P with
              | true =>
                  rw [hvi, hvx] at hreads hunready
                  cases hreads
                  exact int_unwritten hunready
              | false =>
                  rw [hvi, hvx] at hreads hunready
                  cases hreads
                  exact vec_unwritten hunready
  | vlsu =>
      cases second with
      | false =>
          cases hreads
          exact int_unwritten hunready
      | true =>
          change (if true then if s.isVecStore P then some RegFile.vec else none
            else some RegFile.int) = some file at hreads
          change (if s.isVecStore P then s.prfVecRvalid (s.ratVRpregVs3 P) else true) = false
            at hunready
          change Unwritten P s
            { file := file, num := if s.isVecStore P then s.ratVRpregVs3 P else 0 }
          cases hstore : s.isVecStore P with
          | false => simp [hstore] at hreads
          | true =>
              rw [hstore] at hreads hunready
              cases hreads
              exact vec_unwritten hunready

/--
A source of the second slot may also be the destination of the first, which is granted
in the same cycle.
-/
theorem disp1_unwritten {file : RegFile} (hgo : s.doDispatchSlot1 P i = true)
    (hreads : (s.stationIn P i .alu).disp1.data.reads second = some file)
    (hunready : (s.stationIn P i .alu).disp1.srcReady second = false) :
    Unwritten P s (PReg.mk file ((s.stationIn P i .alu).disp1.srcPreg second)) ∨
      PReg.mk file ((s.stationIn P i .alu).disp1.srcPreg second) ∈ s.grants P i := by
  have hgrant : s.needsDest P = true -> PReg.mk .int s.flAllocPreg0 ∈ s.grants P i := by
    intro hneeds
    rw [mem_grants]
    left
    rw [doDispatch_of_slot1 hgo, hneeds]
    exact ⟨rfl, rfl⟩
  cases hreads
  cases second with
  | false =>
      change (if s.slot1Src1FromSlot0 P then false else s.prfRvalid P i (s.ratRpreg2 P)) = false
        at hunready
      change Unwritten P s (PReg.mk .int
        (if s.slot1Src1FromSlot0 P then s.flAllocPreg0 else s.ratRpreg2 P)) ∨ PReg.mk .int
          (if s.slot1Src1FromSlot0 P then s.flAllocPreg0 else s.ratRpreg2 P) ∈ s.grants P i
      cases hfrom : s.slot1Src1FromSlot0 P with
      | true =>
          simp only [slot1Src1FromSlot0, Bool.and_eq_true] at hfrom
          exact Or.inr (hgrant hfrom.left.left.right)
      | false =>
          rw [hfrom] at hunready
          exact Or.inl (int_unwritten hunready)
  | true =>
      change (if s.slot1Src2FromSlot0 P then false else s.prfRvalid P i (s.ratRpreg3 P)) = false
        at hunready
      change Unwritten P s (PReg.mk .int
        (if s.slot1Src2FromSlot0 P then s.flAllocPreg0 else s.ratRpreg3 P)) ∨ PReg.mk .int
          (if s.slot1Src2FromSlot0 P then s.flAllocPreg0 else s.ratRpreg3 P) ∈ s.grants P i
      cases hfrom : s.slot1Src2FromSlot0 P with
      | true =>
          simp only [slot1Src2FromSlot0, Bool.and_eq_true] at hfrom
          exact Or.inr (hgrant hfrom.left.left.right)
      | false =>
          rw [hfrom] at hunready
          exact Or.inl (int_unwritten hunready)

/-!
# Sources over the clock edge
-/

/--
A source that waits after the edge has heard nothing in this cycle.  It waited before, or
entered with a register that is unwritten or granted in this cycle.
-/
theorem sourceWaits_step (h : SourceWaits P (s.step P i) u k second r) :
    r.file ∈ sourceFiles u second ∧ ¬ Heard P s u second r.num ∧
      (SourceWaits P s u k second r ∨ Unwritten P s r ∨ (u = .alu ∧ r ∈ s.grants P i)) := by
  have hu := not_lsq_of_slot h.slot
  refine ⟨mem_sourceFiles hu h.reads, ?_⟩
  rcases h with ⟨hk, hvalid, hreads, hpreg, hunready⟩
  rcases r with ⟨file, num⟩
  rcases station_step_cases hk hvalid with
    ⟨hold, _, hentry⟩ | ⟨_, _, hentry⟩ | ⟨hen, rfl, _, hentry⟩
  · rw [hentry, wakeup_srcReady, hold, Bool.true_and, Bool.or_eq_false_iff] at hunready
    rw [hentry, wakeup_srcPreg] at hpreg
    rw [hentry] at hreads
    rw [hpreg] at hunready
    constructor
    · intro hheard
      rw [cdbHit_of_heard hu hheard] at hunready
      exact Bool.noConfusion hunready.right
    · exact Or.inl ⟨hk, hold, hreads, hpreg, hunready.left⟩
  · rw [hentry, newEntry_srcReady, Bool.or_eq_false_iff] at hunready
    rw [hentry, newEntry_srcPreg] at hpreg
    rw [hentry] at hreads
    have hquiet := disp0_unwritten hu hreads hunready.left
    rw [hpreg] at hunready hquiet
    constructor
    · intro hheard
      rw [cdbHit_of_heard hu hheard] at hunready
      exact Bool.noConfusion hunready.right
    · exact Or.inr (Or.inl hquiet)
  · rw [hentry, newEntry_srcReady, Bool.or_eq_false_iff] at hunready
    rw [hentry, newEntry_srcPreg] at hpreg
    rw [hentry] at hreads
    have hquiet := disp1_unwritten hen hreads hunready.left
    rw [hpreg] at hunready hquiet
    constructor
    · intro hheard
      rw [cdbHit_of_heard hu hheard] at hunready
      exact Bool.noConfusion hunready.right
    · exact Or.inr (hquiet.imp_right (fun hgrant => ⟨rfl, hgrant⟩))

theorem noneLost_step (h : NoneLost P s) (hheard : ProducersHeard P s) :
    NoneLost P (s.step P i) := by
  intro u k second r hwaits hzero
  rcases sourceWaits_step hwaits with ⟨hfile, hmiss, hbefore⟩
  apply Bool.eq_false_iff.mpr
  intro hvalid
  rcases (fileValid_step hzero).mp hvalid with hwritten | ⟨hkept, hgrants⟩
  · have hpair := (heard_or_unsnooped hfile hwritten).resolve_left hmiss
    rcases hbefore with hwaited | hquiet | ⟨rfl, _⟩
    · exact hmiss (hheard u k second r hwaited hzero hpair)
    · exact hquiet.right hwritten
    · exact Bool.noConfusion hpair
  · rcases hbefore with hwaited | hquiet | ⟨_, hgrant⟩
    · rw [h u k second r hwaited hzero] at hkept
      exact Bool.noConfusion hkept
    · rw [hquiet.left] at hkept
      exact Bool.noConfusion hkept
    · exact hgrants hgrant

/--
A source that hears nothing keeps waiting, because its operation cannot be selected.
-/
theorem sourceWaits_of_unheard (h : SourceWaits P s u k second r)
    (hmiss : ¬ Heard P s u second r.num) :
    SourceWaits P (s.step P i) u k second r := by
  have hu := not_lsq_of_slot h.slot
  have hselect : (s.station u).issue? (stationCfg P u) ≠ some k := by
    intro hissue
    have hready := (ReservationStation.issue_spec hissue).right
    simp only [ReservationStation.candReady, Bool.and_eq_true] at hready
    have hunready := h.unready
    cases second with
    | false => exact Bool.noConfusion (hready.left.right.symm.trans hunready)
    | true => exact Bool.noConfusion (hready.right.symm.trans hunready)
  have hentry : ((s.step P i).station u).entry k =
      ReservationStation.wakeup (stationCfg P u) (s.stationIn P i u).cdb
        ((s.station u).entry k) := by
    rw [station_step hu, ReservationStation.step_entry h.slot, if_neg, if_neg, if_neg]
    · exact fun hissue => hselect hissue.right
    · rintro ⟨_, hslot⟩
      exact Bool.noConfusion (h.valid.symm.trans (ReservationStation.alloc0_spec hslot).right)
    · rintro ⟨_, hslot⟩
      exact Bool.noConfusion
        (h.valid.symm.trans (ReservationStation.alloc1_spec hslot).right.left)
  constructor
  · exact h.slot
  · rw [hentry]
    exact h.valid
  · rw [hentry]
    exact h.reads
  · rw [hentry, wakeup_srcPreg]
    exact h.preg
  · rw [hentry, wakeup_srcReady, h.preg, h.unready, cdbHit_of_unheard hu hmiss, Bool.and_false]
    rfl

theorem producersHeard_of_noneLost_step (h : NoneLost P (s.step P i)) :
    ProducersHeard P s := by
  intro u k second r hwaits hzero hpair
  by_contra hmiss
  have hvalid : (s.step P i).fileValid r = true :=
    fileValid_step_of_written (written_of_unsnooped hpair)
  rw [h u k second r (sourceWaits_of_unheard hwaits hmiss) hzero] at hvalid
  exact Bool.noConfusion hvalid

/-!
# Runs
-/

theorem noneLost_reset (P : Params) (s : Core) : NoneLost P (s.reset P) := by
  intro u k second r hwaits
  exact Bool.noConfusion ((station_reset_valid hwaits.slot).symm.trans hwaits.valid)

def afterInputs (P : Params) (s0 : Core) (inputs : Nat -> Input) : Nat -> Core
  | 0 => s0.reset P
  | n + 1 => (afterInputs P s0 inputs n).step P (inputs n)

/--
No wakeup is lost in a run exactly when every waiting source hears its number when a unit
that its station does not listen to writes its register.
-/
theorem no_lost_wakeup_iff (P : Params) (s0 : Core) (inputs : Nat -> Input) :
    (forall n, NoneLost P (afterInputs P s0 inputs n)) ↔
      forall n, ProducersHeard P (afterInputs P s0 inputs n) := by
  constructor
  · intro h n
    exact producersHeard_of_noneLost_step (i := inputs n) (h (n + 1))
  · intro h n
    induction n with
    | zero => exact noneLost_reset P s0
    | succ n ih => exact noneLost_step ih (h n)

/--
lw x1, 0(x0); fmv.w.x f1, x1: a move to the float file that waits for a load.
-/
def moveOfLoad : Params := defaultParams [0x00002083, 0xf00080d3]

/--
div x1, x0, x0; vle32.v v1, (x1): a vector load whose address is a quotient.
-/
def loadAtQuotient : Params := defaultParams [0x020040b3, 0x0200e087]

theorem wakeups_lost :
    (¬ forall n, NoneLost moveOfLoad (afterInputs moveOfLoad powerUp (fun _ => quietInput) n)) ∧
      ¬ forall n, NoneLost loadAtQuotient
        (afterInputs loadAtQuotient powerUp (fun _ => quietInput) n) := by
  constructor
  · intro h
    have hlost := h 3 .falu 0 false { file := .int, num := 32 }
      ⟨by decide +kernel, by decide +kernel, by decide +kernel, by decide +kernel,
        by decide +kernel⟩ (by decide +kernel)
    revert hlost
    decide +kernel
  · intro h
    have hlost := h 3 .vlsu 0 false { file := .int, num := 32 }
      ⟨by decide +kernel, by decide +kernel, by decide +kernel, by decide +kernel,
        by decide +kernel⟩ (by decide +kernel)
    revert hlost
    decide +kernel

end Core
end Ooo
end RvCores
