import RvCores.Ooo.VectorAccess

/-!
# Data of vector loads and stores

What the memory holds after the accesses of a store, and what the register of a load holds
when the core takes the load for finished.
-/

namespace RvCores
namespace Ooo
namespace Core
namespace VlsRun

open Isa Block

variable {P : Params} {t : VlsRun P} {n : Nat}

/-!
# The port of the memory
-/

theorem wantsBus_of_port {s : Core} (h : s.vlsu.port ≠ []) : s.vlsuWantsBus = true := by
  cases hwrite : s.vlsu.memWrite <;> cases hread : s.vlsu.memRead <;>
    simp [Vlsu.port, vlsuWantsBus, hwrite, hread] at h ⊢

theorem taken_iff {finish : Nat} : t.Taken finish <-> t.PortFree finish := by
  constructor
  · intro h n hn hwants hwalks
    rw [← h n hn hwants, dmemArb, if_pos hwalks]
  · intro h n hn hwants
    cases hwalks : (t.core n).ptw.busy with
    | true =>
        rw [dmemArb, if_pos hwalks]
        exact h n hn hwants hwalks
    | false => simp [dmemArb, hwalks, hwants]

theorem performed_of_taken {finish : Nat} (htaken : t.Taken finish) {a : VecAccess}
    (hn : n < finish) (hport : (t.core n).vlsu.port = [a]) :
    (t.core (n + 1)).dmem.bytes = a.perform P.dmemSizeBytes (t.core n).dmem.bytes := by
  have hrequest := htaken n hn (wantsBus_of_port (by simp [hport]))
  have hbytes : (t.core (n + 1)).dmem.bytes =
      ((t.core n).dmem.step P.dmemSizeBytes ((t.core n).dmemArb P (t.input n))).bytes :=
    rfl
  rw [hbytes, hrequest]
  cases n with
  | zero =>
      rw [(rests_zero t).silent] at hport
      exact absurd hport (by simp)
  | succ n => exact Vlsu.bytes_of_port _ _ hport

/-!
# A load of one register
-/

/--
The bytes were in the memory when their access was on the port.
-/
def Seen (t : VlsRun P) (n : Nat) (a : BitVec 64) (x : BitVec (8 * t.bytes)) : Prop :=
  exists m, m < n ∧ (t.core m).vlsu.port = [.load a t.bytes] ∧
    x = Vlsu.bytesAt P.dmemSizeBytes (t.core m).dmem.bytes a t.bytes

/--
The operation has left the station and what it has loaded so far is right.
-/
structure Loading (t : VlsRun P) (n : Nat) : Prop where
  left : (t.core n).vlsuWaiting = 0
  dest : (t.core n).vlsuInflight.destPreg = (t.core 0).flVAllocPreg0
  loads : (t.core n).vlsuInflight.isStore = false
  ends : (t.core n).vlsu.busy = false -> (t.core n).vlsu.done = true
  gathers : exists data v0, (t.vm = false -> v0 = t.maskRead) ∧
    Vlsu.Gathers (t.op data v0) (t.Seen n) (t.core n).dmemReadData (t.core n).vlsu

theorem bytesAt_readData {size k : Nat} (dmem : DataMemory 64) (req : MemRequest 64)
    (hread : req.memRead = true)
    (hunsigned : req.funct3 = 4 ∨ req.funct3 = 5 ∨ req.funct3 = 6 ∨ req.funct3 = 3)
    (hk : accessLength req.funct3 = k) :
    (dmem.step size req).readData.setWidth (8 * k) =
      Vlsu.bytesAt size dmem.bytes req.address k := by
  rw [← hk]
  exact Vlsu.readData_unsigned dmem hread hunsigned

/--
A load that waits has its bytes on the way.
-/
theorem seen_of_wait {finish : Nat} (htaken : t.Taken finish) {data v0 : BitVec 512}
    (hn : n + 1 < finish) (hop : (t.core (n + 1)).vlsu.op = t.op data v0)
    (hwait : (t.core (n + 1)).vlsu.state = .loadWait) :
    t.Seen (n + 2) ((t.op data v0).address (t.core (n + 1)).vlsu.elem)
      ((t.core (n + 2)).dmemReadData.setWidth (8 * t.bytes)) := by
  obtain ⟨hwrite, hread, haddress, hcode⟩ :=
    Vlsu.port_of_wait (u := (t.core n).vlsu) (i := (t.core n).vlsuIn P (t.input n)) hwait
  change (t.core (n + 1)).vlsu.memWrite = false at hwrite
  change (t.core (n + 1)).vlsu.memRead = true at hread
  change (t.core (n + 1)).vlsu.memAddress = (t.core (n + 1)).vlsu.elemAddress at haddress
  change (t.core (n + 1)).vlsu.memFunct3 = (t.core (n + 1)).vlsu.loadFunct3 at hcode
  have hlength : accessLength (t.core (n + 1)).vlsu.memFunct3 = t.bytes := by
    rw [hcode, Vlsu.accessLength_loadFunct3, hop]
    rfl
  rw [Vlsu.elemAddress_eq, hop] at haddress
  have hrequest := htaken (n + 1) hn (by simp [vlsuWantsBus, hread])
  refine ⟨n + 1, Nat.lt_succ_self _, ?_, ?_⟩
  · simp [Vlsu.port, hwrite, hread, haddress, hlength]
  · rw [← haddress]
    have hdata : (t.core (n + 2)).dmemReadData =
        ((t.core (n + 1)).dmem.step P.dmemSizeBytes
          ((t.core (n + 1)).dmemArb P (t.input (n + 1)))).readData :=
      rfl
    rw [hdata, hrequest]
    have hunsigned := Vlsu.loadFunct3_unsigned (t.core (n + 1)).vlsu
    rw [← hcode] at hunsigned
    exact bytesAt_readData _ (t.core (n + 1)).vlsuRequest hread hunsigned hlength

/--
The result of a load is written to its register in the cycle of the done pulse.
-/
theorem prfVec_step_of_complete {s : Core} {i : Input} {p : Nat}
    (hcomplete : s.vlsuCompleteValid = true) (hdest : s.vlsuInflight.destPreg = p) :
    (s.step P i).prfVec.regs p = s.vlsu.result := by
  show (s.prfVec.step false _).regs p = s.vlsu.result
  simp [PhysicalRegisterFile.step, PhysicalRegisterFile.write, prfVecWrites, hcomplete, hdest]

theorem count_of_single (hsingle : t.lmul = 1) : t.count = 1 := by
  rcases lmul_count t with ⟨hl, hc⟩ | ⟨hl, hc⟩ | ⟨hl, hc⟩ | ⟨hl, hc⟩ <;> omega

theorem enters_zero (t : VlsRun P) : (t.core 0).vlsuEnters P (t.input 0) = true := by
  have hdisp : (t.core 0).doDispatch P (t.input 0) = true := t.dispatched
  rw [vlsuEnters, hdisp, t.memory]
  rfl

section

variable {last finish : Nat} (hfetch : t.Fetched) (h : t.Executes last finish)

include hfetch h

theorem last_zero (hsingle : t.lmul = 1) : last = 0 := by
  have hcount := count_of_single hsingle
  have hunder := GroupRun.underway_zero t.idle
  have hheld : t.Held 0 := fun m hm => by rw [Nat.le_zero.mp hm]; rfl
  have hlast : (t.core 0).vecCrackLast = true := by
    rw [vecCrackLast_iff, hunder.offset, hunder.total, hcount]
  rcases Nat.eq_zero_or_pos last with hzero | hpos
  · exact hzero
  · exact absurd (h.held 1 hpos) (idle_after_last hfetch hheld t.dispatches_zero hlast).right

theorem stalls_after_zero (hsingle : t.lmul = 1) (hpos : 0 < n) (hn : n < finish) :
    t.dispatches n = false := by
  have hzero := last_zero hfetch h hsingle
  have hlater : last < n := by
    rw [hzero]
    exact hpos
  exact no_dispatch (idle_while_working hfetch h.held h.dispatched h.complete hlater
    fun m hm hmn => h.working m hm (Nat.lt_trans hmn hn)) (h.working n hlater hn)

/--
The register of a load stays the one that its dispatch has allocated.
-/
theorem destMap (hsingle : t.lmul = 1) (hload : t.isStore = false) (hpos : 0 < n)
    (hle : n <= finish) :
    (t.core n).ratVec.specMap t.word.rd.toNat = (t.core 0).flVAllocPreg0 := by
  have hfresh : (t.core 0).isVecDest P = true := by
    obtain ⟨_, _, _, _, _, hloads⟩ := control_of_vecLs t.memory
    have hstore : (t.core 0).isVecStore P = false := hload
    simp [isVecDest, hloads, hstore]
  have hreg : (t.core 0).vecVdAreg P = t.word.rd.toNat := by
    have hrd := t.word.rd.isLt
    rw [vecVdAreg, (GroupRun.underway_zero t.idle).offset]
    simp [GroupRun.word]
  induction n with
  | zero => exact absurd hpos (Nat.lt_irrefl 0)
  | succ n ih =>
      rw [GroupRun.core_succ, ratVec_step]
      rcases Nat.eq_zero_or_pos n with hzero | hlater
      · rw [hzero, hreg, hfresh, Bool.and_true]
        exact if_pos ⟨t.dispatched, rfl⟩
      · have hstall : (t.core n).doDispatch P (t.input n) = false :=
          stalls_after_zero hfetch h hsingle hlater hle
        rw [hstall]
        exact (if_neg fun hwrites => Bool.noConfusion hwrites.left).trans
          (ih hlater (Nat.le_of_succ_le hle))

end

/--
The start of the load: nothing is loaded yet.
-/
theorem loading_of_start {d : Nat} (hprogress : t.Progress n d) (hone : d <= 1)
    (hreads : t.Reads n) (hload : t.isStore = false) (hleft : (t.core (n + 1)).vlsuWaiting = 0)
    (hstart : (t.core n).vlsuStart = true) : t.Loading (n + 1) := by
  have hidle := busy_of_start hstart
  obtain ⟨k, hk, hop⟩ := staged_issue hprogress.staged hstart
  have hinflight : (t.core (n + 1)).vlsuInflight =
      { robTag := (t.core n).issueVlsu.robTag
        destPreg := (t.core n).issueVlsu.destPreg
        isStore := (t.core n).issueVlsu.data.isStore } :=
    if_pos hstart
  have hbusy : (t.core (n + 1)).vlsu.busy = true :=
    (Vlsu.step_of_start (i := (t.core n).vlsuIn P (t.input n)) vlen_words (by decide) hidle
      hstart).right.right.right.left
  constructor
  · exact hleft
  · rw [hinflight]
    exact hop.dest (by omega)
  · rw [hinflight, hop.payload]
    exact hload
  · exact fun hend => Bool.noConfusion (hbusy.symm.trans hend)
  · exact ⟨_, _, hreads.mask,
      Vlsu.gathers_of_start hstart hidle (started_op hprogress hstart hreads) _⟩

/--
One cycle of the load.
-/
theorem Loading.step {finish : Nat} (h : t.Loading (n + 1)) (htaken : t.Taken finish)
    (hload : t.isStore = false) (hstall : t.dispatches (n + 1) = false)
    (hbusy : (t.core (n + 1)).vlsu.busy = true) (hn : n + 1 < finish) : t.Loading (n + 2) := by
  have hnone := not_enters hstall
  have hstart : (t.core (n + 1)).vlsuStart = false := by
    simp [vlsuStart, hbusy]
  have hcount := vlsuWaiting_step P (t.core (n + 1)) (t.input (n + 1))
  have hinflight : (t.core (n + 2)).vlsuInflight = (t.core (n + 1)).vlsuInflight :=
    if_neg (Bool.eq_false_iff.mp hstart)
  obtain ⟨data, v0, hmask, hgathers⟩ := h.gathers
  constructor
  · rw [hnone, hstart, h.left] at hcount
    exact hcount
  · rw [hinflight]
    exact h.dest
  · rw [hinflight]
    exact h.loads
  · exact Vlsu.done_of_end hbusy
  · refine ⟨data, v0, hmask, ?_⟩
    apply Vlsu.Gathers.step (i := (t.core (n + 1)).vlsuIn P (t.input (n + 1))) vlen_words hbusy
      ((tracked t (n + 1)).sound hbusy) hgathers hload
    · rintro a x ⟨m, hm, hport⟩
      exact ⟨m, Nat.lt_succ_of_lt hm, hport⟩
    · intro hwait
      exact seen_of_wait htaken hn hgathers.op_eq hwait

section

variable {last finish : Nat} (hfetch : t.Fetched) (hsteady : t.Steady)
  (h : t.Executes last finish) (htaken : t.Taken finish) (hsingle : t.lmul = 1)
  (hload : t.isStore = false)

include hfetch hsteady h htaken hsingle hload

/--
Until the core takes the load for finished, it waits in the station or is under way.
-/
theorem waits_or_loading (hn : n + 1 < finish) :
    (t.core (n + 1)).vlsuWaiting = 1 ∧ (t.core (n + 1)).vlsu.busy = false ∨
      t.Loading (n + 1) := by
  have hcount := count_of_single hsingle
  have hzero := last_zero hfetch h hsingle
  induction n with
  | zero =>
      have hrests := rests_zero t
      have hstart : (t.core 0).vlsuStart = false := Bool.eq_false_iff.mpr fun hstart =>
        absurd (vlsuWaiting_pos_of_start hstart) (by rw [hrests.empty]; exact Nat.lt_irrefl 0)
      have hwaiting := vlsuWaiting_step P (t.core 0) (t.input 0)
      rw [hstart, hrests.empty, enters_zero] at hwaiting
      exact Or.inl ⟨hwaiting, (Vlsu.step_of_idle (i := (t.core 0).vlsuIn P (t.input 0))
        hrests.idle hstart).right.right⟩
  | succ n ih =>
      have hbefore : n + 1 < finish := Nat.lt_of_succ_lt hn
      have hstall := stalls_after_zero hfetch h hsingle (Nat.succ_pos n) hbefore
      have hnone := not_enters hstall
      have hwaiting := vlsuWaiting_step P (t.core (n + 1)) (t.input (n + 1))
      rw [hnone] at hwaiting
      rcases ih hbefore with ⟨hone, hidle⟩ | hloading
      · rw [hone] at hwaiting
        cases hstart : (t.core (n + 1)).vlsuStart with
        | true =>
            right
            rw [hstart] at hwaiting
            have hprogress := progress_of_executes hfetch hsteady h
              (hzero ▸ Nat.succ_pos n : last < n + 1) (Nat.le_of_lt hbefore)
            exact loading_of_start hprogress (Nat.le_of_eq hcount)
              (hsteady last finish (n + 1) h hbefore hstart) hload
              (Nat.succ.inj hwaiting) hstart
        | false =>
            left
            rw [hstart] at hwaiting
            exact ⟨hwaiting, (Vlsu.step_of_idle
              (i := (t.core (n + 1)).vlsuIn P (t.input (n + 1))) hidle hstart).right.right⟩
      · right
        cases hbusy : (t.core (n + 1)).vlsu.busy with
        | true => exact hloading.step htaken hload hstall hbusy hbefore
        | false =>
            have hworking := h.working (n + 2) (hzero ▸ Nat.succ_pos _) hn
            rw [GroupRun.core_succ, nextVlsuInflightValid_of_none hnone, hloading.left,
              hbusy] at hworking
            simp at hworking

/--
The register is written in the last cycle of the execution.
-/
theorem loaded_of_single {e : Nat} (he : e < t.vl) (hactive : t.active e = true)
    (hmask : t.MaskRead) : t.Loaded finish e := by
  obtain ⟨hfit, hmod⟩ := vl_single t hsingle
  have hin : e < t.perReg := Nat.lt_of_lt_of_le he hfit
  have hzero := last_zero hfetch h hsingle
  have hworks : (t.core 1).vlsuInflightValid = true :=
    nextVlsuInflightValid_of_enters (enters_zero t)
  obtain ⟨n, hn⟩ : exists n, finish = n + 2 := by
    have hlater := h.later
    have hne : finish ≠ 1 := fun hone =>
      Bool.noConfusion (hworks.symm.trans (hone ▸ h.finished))
    exact ⟨finish - 2, by omega⟩
  have hbefore : n + 1 < finish := by omega
  have hstall := stalls_after_zero hfetch h hsingle (Nat.succ_pos n) hbefore
  have hnone := not_enters hstall
  have hends := h.finished
  rw [hn, GroupRun.core_succ, nextVlsuInflightValid_of_none hnone,
    h.working (n + 1) (hzero ▸ Nat.succ_pos n) hbefore] at hends
  simp only [Bool.true_and, Bool.not_eq_false', Bool.and_eq_true, decide_eq_true_eq,
    Bool.not_eq_true'] at hends
  obtain ⟨hempty, hidle⟩ := hends
  rcases waits_or_loading hfetch hsteady h htaken hsingle hload hbefore with
    ⟨hone, _⟩ | hloading
  · rw [hempty] at hone
    exact absurd hone (Nat.zero_ne_one)
  · obtain ⟨data, v0, hv0, hgathers⟩ := hloading.gathers
    have hwritten : (t.core finish).prfVec.regs (t.core 0).flVAllocPreg0 =
        (t.core (n + 1)).vlsu.result := by
      rw [hn]
      apply prfVec_step_of_complete (s := t.core (n + 1)) (i := t.input (n + 1))
      · simp [vlsuCompleteValid, hloading.ends hidle, hloading.loads]
      · exact hloading.dest
    have hpassed : e < (t.core (n + 1)).vlsu.passed := by
      rw [Vlsu.passed, if_pos (Vlsu.idle_of_not_busy hidle), hgathers.op_eq, op_count]
      exact hin
    have hbit : (t.vm || v0.getLsbD e) = true := by
      rw [← hactive]
      unfold active
      cases hvm : t.vm with
      | true => rfl
      | false => rw [hv0 hvm, hmask hvm e hin (by rw [hmod]; exact he)]
    have hopActive : (t.op data v0).active e = true := by
      show (decide (e < t.vl % 128) && (t.vm || v0.getLsbD e)) = true
      rw [hmod, decide_eq_true he, hbit]
      rfl
    obtain ⟨m, hm, hport, hvalue⟩ := hgathers.gathered e hpassed hopActive
    refine ⟨m, Nat.lt_trans hm hbefore, hport, ?_⟩
    rw [destReg, Nat.div_eq_of_lt hin, Nat.mod_eq_of_lt hin, Nat.add_zero,
      RegisterAliasTable.rpreg, Bool.false_and, if_neg Bool.false_ne_true,
      destMap hfetch h hsingle hload (Nat.zero_lt_of_lt hbefore) (Nat.le_refl finish), hwritten]
    exact hvalue

end

/-!
# Without translation

The table walker never starts, so the port is free.
-/

theorem serial_of_executes {last finish : Nat} (hfetch : t.Fetched) (hsteady : t.Steady)
    (h : t.Executes last finish) (hle : n <= finish) : (t.core n).Serial := by
  rcases Nat.lt_or_ge last n with hless | hge
  · exact (progress_of_executes hfetch hsteady h hless hle).serial
  · have hheld : t.Held n := fun m hm => h.held m (Nat.le_trans hm hge)
    have hn : n < finish := Nat.lt_of_le_of_lt hge h.later
    obtain ⟨_, _, _, hprogress⟩ := progress_of_held hfetch hheld
      fun m hm => hsteady last finish m h (Nat.lt_trans hm hn)
    exact hprogress.serial

theorem walker_rests_step {s : Core} {i : Input} (hoff : s.translateEnable = false)
    (hstate : s.ptw.state = .idle) (hbusy : s.ptw.busy = false) :
    (s.step P i).ptw.state = .idle ∧ (s.step P i).ptw.busy = false := by
  have hstart : (s.ptwIn P i).start = false := by
    simp [ptwIn, ptwStart, ptwReqI, ptwReqD, dtlbStall, dtlbNeeded, itlbMiss, hoff]
  show (s.ptw.step (s.ptwIn P i)).state = .idle ∧ (s.ptw.step (s.ptwIn P i)).busy = false
  simp [Ptw.step, hstate, hstart, hbusy]

theorem portFree_of_untranslated {last finish : Nat} (hfetch : t.Fetched) (hsteady : t.Steady)
    (hoff : (t.core 0).translateEnable = false) (hstate : (t.core 0).ptw.state = .idle)
    (hbusy : (t.core 0).ptw.busy = false) (h : t.Executes last finish) : t.PortFree finish := by
  have hrests : forall n, n <= finish -> (t.core n).translateEnable = false ∧
      (t.core n).ptw.state = .idle ∧ (t.core n).ptw.busy = false := by
    intro n
    induction n with
    | zero => exact fun _ => ⟨hoff, hstate, hbusy⟩
    | succ n ih =>
        intro hle
        have hbefore := Nat.le_of_succ_le hle
        obtain ⟨hoffN, hstateN, hbusyN⟩ := ih hbefore
        have hserial := serial_of_executes hfetch hsteady h hbefore
        exact ⟨hserial.untranslated_step hoffN, walker_rests_step hoffN hstateN hbusyN⟩
  intro n hn _ hwalks
  exact Bool.noConfusion ((hrests n (Nat.le_of_lt hn)).right.right.symm.trans hwalks)

/-!
# The result
-/

/--
A vector load or store accesses its active elements and nothing else exactly when its
micro-operations all issue, the walker leaves the port alone, the mask is there in time and
the group has one register or no active element.
-/
theorem vector_access_iff (t : VlsRun P) (hfetch : t.Fetched) (hsteady : t.Steady) :
    t.Performs <-> t.Supported := by
  constructor
  · rintro ⟨last, finish, h, haccesses⟩
    obtain ⟨hmask, hgroup⟩ := conditions_of_wanted hfetch hsteady h haccesses.wanted
    refine ⟨drains_of_executes h, ?_, hmask, hgroup⟩
    intro last' finish' h'
    obtain ⟨_, hfinish⟩ := h.unique hfetch h'
    exact hfinish ▸ taken_iff.mp haccesses.taken
  · rintro ⟨hdrains, hport, hmask, hgroup⟩
    obtain ⟨last, finish, h⟩ := executes_of_drains hfetch hdrains
    have htaken : t.Taken finish := taken_iff.mpr (hport last finish h)
    refine ⟨last, finish, h, ?_, htaken, fun n a => performed_of_taken htaken, ?_⟩
    · rcases hgroup with hsingle | hnone
      · rw [wanted_of_mask hfetch hsteady h hsingle hmask]
      · rw [wanted_of_inactive hfetch hsteady h hmask hnone]
    · intro hload e he hactive
      rcases hgroup with hsingle | hnone
      · exact loaded_of_single hfetch hsteady h htaken hsingle hload he hactive hmask
      · exact Bool.noConfusion ((hnone e he).symm.trans hactive)

/--
An unmasked load from address zero finds the same operands in every cycle.
-/
theorem steady_of_zero (hbase : t.base = 0) (hreg : (t.core 0).ratRpreg0 P = 0)
    (hvm : t.vm = true) (hload : t.isStore = false) : t.Steady := by
  intro last finish n _ _ _
  constructor
  · rw [hreg, hbase]
    rfl
  · exact fun hmasked => Bool.noConfusion (hvm.symm.trans hmasked)
  · exact fun hstore => Bool.noConfusion (hload.symm.trans hstore)

/--
addi x1, x0, 8; vsetvli x0, x1, e64, m1; vle64.v v2, (x0): eight elements in one register.
-/
def singleProgram : Params := defaultParams [0x00800093, 0x0180F057, 0x02007107]

def singleRun : VlsRun singleProgram where
  powerUp := powerUp
  inputs := fun _ => quietInput
  start := 3
  dispatched := by decide +kernel
  cracked := by decide +kernel
  fetchable := by decide +kernel
  accepted := by decide +kernel
  memory := by decide +kernel
  idle := by decide +kernel
  wholeRegisters := by decide +kernel
  legalWidth := by decide +kernel
  sameWidth := by decide +kernel
  aligned := by decide +kernel
  fits := by decide +kernel
  base := 0
  source := fun _ => 0
  mask := 0
  maskRead := 0

theorem fetched_of_start (t : VlsRun P) (hoff : (t.core 0).translateEnable = false) : t.Fetched :=
  GroupRun.fetched_of_untranslated t.idle (unaligned t) hoff

theorem vector_access_iff_single : singleRun.Performs := by
  have hfetch : singleRun.Fetched := fetched_of_start singleRun (by decide +kernel)
  have hsteady : singleRun.Steady :=
    steady_of_zero rfl (by decide +kernel) (by decide +kernel) (by decide +kernel)
  apply (vector_access_iff singleRun hfetch hsteady).mpr
  refine ⟨⟨0, 2, ?_, by decide +kernel, by decide +kernel, by decide, by decide +kernel⟩,
    ?_, ?_, Or.inl (by decide +kernel)⟩
  · intro m hm
    rw [Nat.le_zero.mp hm]
    rfl
  · exact fun last finish => portFree_of_untranslated hfetch hsteady (by decide +kernel)
      (by decide +kernel) (by decide +kernel)
  · exact fun hmasked => absurd hmasked (by decide +kernel)

/--
addi x1, x0, 16; vsetvli x0, x1, e64, m2; vle64.v v2, (x0): sixteen elements in two
registers.
-/
def pairProgram : Params := defaultParams [0x01000093, 0x0190F057, 0x02007107]

def pairRun : VlsRun pairProgram where
  powerUp := powerUp
  inputs := fun _ => quietInput
  start := 3
  dispatched := by decide +kernel
  cracked := by decide +kernel
  fetchable := by decide +kernel
  accepted := by decide +kernel
  memory := by decide +kernel
  idle := by decide +kernel
  wholeRegisters := by decide +kernel
  legalWidth := by decide +kernel
  sameWidth := by decide +kernel
  aligned := by decide +kernel
  fits := by decide +kernel
  base := 0
  source := fun _ => 0
  mask := 0
  maskRead := 0

/--
Both micro-operations run to the end, and both read the elements of the first register.
-/
theorem vector_access_pair_overlaps :
    pairRun.lmul = 2 ∧ pairRun.vl = 16 ∧ pairRun.vm = true ∧ pairRun.Drains ∧
      ¬ pairRun.Performs := by
  have hfetch : pairRun.Fetched := fetched_of_start pairRun (by decide +kernel)
  have hsteady : pairRun.Steady :=
    steady_of_zero rfl (by decide +kernel) (by decide +kernel) (by decide +kernel)
  refine ⟨by decide +kernel, by decide +kernel, by decide +kernel, ?_, ?_⟩
  · refine ⟨1, 27, ?_, by decide +kernel, by decide +kernel, by decide, by decide +kernel⟩
    intro m hm
    rcases Nat.le_one_iff_eq_zero_or_eq_one.mp hm with hzero | hone
    · rw [hzero]
      rfl
    · rw [hone]
      decide +kernel
  · rintro ⟨last, finish, h, haccesses⟩
    obtain ⟨_, hnone⟩ := slice_nil_of_wanted hfetch hsteady h (by decide +kernel)
      haccesses.wanted
    have hoff := wanted_eq_nil.mp hnone 0 (by decide +kernel)
    exact absurd hoff (by decide +kernel)

end VlsRun
end Core
end Ooo
end RvCores
