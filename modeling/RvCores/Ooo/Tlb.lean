import RvCores.Ooo.Dispatch
import RvCores.Ooo.PowerUp
import RvCores.Lib.Run

/-!
# Coherence of the translation buffer

A filled entry takes its page number from the program counter or the queue head
of the cycle in which the walk ends, and its contents from the walk of the page
number that was latched when the walk began.
-/

namespace RvCores
namespace Ooo
namespace Core

open Block Lib

variable {P : Params} {s : Core} {i : Input}

/-!
# What a walk returns
-/

def pageRead (P : Params) (s : Core) : BitVec 64 -> BitVec 64 :=
  DataMemory.fetchRaw P.dmemSizeBytes s.dmem.bytes

def walk (P : Params) (s : Core) (v : BitVec 27) : Option (Page 64) :=
  sv39Walk (s.pageRead P) s.csr.satpPpnVal v

def TlbCoherent (P : Params) (s : Core) : Prop :=
  forall k, k < Tlb.entries -> (s.tlb.entry k).valid = true ->
    s.walk P (s.tlb.entry k).tag =
      some { ppn := (s.tlb.entry k).ppn, perms := (s.tlb.entry k).perms }

def SameTables (P : Params) (s t : Core) : Prop :=
  t.csr.satp = s.csr.satp ∧ forall v, t.walk P v = s.walk P v

def FillMatches (P : Params) (s : Core) (i : Input) : Prop :=
  (s.ptwFill P i).valid = true -> vpn (s.ptwFill P i).vaddr = s.ptw.request.vpn

theorem satpPpnVal_eq {t : Core} (h : t.csr.satp = s.csr.satp) :
    t.csr.satpPpnVal = s.csr.satpPpnVal := by
  simp [Csr.satpPpnVal, h]

/-!
# The walker and the memory

While a walk is in progress the walker owns the port, so the memory does not
change and answers the request of the cycle before.
-/

structure WalkInv (P : Params) (s : Core) : Prop where
  ptw : s.ptw.Coherent
  answers : s.ptw.cyc = true -> s.ptwMAck = true ->
    s.dmemReadData = s.pageRead P s.ptw.addr
  pending : s.ptw.state ≠ .idle ->
    s.ptw.pending (s.pageRead P) = s.walk P s.ptw.request.vpn
  finished : s.ptw.done = true -> s.ptw.result.fault = false ->
    s.walk P s.ptw.request.vpn =
      some { ppn := s.ptw.result.ppn, perms := s.ptw.result.perms }

theorem dmemArb_of_walk (h : s.ptw.Coherent) (hbusy : s.ptw.state ≠ .idle) :
    s.dmemArb P i = s.ptwRequest := by
  have hflag : s.ptw.busy = true := by simp [h.busy, hbusy]
  simp [dmemArb, hflag]

theorem pageRead_step_of_walk (h : s.ptw.Coherent) (hbusy : s.ptw.state ≠ .idle) :
    (s.step P i).pageRead P = s.pageRead P := by
  have hbytes : (s.step P i).dmem.bytes = s.dmem.bytes := by
    change (s.dmem.step P.dmemSizeBytes (s.dmemArb P i)).bytes = s.dmem.bytes
    rw [dmemArb_of_walk h hbusy]
    rfl
  rw [pageRead, hbytes]
  rfl

theorem dmemReadData_step_of_walk (h : s.ptw.Coherent) (hcyc : s.ptw.cyc = true) :
    (s.step P i).dmemReadData = s.pageRead P s.ptw.addr := by
  have hbusy : s.ptw.state ≠ .idle := by
    rcases Ptw.cyc_iff.mp hcyc with ⟨level, hstate⟩
    simp [hstate]
  change (s.dmem.step P.dmemSizeBytes (s.dmemArb P i)).readData = _
  rw [dmemArb_of_walk h hbusy]
  simp [DataMemory.readData, DataMemory.step, ptwRequest, hcyc, pageRead]

theorem answers_step (h : s.ptw.Coherent) :
    (s.step P i).ptw.cyc = true -> (s.step P i).ptwMAck = true ->
      (s.step P i).dmemReadData = (s.step P i).pageRead P (s.step P i).ptw.addr := by
  intro hcyc hack
  have hcyc0 : s.ptw.cyc = true := hack
  rcases Ptw.cyc_iff.mp hcyc0 with ⟨level, hstate⟩
  rcases Ptw.cyc_iff.mp hcyc with ⟨level', hstate'⟩
  have haddr : (s.step P i).ptw.addr = s.ptw.addr :=
    Ptw.step_addr_of_wait hstate hstate'
  rw [dmemReadData_step_of_walk h hcyc0, pageRead_step_of_walk h (by simp [hstate]), haddr]

theorem pending_begin (hidle : s.ptw.state = .idle)
    (hsatp : (s.step P i).csr.satp = s.csr.satp)
    (hbusy : (s.step P i).ptw.state ≠ .idle) :
    (s.step P i).ptw.pending ((s.step P i).pageRead P) =
      (s.step P i).walk P (s.step P i).ptw.request.vpn := by
  obtain ⟨hrequest, hstate⟩ := Ptw.step_begin (i := s.ptwIn P i) hidle hbusy
  have hsatp' : (s.step P i).ptw.request.satpPpn = (s.step P i).csr.satpPpnVal := by
    rw [satpPpnVal_eq hsatp]
    exact congrArg WalkRequest.satpPpn hrequest
  have hstate' : (s.step P i).ptw.state = .wait .l2 := hstate
  rw [Ptw.pending, hstate', walk, <- hsatp']
  exact waitAt_top _ _ _

theorem walkInv_of_idle (h : s.ptw.Coherent) (hidle : s.ptw.state = .idle)
    (hsatp : (s.step P i).csr.satp = s.csr.satp) :
    WalkInv P (s.step P i) := by
  constructor
  · exact Ptw.step_coherent h
  · exact answers_step h
  · exact pending_begin hidle hsatp
  · intro hdone
    exact absurd hidle (Ptw.step_busy_of_done hdone)

theorem walkInv_step (h : WalkInv P s) (hsame : SameTables P s (s.step P i)) :
    WalkInv P (s.step P i) := by
  by_cases hidle : s.ptw.state = .idle
  · exact walkInv_of_idle h.ptw hidle hsame.left
  · have hread : (s.step P i).pageRead P = s.pageRead P :=
      pageRead_step_of_walk h.ptw hidle
    have hrequest : (s.step P i).ptw.request = s.ptw.request := Ptw.step_request hidle
    have hcoherent : (s.step P i).ptw.Coherent := Ptw.step_coherent h.ptw
    constructor
    · exact hcoherent
    · exact answers_step h.ptw
    · intro hbusy
      rw [hread, hrequest, hsame.right, <- h.pending hidle]
      exact Ptw.step_pending hidle h.answers hbusy
    · intro hdone hok
      rw [hrequest, hsame.right, <- h.pending hidle]
      exact Ptw.step_result hidle (hcoherent.done hdone) hok

/-!
# The buffer
-/

theorem tlbCoherent_step (hinv : WalkInv P s) (hfill : FillMatches P s i)
    (hsame : SameTables P s (s.step P i)) (h : TlbCoherent P s) :
    TlbCoherent P (s.step P i) := by
  intro k hk hvalid
  rw [hsame.right]
  change ((s.tlb.step (s.ptwFill P i) (s.sfenceReal P i)).entry k).valid = true at hvalid
  change s.walk P ((s.tlb.step (s.ptwFill P i) (s.sfenceReal P i)).entry k).tag =
    some { ppn := ((s.tlb.step (s.ptwFill P i) (s.sfenceReal P i)).entry k).ppn
           perms := ((s.tlb.step (s.ptwFill P i) (s.sfenceReal P i)).entry k).perms }
  cases hflush : s.sfenceReal P i with
  | true => simp [Tlb.step, hflush, Tlb.flush_valid _ hk] at hvalid
  | false =>
      rw [hflush] at hvalid
      rcases Tlb.step_entry s.tlb (s.ptwFill P i) k with hkept | ⟨hfills, hnew⟩
      · rw [hkept] at hvalid ⊢
        exact h k hk hvalid
      · -- The written entry: its page number is the one the walk was about.
        have htag : (s.ptwFill P i).entry.tag = s.ptw.request.vpn := hfill hfills
        have hdone : s.ptw.done = true ∧ s.ptw.result.fault = false := by
          simp only [ptwFill, ptwDoneI, ptwDoneD, Bool.and_eq_true, Bool.or_eq_true,
            Bool.not_eq_true'] at hfills
          exact ⟨hfills.left.elim And.left And.left, hfills.right⟩
        rw [hnew, htag]
        exact hinv.finished hdone.left hdone.right

/-!
# Runs since a flush
-/

theorem ptwCoherent_of_reachable {s0 : Core}
    (hrun : Reachable (step P) (s0.reset P) s) :
    s.ptw.Coherent := by
  refine @invariant_of_reachableWhen _ _ _ _ (fun s => s.ptw.Coherent) _ _ ?_ ?_ hrun
  · exact Ptw.coherent_reset s0.ptw
  · intro u i h _
    exact Ptw.step_coherent h

theorem satp_step_of_no_write (h : s.csrWriteFire P = false) :
    (s.step P i).csr.satp = s.csr.satp := by
  change (s.csr.step vlen (s.csrIn P i)).satp = s.csr.satp
  have hwrites : Csr.writes (s.csrIn P i) CsrAddr.satp = false := by
    simp [Csr.writes, csrIn, h]
  simp [Csr.step, hwrites]

/--
The state just after a flush of the whole buffer, by reset or by an executed
fence, with no walk in progress during the flush.
-/
def JustFlushed (P : Params) (s0 s : Core) : Prop :=
  s = s0.reset P ∨
    exists u i, Reachable (step P) (s0.reset P) u ∧ u.sfenceReal P i = true ∧
      u.ptw.busy = false ∧ s = u.step P i

theorem walkInv_of_justFlushed {s0 : Core} (h : JustFlushed P s0 s) :
    WalkInv P s ∧ TlbCoherent P s := by
  rcases h with rfl | ⟨u, i, hrun, hfence, hbusy, rfl⟩
  · constructor
    · constructor
      · exact Ptw.coherent_reset s0.ptw
      · intro hcyc
        simp [reset, Ptw.reset, Ptw.cyc] at hcyc
      · intro hstate
        simp [reset, Ptw.reset] at hstate
      · intro hdone
        simp [reset, Ptw.reset] at hdone
    · intro k hk hvalid
      change (s0.tlb.flush.entry k).valid = true at hvalid
      simp [Tlb.flush_valid _ hk] at hvalid
  · have hcoherent := ptwCoherent_of_reachable hrun
    have hidle : u.ptw.state = .idle := hcoherent.idle_of_not_busy hbusy
    have hdispatch : u.doDispatch P i = true := by
      simp only [sfenceReal, Bool.and_eq_true] at hfence
      exact hfence.left.left
    have hwrite : u.csrWriteFire P = false := by
      simp [csrWriteFire, (canDispatch_of_doDispatch hdispatch).noCsr]
    constructor
    · exact walkInv_of_idle hcoherent hidle (satp_step_of_no_write hwrite)
    · intro k hk hvalid
      change ((u.tlb.step (u.ptwFill P i) (u.sfenceReal P i)).entry k).valid = true at hvalid
      simp [Tlb.step, hfence, Tlb.flush_valid _ hk] at hvalid

def TablesKept (P : Params) (s : Core) (i : Input) : Prop :=
  SameTables P s (s.step P i)

theorem tlb_coherent {s0 s1 : Core} (hflush : JustFlushed P s0 s1)
    (hrun : ReachableWhen (step P)
      (fun s i => TablesKept P s i ∧ FillMatches P s i) s1 s) :
    TlbCoherent P s := by
  have hinv : WalkInv P s ∧ TlbCoherent P s := by
    refine @invariant_of_reachableWhen _ _ _ _
      (fun s => WalkInv P s ∧ TlbCoherent P s) _ _ (walkInv_of_justFlushed hflush) ?_ hrun
    rintro u i ⟨hwalk, htlb⟩ ⟨hsame, hfill⟩
    exact ⟨walkInv_step hwalk hsame, tlbCoherent_step hwalk hfill hsame htlb⟩
  exact hinv.right

/-!
# Concrete runs

The checks below are on the port and the write enable: nothing is stored and no
control register is written, so the tables stay as they are.
-/

def NothingWritten (P : Params) (s : Core) (i : Input) : Prop :=
  (s.dmemArb P i).memWrite = false ∧ s.csrWriteFire P = false

theorem tablesKept_of_nothingWritten (h : NothingWritten P s i) : TablesKept P s i := by
  have hsatp : (s.step P i).csr.satp = s.csr.satp := satp_step_of_no_write h.right
  have hbytes : (s.step P i).dmem.bytes = s.dmem.bytes := by
    change (s.dmem.step P.dmemSizeBytes (s.dmemArb P i)).bytes = s.dmem.bytes
    simp [DataMemory.step, h.left]
  refine ⟨hsatp, ?_⟩
  intro v
  rw [walk, walk, satpPpnVal_eq hsatp, pageRead, pageRead, hbytes]

instance (P : Params) (s : Core) (i : Input) : Decidable (NothingWritten P s i) :=
  inferInstanceAs (Decidable (_ ∧ _))

instance (P : Params) (s : Core) (i : Input) : Decidable (FillMatches P s i) :=
  inferInstanceAs (Decidable (_ -> _))

/--
Machine mode maps everything by one leaf entry, fences, and returns to user mode
at the last word of the first page.  There a taken branch that is predicted not
taken moves the program counter back while the walk of the second page runs.
-/
def pageEndProgram : Params :=
  defaultParams
    ([0x01b00093, 0x00100113, 0x03f11113, 0x00103023, 0x18011073, 0x000011b7, 0xffc18193,
      0x34119073, 0x12000073, 0x30200073, 0x0000006f] ++ List.replicate 1012 0 ++
      [0x82000663])

def pageEndState (n : Nat) : Core :=
  run (step pageEndProgram) (powerUp.reset pageEndProgram) (List.replicate n quietInput)

theorem justFlushed_pageEnd : JustFlushed pageEndProgram powerUp (pageEndState 10) :=
  Or.inr ⟨pageEndState 9, quietInput, reachable_run _ _, by decide +kernel,
    by decide +kernel, rfl⟩

theorem pageEndState_add (m n : Nat) :
    pageEndState (m + n) =
      run (step pageEndProgram) (pageEndState m) (List.replicate n quietInput) := by
  unfold pageEndState run
  rw [List.replicate_add, List.foldl_append]

theorem tlb_coherent_pageEnd :
    ((pageEndState 18).tlb.entry 0).valid = true ∧
      TlbCoherent pageEndProgram (pageEndState 18) := by
  have hrun : ReachableWhen (step pageEndProgram)
      (fun s i => NothingWritten pageEndProgram s i ∧ FillMatches pageEndProgram s i)
      (pageEndState 10) (pageEndState (10 + 8)) := by
    rw [pageEndState_add 10 8]
    exact reachableWhen_run (by decide +kernel)
  refine ⟨by decide +kernel, tlb_coherent justFlushed_pageEnd ?_⟩
  apply reachableWhen_mono _ hrun
  intro s i h
  exact ⟨tablesKept_of_nothingWritten h.left, h.right⟩

theorem redirect_during_walk_breaks_tlb :
    exists s1 s, JustFlushed pageEndProgram powerUp s1 ∧
      ReachableWhen (step pageEndProgram) (TablesKept pageEndProgram) s1 s ∧
      ¬ TlbCoherent pageEndProgram s := by
  refine ⟨pageEndState 10, pageEndState 24, justFlushed_pageEnd, ?_, ?_⟩
  · have hrun : ReachableWhen (step pageEndProgram) (NothingWritten pageEndProgram)
        (pageEndState 10) (pageEndState (10 + 14)) := by
      rw [pageEndState_add 10 14]
      exact reachableWhen_run (by decide +kernel)
    exact reachableWhen_mono (fun _ _ h => tablesKept_of_nothingWritten h) hrun
  · intro hcoherent
    have hentry := hcoherent 0 (by decide) (by decide +kernel)
    revert hentry
    decide +kernel

end Core
end Ooo
end RvCores
