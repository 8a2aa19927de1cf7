import RvCores.Block.Sv32
import RvCores.Block.Translation

/-!
# Memory management units

A core translates through one buffer and one walker, and does not care which of
the two paging schemes they implement.  The interface lists what the core sees of
them; its laws say what a buffer may hold and what a walk finds.
-/

namespace RvCores
namespace Block

abbrev WalkIn (w : Nat) := PtwIn w 44

structure Mmu (w : Nat) where
  Vpn : Type
  vpn : BitVec w -> Vpn
  Tlb : Type
  tlbReset : Tlb -> Tlb
  tlbStep : Tlb -> PageFill w -> Bool -> Tlb
  hit : Tlb -> BitVec w -> Bool
  ppn : Tlb -> BitVec w -> BitVec w
  perms : Tlb -> BitVec w -> Perms
  Ptw : Type
  ptwReset : Ptw -> Ptw
  ptwStep : Ptw -> WalkIn w -> Ptw
  busy : Ptw -> Bool
  done : Ptw -> Bool
  fault : Ptw -> Bool
  resultPpn : Ptw -> BitVec w
  resultPerms : Ptw -> Perms
  cyc : Ptw -> Bool
  addr : Ptw -> BitVec w
  /-- Some valid entry of the buffer maps this page number to this page. -/
  Holds : Tlb -> Vpn -> Page w -> Prop
  /-- Reachable combinations of the walker's state and status bits. -/
  Coherent : Ptw -> Prop
  /-- The page number of the walk in progress. -/
  request : Ptw -> Vpn
  /-- What the walk in progress will find in a memory. -/
  pending : (BitVec w -> BitVec w) -> Ptw -> Option (Page w)
  walk : (BitVec w -> BitVec w) -> BitVec 44 -> Vpn -> Option (Page w)

namespace Mmu

variable {w : Nat}

def result (m : Mmu w) (ptw : m.Ptw) : Page w :=
  { ppn := m.resultPpn ptw, perms := m.resultPerms ptw }

/-!
# Laws
-/

structure TlbLawful (m : Mmu w) : Prop where
  hit_holds : forall tlb va, m.hit tlb va = true ->
    m.Holds tlb (m.vpn va) { ppn := m.ppn tlb va, perms := m.perms tlb va }
  tlb_reset : forall tlb v p, ¬ m.Holds (m.tlbReset tlb) v p
  flush : forall tlb fill v p, ¬ m.Holds (m.tlbStep tlb fill true) v p
  fill : forall tlb fill v p, m.Holds (m.tlbStep tlb fill false) v p ->
    m.Holds tlb v p ∨ (fill.valid = true ∧ v = m.vpn fill.vaddr ∧ p = fill.page)

/--
Everything one clock edge can do to a walker: stay idle, start, wait, take an
answer, go down a level, or end.
-/
inductive WalkStep (m : Mmu w) (ptw : m.Ptw) (i : WalkIn w) : Prop where
  | idle (hbusy : m.busy ptw = false) (hbusy' : m.busy (m.ptwStep ptw i) = false)
      (hdone : m.done (m.ptwStep ptw i) = false)
  | start (hbusy : m.busy ptw = false) (hstart : i.start = true)
      (hdone : m.done ptw = false) (hcyc : m.cyc (m.ptwStep ptw i) = true)
      (hrequest : m.request (m.ptwStep ptw i) = m.vpn i.vaddr)
      (hpending : forall read, m.pending read (m.ptwStep ptw i) =
        m.walk read i.satpPpn (m.vpn i.vaddr))
  | wait (hcyc : m.cyc ptw = true) (hack : i.ack = false)
      (hcyc' : m.cyc (m.ptwStep ptw i) = true)
      (haddr : m.addr (m.ptwStep ptw i) = m.addr ptw)
      (hrequest : m.request (m.ptwStep ptw i) = m.request ptw)
      (hpending : forall read, m.pending read (m.ptwStep ptw i) = m.pending read ptw)
  | answer (hcyc : m.cyc ptw = true) (hack : i.ack = true)
      (hbusy' : m.busy (m.ptwStep ptw i) = true)
      (hcyc' : m.cyc (m.ptwStep ptw i) = false)
      (hrequest : m.request (m.ptwStep ptw i) = m.request ptw)
      (hpending : forall read, i.dataIn = read (m.addr ptw) ->
        m.pending read (m.ptwStep ptw i) = m.pending read ptw)
  | descend (hbusy : m.busy ptw = true) (hcyc : m.cyc ptw = false)
      (hcyc' : m.cyc (m.ptwStep ptw i) = true)
      (hrequest : m.request (m.ptwStep ptw i) = m.request ptw)
      (hpending : forall read, m.pending read (m.ptwStep ptw i) = m.pending read ptw)
  | finish (hbusy : m.busy ptw = true) (hcyc : m.cyc ptw = false)
      (hbusy' : m.busy (m.ptwStep ptw i) = false)
      (hdone' : m.done (m.ptwStep ptw i) = true)
      (hrequest : m.request (m.ptwStep ptw i) = m.request ptw)
      (hresult : m.fault (m.ptwStep ptw i) = false -> forall read,
        m.pending read ptw = some (m.result (m.ptwStep ptw i)))

structure PtwLawful (m : Mmu w) : Prop where
  reset : forall ptw, m.Coherent (m.ptwReset ptw)
  reset_idle : forall ptw, m.busy (m.ptwReset ptw) = false
  reset_done : forall ptw, m.done (m.ptwReset ptw) = false
  step : forall ptw i, m.Coherent ptw -> m.Coherent (m.ptwStep ptw i)
  busy_of_cyc : forall ptw, m.Coherent ptw -> m.cyc ptw = true -> m.busy ptw = true
  idle_of_done : forall ptw, m.Coherent ptw -> m.done ptw = true -> m.busy ptw = false
  cases : forall ptw i, m.Coherent ptw -> m.WalkStep ptw i

structure Lawful (m : Mmu w) : Prop extends TlbLawful m, PtwLawful m

end Mmu

/-!
# The unit of a scheme
-/

section Scheme

open Mmu

variable {Level : Type} {w v p : Nat} [PagingScheme w Level v p]

def walkIn (i : WalkIn w) : PtwIn w p :=
  { start := i.start, vaddr := i.vaddr, satpPpn := i.satpPpn.setWidth p
    isFetch := i.isFetch, isStore := i.isStore, privIsU := i.privIsU
    dataIn := i.dataIn, ack := i.ack }

variable (w) in
def PagingScheme.mmu : Mmu w where
  Vpn := BitVec v
  vpn := PagingScheme.vpn
  Tlb := Tlb w v
  tlbReset := Tlb.flush
  tlbStep := Tlb.step
  hit := Tlb.hit
  ppn := fun tlb va => (tlb.lookup va).ppn
  perms := fun tlb va => (tlb.lookup va).perms
  Ptw := Ptw Level w v p
  ptwReset := Ptw.reset
  ptwStep := fun ptw i => ptw.step (walkIn i)
  busy := Ptw.busy
  done := Ptw.done
  fault := fun ptw => ptw.result.fault
  resultPpn := fun ptw => ptw.result.ppn
  resultPerms := fun ptw => ptw.result.perms
  cyc := Ptw.cyc
  addr := Ptw.addr
  Holds := fun tlb n page => exists k, k < Tlb.entries ∧ (tlb.entry k).valid = true ∧
    (tlb.entry k).tag = n ∧ page = { ppn := (tlb.entry k).ppn, perms := (tlb.entry k).perms }
  Coherent := Ptw.Coherent
  request := fun ptw => ptw.request.vpn
  pending := Ptw.pending
  walk := fun read satpPpn n => walk read (satpPpn.setWidth p) n

theorem PagingScheme.tlbLawful : (PagingScheme.mmu w).TlbLawful where
  hit_holds := by
    intro tlb va hhit
    simp only [PagingScheme.mmu, Tlb.hit, Bool.and_eq_true, decide_eq_true_eq] at hhit
    exact ⟨Tlb.index (PagingScheme.vpn va), Tlb.index_lt _, hhit.left, hhit.right, rfl⟩
  tlb_reset := by
    rintro tlb n page ⟨k, hk, hvalid, _⟩
    cases (Tlb.flush_valid tlb hk).symm.trans hvalid
  flush := by
    rintro tlb fill n page ⟨k, hk, hvalid, _⟩
    cases (Tlb.flush_valid tlb hk).symm.trans hvalid
  fill := by
    rintro tlb fill n page ⟨k, hk, hvalid, htag, hpage⟩
    rcases Tlb.step_entry tlb fill k with hsame | ⟨hfill, hnew⟩
    · change (Tlb.step tlb fill false).entry k = _ at hsame
      exact Or.inl ⟨k, hk, hsame ▸ hvalid, hsame ▸ htag, hsame ▸ hpage⟩
    · refine Or.inr ⟨hfill, htag.symm.trans (congrArg TlbEntry.tag hnew), ?_⟩
      rw [hpage]
      exact congrArg (fun e : TlbEntry w v => Page.mk e.ppn e.perms) hnew

/--
Each state of the walker allows one or two kinds of step.
-/
theorem PagingScheme.walkStep (ptw : Ptw Level w v p) (i : WalkIn w) (hcoherent : ptw.Coherent) :
    (PagingScheme.mmu w).WalkStep ptw i := by
  cases hstate : ptw.state with
  | idle =>
      have hbusy := hcoherent.not_busy hstate
      cases hstart : i.start && !ptw.busy && !ptw.done with
      | true =>
          have hstep : ptw.step (walkIn i) = _ := Ptw.step_start hstate hstart
          simp only [Bool.and_eq_true, Bool.not_eq_true'] at hstart
          refine WalkStep.start hbusy hstart.left.left hstart.right (congrArg Ptw.cyc hstep)
            (congrArg (fun u => u.request.vpn) hstep) fun read => ?_
          exact (congrArg (Ptw.pending read) hstep).trans (waitAt_top read _ _)
      | false =>
          have hstep : ptw.step (walkIn i) = _ := Ptw.step_rest hstate hstart
          exact WalkStep.idle hbusy ((congrArg Ptw.busy hstep).trans hbusy)
            (congrArg Ptw.done hstep)
  | wait level =>
      have hcyc : ptw.cyc = true := Ptw.cyc_iff.mpr ⟨level, hstate⟩
      have hactive : ptw.state ≠ .idle := by simp [hstate]
      cases hack : i.ack with
      | false =>
          have hstep : ptw.step (walkIn i) = _ := Ptw.step_wait hstate hack
          have haddr := congrArg Ptw.addr hstep
          have hpending := fun read => congrArg (Ptw.pending read) hstep
          exact WalkStep.wait hcyc hack ((congrArg Ptw.cyc hstep).trans hcyc) haddr
            (congrArg (fun u => u.request.vpn) hstep) hpending
      | true =>
          have hstep : ptw.step (walkIn i) = _ := Ptw.step_answer hstate hack
          refine WalkStep.answer hcyc hack
            ((congrArg Ptw.busy hstep).trans (hcoherent.busy_of_state hactive))
            (congrArg Ptw.cyc hstep) (congrArg (fun u => u.request.vpn) hstep)
            fun read hdata => ?_
          exact Ptw.step_pending (i := walkIn i) hactive (fun _ _ => hdata) (by simp [hstep])
  | decode level =>
      have hcyc : ptw.cyc = false := by simp [Ptw.cyc, hstate]
      have hactive : ptw.state ≠ .idle := by simp [hstate]
      have hbusy := hcoherent.busy_of_state hactive
      have hrequest : (ptw.step (walkIn i)).request.vpn = ptw.request.vpn :=
        congrArg WalkRequest.vpn (Ptw.step_request hactive)
      have hstep : ptw.step (walkIn i) = _ := Ptw.step_decode hstate
      rcases Ptw.decode_cases { ptw with done := false } level with
        ⟨r, hends, _⟩ | ⟨next, hnext, _⟩
      · rw [hends] at hstep
        refine WalkStep.finish hbusy hcyc (congrArg Ptw.busy hstep) (congrArg Ptw.done hstep)
          hrequest fun hok read => ?_
        exact Ptw.step_result hactive (congrArg Ptw.state hstep) hok
      · rw [hnext] at hstep
        have hwait : (ptw.step (walkIn i)).state = .wait next := congrArg Ptw.state hstep
        refine WalkStep.descend hbusy hcyc (Ptw.cyc_iff.mpr ⟨next, hwait⟩) hrequest
          fun read => ?_
        refine Ptw.step_pending hactive (fun hcyc' _ => ?_) (by simp [hwait])
        rw [hcyc] at hcyc'
        cases hcyc'

theorem PagingScheme.ptwLawful : (PagingScheme.mmu w).PtwLawful where
  reset := Ptw.coherent_reset
  reset_idle := fun _ => rfl
  reset_done := fun _ => rfl
  step := fun _ _ h => Ptw.step_coherent h
  busy_of_cyc := by
    intro ptw hcoherent hcyc
    obtain ⟨level, hstate⟩ := Ptw.cyc_iff.mp hcyc
    exact hcoherent.busy_of_state (by simp [hstate])
  idle_of_done := fun _ hcoherent hdone => hcoherent.not_busy (hcoherent.done hdone)
  cases := PagingScheme.walkStep

theorem PagingScheme.mmu_lawful : (PagingScheme.mmu w).Lawful where
  toTlbLawful := PagingScheme.tlbLawful
  toPtwLawful := PagingScheme.ptwLawful

end Scheme

namespace Sv32

def mmu : Mmu 32 := PagingScheme.mmu 32

theorem mmu_lawful : mmu.Lawful := PagingScheme.mmu_lawful

end Sv32

namespace Sv39

def mmu : Mmu 64 := PagingScheme.mmu 64

theorem mmu_lawful : mmu.Lawful := PagingScheme.mmu_lawful

end Sv39

/-!
# Register widths
-/

inductive Xlen where
  | rv32
  | rv64
deriving DecidableEq, Repr

namespace Xlen

def bits : Xlen -> Nat
  | .rv32 => 32
  | .rv64 => 64

def mmu : (x : Xlen) -> Mmu x.bits
  | .rv32 => Sv32.mmu
  | .rv64 => Sv39.mmu

theorem mmu_lawful : forall x : Xlen, x.mmu.Lawful
  | .rv32 => Sv32.mmu_lawful
  | .rv64 => Sv39.mmu_lawful

end Xlen
end Block
end RvCores
