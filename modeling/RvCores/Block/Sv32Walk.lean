import RvCores.Block.Sv32
import RvCores.Lib.ReadPlan

/-!
# The two-level walker as a reader

What the walker does with an entry is a plan of the entries that are still to be read.  One
register holds the entry of either level; by the time it is written again the address that
was made from it has been answered.
-/

namespace RvCores
namespace Block
namespace Sv32

open Lib

namespace WalkRequest

variable (q : WalkRequest)

/--
Nothing is found when the walk faults.
-/
def found (level : Level) (pte : BitVec 32) : Option (Page 32) :=
  if misaligned level pte then none
  else if q.permitted pte then some { ppn := q.leafPpn level pte, perms := Pte.perms pte }
  else none

def decodes0 (pte : BitVec 32) : ReadPlan (BitVec 32) (BitVec 32) (Option (Page 32)) :=
  if Pte.v pte && Pte.leaf pte then .answer (q.found .l0 pte) else .answer none

def decodes1 (pte : BitVec 32) : ReadPlan (BitVec 32) (BitVec 32) (Option (Page 32)) :=
  if !Pte.v pte then .answer none
  else if Pte.leaf pte then .answer (q.found .l1 pte)
  else .read (q.l0Addr pte) q.decodes0

def decodes (level : Level) : BitVec 32 -> ReadPlan (BitVec 32) (BitVec 32) (Option (Page 32)) :=
  match level with
  | .l0 => q.decodes0
  | .l1 => q.decodes1

def plan : ReadPlan (BitVec 32) (BitVec 32) (Option (Page 32)) :=
  .read q.l1Addr q.decodes1

end WalkRequest

namespace Ptw

open Block.Ptw

structure Rests (u : Ptw) : Prop where
  state : u.state = .idle
  busy : u.busy = false

structure Asks (a : BitVec 32)
    (next : BitVec 32 -> ReadPlan (BitVec 32) (BitVec 32) (Option (Page 32))) (u : Ptw) :
    Prop where
  busy : u.busy = true
  done : u.done = false
  waits : exists level, u.state = .wait level ∧ next = WalkRequest.decodes u.request level
  addr : u.addr = a

structure Decodes (p : ReadPlan (BitVec 32) (BitVec 32) (Option (Page 32))) (u : Ptw) :
    Prop where
  busy : u.busy = true
  done : u.done = false
  decodes : exists level, u.state = .decode level ∧ p = WalkRequest.decodes u.request level u.pte

def reader : Reader Ptw PtwIn (BitVec 32) (BitVec 32) (Option (Page 32)) where
  step := step
  start := PtwIn.start
  plan := fun i => WalkRequest.plan i.request
  busy := busy
  done := done
  outcome := outcome
  cyc := cyc
  addr := addr
  ack := PtwIn.ack
  data := PtwIn.dataIn
  Rests := Rests
  Asks := Asks
  Decodes := Decodes

variable {u : Ptw} {i : PtwIn} {a : BitVec 32}
  {next : BitVec 32 -> ReadPlan (BitVec 32) (BitVec 32) (Option (Page 32))}
  {p : ReadPlan (BitVec 32) (BitVec 32) (Option (Page 32))}

theorem Rests.begin (h : Rests u) (hdone : u.done = false) (hstart : i.start = true) :
    Asks (WalkRequest.l1Addr i.request) (WalkRequest.decodes1 i.request) (u.step i) := by
  have hstep : u.step i = ({ u with done := false } : Ptw).begin i := by
    simp [step, h.state, h.busy, hdone, hstart]
  rw [hstep]
  exact ⟨rfl, rfl, ⟨.l1, rfl, rfl⟩, rfl⟩

theorem Rests.rest (h : Rests u) (hquiet : u.done = true ∨ i.start = false) :
    Rests (u.step i) ∧ (u.step i).done = false := by
  have hstep : u.step i = { u with done := false } := by
    rcases hquiet with hdone | hstart
    · simp [step, h.state, hdone]
    · simp [step, h.state, hstart]
  rw [hstep]
  exact ⟨⟨h.state, h.busy⟩, rfl⟩

theorem Asks.stay (h : Asks a next u) (hack : i.ack = false) : Asks a next (u.step i) := by
  obtain ⟨level, hstate, hnext⟩ := h.waits
  have hstep : u.step i = { u with done := false } := by simp [step, hstate, hack]
  rw [hstep]
  exact ⟨h.busy, rfl, ⟨level, hstate, hnext⟩, h.addr⟩

theorem Asks.answer (h : Asks a next u) (hack : i.ack = true) :
    Decodes (next i.dataIn) (u.step i) := by
  obtain ⟨level, hstate, hnext⟩ := h.waits
  have hstep : u.step i =
      { u with done := false, pte := i.dataIn, state := .decode level } := by
    simp [step, hstate, hack]
  rw [hstep]
  exact ⟨h.busy, rfl, ⟨level, rfl, by rw [hnext]⟩⟩

theorem finished_fault (u : Ptw) : reader.Finished none (u.finish u.faultResult) :=
  ⟨⟨rfl, rfl⟩, rfl, rfl⟩

theorem finished_leaf (u : Ptw) (level : Level) :
    reader.Finished (WalkRequest.found u.request level u.pte) (u.finish (u.leafResult level)) := by
  have hmisaligned : PagingScheme.misaligned level u.pte = WalkRequest.misaligned level u.pte :=
    rfl
  unfold WalkRequest.found leafResult
  rw [hmisaligned]
  cases WalkRequest.misaligned level u.pte with
  | true => exact finished_fault u
  | false =>
      cases u.request.permitted u.pte with
      | false => exact finished_fault u
      | true => exact ⟨⟨rfl, rfl⟩, rfl, rfl⟩

theorem follows_decode (u : Ptw) (level : Level) (hbusy : u.busy = true) (hdone : u.done = false) :
    reader.Follows (WalkRequest.decodes u.request level u.pte) (u.decode level) := by
  cases hv : Pte.v u.pte with
  | false =>
      have hplan : WalkRequest.decodes u.request level u.pte = .answer none := by
        cases level <;> simp [WalkRequest.decodes, WalkRequest.decodes0,
          WalkRequest.decodes1, hv]
      have hunit : u.decode level = u.finish u.faultResult := by simp [decode, hv]
      rw [hplan, hunit]
      exact finished_fault u
  | true =>
      cases hleaf : Pte.leaf u.pte with
      | true =>
          have hplan : WalkRequest.decodes u.request level u.pte =
              .answer (WalkRequest.found u.request level u.pte) := by
            cases level <;> simp [WalkRequest.decodes, WalkRequest.decodes0,
              WalkRequest.decodes1, hv, hleaf]
          have hunit : u.decode level = u.finish (u.leafResult level) := by
            simp [decode, hv, hleaf]
          rw [hplan, hunit]
          exact finished_leaf u level
      | false =>
          cases level with
          | l0 =>
              have hplan : WalkRequest.decodes u.request .l0 u.pte = .answer none := by
                simp [WalkRequest.decodes, WalkRequest.decodes0, hleaf]
              have hunit : u.decode .l0 = u.finish u.faultResult := by
                simp [decode, hv, hleaf, PagingScheme.below]
              rw [hplan, hunit]
              exact finished_fault u
          | l1 =>
              have hplan : WalkRequest.decodes u.request .l1 u.pte =
                  .read (WalkRequest.l0Addr u.request u.pte) (WalkRequest.decodes0 u.request) := by
                simp [WalkRequest.decodes, WalkRequest.decodes1, hv, hleaf]
              have hunit : u.decode .l1 = { u with state := .wait .l0 } := by
                simp [decode, hv, hleaf, PagingScheme.below]
              rw [hplan, hunit]
              exact ⟨hbusy, hdone, ⟨.l0, rfl, rfl⟩, rfl⟩

theorem Decodes.step_follows (h : Decodes p u) (i : PtwIn) : reader.Follows p (u.step i) := by
  obtain ⟨level, hstate, hp⟩ := h.decodes
  have hstep : u.step i = ({ u with done := false } : Ptw).decode level := by
    simp [step, hstate]
  rw [hstep, hp]
  exact follows_decode { u with done := false } level h.busy rfl

theorem reader_lawful : reader.Lawful where
  rests_cyc := fun h => by simp [reader, cyc, Rests.state h]
  asks_busy := Asks.busy
  asks_done := Asks.done
  asks_cyc := fun h => by
    obtain ⟨level, hstate, _⟩ := Asks.waits h
    simp [reader, cyc, hstate]
  asks_addr := Asks.addr
  decodes_busy := Decodes.busy
  decodes_done := Decodes.done
  decodes_cyc := fun h => by
    obtain ⟨level, hstate, _⟩ := Decodes.decodes h
    simp [reader, cyc, hstate]
  begin := Rests.begin
  rest := Rests.rest
  stay := Asks.stay
  answer := Asks.answer
  decode := fun i h => h.step_follows i

end Ptw
end Sv32
end Block
end RvCores
