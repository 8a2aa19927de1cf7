import RvCores.Pipe.OperandPath
import RvCores.Soc.Timeless

/-!
# The load unit at the memory port

The memory stage keeps its instruction until the port has served it.  A load leaves its
request on the bus for the cycle after the acknowledge and takes the word there, a
store leaves in the cycle of the acknowledge, and an atomic operation makes a read and a
write of its own.
-/

namespace RvCores
namespace Soc

open Isa Block Pipe

variable {w : Nat} {m : Mmu w} {P : RamPort w}

namespace System

variable (cfg : Config w) (size : Nat) (s : System m P)

/-!
# Its requests
-/

/--
The request of the load unit, as the memory sees it.
-/
def access : Access w :=
  { bus := { s.lsuBus cfg with
      stb := s.core.lsuCyc && inRam size s.core.reg3.aluOut }
    late := !s.core.amoActive }

/--
The load unit is alone on the bus: there is no data cache, and the walker rests.
-/
structure Alone (cfg : Config w) (s : System m P) : Prop where
  uncached : cfg.cached = false
  walker : m.busy s.core.ptw = false

def Serving (D : Session.Discipline P size) (cfg : Config w) (s : System m P) : Prop :=
  if inRam size s.core.reg3.aluOut then
    exists age, D.Attending s.ram (s.access cfg size) age false
  else D.Idle s.ram false

/--
What the port has done for the instruction in memory, which finds the bytes `mem`.
-/
inductive Lsu (D : Session.Discipline P size) (cfg : Config w) (s : System m P) (mem : Bytes) :
    Prop where
  | none (hread : s.core.reg3.memRead = false) (hwrite : s.core.reg3.memWrite = false)
      (hamo : s.core.reg3.isAmo = false) (hdone : s.core.memStallDoneR = false)
      (hport : D.Idle s.ram false) (hbytes : P.bytes s.ram = mem)
  | loading (hread : s.core.reg3.memRead = true) (hwrite : s.core.reg3.memWrite = false)
      (hamo : s.core.reg3.isAmo = false) (hdone : s.core.memStallDoneR = false)
      (hport : Serving size D cfg s) (hbytes : P.bytes s.ram = mem)
  | loaded (hread : s.core.reg3.memRead = true) (hwrite : s.core.reg3.memWrite = false)
      (hamo : s.core.reg3.isAmo = false) (hdone : s.core.memStallDoneR = true)
      (hport : if inRam size s.core.reg3.aluOut then D.Held s.ram (s.access cfg size)
        else D.Idle s.ram false)
      (hbytes : P.bytes s.ram = mem)
  | storing (hread : s.core.reg3.memRead = false) (hwrite : s.core.reg3.memWrite = true)
      (hamo : s.core.reg3.isAmo = false) (hdone : s.core.memStallDoneR = false)
      (hport : Serving size D cfg s)
      (hbytes : P.bytes s.ram = mem ∨ P.bytes s.ram = s.core.reg3.memAfter size mem 0)
  | amoReading (hread : s.core.reg3.memRead = false) (hwrite : s.core.reg3.memWrite = false)
      (hamo : s.core.reg3.isAmo = true) (hdone : s.core.memStallDoneR = false)
      (hphase : s.core.amo.writePhaseR = false) (hrest : s.core.amo.writeDoneR = false)
      (hport : Serving size D cfg s) (hbytes : P.bytes s.ram = mem)
  | amoWriting (hread : s.core.reg3.memRead = false) (hwrite : s.core.reg3.memWrite = false)
      (hamo : s.core.reg3.isAmo = true) (hdone : s.core.memStallDoneR = false)
      (hphase : s.core.amo.writePhaseR = true) (hrest : s.core.amo.writeDoneR = false)
      (hlr : s.core.reg3.isLr = false)
      (hvalue : s.core.amo.capturedReadR =
        s.core.reg3.loaded size mem s.core.amo.capturedReadR)
      (hport : Serving size D cfg s)
      (hbytes : P.bytes s.ram = mem ∨ P.bytes s.ram = s.core.reg3.memAfter size mem 0)
  | amoDone (hread : s.core.reg3.memRead = false) (hwrite : s.core.reg3.memWrite = false)
      (hamo : s.core.reg3.isAmo = true) (hdone : s.core.memStallDoneR = false)
      (hrest : s.core.amo.writeDoneR = true)
      (hvalue : s.core.amo.capturedReadR =
        s.core.reg3.loaded size mem s.core.amo.capturedReadR)
      (hport : D.Idle s.ram false)
      (hbytes : P.bytes s.ram = s.core.reg3.memAfter size mem 0)

/--
What a device has answered, or would answer.
-/
def devValue (cfg : Config w) (size : Nat) (s : System m P) (i : SystemIn w) : BitVec w :=
  if s.core.reg3.isAmo then s.core.amo.capturedReadR else (s.answer cfg size i).dataI

/--
The instruction has left memory behind, and nothing of it is left at the port.
-/
structure Handed (D : Session.Discipline P size) (s s' : System m P) (mem : Bytes)
    (v : BitVec w) : Prop where
  bytes : P.bytes s'.ram = s.core.reg3.memAfter size mem 0
  port : D.Idle s'.ram false
  done : s'.core.memStallDoneR = false
  value : s'.core.writeDataRegwb = s.core.reg3.value size mem v
  rested : s.core.reg3.isAmo = false ->
    s'.core.amo.writePhaseR = false ∧ s'.core.amo.writeDoneR = false

end System

/-!
# Bytes
-/

namespace System

variable {cfg : Config w} {size : Nat} {s : System m P} {i : SystemIn w} {mem : Bytes}
  {D : Session.Discipline P size}

/--
What an instruction leaves in memory does not depend on what a device would answer.
-/
theorem memAfter_dev (r : Reg3 w) (mem : Bytes) (v u : BitVec w) :
    r.memAfter size mem v = r.memAfter size mem u := by
  unfold Reg3.memAfter
  cases hram : inRam size r.aluOut with
  | false => simp
  | true =>
      have hloaded : r.loaded size mem v = r.loaded size mem u := by
        simp [Reg3.loaded, hram]
      simp [Reg3.write, Reg3.stored, hloaded]

theorem hit_of_inRam (hsize : size <= uartRegion.base) (addr : BitVec w) :
    (ramRegion size).hit addr = inRam size addr := by
  unfold inRam
  cases hhit : (ramRegion size).hit addr with
  | false => rfl
  | true =>
      have hlt : addr.toNat < uartRegion.base := by
        have hboth : (decide (0 <= addr.toNat) && decide (addr.toNat < 0 + size)) = true := hhit
        rw [Bool.and_eq_true, decide_eq_true_eq, decide_eq_true_eq] at hboth
        omega
      have huart : uartRegion.hit addr = false := by
        simp only [Region.hit, Bool.and_eq_false_iff, decide_eq_false_iff_not]
        left
        omega
      have htimer : timerRegion.hit addr = false := by
        simp only [Region.hit, Bool.and_eq_false_iff, decide_eq_false_iff_not]
        left
        have hbase : uartRegion.base <= timerRegion.base := by decide
        omega
      have hmailbox : mailboxRegion.hit addr = false := by
        simp only [Region.hit, Bool.and_eq_false_iff, decide_eq_false_iff_not]
        left
        have hbase : uartRegion.base <= mailboxRegion.base := by decide
        omega
      simp [huart, htimer, hmailbox]

/-!
# The bus
-/

theorem bus_of_alone (h : Alone cfg s) : s.bus cfg i = s.lsuBus cfg := by
  simp [bus, dcacheCyc, h.uncached, h.walker]

theorem ramBus_of_alone (hsize : size <= uartRegion.base) (h : Alone cfg s) :
    s.ramBus cfg size i = (s.access cfg size).bus := by
  rw [ramBus, bus_of_alone h, hit_of_inRam hsize]
  simp [access, lsuBus, h.uncached]

theorem answer_of_inRam (hsize : size <= uartRegion.base) (h : Alone cfg s)
    (hram : inRam size s.core.reg3.aluOut = true) :
    s.answer cfg size i =
      { ack := P.ack s.ram (s.access cfg size).bus, dataI := P.dataI s.ram } := by
  have haddr : (s.bus cfg i).addr = s.core.reg3.aluOut := by
    rw [bus_of_alone h]
    simp [lsuBus, h.uncached]
  rw [answer, haddr, ramBus_of_alone hsize h, wbDecode_of_inRam hram]

theorem ram_step (hsize : size <= uartRegion.base) (h : Alone cfg s) :
    (s.step cfg size i).ram = P.step s.ram (s.access cfg size).bus := by
  show P.step s.ram (s.ramBus cfg size i) = _
  rw [ramBus_of_alone hsize h]

theorem stb_access : (s.access cfg size).bus.stb =
    (s.core.lsuCyc && inRam size s.core.reg3.aluOut) := rfl

theorem we_access (h : Alone cfg s) : (s.access cfg size).bus.we = s.core.effMemWrite := by
  simp [access, lsuBus, h.uncached]

theorem classic_access : ((s.access cfg size).bus.cti == ctiIncrBurst) = false := by
  unfold access lsuBus
  cases cfg.cached <;> rfl

/--
The acknowledge that the load unit sees.
-/
def acked (cfg : Config w) (size : Nat) (s : System m P) (i : SystemIn w) : Bool :=
  (s.answer cfg size i).ack

theorem acked_of_inRam (hsize : size <= uartRegion.base) (h : Alone cfg s)
    (hram : inRam size s.core.reg3.aluOut = true) :
    s.acked cfg size i = P.ack s.ram (s.access cfg size).bus := by
  rw [acked, answer_of_inRam hsize h hram]

theorem memStall_of_alone (h : Alone cfg s) :
    s.core.memStall cfg (s.coreIn cfg size i) =
      ((s.core.reg3.memRead || (s.core.reg3.memWrite && !s.acked cfg size i)) &&
        !s.core.memStallDoneR) := by
  simp [Core.memStall, Core.memTrigger, Core.dcache, h.uncached, DCachePort.none, coreIn,
    acked]

theorem memStallDoneR_step (h : Alone cfg s) :
    (s.step cfg size i).core.memStallDoneR =
      (s.core.memStall cfg (s.coreIn cfg size i) && s.acked cfg size i) := by
  show s.core.nextMemStallDoneR cfg (s.coreIn cfg size i) = _
  simp [Core.nextMemStallDoneR, Core.memAccessReady, h.uncached, coreIn, acked]

/--
The request is a matter of the instruction, and of the phase of an atomic operation.
-/
theorem access_congr {t : System m P} (hreg3 : t.core.reg3 = s.core.reg3)
    (hamo : s.core.reg3.isAmo = true -> t.core.amo = s.core.amo) :
    t.access cfg size = s.access cfg size := by
  unfold access lsuBus Core.lsuCyc Core.effMemRead Core.effMemWrite Core.amoCombined
    Core.amoFunct5 Core.amoActive
  rw [hreg3]
  cases hkind : s.core.reg3.isAmo with
  | true => rw [hamo hkind]
  | false => rfl

theorem effMemWrite_plain (hamo : s.core.reg3.isAmo = false) :
    s.core.effMemWrite = s.core.reg3.memWrite := by
  rw [Core.effMemWrite, Core.amoActive, hamo]
  rfl

/-!
# One cycle
-/

section Cycle

variable (hsize : size <= uartRegion.base) (ha : Alone cfg s)

include hsize ha

/--
A request that stays on the bus.
-/
theorem serving_step (hsame : (s.step cfg size i).access cfg size = s.access cfg size)
    (haddr : (s.step cfg size i).core.reg3.aluOut = s.core.reg3.aluOut)
    (hport : Serving size D cfg s) (hack : s.acked cfg size i = false) :
    Serving size D cfg (s.step cfg size i) := by
  unfold Serving at hport ⊢
  rw [haddr, hsame, ram_step hsize ha]
  cases hram : inRam size s.core.reg3.aluOut with
  | true =>
      rw [hram, if_pos rfl] at hport
      obtain ⟨age, hattending⟩ := hport
      rw [acked_of_inRam hsize ha hram] at hack
      exact ⟨age + 1, D.wait hattending hack⟩
  | false =>
      rw [hram] at hport
      refine D.idle_step hport ?_
      rw [stb_access, hram, Bool.and_false]

theorem idle_of_acked (hport : Serving size D cfg s) (hack : s.acked cfg size i = true)
    (hheld : (s.access cfg size).heldOver = false) :
    D.Idle (s.step cfg size i).ram false := by
  unfold Serving at hport
  rw [ram_step hsize ha]
  cases hram : inRam size s.core.reg3.aluOut with
  | true =>
      rw [hram, if_pos rfl] at hport
      obtain ⟨age, hattending⟩ := hport
      rw [acked_of_inRam hsize ha hram] at hack
      have hidle := D.finish hattending hack hheld
      rwa [classic_access] at hidle
  | false =>
      rw [hram] at hport
      refine D.idle_step hport ?_
      rw [stb_access, hram, Bool.and_false]

theorem bytes_step_read (D : Session.Discipline P size) (hwe : s.core.effMemWrite = false) :
    P.bytes (s.step cfg size i).ram = P.bytes s.ram := by
  have hread : (s.access cfg size).bus.memWrite = false := by
    rw [BusCycle.memWrite, we_access ha, hwe, Bool.and_false]
  rw [ram_step hsize ha, D.bytes_step, hread]
  rfl

/--
A write that stays on the bus is done again in every cycle, with the same result.
-/
theorem bytes_step_write (D : Session.Discipline P size) (hwe : s.core.effMemWrite = true)
    (hwrites : s.core.reg3.writes = true)
    (hdata : inRam size s.core.reg3.aluOut = true ->
      (s.access cfg size).bus.dataO = s.core.reg3.stored size mem 0)
    (hbytes : P.bytes s.ram = mem ∨ P.bytes s.ram = s.core.reg3.memAfter size mem 0) :
    P.bytes (s.step cfg size i).ram = s.core.reg3.memAfter size mem 0 := by
  have hcyc : s.core.lsuCyc = true := by
    rw [Core.lsuCyc, hwe, Bool.or_true]
  have hwrite : (s.access cfg size).bus.memWrite = inRam size s.core.reg3.aluOut := by
    rw [BusCycle.memWrite, we_access ha, hwe, stb_access, hcyc, Bool.true_and, Bool.and_true]
  rw [ram_step hsize ha, D.bytes_step, hwrite]
  rw [Reg3.memAfter, hwrites] at hbytes ⊢
  cases hram : inRam size s.core.reg3.aluOut with
  | false => simpa [hram] using hbytes
  | true =>
      have hrequest : (s.access cfg size).bus.memRequest =
          s.core.reg3.write size mem 0 := by
        rw [BusCycle.memRequest, hwrite, hram, hdata hram]
        simp [BusCycle.memRead, hwe, Reg3.write, access, lsuBus, ha.uncached]
      rw [if_pos rfl, hrequest]
      rw [hram] at hbytes
      rcases hbytes with hbytes | hbytes
      · rw [hbytes]
        rfl
      · rw [hbytes]
        exact DataMemory.storeBytes_twice size mem (s.core.reg3.write size mem 0)

/-!
# An instruction that stays
-/

variable (hready : (s.step cfg size i).core.amo.writePhaseR ≠ s.core.amo.writePhaseR ->
  (s.step cfg size i).core.lsuCyc = true -> inRam size s.core.reg3.aluOut = true ->
    D.Ready (s.step cfg size i).ram ((s.step cfg size i).access cfg size))

include hready

theorem lsu_hold (h : Lsu size D cfg s mem)
    (hhold : s.core.backHold cfg (s.coreIn cfg size i) = true) :
    Lsu size D cfg (s.step cfg size i) mem := by
  have hreg3 : (s.step cfg size i).core.reg3 = s.core.reg3 := by
    show s.core.nextReg3 cfg (s.coreIn cfg size i) = _
    rw [Core.nextReg3, Reg3.step, hhold]
    rfl
  have hstall : s.core.memStall cfg (s.coreIn cfg size i) = _ := memStall_of_alone ha
  have hdone' : (s.step cfg size i).core.memStallDoneR = _ := memStallDoneR_step ha
  have hamo' : (s.step cfg size i).core.amo = s.core.nextAmo (s.coreIn cfg size i) := rfl
  rw [Core.backHold] at hhold
  cases h with
  | none hread hwrite hamo hdone hport hbytes =>
      rw [hstall, Core.amoStall, Core.amoActive, hread, hwrite, hamo] at hhold
      exact absurd hhold (by simp)
  | loading hread hwrite hamo hdone hport hbytes =>
      have haccess : (s.step cfg size i).access cfg size = s.access cfg size :=
        access_congr hreg3 (fun h => absurd h (by simp [hamo]))
      have hbytes' : P.bytes (s.step cfg size i).ram = mem := by
        rw [bytes_step_read hsize ha D (by rw [effMemWrite_plain hamo, hwrite]), hbytes]
      rw [hstall, hread, hwrite, hdone] at hdone'
      cases hack : s.acked cfg size i with
      | false =>
          rw [hack] at hdone'
          refine .loading ?_ ?_ ?_ hdone' ?_ hbytes'
          · rw [hreg3, hread]
          · rw [hreg3, hwrite]
          · rw [hreg3, hamo]
          · exact serving_step hsize ha haccess (by rw [hreg3]) hport hack
      | true =>
          rw [hack] at hdone'
          refine .loaded ?_ ?_ ?_ hdone' ?_ hbytes'
          · rw [hreg3, hread]
          · rw [hreg3, hwrite]
          · rw [hreg3, hamo]
          · unfold Serving at hport
            rw [hreg3, haccess, ram_step hsize ha]
            cases hram : inRam size s.core.reg3.aluOut with
            | true =>
                rw [hram, if_pos rfl] at hport
                obtain ⟨age, hattending⟩ := hport
                rw [acked_of_inRam hsize ha hram] at hack
                refine D.hold hattending hack ?_
                rw [Access.heldOver, we_access ha, effMemWrite_plain hamo, hwrite]
                simp [access, Core.amoActive, hamo]
            | false =>
                rw [hram] at hport
                refine D.idle_step hport ?_
                rw [stb_access, hram, Bool.and_false]
  | loaded hread hwrite hamo hdone hport hbytes =>
      rw [hstall, Core.amoStall, Core.amoActive, hamo, hdone] at hhold
      exact absurd hhold (by simp)
  | storing hread hwrite hamo hdone hport hbytes =>
      have haccess : (s.step cfg size i).access cfg size = s.access cfg size :=
        access_congr hreg3 (fun h => absurd h (by simp [hamo]))
      have hack : s.acked cfg size i = false := by
        rw [hstall, Core.amoStall, Core.amoActive, hread, hwrite, hamo, hdone] at hhold
        simpa using hhold
      rw [hack, Bool.and_false] at hdone'
      refine .storing ?_ ?_ ?_ hdone' ?_ ?_
      · rw [hreg3, hread]
      · rw [hreg3, hwrite]
      · rw [hreg3, hamo]
      · exact serving_step hsize ha haccess (by rw [hreg3]) hport hack
      · right
        rw [hreg3]
        refine bytes_step_write hsize ha D ?_ ?_ ?_ hbytes
        · rw [effMemWrite_plain hamo, hwrite]
        · rw [Reg3.writes, hamo, hwrite]
          rfl
        · intro _
          simp [access, lsuBus, ha.uncached, Core.amoActive, Reg3.stored, hamo]
  | amoReading hread hwrite hamo hdone hphase hrest hport hbytes =>
      have hwe : s.core.effMemWrite = false := by
        rw [Core.effMemWrite, Core.amoActive, hamo, hphase]
        rfl
      have hbytes' : P.bytes (s.step cfg size i).ram = mem := by
        rw [bytes_step_read hsize ha D hwe, hbytes]
      have hidle' : (s.step cfg size i).core.memStallDoneR = false := by
        rw [hdone', hstall, hread, hwrite]
        rfl
      have hlate : (s.access cfg size).late = false := by
        simp [access, Core.amoActive, hamo]
      cases hack : s.acked cfg size i with
      | false =>
          have hsame : (s.step cfg size i).core.amo = s.core.amo := by
            rw [hamo', Core.nextAmo, Core.amoActive, hamo, hphase]
            simp [coreIn, show (s.answer cfg size i).ack = false from hack]
          have haccess : (s.step cfg size i).access cfg size = s.access cfg size :=
            access_congr hreg3 (fun _ => hsame)
          refine .amoReading ?_ ?_ ?_ hidle' ?_ ?_ ?_ hbytes'
          · rw [hreg3, hread]
          · rw [hreg3, hwrite]
          · rw [hreg3, hamo]
          · rw [hsame, hphase]
          · rw [hsame, hrest]
          · exact serving_step hsize ha haccess (by rw [hreg3]) hport hack
      | true =>
          have hvalue : (s.answer cfg size i).dataI =
              s.core.reg3.loaded size mem (s.answer cfg size i).dataI := by
            rw [Reg3.loaded]
            cases hram : inRam size s.core.reg3.aluOut with
            | false => rfl
            | true =>
                rw [Serving, hram, if_pos rfl] at hport
                obtain ⟨age, hattending⟩ := hport
                rw [acked_of_inRam hsize ha hram] at hack
                rw [answer_of_inRam hsize ha hram, if_pos rfl]
                have hanswer := D.answer hattending hack ((we_access ha).trans hwe) hlate
                rw [hbytes] at hanswer
                show P.dataI s.ram = _
                rw [hanswer]
                simp [access, lsuBus, ha.uncached]
          have hfinish := idle_of_acked hsize ha hport hack
            (by rw [Access.heldOver, hlate, Bool.false_and])
          cases hlr : s.core.reg3.isLr with
          | true =>
              have hnext : (s.step cfg size i).core.amo =
                  { s.core.amo with
                    capturedReadR := (s.answer cfg size i).dataI, writeDoneR := true } := by
                rw [hamo', Core.nextAmo, Core.amoActive, hamo, hphase,
                  show s.core.amoIsLr = true from hlr]
                simp [coreIn, show (s.answer cfg size i).ack = true from hack]
              refine .amoDone ?_ ?_ ?_ hidle' ?_ ?_ hfinish ?_
              · rw [hreg3, hread]
              · rw [hreg3, hwrite]
              · rw [hreg3, hamo]
              · rw [hnext]
              · rw [hreg3, hnext]
                exact hvalue
              · rw [hreg3, hbytes', Reg3.memAfter, Reg3.writes, hamo, hlr]
                rfl
          | false =>
              have hnext : (s.step cfg size i).core.amo =
                  { s.core.amo with
                    capturedReadR := (s.answer cfg size i).dataI, writePhaseR := true } := by
                rw [hamo', Core.nextAmo, Core.amoActive, hamo, hphase,
                  show s.core.amoIsLr = false from hlr]
                simp [coreIn, show (s.answer cfg size i).ack = true from hack]
              refine .amoWriting ?_ ?_ ?_ hidle' ?_ ?_ ?_ ?_ ?_ (.inl hbytes')
              · rw [hreg3, hread]
              · rw [hreg3, hwrite]
              · rw [hreg3, hamo]
              · rw [hnext]
              · rw [hnext]
                exact hrest
              · rw [hreg3, hlr]
              · rw [hreg3, hnext]
                exact hvalue
              · unfold Serving
                rw [hreg3]
                cases hram : inRam size s.core.reg3.aluOut with
                | false => exact hfinish
                | true =>
                    have hcyc : (s.step cfg size i).core.lsuCyc = true := by
                      rw [Core.lsuCyc, Core.effMemWrite, Core.amoActive, hreg3, hamo, hnext]
                      simp [hrest]
                    refine ⟨0, D.present hfinish ?_ (hready ?_ hcyc hram)⟩
                    · rw [stb_access, hreg3, hram, hcyc]
                      rfl
                    · rw [hnext, hphase]
                      simp
  | amoWriting hread hwrite hamo hdone hphase hrest hlr hvalue hport hbytes =>
      have hwe : s.core.effMemWrite = true := by
        rw [Core.effMemWrite, Core.amoActive, hamo, hphase, hrest]
        rfl
      have hbytes' : P.bytes (s.step cfg size i).ram = s.core.reg3.memAfter size mem 0 := by
        refine bytes_step_write hsize ha D hwe ?_ ?_ hbytes
        · rw [Reg3.writes, hamo, hlr]
          rfl
        · intro hram
          have hold : s.core.reg3.loaded size mem 0 = s.core.amo.capturedReadR := by
            rw [hvalue, Reg3.loaded, Reg3.loaded, hram]
            rfl
          rw [Reg3.stored, hamo, if_pos rfl, hold]
          simp [access, lsuBus, ha.uncached, Core.amoActive, hamo, Core.amoCombined,
            Core.amoFunct5, Reg3.amoFunct5]
      have hidle' : (s.step cfg size i).core.memStallDoneR = false := by
        rw [hdone', hstall, hread, hwrite]
        rfl
      cases hack : s.acked cfg size i with
      | false =>
          have hsame : (s.step cfg size i).core.amo = s.core.amo := by
            rw [hamo', Core.nextAmo, Core.amoActive, hamo, hphase]
            simp [coreIn, show (s.answer cfg size i).ack = false from hack]
          have haccess : (s.step cfg size i).access cfg size = s.access cfg size :=
            access_congr hreg3 (fun _ => hsame)
          refine .amoWriting ?_ ?_ ?_ hidle' ?_ ?_ ?_ ?_ ?_ (.inr ?_)
          · rw [hreg3, hread]
          · rw [hreg3, hwrite]
          · rw [hreg3, hamo]
          · rw [hsame, hphase]
          · rw [hsame, hrest]
          · rw [hreg3, hlr]
          · rw [hreg3, hsame]
            exact hvalue
          · exact serving_step hsize ha haccess (by rw [hreg3]) hport hack
          · rw [hreg3]
            exact hbytes'
      | true =>
          have hnext : (s.step cfg size i).core.amo =
              { s.core.amo with writeDoneR := true } := by
            rw [hamo', Core.nextAmo, Core.amoActive, hamo, hphase]
            simp [coreIn, show (s.answer cfg size i).ack = true from hack]
          refine .amoDone ?_ ?_ ?_ hidle' ?_ ?_ ?_ ?_
          · rw [hreg3, hread]
          · rw [hreg3, hwrite]
          · rw [hreg3, hamo]
          · rw [hnext]
          · rw [hreg3, hnext]
            exact hvalue
          · refine idle_of_acked hsize ha hport hack ?_
            rw [Access.heldOver, we_access ha, hwe]
            simp
          · rw [hreg3]
            exact hbytes'
  | amoDone hread hwrite hamo hdone hrest hvalue hport hbytes =>
      rw [hstall, Core.amoStall, Core.amoActive, hread, hwrite, hamo, hrest] at hhold
      exact absurd hhold (by simp)

omit hready

/-!
# An instruction that moves on
-/

theorem lsu_leave (hgo : s.core.backHold cfg (s.coreIn cfg size i) = false)
    (hstray : s.core.reg3.isAmo = true -> s.acked cfg size i = false)
    (hload : s.core.reg3.memtoReg = true -> s.core.reg3.memRead = true)
    (h : Lsu size D cfg s mem) :
    Handed size D s (s.step cfg size i) mem (s.devValue cfg size i) := by
  have hreg4 : (s.step cfg size i).core.reg4 = s.core.loaded cfg (s.coreIn cfg size i) := by
    show s.core.nextReg4 cfg (s.coreIn cfg size i) = _
    rw [Core.nextReg4, Reg4.step, hgo]
    rfl
  have hstall : s.core.memStall cfg (s.coreIn cfg size i) = false := by
    rw [Core.backHold, Bool.or_eq_false_iff] at hgo
    exact hgo.left
  have hdone' : (s.step cfg size i).core.memStallDoneR = false := by
    rw [memStallDoneR_step ha, hstall]
    rfl
  have hplain : s.core.reg3.isAmo = false ->
      (s.core.reg3.memRead = true ->
        (s.answer cfg size i).dataI =
          s.core.reg3.loaded size mem (s.answer cfg size i).dataI) ->
      (s.step cfg size i).core.writeDataRegwb =
        s.core.reg3.value size mem (s.devValue cfg size i) := by
    intro hamo hanswer
    rw [Core.writeDataRegwb, hreg4, Reg3.value, devValue, hamo]
    simp only [Core.loaded, hamo, ha.uncached, Bool.false_eq_true, if_false, coreIn]
    cases hjump : s.core.reg3.jump with
    | true => rfl
    | false =>
        cases hto : s.core.reg3.memtoReg with
        | true => exact hanswer (hload hto)
        | false => rfl
  have hrested : s.core.reg3.isAmo = false ->
      (s.step cfg size i).core.amo.writePhaseR = false ∧
        (s.step cfg size i).core.amo.writeDoneR = false := by
    intro hamo
    have hnext : (s.step cfg size i).core.amo = s.core.nextAmo (s.coreIn cfg size i) := rfl
    rw [hnext, Core.nextAmo, Core.amoActive, hamo]
    exact ⟨rfl, rfl⟩
  cases h with
  | none hread hwrite hamo hdone hport hbytes =>
      have hcyc : s.core.lsuCyc = false := by
        rw [Core.lsuCyc, Core.effMemRead, Core.effMemWrite, Core.amoActive, hamo, hread, hwrite]
        rfl
      refine ⟨?_, ?_, hdone', hplain hamo (fun h => absurd h (by simp [hread])), hrested⟩
      · rw [bytes_step_read hsize ha D (by rw [effMemWrite_plain hamo, hwrite]), hbytes,
          Reg3.memAfter, Reg3.writes, hamo, hwrite]
        rfl
      · rw [ram_step hsize ha]
        refine D.idle_step hport ?_
        rw [stb_access, hcyc, Bool.false_and]
  | loading hread hwrite hamo hdone hport hbytes =>
      rw [memStall_of_alone ha, hread, hdone] at hstall
      cases hstall
  | loaded hread hwrite hamo hdone hport hbytes =>
      refine ⟨?_, ?_, hdone', hplain hamo ?_, hrested⟩
      · rw [bytes_step_read hsize ha D (by rw [effMemWrite_plain hamo, hwrite]), hbytes,
          Reg3.memAfter, Reg3.writes, hamo, hwrite]
        rfl
      · rw [ram_step hsize ha]
        cases hram : inRam size s.core.reg3.aluOut with
        | true =>
            rw [hram, if_pos rfl] at hport
            have hidle := D.held_finish hport
            rwa [classic_access] at hidle
        | false =>
            rw [hram] at hport
            refine D.idle_step hport ?_
            rw [stb_access, hram, Bool.and_false]
      · intro _
        rw [Reg3.loaded]
        cases hram : inRam size s.core.reg3.aluOut with
        | false => rfl
        | true =>
            rw [hram, if_pos rfl] at hport
            have hanswer := D.held_answer hport
            rw [hbytes] at hanswer
            rw [answer_of_inRam hsize ha hram, if_pos rfl]
            show P.dataI s.ram = _
            rw [hanswer]
            simp [access, lsuBus, ha.uncached]
  | storing hread hwrite hamo hdone hport hbytes =>
      have hwe : s.core.effMemWrite = true := by rw [effMemWrite_plain hamo, hwrite]
      have hack : s.acked cfg size i = true := by
        rw [memStall_of_alone ha, hread, hwrite, hdone] at hstall
        simpa using hstall
      refine ⟨?_, ?_, hdone', hplain hamo (fun h => absurd h (by simp [hread])), hrested⟩
      · refine bytes_step_write hsize ha D hwe ?_ ?_ hbytes
        · rw [Reg3.writes, hamo, hwrite]
          rfl
        · intro _
          simp [access, lsuBus, ha.uncached, Core.amoActive, Reg3.stored, hamo]
      · refine idle_of_acked hsize ha hport hack ?_
        rw [Access.heldOver, we_access ha, hwe]
        simp
  | amoReading hread hwrite hamo hdone hphase hrest hport hbytes =>
      rw [Core.backHold, Core.amoStall, Core.amoActive, hamo, hrest] at hgo
      simp at hgo
  | amoWriting hread hwrite hamo hdone hphase hrest hlr hvalue hport hbytes =>
      rw [Core.backHold, Core.amoStall, Core.amoActive, hamo, hrest] at hgo
      simp at hgo
  | amoDone hread hwrite hamo hdone hrest hvalue hport hbytes =>
      have hcyc : s.core.lsuCyc = false := by
        rw [Core.lsuCyc, Core.effMemRead, Core.effMemWrite, Core.amoActive, hamo, hrest]
        simp
      have hwe : s.core.effMemWrite = false := by
        rw [Core.lsuCyc, Bool.or_eq_false_iff] at hcyc
        exact hcyc.right
      have hamo' : (s.step cfg size i).core.amo = s.core.amo := by
        show s.core.nextAmo (s.coreIn cfg size i) = _
        have hack : (s.answer cfg size i).ack = false := hstray hamo
        rw [Core.nextAmo]
        simp only [coreIn, hack, Core.amoActive, hamo]
        cases s.core.amo.writePhaseR <;> rfl
      refine ⟨?_, ?_, hdone', ?_, hrested⟩
      · rw [bytes_step_read hsize ha D hwe, hbytes]
      · rw [ram_step hsize ha]
        refine D.idle_step hport ?_
        rw [stb_access, hcyc, Bool.false_and]
      · rw [Core.writeDataRegwb, hreg4, hamo', Reg3.value, devValue, hamo]
        simp only [Core.loaded, hamo, if_true]
        exact hvalue

end Cycle

/-!
# An instruction that arrives
-/

theorem lsu_arrive {s' : System m P} {v : BitVec w} (h : Handed size D s s' mem v)
    (hone : s'.core.reg3.OneAccess)
    (hready : s'.core.lsuCyc = true -> inRam size s'.core.reg3.aluOut = true ->
      D.Ready s'.ram (s'.access cfg size))
    (hamo : s'.core.reg3.isAmo = true -> s.core.reg3.isAmo = false) :
    Lsu size D cfg s' (s.core.reg3.memAfter size mem 0) := by
  have hserving : s'.core.lsuCyc = true -> Serving size D cfg s' := by
    intro hcyc
    unfold Serving
    cases hram : inRam size s'.core.reg3.aluOut with
    | false => exact h.port
    | true =>
        refine ⟨0, D.present h.port ?_ (hready hcyc hram)⟩
        rw [stb_access, hcyc, hram]
        rfl
  cases hkind : s'.core.reg3.isAmo with
  | true =>
      have hread : s'.core.reg3.memRead = false := by
        cases hread : s'.core.reg3.memRead with
        | false => rfl
        | true => exact absurd hkind (by simp [(hone.load hread).right])
      have hwrite : s'.core.reg3.memWrite = false := by
        cases hwrite : s'.core.reg3.memWrite with
        | false => rfl
        | true => exact absurd hkind (by simp [hone.store hwrite])
      obtain ⟨hphase, hrest⟩ := h.rested (hamo hkind)
      refine .amoReading hread hwrite hkind h.done hphase hrest (hserving ?_) h.bytes
      rw [Core.lsuCyc, Core.effMemRead, Core.amoActive, hkind, hphase, hrest]
      rfl
  | false =>
      have hcyc : s'.core.lsuCyc = (s'.core.reg3.memRead || s'.core.reg3.memWrite) := by
        rw [Core.lsuCyc, Core.effMemRead, Core.effMemWrite, Core.amoActive, hkind]
        rfl
      cases hread : s'.core.reg3.memRead with
      | true =>
          refine .loading hread (hone.load hread).left hkind h.done (hserving ?_) h.bytes
          rw [hcyc, hread, Bool.true_or]
      | false =>
          cases hwrite : s'.core.reg3.memWrite with
          | true =>
              refine .storing hread hwrite hkind h.done (hserving ?_) (.inl h.bytes)
              rw [hcyc, hwrite, Bool.or_true]
          | false => exact .none hread hwrite hkind h.done h.port h.bytes

end System
end Soc
end RvCores
