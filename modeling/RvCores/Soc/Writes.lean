import RvCores.Soc.Observation

/-!
# The writes of a run

What the pipeline has written so far, with what its last two registers still have to
write, is what the events that it has gone through make visible.
-/

namespace RvCores
namespace Soc

open Isa Block Pipe
open Pipe.Core (Executes Quiet linesOf)

variable {w : Nat} {m : Mmu w} {P : RamPort w}

/-!
# Four sequences
-/

/--
The writes of the register files and of memory and the updates of the control registers,
each in its order.
-/
@[ext]
structure Writes (w : Nat) where
  regs : List (BitVec 5 × BitVec w)
  fregs : List (BitVec 5 × BitVec w)
  mem : List (MemRequest w)
  csr : List (CsrUpdate w)

namespace Writes

def none : Writes w := { regs := [], fregs := [], mem := [], csr := [] }

def append (a b : Writes w) : Writes w :=
  { regs := a.regs ++ b.regs
    fregs := a.fregs ++ b.fregs
    mem := a.mem ++ b.mem
    csr := a.csr ++ b.csr }

/--
Each sequence is the beginning of the other one's.
-/
structure Begins (a b : Writes w) : Prop where
  regs : a.regs <+: b.regs
  fregs : a.fregs <+: b.fregs
  mem : a.mem <+: b.mem
  csr : a.csr <+: b.csr

theorem append_none (a : Writes w) : a.append none = a := by
  ext1
  · exact List.append_nil _
  · exact List.append_nil _
  · exact List.append_nil _
  · exact List.append_nil _

theorem append_assoc (a b c : Writes w) : (a.append b).append c = a.append (b.append c) := by
  ext1
  · exact List.append_assoc _ _ _
  · exact List.append_assoc _ _ _
  · exact List.append_assoc _ _ _
  · exact List.append_assoc _ _ _

theorem begins_append (a b : Writes w) : a.Begins (a.append b) :=
  ⟨List.prefix_append _ _, List.prefix_append _ _, List.prefix_append _ _,
    List.prefix_append _ _⟩

end Writes

/-!
# What the sequential machine writes
-/

def Commit.writes (c : Commit w) : Writes w :=
  { regs := c.reg.toList, fregs := c.freg.toList, mem := c.mem.toList, csr := c.csr }

namespace Machine

def writes (p : Platform w) : Machine w -> List (Event w) -> Writes w
  | _, [] => .none
  | σ, e :: events => (σ.observe p e).writes.append (writes p (σ.next p e) events)

theorem writes_concat (p : Platform w) (σ : Machine w) (events : List (Event w))
    (e : Event w) :
    σ.writes p (events ++ [e]) =
      (σ.writes p events).append ((σ.after p events).observe p e).writes := by
  induction events generalizing σ with
  | nil => exact Writes.append_none _
  | cons first events ih =>
      rw [List.cons_append, writes, ih, <- Writes.append_assoc]
      rfl

end Machine

/-!
# What the pipeline writes
-/

/--
What an instruction in memory will have written when it leaves write-back.
-/
def writesOf (size : Nat) (mem : Bytes) (dev : BitVec w) (r : Reg3 w) : Writes w :=
  { regs := writeOf (r.regWrite && r.writeReg != 0) r.writeReg (r.value size mem dev)
    fregs := writeOf r.fRegWrite r.writeReg (r.value size mem dev)
    mem := if r.writes then [r.write size mem dev] else []
    csr := [] }

theorem toList_ite {α : Type} (b : Bool) (a : α) :
    (if b then some a else none).toList = if b then [a] else [] := by
  cases b <;> rfl

theorem writes_commitOf (size : Nat) (mem : Bytes) (pc dev : BitVec w) (r : Reg3 w)
    (csr : List (CsrUpdate w)) :
    (Machine.commitOf size mem pc r dev csr).writes =
      { writesOf size mem dev r with csr := csr } := by
  ext1
  · exact toList_ite _ _
  · exact toList_ite _ _
  · exact toList_ite _ _
  · rfl

namespace System

/--
What the instruction in write-back writes.
-/
def retiring (s : System m P) : Writes w :=
  { regs := s.writtenReg, fregs := s.writtenFreg, mem := [], csr := [] }

end System

def Observed.writes (o : Observed m P) : Writes w :=
  { regs := o.regs, fregs := o.fregs, mem := o.mem, csr := o.csr }

/-!
# Updates of the control registers
-/

theorem csrUpdates_none {vlen : Nat} {csr : Csr w} {i : CsrIn w} (hwrite : i.writeEn = false)
    (htrap : i.trapTaken = false) (hmret : i.mretTaken = false) (hsret : i.sretTaken = false)
    (hflags : i.fpFlagsWe = true -> i.fpFlagsIn &&& ~~~csr.fflags = 0) :
    csrUpdates vlen csr i = [] := by
  have hquiet : (i.fpFlagsWe && i.fpFlagsIn &&& ~~~csr.fflags != 0) = false := by
    cases hwe : i.fpFlagsWe with
    | false => rfl
    | true =>
        rw [hflags hwe]
        rfl
  rw [csrUpdates, hwrite, htrap, hmret, hsret, hquiet]
  rfl

/--
What is written where nothing is, and what counts, is not shown.
-/
theorem csrUpdates_congr {vlen : Nat} {csr : Csr w} {i : CsrIn w} (d : BitVec w)
    (f : BitVec 5) (retired : Bool) (events : Nat -> Bool)
    (hd : i.writeEn = true -> d = i.wdata) (hf : i.fpFlagsWe = true -> f = i.fpFlagsIn) :
    csrUpdates vlen csr { i with
        wdata := d, fpFlagsIn := f, instretPulse := retired, hpmEventPulse := events } =
      csrUpdates vlen csr i := by
  have hwrite : (if i.writeEn then
      [CsrUpdate.write i.addr (csr.newVal vlen { i with
        wdata := d, fpFlagsIn := f, instretPulse := retired, hpmEventPulse := events })]
      else []) = if i.writeEn then [.write i.addr (csr.newVal vlen i)] else [] := by
    cases hen : i.writeEn with
    | false => rfl
    | true =>
        rw [hd hen]
        rfl
  have hflags : (if i.fpFlagsWe && f &&& ~~~csr.fflags != 0 then
      [CsrUpdate.flags (w := w) (f &&& ~~~csr.fflags)] else []) =
      if i.fpFlagsWe && i.fpFlagsIn &&& ~~~csr.fflags != 0 then
        [.flags (i.fpFlagsIn &&& ~~~csr.fflags)] else [] := by
    cases hwe : i.fpFlagsWe with
    | false => rfl
    | true => rw [hf hwe]
  unfold csrUpdates
  rw [hwrite, hflags]

theorem System.csrUpdates_hold {cfg : Config w} {s : Core m} {c : CoreIn w}
    (hint : s.interruptTaken cfg c = false) (hhold : s.reg2Hold cfg c = true) :
    csrUpdates vlen s.csr (s.csrIn cfg c) = [] := by
  have hforget : forall {b : Bool}, (b && !s.reg2Hold cfg c) = false := by
    intro b
    rw [hhold, Bool.not_true, Bool.and_false]
  refine csrUpdates_none ?_ ?_ hforget hforget ?_
  · show (s.reg2.ctrl.isCsr && !s.reg2Hold cfg c && !s.csrPrivViolation) = false
    rw [hforget, Bool.false_and]
  · show (s.exceptionTaken cfg && !s.reg2Hold cfg c || s.interruptTaken cfg c) = false
    rw [hforget, hint]
    rfl
  · intro hwe
    have hnone : (s.csrIn cfg c).fpFlagsWe = false := hforget
    rw [hnone] at hwe
    cases hwe

/-!
# Leaving memory
-/

section Leave

variable {p : Platform w} {D : Session.Discipline P p.size} {cfg : Config w}
  {s : System m P} {i : SystemIn w} {σ : Machine w} {v : BitVec w} {bytes : Bytes}

namespace System

/--
What goes to write-back still has its registers to write.
-/
theorem retiring_of_leave (hsize : p.size <= uartRegion.base) (hu : Served p D cfg s i)
    (h : Backend p D cfg s bytes σ v)
    (hgo : s.core.backHold cfg (s.coreIn cfg p.size i) = false) :
    (s.step cfg p.size i).retiring =
      { writesOf p.size bytes (s.devValue cfg p.size i) s.core.reg3 with mem := [] } := by
  have halone : Alone cfg s := ⟨h.settled.uncached, h.settled.rests⟩
  have hvalue := (lsu_leave hsize halone hgo (fun hamo => hu.stray hamo hgo) h.one.word
    h.data.lsu).value
  have hreg4 : (s.step cfg p.size i).core.reg4 =
      s.core.loaded cfg (s.coreIn cfg p.size i) := Core.reg4_of_moves hgo
  ext1
  · show writeOf _ _ _ = _
    rw [hvalue, hreg4]
    rfl
  · show writeOf _ _ _ = _
    rw [hvalue, hreg4]
    rfl
  · rfl
  · rfl

/--
What leaves memory has written what it should.
-/
theorem writtenMem_of_leave (h : Backend p D cfg s bytes σ v)
    (hgo : s.core.backHold cfg (s.coreIn cfg p.size i) = false) :
    s.writtenMem = (writesOf p.size bytes (s.devValue cfg p.size i) s.core.reg3).mem := by
  have hstored : (if s.core.amoActive then s.core.amoCombined else s.core.reg3.readData2) =
      s.core.reg3.stored p.size bytes (s.devValue cfg p.size i) := by
    rw [Reg3.stored, devValue, Core.amoActive]
    cases hamo : s.core.reg3.isAmo with
    | false => rfl
    | true =>
        have hvalue : s.core.amo.capturedReadR =
            s.core.reg3.loaded p.size bytes s.core.amo.capturedReadR := by
          rw [Core.backHold, Bool.or_eq_false_iff, Core.amoStall, Core.amoActive, hamo] at hgo
          cases h.data.lsu with
          | none _ _ hnone => exact absurd hamo (by simp [hnone])
          | loading _ _ hnone => exact absurd hamo (by simp [hnone])
          | loaded _ _ hnone => exact absurd hamo (by simp [hnone])
          | storing _ _ hnone => exact absurd hamo (by simp [hnone])
          | amoReading _ _ _ _ _ hrest => exact absurd hgo.right (by simp [hrest])
          | amoWriting _ _ _ _ _ hrest => exact absurd hgo.right (by simp [hrest])
          | amoDone _ _ _ _ _ hvalue => exact hvalue
        rw [if_pos rfl, if_pos rfl, if_pos rfl, <- hvalue]
        rfl
  rw [writtenMem, hstored]
  rfl

end System
end Leave

/-!
# The account of a run
-/

namespace Observed

section Run

variable {p : Platform w} {D : Session.Discipline P p.size} {cfg : Config w} {σ : Machine w}
  {o : Observed m P} {i : SystemIn w}

/--
The events have written what is written and what is still due.
-/
def Accounts (p : Platform w) (σ : Machine w) (o : Observed m P) : Prop :=
  forall v, σ.writes p (o.events v) =
    (o.writes.append o.sys.retiring).append
      (writesOf p.size (σ.after p o.settled).mem v o.sys.core.reg3)

theorem accounts_hold
    (hint : o.sys.core.interruptTaken cfg (o.sys.coreIn cfg p.size i) = false)
    (hhold : o.sys.core.backHold cfg (o.sys.coreIn cfg p.size i) = true)
    (hapart : o.sys.core.reg4.isAmo = true -> o.sys.core.reg3.isAmo = false)
    (h : Accounts p σ o) : Accounts p σ (o.step cfg p.size i) := by
  intro v
  have hreg3 : (o.sys.step cfg p.size i).core.reg3 = o.sys.core.reg3 :=
    Core.reg3_of_backHold hhold
  have hreg4 : (o.sys.step cfg p.size i).core.reg4 = o.sys.core.reg4 :=
    Core.reg4_of_backHold hhold
  have hretiring : (o.sys.step cfg p.size i).retiring = o.sys.retiring := by
    rw [System.retiring, System.writtenReg, System.writtenFreg, hreg4,
      System.writeDataRegwb_hold hapart hhold]
    rfl
  have hcsr : csrUpdates vlen o.sys.core.csr
      (o.sys.core.csrIn cfg (o.sys.coreIn cfg p.size i)) = [] :=
    System.csrUpdates_hold hint (Core.reg2Hold_of_backHold hhold)
  rw [step_hold hhold, hcsr]
  show _ = (Writes.append { o.writes with csr := o.csr ++ [] }
    (o.sys.step cfg p.size i).retiring).append (writesOf _ _ _
      (o.sys.step cfg p.size i).core.reg3)
  rw [List.append_nil, hretiring, hreg3]
  exact h v

/--
When memory moves on, what execute hands over is due next.
-/
theorem accounts_move (hsize : p.size <= uartRegion.base)
    (hu : System.Served p D cfg o.sys i)
    (hrel : System.Backend p D cfg o.sys (σ.after p o.settled).mem
      (σ.after p (o.events (o.sys.devValue cfg p.size i))) (o.sys.devValue cfg p.size i))
    (hgo : o.sys.core.backHold cfg (o.sys.coreIn cfg p.size i) = false)
    (hnew : forall v, σ.writes p ((o.step cfg p.size i).events v) =
      (σ.writes p (o.events (o.sys.devValue cfg p.size i))).append
        { writesOf p.size (σ.after p (o.events (o.sys.devValue cfg p.size i))).mem v
            (o.sys.core.executed cfg (o.sys.coreIn cfg p.size i)) with
          csr := csrUpdates vlen o.sys.core.csr
            (o.sys.core.csrIn cfg (o.sys.coreIn cfg p.size i)) })
    (h : Accounts p σ o) : Accounts p σ (o.step cfg p.size i) := by
  intro v
  have hreg3 : (o.sys.step cfg p.size i).core.reg3 =
      o.sys.core.executed cfg (o.sys.coreIn cfg p.size i) := Core.reg3_of_moves hgo
  have hmem := System.writtenMem_of_leave hrel hgo
  have hstep : (o.step cfg p.size i).writes =
      o.writes.append { o.sys.retiring with
        mem := o.sys.writtenMem
        csr := csrUpdates vlen o.sys.core.csr
          (o.sys.core.csrIn cfg (o.sys.coreIn cfg p.size i)) } := by
    rw [step, hgo]
    rfl
  rw [hnew, h, hstep, settled_step hgo, sys_step, hreg3,
    System.retiring_of_leave hsize hu hrel hgo, hmem]
  ext1
  · simp [Writes.append, List.append_assoc]
  · simp [Writes.append, List.append_assoc]
  · simp [Writes.append, System.retiring, List.append_assoc]
  · simp [Writes.append, System.retiring, writesOf]

theorem writesOf_bubble {size : Nat} {mem : Bytes} {v : BitVec w} {r : Reg3 w}
    (hdest : r.writeReg = 0) (hfloat : r.fRegWrite = false) (hwrite : r.memWrite = false)
    (hamo : r.isAmo = false) : writesOf size mem v r = .none := by
  rw [writesOf, Reg3.writes, hdest, hfloat, hwrite, hamo, bne_self_eq_false, Bool.and_false]
  rfl

theorem writesOf_stall {c : CoreIn w} {s : Core m} {size : Nat} {mem : Bytes}
    (hstall : (s.divStall || s.fpStall) = true) (v : BitVec w) :
    writesOf size mem v (s.executed cfg c) = .none := by
  have hbubble : s.reg3Bubble cfg c = true := by
    rw [Core.reg3Bubble, hstall]
    simp
  apply writesOf_bubble
  all_goals
    rw [Core.executed, hbubble]
    rfl

/--
A cycle in which memory moves on and nothing leaves execute.
-/
theorem accounts_stay (hsize : p.size <= uartRegion.base) (hu : System.Served p D cfg o.sys i)
    (hrel : System.Backend p D cfg o.sys (σ.after p o.settled).mem
      (σ.after p (o.events (o.sys.devValue cfg p.size i))) (o.sys.devValue cfg p.size i))
    (hgo : o.sys.core.backHold cfg (o.sys.coreIn cfg p.size i) = false)
    (hstay : (!o.sys.core.reg2Hold cfg (o.sys.coreIn cfg p.size i) &&
      o.sys.core.reg2.valid) = false)
    (hnone : forall mem v, writesOf p.size mem v
      (o.sys.core.executed cfg (o.sys.coreIn cfg p.size i)) = .none)
    (hcsr : csrUpdates vlen o.sys.core.csr
      (o.sys.core.csrIn cfg (o.sys.coreIn cfg p.size i)) = [])
    (h : Accounts p σ o) : Accounts p σ (o.step cfg p.size i) := by
  refine accounts_move hsize hu hrel hgo ?_ h
  intro v
  rw [events_stay hgo hstay, hnone, hcsr]
  exact (Writes.append_none _).symm

/--
A bubble that leaves execute writes nothing.
-/
theorem writes_quiet {s : Core m} {c : CoreIn w} (hquiet : Quiet s)
    (hplain : Core.Untranslated s) (hint : s.interruptTaken cfg c = false)
    (hflags : (s.csrIn cfg c).fpFlagsWe = true ->
      (s.csrIn cfg c).fpFlagsIn &&& ~~~s.csr.fflags = 0) :
    (forall mem v, writesOf p.size mem v (s.executed cfg c) = .none) ∧
      csrUpdates vlen s.csr (s.csrIn cfg c) = [] := by
  obtain ⟨hwrite, htrap, hmret, hsret⟩ : (s.csrIn cfg c).writeEn = false ∧ _ :=
    hquiet.csrIn hplain
  obtain ⟨_, hfloat, _, hstore, hamo, hdest⟩ : (s.executed cfg c).valid = false ∧ _ :=
    hquiet.executed
  exact ⟨fun mem v => writesOf_bubble hdest hfloat hstore hamo,
    csrUpdates_none hwrite (htrap.trans hint) hmret hsret hflags⟩

theorem writes_exec {c : CoreIn w} {t : Moment w} {σ : Machine w} {s : System m P}
    {mem : Bytes} {v : BitVec w} (hfma : cfg.fmaddUnit = p.fma) (hlines : t.lines = linesOf c)
    (hexec : Executes cfg s.core (σ.instr p t)) (hdiv : s.core.divStall = false)
    (hfp : s.core.fpStall = false) :
    writesOf p.size mem v (s.core.executed cfg c) =
      writesOf p.size mem v (σ.executed p t) := by
  have heq := hexec.executed (i := c) hdiv hfp
  rw [hfma, <- hlines] at heq
  have hself : s.core.executed cfg c =
      { σ.executed p t with readData2 := s.core.dtlbStoreData cfg } := heq
  rw [hself]
  ext1
  · rfl
  · rfl
  · show (if (σ.executed p t).writes then _ else _) =
      (if (σ.executed p t).writes then _ else _)
    cases hwrites : (σ.executed p t).writes with
    | false => rfl
    | true => rw [System.storeData_of_writes hexec hwrites]
  · rfl

theorem csrUpdates_exec {c : CoreIn w} {t : Moment w} {σ : Machine w} {s : System m P}
    (hfma : cfg.fmaddUnit = p.fma) (hlines : t.lines = linesOf c)
    (hexec : Executes cfg s.core (σ.instr p t)) (hhold : s.core.reg2Hold cfg c = false)
    (hint : s.core.interruptTaken cfg c = false) :
    csrUpdates vlen s.core.csr (s.core.csrIn cfg c) =
      csrUpdates vlen (σ.instr p t).csr ((σ.instr p t).csrIn p.fma t.lines) := by
  have hin := hexec.csrIn hhold hint
  rw [hfma, <- hlines] at hin
  rw [hin, hexec.holds.csr]
  refine csrUpdates_congr _ _ _ _ ?_ ?_
  · intro hwrite
    have hboth : ((σ.instr p t).ctrl.isCsr && !(σ.instr p t).csrPrivViolation) = true := hwrite
    exact hexec.csrWdata (Bool.and_eq_true_iff.mp hboth).left
  · intro hflags
    have hfp : (σ.instr p t).isFp = true := hflags
    rw [hexec.fpOut hfp, hfma]
    rfl

variable (hsize : p.size <= uartRegion.base) (hfma : cfg.fmaddUnit = p.fma)

include hsize hfma

theorem accounts_step (hu : System.Calm p D cfg o.sys i) (hrel : Follows p D cfg σ o)
    (h : Accounts p σ o) : Accounts p σ (o.step cfg p.size i) := by
  have hr := hrel (o.sys.devValue cfg p.size i)
  have hplain := hr.settled.untranslated hu.off
  cases hback : o.sys.core.backHold cfg (o.sys.coreIn cfg p.size i) with
  | true => exact accounts_hold hu.noInterrupt hback hr.apart h
  | false =>
      cases hhold : o.sys.core.reg2Hold cfg (o.sys.coreIn cfg p.size i) with
      | true =>
          have hstall : (o.sys.core.divStall || o.sys.core.fpStall) = true := by
            rw [<- System.waits_of_hold hplain hback, hhold]
          exact accounts_stay hsize hu.toServed hr.toBackend hback (by rw [hhold]; rfl)
            (fun mem v => writesOf_stall hstall v)
            (System.csrUpdates_hold hu.noInterrupt hhold) h
      | false =>
          cases hr.occupied with
          | quiet hquiet =>
              obtain ⟨hnone, hcsr⟩ :=
                writes_quiet hquiet hplain hu.noInterrupt (hu.flags hquiet.valid)
              exact accounts_stay hsize hu.toServed hr.toBackend hback
                (by rw [hquiet.valid, Bool.and_false]) hnone hcsr h
          | live hholds hissued =>
              obtain ⟨hdiv, hfp⟩ := System.unstalled_of_noHold hhold
              refine accounts_move hsize hu.toServed hr.toBackend hback ?_ h
              intro v
              have hexec : Executes cfg o.sys.core ((σ.after p
                  (o.events (o.sys.devValue cfg p.size i))).instr p (o.sys.moment i v)) :=
                hr.data.executes hplain hholds (System.issued_atTime hissued) hdiv hfp
              rw [events_leave hhold hholds.valid, Machine.writes_concat,
                writes_exec hfma rfl hexec hdiv hfp,
                csrUpdates_exec hfma rfl hexec hhold hu.noInterrupt]
              exact congrArg _ (writes_commitOf _ _ _ _ _ _)

omit hsize hfma in
theorem accounts_start {s : System m P} (hreg3 : s.core.reg3 = .reset)
    (hreg4 : s.core.reg4 = .reset) : Accounts p σ (start s) := by
  intro v
  have hretiring : s.retiring = .none := by
    rw [System.retiring, System.writtenReg, System.writtenFreg, hreg4]
    rfl
  show Writes.none = ((Writes.none).append s.retiring).append (writesOf _ _ _ s.core.reg3)
  rw [hretiring, hreg3]
  rfl

omit hsize hfma in
/--
What is written is the beginning of what the events write.
-/
theorem Accounts.begins (h : Accounts p σ o) (v : BitVec w) :
    o.writes.Begins (σ.writes p (o.events v)) := by
  rw [h, Writes.append_assoc]
  exact Writes.begins_append _ _

end Run
end Observed

/-!
# The register file

While write-back is held it writes the same register again, and the history counts the
write once.
-/

def written (regs : RegFile w) (writes : List (BitVec 5 × BitVec w)) : RegFile w :=
  writes.foldl (fun regs write => Lib.setAt regs write.1 write.2) regs

theorem written_writeOf (regs : RegFile w) (earlier : List (BitVec 5 × BitVec w)) (en : Bool)
    (dest : BitVec 5) (data : BitVec w) {k : BitVec 5} (hk : k ≠ 0) :
    written regs (earlier ++ writeOf (en && dest != 0) dest data) k =
      if en && dest == k then data else written regs earlier k := by
  rw [written, List.foldl_append]
  cases en with
  | false => rfl
  | true =>
      rw [Bool.true_and, Bool.true_and]
      by_cases hdest : dest = k
      · rw [hdest, bne_iff_ne.mpr hk, beq_self_eq_true]
        exact Lib.setAt_self _ _ _
      · rw [beq_eq_false_iff_ne.mpr hdest]
        cases dest != 0 with
        | false => rfl
        | true => exact Lib.setAt_of_ne (Ne.symm hdest)

namespace Observed

section File

variable {p : Platform w} {cfg : Config w} {o : Observed m P} {i : SystemIn w}
  {init : RegFile w}

/--
With the write of this cycle, the register file holds what the history has written.
-/
def Replays (init : RegFile w) (o : Observed m P) : Prop :=
  forall k, k ≠ 0 -> o.sys.core.regs.write1 o.sys.core.regWritePort1 k =
    written init (o.regs ++ o.sys.writtenReg) k

theorem write1_of_settled {s : Core m} {k : BitVec 5} (hs : Core.Settled cfg s)
    (c : CoreIn w) :
    s.regs.write1 s.regWritePort1 k = (s.step cfg c).regs k := by
  show _ = s.regs.step s.regWritePort1 (Core.regWritePort2 cfg c) k
  rw [RegFile.step, RegFile.write2, Core.regWritePort2_of_settled hs]
  rfl

theorem replays_start {s : System m P} (hregs : s.core.regs = init)
    (hreg4 : s.core.reg4 = .reset) : Replays init (start s) := by
  intro k _
  have hnone : s.writtenReg = [] := by
    rw [System.writtenReg, hreg4]
    rfl
  show s.core.regs.write1 s.core.regWritePort1 k = written init s.writtenReg k
  rw [hnone, Core.regWritePort1, hreg4, hregs]
  rfl

theorem replays_step (hs : Core.Settled cfg o.sys.core)
    (hs' : Core.Settled cfg (o.sys.step cfg p.size i).core)
    (hapart : o.sys.core.reg4.isAmo = true -> o.sys.core.reg3.isAmo = false)
    (h : Replays init o) : Replays init (o.step cfg p.size i) := by
  intro k hk
  have hfile : (o.sys.step cfg p.size i).core.regs k =
      written init (o.regs ++ o.sys.writtenReg) k := by
    rw [<- h k hk, write1_of_settled hs (o.sys.coreIn cfg p.size i)]
    rfl
  rw [sys_step, write1_of_settled hs' (o.sys.coreIn cfg p.size i), Core.regs_step hs' hk,
    hfile]
  cases hback : o.sys.core.backHold cfg (o.sys.coreIn cfg p.size i) with
  | true =>
      have hreg4 : (o.sys.step cfg p.size i).core.reg4 = o.sys.core.reg4 :=
        Core.reg4_of_backHold hback
      have hdata := System.writeDataRegwb_hold hapart hback
      rw [step_hold hback, Core.wbWrites, hreg4, hdata]
      show _ = written init (o.regs ++ System.writtenReg _) k
      rw [System.writtenReg, System.writtenReg, hreg4, hdata, written_writeOf _ _ _ _ _ hk]
      cases o.sys.core.reg4.regWrite && o.sys.core.reg4.writeReg == k <;> rfl
  | false =>
      have hregs : (o.step cfg p.size i).regs = o.regs ++ o.sys.writtenReg := by
        rw [step, hback]
        rfl
      show _ = written init (_ ++ writeOf (_ && _ != 0) _ _) k
      rw [hregs, written_writeOf _ _ _ _ _ hk]
      rfl

end File

end Observed
end Soc
end RvCores
