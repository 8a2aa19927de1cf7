import RvCores.Soc.Writes

/-!
# Runs without surroundings

A program that reads no counter and finds its data in RAM runs in the same way whatever
the time is and whatever the devices answer, as long as the interrupt lines are silent.
The runs of such a program are the beginnings of one run.
-/

namespace RvCores

/-!
# Instructions without time
-/

namespace Pipe

open Isa Block Soc
open Pipe.Core (isOpFp isFma)

variable {w : Nat}

def Lines.silent : Lines :=
  { msipPending := false, timerPending := false, extPending := false }

namespace Instr

variable {x : Instr w} {fma : FmaddUnit} {lines : Lines}

def readsCounter (x : Instr w) : Bool :=
  x.ctrl.isCsr && CsrAddr.isCounter (x.imm.setWidth 12)

theorem noCounter_of_csr (h : x.readsCounter = false) (hcsr : x.ctrl.isCsr = true) :
    CsrAddr.isCounter (x.csrIn fma lines).addr = false := by
  rw [readsCounter, hcsr] at h
  exact h

theorem noCounter_of_write (h : x.readsCounter = false)
    (hwrite : (x.csrIn fma lines).writeEn = true) :
    CsrAddr.isCounter (x.csrIn fma lines).addr = false := by
  have hboth : (x.ctrl.isCsr && !x.csrPrivViolation) = true := hwrite
  exact noCounter_of_csr h (Bool.and_eq_true_iff.mp hboth).left

/--
The instruction at another time.
-/
def atCounters (x : Instr w) (c : Counters w) : Instr w :=
  { x with csr := x.csr.withCounters c }

theorem csrIn_atCounters (c : Counters w) : (x.atCounters c).csrIn fma lines =
    x.csrIn fma lines := rfl

theorem nextPc_atCounters (c : Counters w) : (x.atCounters c).nextPc fma lines =
    x.nextPc fma lines := rfl

theorem executed_atCounters (c : Counters w) (h : x.readsCounter = false) :
    (x.atCounters c).executed fma lines = x.executed fma lines := by
  have hresult : (x.atCounters c).exResult fma lines = x.exResult fma lines := by
    rw [exResult, exResult]
    show (if isOpFp x.inst || isFma x.inst then _ else if x.ctrl.isCsr then _ else _) = _
    cases hcsr : x.ctrl.isCsr with
    | false => rfl
    | true =>
        have hread : (x.csr.withCounters c).rdata vlen (x.csrIn fma lines) =
            x.csr.rdata vlen (x.csrIn fma lines) :=
          Csr.rdata_withCounters c (noCounter_of_csr h hcsr)
        rw [<- hread]
        rfl
  rw [executed, hresult]
  rfl

theorem csrNext_atCounters (c : Counters w) (h : x.readsCounter = false) :
    ((x.atCounters c).csrNext fma lines).timeless = (x.csrNext fma lines).timeless := by
  rw [csrNext, csrIn_atCounters]
  exact Csr.timeless_step_withCounters c (noCounter_of_write h)

theorem csrUpdates_atCounters (c : Counters w) (h : x.readsCounter = false) :
    csrUpdates vlen (x.atCounters c).csr ((x.atCounters c).csrIn fma lines) =
      csrUpdates vlen x.csr (x.csrIn fma lines) := by
  rw [csrIn_atCounters]
  exact csrUpdates_withCounters c (noCounter_of_write h)

end Instr

/-!
# Memory without devices
-/

namespace Reg3

variable {size : Nat} {mem : Bytes} {r : Reg3 w}

/--
What it reads, it reads from RAM.
-/
def ReadsRam (size : Nat) (r : Reg3 w) : Prop :=
  r.memtoReg = true ∨ r.isAmo = true -> inRam size r.aluOut = true

theorem loaded_of_inRam (h : inRam size r.aluOut = true) (v u : BitVec w) :
    r.loaded size mem v = r.loaded size mem u := by
  rw [loaded, loaded, h]
  rfl

theorem value_of_readsRam (h : r.ReadsRam size) (v u : BitVec w) :
    r.value size mem v = r.value size mem u := by
  rw [value, value]
  cases hamo : r.isAmo with
  | true => exact loaded_of_inRam (h (.inr hamo)) v u
  | false =>
      cases r.jump with
      | true => rfl
      | false =>
          cases hload : r.memtoReg with
          | true => exact loaded_of_inRam (h (.inl hload)) v u
          | false => rfl

theorem write_of_readsRam (h : r.ReadsRam size) (v u : BitVec w) :
    r.write size mem v = r.write size mem u := by
  rw [write, write, stored, stored]
  cases hamo : r.isAmo with
  | true => rw [loaded_of_inRam (h (.inr hamo)) v u]
  | false => rfl

end Reg3
end Pipe

/-!
# One run for all
-/

namespace Soc

open Isa Block Pipe

variable {w : Nat} {m : Mmu w} {P : RamPort w}

/--
No time, no interrupt lines, and what a device answers.
-/
def Moment.still (d : BitVec w) : Moment w :=
  { counters := .zero, lines := .silent, dev := d }

def Platform.NoCounters (p : Platform w) : Prop :=
  forall a, (Isa.control w (instFinal (p.fetch a))).isCsr = true ->
    CsrAddr.isCounter ((immGen w (instFinal (p.fetch a))).setWidth 12) = false

namespace Machine

variable {p : Platform w} {σ : Machine w} {t : Moment w}

theorem readsCounter_instr (hprogram : p.NoCounters) (σ : Machine w) (t : Moment w) :
    (σ.instr p t).readsCounter = false := by
  rw [Instr.readsCounter]
  cases hcsr : (σ.instr p t).ctrl.isCsr with
  | false => rfl
  | true => exact hprogram σ.pc hcsr

theorem instr_still (σ : Machine w) (t : Moment w) (d : BitVec w) :
    σ.instr p t = (σ.instr p (.still d)).atCounters t.counters := rfl

theorem executed_still (hprogram : p.NoCounters) (hlines : t.lines = .silent) (d : BitVec w) :
    σ.executed p t = σ.executed p (.still d) := by
  rw [executed, hlines, instr_still σ t d]
  exact Instr.executed_atCounters _ (readsCounter_instr hprogram σ (.still d))

/--
Where the answer of a device matters, it is this one.
-/
def Answer (p : Platform w) (σ : Machine w) (t : Moment w) (d : BitVec w) : Prop :=
  (σ.executed p (.still d)).ReadsRam p.size ∨ t.dev = d

theorem commitOf_still {mem : Bytes} {pc d : BitVec w} {csr : List (CsrUpdate w)}
    (h : Answer p σ t d) :
    commitOf p.size mem pc (σ.executed p (.still d)) t.dev csr =
      commitOf p.size mem pc (σ.executed p (.still d)) d csr := by
  rcases h with hram | hsame
  · rw [commitOf, Reg3.value_of_readsRam hram t.dev d, Reg3.write_of_readsRam hram t.dev d]
    rfl
  · rw [hsame]

theorem commit_still {d : BitVec w} (hprogram : p.NoCounters) (hlines : t.lines = .silent)
    (h : Answer p σ t d) : σ.commit p t = σ.commit p (.still d) := by
  rw [commit, executed_still hprogram hlines d, hlines, instr_still σ t d,
    Instr.csrUpdates_atCounters _ (readsCounter_instr hprogram σ (.still d)),
    commitOf_still h]
  rfl

theorem exec_still {d : BitVec w} (hprogram : p.NoCounters) (hlines : t.lines = .silent)
    (h : Answer p σ t d) : σ.exec p t = σ.exec p (.still d) := by
  rw [exec, commit_still hprogram hlines h, executed_still hprogram hlines d, hlines,
    instr_still σ t d, Instr.nextPc_atCounters,
    Instr.csrNext_atCounters _ (readsCounter_instr hprogram σ (.still d)),
    System.memAfter_dev _ _ t.dev d]
  rfl

/-!
# The run

What the devices answer is told in the order of the instructions.
-/

section Told

variable (p : Platform w) (dev : Nat -> BitVec w) (σ : Machine w)

def run : Nat -> Machine w
  | 0 => σ
  | n + 1 => (run n).exec p (.still (dev n))

/--
What the first instructions write.
-/
def trace : Nat -> Writes w
  | 0 => .none
  | n + 1 => (trace n).append ((run p dev σ n).commit p (.still (dev n))).writes

end Told

/--
An instruction and no interrupt, with silent lines.
-/
def Silent (e : Event w) : Prop := exists t, e = .instr t ∧ t.lines = .silent

/--
The devices have answered the events as they are told to.
-/
def Answered (p : Platform w) (dev : Nat -> BitVec w) (σ : Machine w)
    (events : List (Event w)) : Prop :=
  forall k t, events[k]? = some (.instr t) -> Answer p (σ.run p dev k) t (dev k)

/--
The program reads from RAM only.
-/
def ReadsRam (p : Platform w) (dev : Nat -> BitVec w) (σ : Machine w) : Prop :=
  forall n, ((σ.run p dev n).executed p (.still (dev n))).ReadsRam p.size

theorem ReadsRam.answered {dev : Nat -> BitVec w} (h : σ.ReadsRam p dev)
    (events : List (Event w)) : Answered p dev σ events :=
  fun k _ _ => .inl (h k)

theorem getElem?_concat {α : Type} {l : List α} {a b : α} {k : Nat} (h : l[k]? = some a) :
    (l ++ [b])[k]? = some a := by
  rw [List.getElem?_append_left (List.getElem?_eq_some_iff.mp h).choose]
  exact h

theorem run_of_silent (hprogram : p.NoCounters) {dev : Nat -> BitVec w}
    (events : List (Event w)) (hsilent : forall e, e ∈ events -> Silent e)
    (hdev : Answered p dev σ events) :
    σ.after p events = σ.run p dev events.length ∧
      σ.writes p events = σ.trace p dev events.length := by
  induction events using List.reverseRecOn with
  | nil => exact ⟨rfl, rfl⟩
  | append_singleton events e ih =>
      obtain ⟨hafter, hwrites⟩ := ih (fun e he => hsilent e (List.mem_append_left _ he))
        (fun k t hk => hdev k t (getElem?_concat hk))
      obtain ⟨t, rfl, hlines⟩ := hsilent e (List.mem_append_right _ (List.mem_singleton_self e))
      have hanswer : Answer p (σ.run p dev events.length) t (dev events.length) := by
        apply hdev
        rw [List.getElem?_append_right (Nat.le_refl _), Nat.sub_self]
        rfl
      rw [after_concat, writes_concat, hafter, hwrites, List.length_append]
      refine ⟨?_, ?_⟩
      · exact exec_still hprogram hlines hanswer
      · have hcommit : (σ.run p dev events.length).observe p (.instr t) =
            (σ.run p dev events.length).commit p (.still (dev events.length)) :=
          commit_still hprogram hlines hanswer
        rw [hcommit]
        rfl

end Machine

/-!
# Loads from fixed addresses
-/

/--
A load goes to its operand and its offset.
-/
theorem exResult_of_load {x : Instr w} {fma : FmaddUnit} {lines : Lines}
    (hload : x.ctrl.memtoReg = true) (hword : x.isWordOp = false) :
    x.exResult fma lines = x.rs1 + x.imm := by
  have hshape : x.ctrl.memtoReg = true -> x.ctrl.memRead = true ∧ x.ctrl.isCsr = false ∧
      x.ctrl.auipc = false ∧ x.ctrl.lui = false ∧ x.ctrl.aluSrc = true ∧
      x.ctrl.aluOp = .loadStore :=
    Isa.control_shape w x.inst
      (p := fun c => c.memtoReg = true -> c.memRead = true ∧ c.isCsr = false ∧
        c.auipc = false ∧ c.lui = false ∧ c.aluSrc = true ∧ c.aluOp = .loadStore)
      (by decide)
  obtain ⟨hread, hcsr, hauipc, hlui, hsrc, hop⟩ := hshape hload
  have hfloat : (Core.isOpFp x.inst || Core.isFma x.inst) = false := by
    cases hfp : Core.isOpFp x.inst || Core.isFma x.inst with
    | false => rfl
    | true =>
        have hnone := (Core.control_isFp hfp).right.right.right.left
        rw [hread] at hnone
        cases hnone
  have halu : x.aluCtl = .add := by
    rw [Instr.aluCtl, hop]
    rfl
  rw [Instr.exResult, hfloat, hcsr, Instr.isDivRem, halu, Instr.aluOut, halu, Instr.aluA,
    hauipc, hlui, Instr.aluB, hsrc, hword]
  rfl

/--
The word reads no memory, or a fixed word of RAM.
-/
def loadsFixed (w size : Nat) (inst : Word) : Bool :=
  !(Isa.control w inst).isAmo &&
    (!(Isa.control w inst).memtoReg ||
      (!(inst.opcode == opcodeOp32 || inst.opcode == opcodeOpImm32) && inst.rs1 == 0 &&
        inRam size (immGen w inst)))

theorem Machine.readsRam_of_fixed {p : Platform w} {σ : Machine w} {dev : Nat -> BitVec w}
    (h : forall a, loadsFixed w p.size (instFinal (p.fetch a)) = true) :
    σ.ReadsRam p dev := by
  intro n hreads
  generalize σ.run p dev n = τ at hreads ⊢
  have hfixed := h τ.pc
  simp only [loadsFixed, Bool.and_eq_true, Bool.not_eq_true', Bool.or_eq_true,
    beq_iff_eq] at hfixed
  obtain ⟨hamo, hload⟩ := hfixed
  have hctrl : (τ.instr p (.still (dev n))).ctrl =
      Isa.control w (instFinal (p.fetch τ.pc)) := rfl
  have hmem : (τ.instr p (.still (dev n))).ctrl.memtoReg = true := by
    rcases hreads with hreads | hreads
    · exact (Bool.and_eq_true_iff.mp hreads).right
    · have hnone := (Bool.and_eq_true_iff.mp hreads).right
      rw [hctrl, hamo] at hnone
      cases hnone
  rcases hload with hnone | ⟨⟨hword, hrs1⟩, hram⟩
  · rw [hctrl, hnone] at hmem
    cases hmem
  · have haddr : (τ.executed p (.still (dev n))).aluOut =
        immGen w (instFinal (p.fetch τ.pc)) := by
      have hzero : (τ.instr p (.still (dev n))).rs1 = 0 := if_pos hrs1
      show Instr.exResult _ _ _ = _
      rw [exResult_of_load hmem hword, hzero]
      exact BitVec.zero_add _
    rw [haddr]
    exact hram

/-!
# The instruction in execute
-/

/--
The arithmetic of the word in execute reads its operands in this cycle: a unit that has
taken them does not look at them again.
-/
def takesOperands (s : Core m) : Bool :=
  (!s.isDivRem || (!s.divider.busy && !s.divider.done)) &&
    (!s.isFpDivRegde || (!s.fdivider.busy && !s.fdivider.done)) &&
      (!s.isFpSqrtRegde || (!s.fsqrt.busy && !s.fsqrt.done))

/--
The instruction in execute is the next one, and its operands are what the registers hold.
-/
structure Executing (p : Platform w) (cfg : Config w) (s : Core m) (σ : Machine w) :
    Prop where
  pc : s.reg2.pc = σ.pc
  inst : s.reg2.inst = instFinal (p.fetch σ.pc)
  rs1 : takesOperands s = true -> s.readData1Final cfg = σ.readReg s.reg2.inst.rs1
  rs2 : takesOperands s = true -> s.readData2Final cfg = σ.readReg s.reg2.inst.rs2
  frs1 : takesOperands s = true -> readsFrs1 s.reg2.inst = true ->
    s.freadData1Final = σ.fregs s.reg2.inst.rs1
  frs2 : takesOperands s = true -> readsFrs2 s.reg2.inst = true ->
    s.freadData2Final = σ.fregs s.reg2.inst.rs2
  frs3 : takesOperands s = true -> readsFrs3 s.reg2.inst = true ->
    s.freadData3Final = σ.fregs s.reg2.inst.funct5

/--
While its operands are read, no unit has taken them.
-/
theorem sources_of_takes {cfg : Config w} {s : Core m} {x : Instr w}
    (hholds : Core.HoldsInstr s x) (htakes : takesOperands s = true)
    (h : Core.Issued cfg s x) : Core.Sources cfg s x := by
  cases h with
  | fresh hsources _ => exact hsources
  | drained hit _ _ _ hunits =>
      rw [takesOperands, hholds.isDivRem, hholds.isFpDiv, hholds.isFpSqrt] at htakes
      simp only [Instr.iterative, Bool.or_eq_true] at hit
      rcases hit with (hdiv | hfdiv) | hfsqrt
      · have hbusy : (!s.divider.busy && !s.divider.done) = false := hunits.div.underWay hdiv
        rw [hdiv, hbusy] at htakes
        cases htakes
      · have hbusy : (!s.fdivider.busy && !s.fdivider.done) = false :=
          hunits.fdiv.underWay hfdiv
        rw [hfdiv, hbusy] at htakes
        simp at htakes
      · have hbusy : (!s.fsqrt.busy && !s.fsqrt.done) = false :=
          hunits.fsqrt.underWay hfsqrt
        rw [hfsqrt, hbusy] at htakes
        simp at htakes

theorem System.Rel.executing {p : Platform w} {D : Session.Discipline P p.size}
    {cfg : Config w} {s : System m P} {bytes : Bytes} {σ : Machine w} {v : BitVec w}
    (h : System.Rel p D cfg s bytes σ v) (hvalid : s.core.reg2.valid = true) :
    Executing p cfg s.core σ := by
  cases h.occupied with
  | quiet hquiet =>
      rw [hquiet.valid] at hvalid
      cases hvalid
  | live hholds hissued =>
      have hoperands : takesOperands s.core = true ->
          Core.HasOperands cfg s.core (σ.instr p (.atTime s.core.csr.counters)) :=
        fun htakes => (sources_of_takes hholds htakes hissued).operands h.data.regs
          (fun hearly => System.value_of_early hearly) (System.reads_instr p _ _) hholds
      have hreads := System.reads_instr p σ (.atTime s.core.csr.counters)
      refine ⟨hholds.pc, hholds.inst, ?_, ?_, ?_, ?_, ?_⟩
      · intro htakes
        rw [(hoperands htakes).rs1, hholds.inst]
        rfl
      · intro htakes
        rw [(hoperands htakes).rs2, hholds.inst]
        rfl
      · intro htakes hfloat
        rw [hholds.inst] at hfloat ⊢
        rw [(hoperands htakes).frs1 hfloat, hreads.frs1 hfloat]
      · intro htakes hfloat
        rw [hholds.inst] at hfloat ⊢
        rw [(hoperands htakes).frs2 hfloat, hreads.frs2 hfloat]
      · intro htakes hfloat
        rw [hholds.inst] at hfloat ⊢
        rw [(hoperands htakes).frs3 hfloat, hreads.frs3 hfloat]

/-!
# The events of the pipeline
-/

namespace Observed

variable {p : Platform w} {D : Session.Discipline P p.size} {cfg : Config w} {σ : Machine w}
  {o : Observed m P} {i : SystemIn w}

/--
The pipeline has gone through instructions only, and at most one of them is in memory.
-/
structure Silent (o : Observed m P) : Prop where
  events : forall e, e ∈ o.settled ++ o.pending -> Machine.Silent e
  pending : o.pending.length <= 1

theorem Silent.all (h : Silent o) (v : BitVec w) :
    forall e, e ∈ o.events v -> Machine.Silent e := by
  intro e he
  rw [Observed.events, List.mem_append, List.mem_map] at he
  rcases he with he | ⟨e, he, rfl⟩
  · exact h.events e (List.mem_append_left _ he)
  · obtain ⟨t, rfl, hlines⟩ := h.events e (List.mem_append_right _ he)
    exact ⟨{ t with dev := v }, rfl, hlines⟩

theorem silent_start (s : System m P) : Silent (start s) where
  events := fun e he => by cases he
  pending := Nat.zero_le 1

theorem silent_step (hlines : (o.sys.moment i 0).lines = .silent) (h : Silent o) :
    Silent (o.step cfg p.size i) := by
  cases hback : o.sys.core.backHold cfg (o.sys.coreIn cfg p.size i) with
  | true =>
      rw [step_hold hback]
      exact ⟨h.events, h.pending⟩
  | false =>
      constructor
      · intro e he
        rw [settled_step hback, pending_step hback, List.mem_append] at he
        rcases he with he | he
        · exact h.all _ e he
        · split at he
          · rw [List.mem_singleton] at he
            exact ⟨o.sys.moment i 0, he, hlines⟩
          · cases he
      · rw [pending_step hback]
        split
        · exact Nat.le_refl 1
        · exact Nat.zero_le 1

/--
The answer to the instruction in memory is still to come.
-/
theorem Silent.answered {dev : Nat -> BitVec w} (h : Silent o)
    (hdev : Machine.Answered p dev σ o.settled) :
    Machine.Answered p dev σ (o.events (dev o.settled.length)) := by
  intro k t hk
  rw [Observed.events] at hk
  by_cases hlt : k < o.settled.length
  · rw [List.getElem?_append_left hlt] at hk
    exact hdev k t hk
  · rw [List.getElem?_append_right (Nat.le_of_not_lt hlt), List.getElem?_map] at hk
    have hsingle := h.pending
    obtain ⟨e, he, hwith⟩ := Option.map_eq_some_iff.mp hk
    have hindex : k - o.settled.length < o.pending.length :=
      (List.getElem?_eq_some_iff.mp he).choose
    have hk' : k = o.settled.length := by omega
    right
    rw [hk']
    cases e with
    | instr t' =>
        cases hwith
        rfl
    | interrupt cause vector => cases hwith

/--
What is written is the beginning of the one run, in which the pipeline is now.
-/
theorem begins_trace {dev : Nat -> BitVec w} (hprogram : p.NoCounters)
    (haccounts : Accounts p σ o) (h : Silent o) (hdev : Machine.Answered p dev σ o.settled) :
    o.writes.Begins (σ.trace p dev (o.settled ++ o.pending).length) ∧
      σ.after p (o.events (dev o.settled.length)) =
        σ.run p dev (o.settled ++ o.pending).length := by
  obtain ⟨hafter, hwrites⟩ := Machine.run_of_silent hprogram
    (o.events (dev o.settled.length)) (h.all _) (h.answered hdev)
  have hlength : (o.events (dev o.settled.length)).length =
      (o.settled ++ o.pending).length := by
    rw [Observed.events, List.length_append, List.length_map, List.length_append]
  rw [<- hlength, <- hwrites]
  exact ⟨haccounts.begins _, hafter⟩

/-!
# All that is known along a run
-/

structure Tracked (p : Platform w) (D : Session.Discipline P p.size) (cfg : Config w)
    (σ : Machine w) (o : Observed m P) : Prop where
  follows : Follows p D cfg σ o
  accounts : Accounts p σ o
  silent : Silent o
  replays : Replays (RegFile.reset cfg.spInit) o

theorem tracked_start {c : Core m} {ram : P.State} (hm : m.PtwLawful)
    (huncached : cfg.cached = false) (hsplit : cfg.splitFetch = false)
    (hport : D.Idle ram false) :
    Tracked p D cfg (resetMachine cfg c (P.bytes ram)) (start (resetSystem cfg c ram)) where
  follows := fun v => rel_reset hm huncached hsplit hport v
  accounts := accounts_start rfl rfl
  silent := silent_start _
  replays := replays_start rfl rfl

theorem tracked_step (hm : m.PtwLawful) (hsize : p.size <= uartRegion.base)
    (hfma : cfg.fmaddUnit = p.fma) (hu : System.Calm p D cfg o.sys i)
    (hlines : (o.sys.moment i 0).lines = .silent) (h : Tracked p D cfg σ o) :
    Tracked p D cfg σ (o.step cfg p.size i) where
  follows := follows_step hm hsize hfma h.follows hu
  accounts := accounts_step hsize hfma hu h.follows h.accounts
  silent := silent_step hlines h.silent
  replays :=
    have hrel := h.follows 0
    replays_step hrel.settled (hrel.settled.step hm hu.off) hrel.apart h.replays

/--
What the pipeline has written is the beginning of what the sequential machine writes, its
register file holds it, and execute holds the next instruction.
-/
structure Refines (p : Platform w) (dev : Nat -> BitVec w) (cfg : Config w) (σ : Machine w)
    (o : Observed m P) : Prop where
  writes : exists n, o.writes.Begins (σ.trace p dev n) ∧
    (o.sys.core.reg2.valid = true -> Executing p cfg o.sys.core (σ.run p dev n))
  regs : Replays (RegFile.reset cfg.spInit) o

theorem Tracked.refines {dev : Nat -> BitVec w} (hprogram : p.NoCounters)
    (h : Tracked p D cfg σ o) (hdev : Machine.Answered p dev σ o.settled) :
    Refines p dev cfg σ o := by
  obtain ⟨hbegins, hafter⟩ := begins_trace hprogram h.accounts h.silent hdev
  refine ⟨⟨_, hbegins, ?_⟩, h.replays⟩
  intro hvalid
  rw [<- hafter]
  exact (h.follows _).executing hvalid

end Observed
end Soc
end RvCores
