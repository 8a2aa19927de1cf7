import RvCores.Soc.Refinement

/-!
# What a run of the pipeline shows

Next to the system stand the events of the sequential machine that it has gone through,
and the writes that it has made.  An instruction becomes an event when it leaves execute;
what a device answers to it is added when it leaves memory.
-/

namespace RvCores
namespace Soc

open Isa Block Pipe

variable {w : Nat} {m : Mmu w} {P : RamPort w}

def Event.withDev (e : Event w) (v : BitVec w) : Event w :=
  match e with
  | .instr t => .instr { t with dev := v }
  | .interrupt cause vector => .interrupt cause vector

/-!
# Writes
-/

def writeOf (en : Bool) (dest : BitVec 5) (data : BitVec w) : List (BitVec 5 × BitVec w) :=
  if en then [(dest, data)] else []

namespace System

def writtenReg (s : System m P) : List (BitVec 5 × BitVec w) :=
  writeOf (s.core.reg4.regWrite && s.core.reg4.writeReg != 0) s.core.reg4.writeReg
    s.core.writeDataRegwb

def writtenFreg (s : System m P) : List (BitVec 5 × BitVec w) :=
  writeOf s.core.reg4.fRegWrite s.core.reg4.writeReg s.core.writeDataRegwb

def writtenMem (s : System m P) : List (MemRequest w) :=
  if s.core.reg3.writes then
    [{ memWrite := true
       memRead := false
       address := s.core.reg3.aluOut
       writeData := if s.core.amoActive then s.core.amoCombined else s.core.reg3.readData2
       funct3 := s.core.reg3.funct3 }]
  else []

end System

/-!
# Reset
-/

def resetMachine (cfg : Config w) (c : Core m) (bytes : Bytes) : Machine w :=
  { pc := 0
    regs := RegFile.reset cfg.spInit
    fregs := fun _ => 0
    mem := bytes
    csr := c.csr.reset.timeless }

def resetSystem (cfg : Config w) (c : Core m) (ram : P.State) : System m P :=
  { core := c.reset cfg, ram := ram }

theorem backend_reset {p : Platform w} {D : Session.Discipline P p.size} {cfg : Config w}
    {c : Core m} {ram : P.State} (hm : m.PtwLawful) (huncached : cfg.cached = false)
    (hport : D.Idle ram false) (v : BitVec w) :
    System.Backend p D cfg (resetSystem cfg c ram : System m P) (P.bytes ram)
      (resetMachine cfg c (P.bytes ram)) v := by
  refine ⟨?_, rfl, ?_, fun h => Bool.noConfusion h, ?_⟩
  · exact ⟨huncached, fun _ => rfl, rfl, rfl, hm.reset _, hm.reset_idle _, hm.reset_done _⟩
  · exact ⟨fun h => Bool.noConfusion h, fun h => Bool.noConfusion h,
      fun h => Bool.noConfusion h⟩
  · refine ⟨.none rfl rfl rfl rfl hport rfl, rfl, ?_, ?_⟩
    · intro k _
      rfl
    · intro k
      rfl

theorem rel_reset {p : Platform w} {D : Session.Discipline P p.size} {cfg : Config w}
    {c : Core m} {ram : P.State} (hm : m.PtwLawful) (huncached : cfg.cached = false)
    (hsplit : cfg.splitFetch = false) (hport : D.Idle ram false) (v : BitVec w) :
    System.Rel p D cfg (resetSystem cfg c ram : System m P) (P.bytes ram)
      (resetMachine cfg c (P.bytes ram)) v := by
  refine ⟨backend_reset hm huncached hport v, .quiet ?_ ?_ ?_⟩
  · exact ⟨rfl, .inl rfl, rfl, rfl, rfl⟩
  · have hidle : Core.UnitsIdle (c.reset cfg) := ⟨⟨rfl, rfl⟩, ⟨rfl, rfl⟩, ⟨rfl, rfl⟩⟩
    exact hidle.follow
  · refine .empty rfl rfl ?_
    unfold Core.Fetches
    rw [hsplit]
    exact ⟨rfl, rfl⟩

/-!
# The system with its history
-/

structure Observed (m : Mmu w) (P : RamPort w) where
  sys : System m P
  settled : List (Event w)
  pending : List (Event w)
  regs : List (BitVec 5 × BitVec w)
  fregs : List (BitVec 5 × BitVec w)
  mem : List (MemRequest w)
  csr : List (CsrUpdate w)

namespace Observed

def start (s : System m P) : Observed m P :=
  { sys := s, settled := [], pending := [], regs := [], fregs := [], mem := [], csr := [] }

/--
All events, if a device answers `v` to the instruction in memory.
-/
def events (o : Observed m P) (v : BitVec w) : List (Event w) :=
  o.settled ++ o.pending.map (fun e => e.withDev v)

def step (cfg : Config w) (size : Nat) (o : Observed m P) (i : SystemIn w) : Observed m P :=
  let c := o.sys.coreIn cfg size i
  let csr := o.csr ++ csrUpdates vlen o.sys.core.csr (o.sys.core.csrIn cfg c)
  if o.sys.core.backHold cfg c then { o with sys := o.sys.step cfg size i, csr := csr }
  else
    { sys := o.sys.step cfg size i
      settled := o.events (o.sys.devValue cfg size i)
      pending :=
        if !o.sys.core.reg2Hold cfg c && o.sys.core.reg2.valid then
          [.instr (o.sys.moment i 0)]
        else []
      regs := o.regs ++ o.sys.writtenReg
      fregs := o.fregs ++ o.sys.writtenFreg
      mem := o.mem ++ o.sys.writtenMem
      csr := csr }

/-!
# The relation along a run
-/

section Run

variable {p : Platform w} {D : Session.Discipline P p.size} {cfg : Config w} {σ : Machine w}
  {o : Observed m P} {i : SystemIn w}

/--
The sequential machine goes through the same events.
-/
def Follows (p : Platform w) (D : Session.Discipline P p.size) (cfg : Config w)
    (σ : Machine w) (o : Observed m P) : Prop :=
  forall v, System.Rel p D cfg o.sys (σ.after p o.settled).mem (σ.after p (o.events v)) v

theorem sys_step : (o.step cfg p.size i).sys = o.sys.step cfg p.size i := by
  rw [step]
  split <;> rfl

theorem events_of_idle (h : o.pending = []) (v : BitVec w) : o.events v = o.settled := by
  rw [events, h]
  exact List.append_nil _

theorem step_hold (hhold : o.sys.core.backHold cfg (o.sys.coreIn cfg p.size i) = true) :
    o.step cfg p.size i =
      { o with
        sys := o.sys.step cfg p.size i
        csr := o.csr ++ csrUpdates vlen o.sys.core.csr
          (o.sys.core.csrIn cfg (o.sys.coreIn cfg p.size i)) } :=
  if_pos hhold

theorem settled_step (hgo : o.sys.core.backHold cfg (o.sys.coreIn cfg p.size i) = false) :
    (o.step cfg p.size i).settled = o.events (o.sys.devValue cfg p.size i) := by
  rw [step, hgo]
  rfl

theorem pending_step (hgo : o.sys.core.backHold cfg (o.sys.coreIn cfg p.size i) = false) :
    (o.step cfg p.size i).pending =
      if !o.sys.core.reg2Hold cfg (o.sys.coreIn cfg p.size i) && o.sys.core.reg2.valid then
        [.instr (o.sys.moment i 0)]
      else [] := by
  rw [step, hgo]
  rfl

theorem events_leave (hhold : o.sys.core.reg2Hold cfg (o.sys.coreIn cfg p.size i) = false)
    (hvalid : o.sys.core.reg2.valid = true) (v : BitVec w) :
    (o.step cfg p.size i).events v =
      o.events (o.sys.devValue cfg p.size i) ++ [.instr (o.sys.moment i v)] := by
  have hgo := System.backHold_of_noHold hhold
  rw [events, settled_step hgo, pending_step hgo, hhold, hvalid]
  rfl

theorem events_stay (hgo : o.sys.core.backHold cfg (o.sys.coreIn cfg p.size i) = false)
    (hstay : (!o.sys.core.reg2Hold cfg (o.sys.coreIn cfg p.size i) &&
      o.sys.core.reg2.valid) = false) (v : BitVec w) :
    (o.step cfg p.size i).events v = o.events (o.sys.devValue cfg p.size i) := by
  rw [events_of_idle (by rw [pending_step hgo, hstay]; rfl), settled_step hgo]

variable (hm : m.PtwLawful) (hsize : p.size <= uartRegion.base) (hfma : cfg.fmaddUnit = p.fma)

include hm hsize hfma

theorem follows_step (h : Follows p D cfg σ o) (hu : System.Calm p D cfg o.sys i) :
    Follows p D cfg σ (o.step cfg p.size i) := by
  intro v
  rw [sys_step]
  cases hback : o.sys.core.backHold cfg (o.sys.coreIn cfg p.size i) with
  | true =>
      rw [step_hold hback]
      exact System.rel_hold hm hsize hu (h v) hback
  | false =>
      rw [settled_step hback]
      cases hhold : o.sys.core.reg2Hold cfg (o.sys.coreIn cfg p.size i) with
      | true =>
          rw [events_stay hback (by rw [hhold]; rfl)]
          exact System.rel_wait hm hsize hu (h _) hback hhold
      | false =>
          cases hvalid : o.sys.core.reg2.valid with
          | false =>
              rw [events_stay hback (by rw [hvalid, Bool.and_false])]
              exact System.rel_drop hm hsize hu (h _) hhold hvalid
          | true =>
              rw [events_leave hhold hvalid, Machine.after_concat]
              exact System.rel_leave hm hsize hfma hu (h _) hhold hvalid

end Run

end Observed
end Soc
end RvCores
