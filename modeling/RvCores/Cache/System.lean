import RvCores.Cache.Progress
import RvCores.Lib.Run

/-!
# The data cache over a byte memory

The cache is put between a caller and a memory of bytes.  Beside the memory that
the bus reaches, a system carries the flat memory, which only the answered stores
change: it says what every load has to return.
-/

namespace RvCores
namespace Cache

open Isa Block Lib

/-!
# The lines of a byte memory
-/

def lines (g : Geometry) (m : Bytes) : LineMem g :=
  fun a w => Flat.word m (g.lineBase a + 4 * w)

section

variable {g : Geometry} {m m' : Bytes}

theorem Geometry.lineBase_add (g : Geometry) (a w : Nat) :
    g.lineBase a + 4 * w = 4 * (a * g.lineWords + w) := by
  unfold Geometry.lineBase Geometry.lineBytes
  rw [Nat.mul_left_comm, ← Nat.mul_add]

theorem Geometry.word_eq_iff (g : Geometry) {a addr : Nat} {w : Fin g.lineWords} :
    a * g.lineWords + w = addr / 4 <-> a = g.lineAddr addr ∧ w = LineMem.offset g addr := by
  rw [← g.word_index addr]
  constructor
  · intro heq
    have hdiv := congrArg (fun k => k / g.lineWords) heq
    have hmod := congrArg (fun k => k % g.lineWords) heq
    simp only [Nat.mul_add_mod_self_right, Nat.mod_eq_of_lt w.isLt,
      Nat.mod_eq_of_lt (g.wordOff_lt addr)] at hmod
    simp only [Nat.mul_comm _ g.lineWords, Nat.mul_add_div g.lineWords_pos,
      Nat.div_eq_of_lt w.isLt, Nat.div_eq_of_lt (g.wordOff_lt addr), Nat.add_zero] at hdiv
    exact ⟨hdiv, Fin.ext hmod⟩
  · rintro ⟨ha, hw⟩
    rw [ha, hw]
    rfl

theorem lines_read (m : Bytes) (addr : Nat) :
    (lines g m).read addr = Flat.word m (4 * (addr / 4)) := by
  unfold LineMem.read lines
  rw [g.lineBase_add, ← g.word_index addr]
  rfl

theorem lines_load {addr : Nat} {funct3 : BitVec 3} (h : Flat.Aligned addr funct3) :
    (lines g m).load addr funct3 = Flat.load m addr funct3 := by
  unfold LineMem.load
  rw [lines_read]
  exact Flat.extendRead_word m h

/--
A store to the bytes is a store to the lines.
-/
theorem lines_merge {addr : Nat} {funct3 : BitVec 3} (wdata : Word)
    (h : Flat.Aligned addr funct3) :
    lines g (Flat.store m addr funct3 wdata)
      = (lines g m).write addr
          (mergeWrite ((lines g m).read addr) (lowBits funct3) (byteOff addr) wdata) := by
  funext a w
  show Flat.word _ (g.lineBase a + 4 * w) = _
  rw [g.lineBase_add, Flat.word_store m wdata h, lines_read]
  unfold LineMem.write
  rw [setAt_apply]
  by_cases heq : a * g.lineWords + (w : Nat) = addr / 4
  · obtain ⟨ha, hw⟩ := g.word_eq_iff.mp heq
    rw [if_pos heq, if_pos ha, heq, hw, setAt_self]
    rfl
  · rw [if_neg heq]
    have hold : lines g m a w = Flat.word m (4 * (a * g.lineWords + w)) := by
      unfold lines
      rw [g.lineBase_add]
    split
    · next ha =>
        have hw : w ≠ LineMem.offset g addr := fun hw => heq (g.word_eq_iff.mpr ⟨ha, hw⟩)
        rw [setAt_of_ne hw, ← ha, hold]
    · exact hold.symm

theorem lines_store (p : CpuPort) (h : Flat.Aligned p.addr p.funct3) :
    lines g (Flat.store m p.addr p.funct3 p.wdata) = (lines g m).store p :=
  lines_merge p.wdata h

/--
A word of the bus is written whole.
-/
theorem lines_write_word (a : Nat) (w : Fin g.lineWords) (word : Word) :
    lines g (Flat.store m (g.lineBase a + 4 * w) 0b010 word)
      = (lines g m).write (g.lineBase a + 4 * w) word := by
  apply lines_merge
  unfold Flat.Aligned
  rw [g.lineBase_add]
  exact Nat.mul_mod_right 4 _

theorem lines_inj (h : lines g m = lines g m') : m = m' := by
  funext b
  have hword : Flat.word m (4 * (b / 4)) = Flat.word m' (4 * (b / 4)) := by
    rw [← lines_read (g := g), ← lines_read (g := g), h]
  have hbyte := congrArg (fun x => x.extractLsb' (8 * (b % 4)) 8) hword
  simp only [Flat.word_byte _ _ (Nat.mod_lt b (by omega)), Nat.div_add_mod] at hbyte
  exact hbyte

end

/-!
# The system
-/

structure PortIn where
  cpu : CpuPort
  flushAll : Bool
  ack : Bool
deriving DecidableEq, Repr

/--
`pend` is the request that was presented and not yet answered; `waiting` lists the
loads that were accepted and not yet completed, with the values they have to get.
-/
structure CacheSystem where
  cache : DCache
  mem : Bytes
  flat : Bytes
  pend : Option CpuPort
  waiting : List (Nat × Word)

namespace CacheSystem

variable (cfg : DCacheConfig) (s : CacheSystem) (i : PortIn)

/--
What the cache sees: the memory drives the word addressed, and nobody probes.
-/
def bus : DCacheIn :=
  { cpu := i.cpu
    flushAll := i.flushAll
    mAck := i.ack
    mDataI := Flat.word s.mem s.cache.mAddr
    probeReq := false
    probeAddr := 0 }

def respReady : Bool := s.cache.respReady cfg (s.bus i)

def respRdata : Word := s.cache.respRdata cfg (s.bus i)

def mshrAccept : Bool := s.cache.mshrAccept cfg (s.bus i)

def mshrComplete : Bool := s.cache.mshrComplete cfg (s.bus i)

def mshrCompleteData : Word := s.cache.fillData cfg (s.bus i)

def step : CacheSystem :=
  { cache := s.cache.step cfg (s.bus i)
    mem :=
      if i.ack && s.cache.mWe then Flat.store s.mem s.cache.mAddr 0b010 s.cache.mDataO
      else s.mem
    flat :=
      if i.cpu.write && s.respReady cfg i then
        Flat.store s.flat i.cpu.addr i.cpu.funct3 i.cpu.wdata
      else s.flat
    pend :=
      if i.cpu.active && !s.respReady cfg i && !s.mshrAccept cfg i then some i.cpu else none
    waiting :=
      (if s.mshrComplete cfg i then s.waiting.tail else s.waiting) ++
        (if s.mshrAccept cfg i then
          [(i.cpu.destReg, Flat.load s.flat i.cpu.addr i.cpu.funct3)]
        else []) }

structure IsReset : Prop where
  cache : s.cache.IsReset cfg
  flat : s.flat = s.mem
  pend : s.pend = none
  waiting : s.waiting = []

def Promised (s : CacheSystem) (i : PortIn) : Prop := DCache.Promised s.pend (s.bus i)

def Legal (s : CacheSystem) (i : PortIn) : Prop := s.cache.Legal s.pend (s.bus i)

def Sound (cfg : DCacheConfig) (s : CacheSystem) (i : PortIn) : Prop :=
  s.cache.Sound cfg s.pend (s.bus i)

def Inv (cfg : DCacheConfig) (s : CacheSystem) : Prop :=
  s.cache.Inv cfg (lines cfg.toGeometry s.mem) (lines cfg.toGeometry s.flat) s.pend s.waiting

variable {cfg s i}

theorem IsReset.inv (h : s.IsReset cfg) (hsets : 1 <= cfg.setBits)
    (hentries : 0 < cfg.mshrEntries) :
    s.Inv cfg := by
  unfold Inv
  rw [h.flat, h.pend, h.waiting]
  exact h.cache.inv hsets hentries _

theorem Inv.backed (h : s.Inv cfg) :
    s.cache.Backed cfg (lines cfg.toGeometry s.mem) (s.bus i) where
  reads := by
    intro hstate _
    obtain ⟨a, w, haddr⟩ := DCache.fill_addr h hstate
    show Flat.word s.mem s.cache.mAddr = _
    rw [haddr, LineMem.read_base _ _ w.isLt]
    rfl
  noProbe := rfl

/-!
# Concrete systems
-/

instance (p : CpuPort) : Decidable p.Request :=
  decidable_of_iff
    (p.active = true ∧ (p.read = true -> p.write = false) ∧ Flat.Aligned p.addr p.funct3)
    ⟨fun h => ⟨h.left, h.right.left, h.right.right⟩,
      fun h => ⟨h.active, h.exclusive, h.aligned⟩⟩

instance (s : CacheSystem) (i : PortIn) : Decidable (s.Promised i) :=
  decidable_of_iff
    ((forall p, p ∈ s.pend -> i.cpu = p) ∧ (i.cpu.active = true -> i.cpu.Request))
    ⟨fun h => ⟨h.left, h.right⟩, fun h => ⟨h.held, h.request⟩⟩

instance (s : CacheSystem) (i : PortIn) : Decidable (s.Legal i) :=
  decidable_of_iff
    (s.Promised i ∧
      (i.cpu.active = true -> i.flushAll = false ∧ s.cache.flushActive = false))
    ⟨fun h => { toPromised := h.left, noFlush := h.right },
      fun h => ⟨h.toPromised, h.noFlush⟩⟩

set_option synthInstance.maxSize 512 in
instance (cfg : DCacheConfig) (c : DCache) (pend : Option CpuPort) (i : DCacheIn) :
    Decidable (c.Sound cfg pend i) :=
  decidable_of_iff
    ((cfg.victimEntries ≠ 0 -> c.state = .idle -> i.cpu.active = false ->
        c.vcDoSwap cfg i = false ∧ c.vcDoInsert cfg i = false) ∧
      (c.mshrBusyDispatchHit cfg i = true -> c.state = .fill ->
        c.hitLineIdx cfg i = c.fillLine cfg ->
        c.fillWord <= cfg.wordOff i.cpu.addr ∧ c.mshrCompleteNow cfg i = false) ∧
      (c.huPending = true -> pend = none -> i.cpu.active = false) ∧
      (c.state = .hitRd -> pend = none -> i.cpu.read = true -> i.cpu.addr = c.servedAddr ->
        i.cpu.funct3 = c.hitFunct3) ∧
      (c.mshrBusyDispatchMiss cfg i = true -> c.victimNeedsWb cfg i = true ->
        forall m, m ∈ c.queue cfg -> m.wbLine ≠ c.victimLine cfg i))
    ⟨fun ⟨h1, h2, h3, h4, h5⟩ => ⟨h1, h2, h3, h4, h5⟩,
      fun h => ⟨h.buffer, h.underFill, h.stale, h.phantom, h.reserve⟩⟩

instance (cfg : DCacheConfig) (s : CacheSystem) (i : PortIn) : Decidable (s.Sound cfg i) :=
  inferInstanceAs (Decidable (s.cache.Sound cfg s.pend (s.bus i)))

/--
The system after reset, with the registers that reset leaves alone at zero.
-/
def initial (mem : Bytes) : CacheSystem :=
  { cache :=
      { state := .idle
        array :=
          { valid := fun _ => false, dirty := fun _ => false, tag := fun _ => 0
            data := fun _ => 0, victim := fun _ => 0, age := fun k => k.2 }
        vc :=
          { entry := fun _ => { valid := false, tag := 0, dirty := false, data := fun _ => 0 }
            fifoNext := 0 }
        hitLine := 0, hitWord := 0, hitFunct3 := 0, hitByteOff := 0, servedAddr := 0
        mshr := fun _ =>
          { valid := false, set := 0, way := 0, tag := 0, base := 0, wordOff := 0, byteOff := 0
            funct3 := 0, destReg := 0, origAddr := 0, isWrite := false, wdata := 0
            needWb := false, wbLine := 0, wbBase := 0, earlyRetired := false }
        mshrCount := 0, mshrHead := 0, mshrTail := 0, huPending := false, huData := 0
        fillWord := 0, wbLine := 0, wbBase := 0, wbReturnToFlush := false
        vwbPending := false, vwbActive := false, vwbTag := 0, vwbData := fun _ => 0
        flushScan := 0, flushActive := false, flushDone := false }
    mem := mem
    flat := mem
    pend := none
    waiting := [] }

def storeWord (addr : Nat) (wdata : Word) : PortIn :=
  { cpu :=
      { read := false, write := true, addr := addr, wdata := wdata, funct3 := 0b010
        destReg := 0, intLoad := false }
    flushAll := false
    ack := true }

def loadWord (addr : Nat) (ack : Bool) : PortIn :=
  { cpu :=
      { read := true, write := false, addr := addr, wdata := 0, funct3 := 0b010
        destReg := 1, intLoad := true }
    flushAll := false
    ack := ack }

def noRequest (addr : Nat) (flushAll : Bool) : PortIn :=
  { cpu :=
      { read := false, write := false, addr := addr, wdata := 0, funct3 := 0b010
        destReg := 0, intLoad := false }
    flushAll := flushAll
    ack := true }

theorem initial_isReset (cfg : DCacheConfig) (mem : Bytes) : (initial mem).IsReset cfg where
  cache :=
    { state := rfl
      array := ⟨fun _ => rfl, fun _ => rfl, fun _ => rfl, fun _ _ _ => rfl⟩
      vc := ⟨fun _ => rfl, rfl⟩
      flushActive := rfl, flushDone := rfl, vwbPending := rfl, vwbActive := rfl
      mshrCount := rfl, mshrHead := rfl, mshrTail := rfl, mshrValid := fun _ => rfl
      huPending := rfl }
  flat := rfl
  pend := rfl
  waiting := rfl

/-!
# The memories after a cycle
-/

theorem lines_mem_step (h : s.Inv cfg) :
    lines cfg.toGeometry (s.step cfg i).mem
      = s.cache.memNext cfg (lines cfg.toGeometry s.mem) (s.bus i) := by
  unfold DCache.memNext
  show lines cfg.toGeometry (if i.ack && s.cache.mWe then _ else _) = _
  cases hwe : s.cache.mWe with
  | false =>
      rw [Bool.and_false, if_neg Bool.false_ne_true, if_neg]
      rintro ⟨_, hstate⟩
      unfold DCache.mWe at hwe
      rw [hstate] at hwe
      cases hwe
  | true =>
      obtain ⟨a, w, haddr, _⟩ := DCache.writeback_value h hwe
      have hstate : s.cache.state = .wb := beq_iff_eq.mp hwe
      rw [Bool.and_true, hstate, haddr]
      cases hack : i.ack with
      | false =>
          rw [if_neg Bool.false_ne_true, if_neg]
          rintro ⟨hbus, _⟩
          have hfalse : i.ack = true := hbus
          rw [hack] at hfalse
          cases hfalse
      | true =>
          rw [if_pos rfl, if_pos ⟨hack, rfl⟩]
          exact lines_write_word a w _

theorem lines_flat_step (hlegal : s.Legal i) :
    lines cfg.toGeometry (s.step cfg i).flat
      = s.cache.flatNext cfg (lines cfg.toGeometry s.flat) (s.bus i) := by
  unfold DCache.flatNext
  show lines cfg.toGeometry (if i.cpu.write && s.respReady cfg i then _ else _) = _
  cases hwrite : i.cpu.write with
  | false =>
      rw [Bool.false_and, if_neg Bool.false_ne_true, if_neg]
      rintro ⟨hbus, _⟩
      have hfalse : i.cpu.write = true := hbus
      rw [hwrite] at hfalse
      cases hfalse
  | true =>
      have hrequest := hlegal.request (DCache.active_of_write hwrite)
      rw [Bool.true_and]
      cases hready : s.respReady cfg i with
      | false =>
          rw [if_neg Bool.false_ne_true, if_neg]
          rintro ⟨_, hbus⟩
          exact Bool.false_ne_true (hready.symm.trans hbus)
      | true =>
          rw [if_pos rfl, if_pos ⟨hwrite, hready⟩]
          exact lines_store i.cpu hrequest.aligned

theorem pend_step :
    (s.step cfg i).pend = s.cache.pendNext cfg (s.bus i) := by
  unfold DCache.pendNext
  show (if i.cpu.active && !s.respReady cfg i && !s.mshrAccept cfg i then _ else _) = _
  simp only [Bool.and_eq_true, Bool.not_eq_true', and_assoc]
  rfl

theorem waiting_step (hlegal : s.Legal i) :
    (s.step cfg i).waiting
      = s.cache.waitingNext cfg (lines cfg.toGeometry s.flat) s.waiting (s.bus i) := by
  unfold DCache.waitingNext
  show _ ++ (if s.mshrAccept cfg i then _ else _) = _ ++ _
  congr 1
  cases haccept : s.mshrAccept cfg i with
  | false =>
      have hbus : s.cache.mshrAccept cfg (s.bus i) = false := haccept
      rw [hbus]
      rfl
  | true =>
      have hbus : s.cache.mshrAccept cfg (s.bus i) = true := haccept
      have hread : i.cpu.read = true := by
        cases hread : i.cpu.read with
        | true => rfl
        | false =>
            rw [DCache.mshrAccept_of_not_read hread] at hbus
            cases hbus
      have hrequest : i.cpu.Request := hlegal.request (DCache.active_of_read hread)
      rw [hbus, if_pos rfl, if_pos rfl]
      show _ = [(i.cpu.destReg, _)]
      rw [← lines_load (g := cfg.toGeometry) hrequest.aligned]
      rfl

/-!
# Runs
-/

theorem Inv.step (h : s.Inv cfg) (hlegal : s.Legal i) (hsound : s.Sound cfg i) :
    (s.step cfg i).Inv cfg := by
  have hnext := DCache.Inv.step h hlegal hsound h.backed
  unfold DCache.InvNext at hnext
  unfold Inv
  rw [lines_mem_step h, lines_flat_step hlegal, pend_step, waiting_step hlegal]
  exact hnext

/--
A cycle that the caller may ask for and in which the cache keeps its promise.
-/
def Cycle (cfg : DCacheConfig) (s : CacheSystem) (i : PortIn) : Prop :=
  s.Legal i ∧ s.Sound cfg i

instance (cfg : DCacheConfig) (s : CacheSystem) (i : PortIn) : Decidable (Cycle cfg s i) :=
  inferInstanceAs (Decidable (_ ∧ _))

theorem inv_reachable {t : CacheSystem} (hreset : s.IsReset cfg) (hsets : 1 <= cfg.setBits)
    (hentries : 0 < cfg.mshrEntries)
    (hreach : ReachableWhen (CacheSystem.step cfg) (Cycle cfg) s t) :
    t.Inv cfg := by
  refine @invariant_of_reachableWhen _ _ _ _ (fun u => u.Inv cfg) s t
    (hreset.inv hsets hentries) ?_ hreach
  intro u i hu hcycle
  exact hu.step hcycle.left hcycle.right

theorem Inv.read_value (h : s.Inv cfg) (hlegal : s.Legal i) (hsound : s.Sound cfg i)
    (hread : i.cpu.read = true) (hready : s.respReady cfg i = true) :
    s.respRdata cfg i = Flat.load s.flat i.cpu.addr i.cpu.funct3 := by
  have hrequest : i.cpu.Request := hlegal.request (DCache.active_of_read hread)
  have hvalue := DCache.read_value h hlegal hsound h.backed hread hready
  rw [← lines_load (g := cfg.toGeometry) hrequest.aligned]
  exact hvalue

theorem Inv.complete_value (h : s.Inv cfg) (hcomplete : s.mshrComplete cfg i = true) :
    s.waiting = (s.cache.head.destReg, s.mshrCompleteData cfg i) :: s.waiting.tail :=
  DCache.complete_value h h.backed hcomplete

theorem Inv.writeback_value (h : s.Inv cfg) (hwe : s.cache.mWe = true) :
    s.cache.mDataO = Flat.word s.flat s.cache.mAddr := by
  obtain ⟨a, w, haddr, hdata⟩ := DCache.writeback_value h hwe
  rw [hdata, haddr]
  rfl

/--
After a flush memory is the flat memory, if no line in the victim buffer is newer.
-/
theorem Inv.flushed_mem (h : s.Inv cfg) (hdone : s.cache.flushDone = true)
    (hbuffer : forall e d, s.cache.vc.copyAt cfg.toGeometry cfg.victimEntries e = some d ->
      lines cfg.toGeometry s.mem d.addr = lines cfg.toGeometry s.flat d.addr) :
    s.mem = s.flat := by
  obtain ⟨hstate, hclean⟩ := DCache.Inv.flushed h hdone
  have hquiet : s.cache.Quiet := DCache.Inv.quiet_of_idle h hstate
  apply lines_inj (g := cfg.toGeometry)
  funext a
  by_cases hheld : exists e d,
      s.cache.vc.copyAt cfg.toGeometry cfg.victimEntries e = some d ∧ d.addr = a
  · obtain ⟨e, d, hcopy, rfl⟩ := hheld
    exact hbuffer e d hcopy
  · apply (DCache.Inv.coherent h).settled
    intro slot d hslot haddr
    cases slot with
    | way line =>
        obtain ⟨hvalid, _, rfl⟩ := LineArray.copyAt_eq_some.mp hslot
        exact hclean line hvalid
    | victim e => exact absurd ⟨e, d, hslot, haddr⟩ hheld
    | leaving =>
        have hnone : s.cache.leavingCopy cfg = some d := hslot
        rw [DCache.leavingCopy_none hquiet.noPending] at hnone
        cases hnone

end CacheSystem
end Cache
end RvCores
