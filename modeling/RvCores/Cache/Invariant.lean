import RvCores.Cache.DCache
import RvCores.Cache.Replacement
import RvCores.Lib.Ring

/-!
# The data cache against a flat memory

The copies of a line are in the ways of the main array, in the victim buffer, or
latched on the way out of the buffer.  This module says how they relate to the
backing memory and to the flat memory in every phase of the state machine.
-/

namespace RvCores
namespace Cache

open Isa Lib

/-!
# Memories by lines
-/

abbrev LineMem (g : Geometry) := Nat -> Fin g.lineWords -> Word

namespace LineMem

variable {g : Geometry} (m : LineMem g)

def offset (g : Geometry) (addr : Nat) : Fin g.lineWords := ⟨g.wordOff addr, g.wordOff_lt addr⟩

def read (addr : Nat) : Word := m (g.lineAddr addr) (offset g addr)

def write (addr : Nat) (word : Word) : LineMem g :=
  setAt m (g.lineAddr addr) (setAt (m (g.lineAddr addr)) (offset g addr) word)

def load (addr : Nat) (funct3 : BitVec 3) : Word :=
  extendRead (m.read addr) funct3 (byteOff addr)

def store (p : CpuPort) : LineMem g :=
  m.write p.addr
    (mergeWrite (m.read p.addr) (lowBits p.funct3) (byteOff p.addr) p.wdata)

theorem write_self (a : Nat) {w : Nat} (hw : w < g.lineWords) (word : Word) :
    m.write (g.lineBase a + 4 * w) word a = setAt (m a) ⟨w, hw⟩ word := by
  unfold write offset
  simp only [g.lineAddr_base a hw, g.wordOff_base a hw]
  exact setAt_self _ _ _

theorem write_of_ne {a b : Nat} {w : Nat} (hw : w < g.lineWords) (word : Word)
    (hne : b ≠ a) :
    m.write (g.lineBase a + 4 * w) word b = m b := by
  unfold write
  rw [g.lineAddr_base a hw]
  exact setAt_of_ne hne

theorem read_base (a : Nat) {w : Nat} (hw : w < g.lineWords) :
    m.read (g.lineBase a + 4 * w) = m a ⟨w, hw⟩ := by
  unfold read offset
  simp only [g.lineAddr_base a hw, g.wordOff_base a hw]

/--
One word more of a line has been written.
-/
theorem written_succ {a k : Nat} {flat : LineMem g} (hk : k < g.lineWords)
    (hwritten : forall w : Fin g.lineWords, w < k -> m a w = flat a w) {addr : Nat}
    {data : Word} (haddr : addr = g.lineBase a + 4 * k) (hdata : data = flat a ⟨k, hk⟩)
    (w : Fin g.lineWords) (hw : (w : Nat) < k + 1) :
    m.write addr data a w = flat a w := by
  rw [haddr, m.write_self a hk, setAt_apply]
  split
  · next heq => rw [heq, hdata]
  · next hne =>
      apply hwritten
      have hvalue : (w : Nat) ≠ k := fun h => hne (Fin.ext h)
      omega

/--
The words of a line with a dirty copy may be written to memory.
-/
theorem coherent_write {slot : Type} {copies : slot -> Option (Copy Nat (Fin g.lineWords -> Word))}
    {flat : LineMem g} (h : Coherent copies m flat) {a k addr : Nat} {data : Word}
    (hk : k < g.lineWords) (haddr : addr = g.lineBase a + 4 * k)
    (hheld : exists s d, copies s = some d ∧ d.addr = a ∧ d.dirty = true) :
    Coherent copies (m.write addr data) flat := by
  apply h.write_mem
  intro b hb
  have hba : b = a := by
    by_cases heq : b = a
    · exact heq
    · exact absurd (haddr ▸ m.write_of_ne hk data heq) hb
  rw [hba]
  exact hheld

end LineMem

/-!
# Slots
-/

inductive Slot where
  | way (line : Nat)
  | victim (entry : Nat)
  | leaving
deriving DecidableEq

abbrev LineCopy (g : Geometry) := Copy Nat (Fin g.lineWords -> Word)

def VictimCache.copyAt (g : Geometry) (n : Nat) (vc : VictimCache) (e : Nat) :
    Option (LineCopy g) :=
  if e < n ∧ (vc.entry e).valid = true then
    some
      { addr := (vc.entry e).tag
        dirty := (vc.entry e).dirty
        data := fun w => (vc.entry e).data w }
  else none

def slotCopies (g : Geometry) (arr : LineArray) (dead : Option Nat) (n : Nat)
    (vc : VictimCache) (out : Option (LineCopy g)) : Slot -> Option (LineCopy g)
  | .way line => arr.copyAt g dead line
  | .victim e => vc.copyAt g n e
  | .leaving => out

namespace DCache

variable (cfg : DCacheConfig) (c : DCache)

/--
The line of the way that is being replaced has moved to the victim buffer.
-/
def moved : Bool :=
  c.vc.lookupHit cfg.victimEntries (c.array.lineAddr cfg.toGeometry (c.fillLine cfg))

/--
The line that is being replaced.  One that moved to the victim buffer is there already
when its writeback begins.
-/
def dead : Option Nat :=
  if c.state = .fill ∨ (c.state = .wb ∧ c.flushActive = false ∧ c.moved cfg = true) then
    some (c.fillLine cfg)
  else none

def leavingCopy : Option (LineCopy cfg.toGeometry) :=
  if c.vwbPending = true then
    some { addr := c.vwbTag, dirty := true, data := fun w => c.vwbData w }
  else none

def copies : Slot -> Option (LineCopy cfg.toGeometry) :=
  slotCopies cfg.toGeometry c.array (c.dead cfg) cfg.victimEntries c.vc (c.leavingCopy cfg)

/-!
# The queue of misses
-/

def queue : List Mshr := window cfg.mshrEntries c.mshr c.mshrHead c.mshrCount

end DCache

namespace Mshr

variable (cfg : DCacheConfig) (m : Mshr)

def line : Nat := cfg.lineAddr m.origAddr

/--
The fields of a miss register that follow from the address it was allocated for.
-/
structure Ok : Prop where
  valid : m.valid = true
  set : m.set = cfg.setIdx m.origAddr
  tag : m.tag = cfg.tag m.origAddr
  base : m.base = cfg.lineBase (cfg.lineAddr m.origAddr)
  wordOff : m.wordOff = cfg.wordOff m.origAddr
  byteOff : m.byteOff = Cache.byteOff m.origAddr
  way : m.way < cfg.ways
  wbLine : m.wbLine = cfg.lineIdx m.set m.way
  early : m.earlyRetired = true -> m.isWrite = false ∧ 1 < cfg.mshrEntries

/--
The word that the fill puts into the line, given the word of the flat memory.
-/
def filled (w : Nat) (word : Word) : Word :=
  if m.isWrite = true ∧ w = m.wordOff then
    mergeWrite word (lowBits m.funct3) m.byteOff m.wdata
  else word

/--
The miss register holds the request that its issuer still presents.
-/
def Serves (p : CpuPort) : Prop :=
  m.origAddr = p.addr ∧ m.isWrite = p.write ∧ m.wdata = p.wdata ∧ m.funct3 = p.funct3

end Mshr

namespace CpuPort

/--
A request is a load or a store, naturally aligned.
-/
structure Request (p : CpuPort) : Prop where
  active : p.active = true
  exclusive : p.read = true -> p.write = false
  aligned : Flat.Aligned p.addr p.funct3

end CpuPort

namespace DCache

variable (cfg : DCacheConfig) (c : DCache) (mem flat : LineMem cfg.toGeometry)
  (pend : Option CpuPort) (waiting : List (Nat × Word))

/-!
# Phases

A miss goes through the eviction of the victim way, the drain of a line pushed
out of the victim buffer, and the fill.  A flush alternates between the scan and
writebacks.
-/

/--
The first words of a line have reached memory.
-/
def Written (a : Nat) : Prop :=
  forall w : Fin cfg.lineWords, w < c.fillWord -> mem a w = flat a w

/--
Lines below the scan are clean.
-/
def Scanned : Prop :=
  forall line, line < c.flushScan -> c.array.valid line = true -> c.array.dirty line = false

structure Quiet : Prop where
  empty : c.mshrCount = 0
  noFlush : c.flushActive = false
  noPending : c.vwbPending = false
  noActive : c.vwbActive = false

structure HitRd : Prop extends Quiet c where
  state : c.state = .hitRd
  noHu : c.huPending = false
  valid : c.array.valid c.hitLine = true
  addr : c.array.lineAddr cfg.toGeometry c.hitLine = cfg.lineAddr c.servedAddr
  word : c.hitWord = cfg.wordOff c.servedAddr
  byteOff : c.hitByteOff = Cache.byteOff c.servedAddr
  pending : forall p, pend = some p ->
    p.read = true ∧ p.addr = c.servedAddr ∧ p.funct3 = c.hitFunct3

structure Evict : Prop where
  state : c.state = .wb
  noFlush : c.flushActive = false
  noReturn : c.wbReturnToFlush = false
  busy : 0 < c.mshrCount
  moved : c.vwbPending = true -> c.moved cfg = true
  noActive : c.vwbActive = false
  line : c.wbLine = c.fillLine cfg
  valid : c.array.valid c.wbLine = true
  dirty : c.array.dirty c.wbLine = true
  base : c.wbBase = cfg.lineBase (c.array.lineAddr cfg.toGeometry c.wbLine)
  word : c.fillWord < cfg.lineWords
  current : c.array.lineData cfg.toGeometry c.wbLine
    = flat (c.array.lineAddr cfg.toGeometry c.wbLine)
  written : c.Written cfg mem flat (c.array.lineAddr cfg.toGeometry c.wbLine)
  held : exists s d, c.copies cfg s = some d ∧
    d.addr = c.array.lineAddr cfg.toGeometry c.wbLine ∧ d.dirty = true

structure Drain : Prop where
  state : c.state = .wb
  noFlush : c.flushActive = false
  busy : 0 < c.mshrCount
  moved : c.moved cfg = true
  pending : c.vwbPending = true
  active : c.vwbActive = true
  base : c.wbBase = cfg.lineBase c.vwbTag
  word : c.fillWord < cfg.lineWords
  written : c.Written cfg mem flat c.vwbTag
  current : c.array.valid (c.fillLine cfg) = true ->
    c.array.lineData cfg.toGeometry (c.fillLine cfg)
      = flat (c.array.lineAddr cfg.toGeometry (c.fillLine cfg))

structure Fill : Prop where
  state : c.state = .fill
  noFlush : c.flushActive = false
  busy : 0 < c.mshrCount
  noPending : c.vwbPending = false
  noActive : c.vwbActive = false
  word : c.fillWord < cfg.lineWords
  filled : forall w : Fin cfg.lineWords, w < c.fillWord ->
    c.array.data (c.fillLine cfg, w) = c.head.filled w (flat (c.head.line cfg) w)
  remaining : c.array.valid (c.fillLine cfg) = true ->
    forall w : Fin cfg.lineWords, c.fillWord <= w ->
      c.array.data (c.fillLine cfg, w)
        = flat (c.array.lineAddr cfg.toGeometry (c.fillLine cfg)) w

structure Scan : Prop where
  state : c.state = .flushScan
  flush : c.flushActive = true
  empty : c.mshrCount = 0
  noPending : c.vwbPending = false
  noActive : c.vwbActive = false
  inRange : c.flushScan < cfg.numLines
  scanned : c.Scanned

structure FlushWb : Prop where
  state : c.state = .wb
  flush : c.flushActive = true
  returns : c.wbReturnToFlush = true
  empty : c.mshrCount = 0
  noPending : c.vwbPending = false
  noActive : c.vwbActive = false
  inRange : c.flushScan < cfg.numLines
  scanned : c.Scanned
  line : c.wbLine = c.flushScan
  valid : c.array.valid c.wbLine = true
  dirty : c.array.dirty c.wbLine = true
  base : c.wbBase = cfg.lineBase (c.array.lineAddr cfg.toGeometry c.wbLine)
  word : c.fillWord < cfg.lineWords
  written : c.Written cfg mem flat (c.array.lineAddr cfg.toGeometry c.wbLine)

inductive Phase : Prop where
  | idle (hstate : c.state = .idle) (hquiet : c.Quiet) : Phase
  | hitRd (h : c.HitRd cfg pend) : Phase
  | evict (h : c.Evict cfg mem flat) : Phase
  | drain (h : c.Drain cfg mem flat) : Phase
  | fill (h : c.Fill cfg flat) : Phase
  | scan (h : c.Scan cfg) : Phase
  | flushWb (h : c.FlushWb cfg mem flat) : Phase

/-!
# The invariant
-/

/--
The miss registers form a queue.  A blocking miss is alone in it and is the
request on the port; every other entry is a load that was accepted, in the order
in which the values are awaited.  Its line is neither in a way nor in the victim
buffer; it may be on its way out of the buffer, ahead of the entry.  An entry behind
the head knows whether its victim way has to be written back, and nobody before it
takes that way.
-/
structure Queued : Prop where
  headLt : c.mshrHead < cfg.mshrEntries
  countLe : c.mshrCount <= cfg.mshrEntries
  tail : c.mshrTail = wrapAdd cfg.mshrEntries c.mshrHead c.mshrCount
  ok : forall m, m ∈ c.queue cfg -> m.Ok cfg
  unheld : forall m, m ∈ c.queue cfg ->
    (forall line, c.array.valid line = true ->
      c.array.lineAddr cfg.toGeometry line ≠ m.line cfg) ∧
    (forall e d, c.vc.copyAt cfg.toGeometry cfg.victimEntries e = some d ->
      d.addr ≠ m.line cfg)
  lines : (c.queue cfg).Pairwise (fun m m' => m.line cfg ≠ m'.line cfg)
  reserved : (c.queue cfg).Pairwise (fun m m' => m'.needWb = true -> m'.wbLine ≠ m.wbLine)
  behind : forall m, m ∈ (c.queue cfg).tail ->
    m.needWb = (c.array.valid m.wbLine && c.array.dirty m.wbLine) ∧
    (m.needWb = true ->
      m.wbBase = cfg.lineBase (c.array.lineAddr cfg.toGeometry m.wbLine))
  blocking : forall m, m ∈ c.queue cfg -> m.earlyRetired = false ->
    c.queue cfg = [m] ∧ c.huPending = false ∧ exists p, pend = some p ∧ m.Serves p
  awaited : waiting = ((c.queue cfg).filter (fun m => m.earlyRetired)).map
    (fun m => (m.destReg, flat.load m.origAddr m.funct3))

/--
The request that waits on the port, and the answer that hit-under-miss has ready.
-/
structure Ported : Prop where
  request : forall p, pend = some p -> p.Request
  noFlush : pend ≠ none -> c.flushActive = false
  hu : c.huPending = true -> forall p, pend = some p ->
    p.read = true ∧ c.huData = flat.load p.addr p.funct3 ∧
      c.array.hitMain cfg.toGeometry p.addr = true
  single : cfg.mshrEntries = 1 ->
    c.huPending = false ∧ (c.state = .hitRd -> pend ≠ none)

/--
With a victim buffer the main array fills a set before it evicts from it, so the
line that leaves on a swap is always a line in use.
-/
structure Buffered : Prop where
  fifo : c.vc.fifoNext < cfg.victimEntries
  packed : c.array.Packed cfg.toGeometry
  full : forall e d, c.vc.copyAt cfg.toGeometry cfg.victimEntries e = some d ->
    c.array.SetFull cfg.toGeometry (d.addr % cfg.sets)
  inTurn : cfg.policy ≠ .lru ->
    c.array.InTurn cfg.toGeometry ((c.queue cfg).map (fun m => (m.set, m.way)))

structure Inv : Prop where
  severalSets : 1 <= cfg.setBits
  wellFormed : c.array.WellFormed cfg.toGeometry
  buffered : cfg.victimEntries ≠ 0 -> c.Buffered cfg
  coherent : Coherent (c.copies cfg) mem flat
  queued : c.Queued cfg flat pend waiting
  ported : c.Ported cfg flat pend
  phase : c.Phase cfg mem flat pend
  flushed : c.flushDone = true ->
    c.state = .idle ∧ forall line, c.array.valid line = true -> c.array.dirty line = false

/-!
# The environment
-/

/--
What every caller promises: a request stays on the port until it is answered, and it
is well formed.
-/
structure Promised (i : DCacheIn) : Prop where
  held : forall p, pend = some p -> i.cpu = p
  request : i.cpu.active = true -> i.cpu.Request

/--
In addition no request is presented while a flush is asked for or under way.
-/
structure Legal (i : DCacheIn) : Prop extends Promised pend i where
  noFlush : i.cpu.active = true -> i.flushAll = false ∧ c.flushActive = false

/--
The cycles in which the cache keeps its promise.  Without a victim buffer and with
a single miss register all of them do.
-/
structure Sound (i : DCacheIn) : Prop where
  buffer : cfg.victimEntries ≠ 0 -> c.state = .idle -> i.cpu.active = false ->
    c.vcDoSwap cfg i = false ∧ c.vcDoInsert cfg i = false
  underFill : c.mshrBusyDispatchHit cfg i = true -> c.state = .fill ->
    c.hitLineIdx cfg i = c.fillLine cfg ->
    c.fillWord <= cfg.wordOff i.cpu.addr ∧ c.mshrCompleteNow cfg i = false
  stale : c.huPending = true -> pend = none -> i.cpu.active = false
  phantom : c.state = .hitRd -> pend = none -> i.cpu.read = true ->
    i.cpu.addr = c.servedAddr -> i.cpu.funct3 = c.hitFunct3
  reserve : c.mshrBusyDispatchMiss cfg i = true -> c.victimNeedsWb cfg i = true ->
    forall m, m ∈ c.queue cfg -> m.wbLine ≠ c.victimLine cfg i

/--
The memory side of a cycle: an acknowledged read delivers the word addressed.
-/
structure Backed (i : DCacheIn) : Prop where
  reads : c.state = .fill -> i.mAck = true -> i.mDataI = mem.read (c.mAddr)
  noProbe : i.probeReq = false

/-!
# The memories after a cycle
-/

def memNext (i : DCacheIn) : LineMem cfg.toGeometry :=
  if i.mAck = true ∧ c.state = .wb then mem.write c.mAddr c.mDataO else mem

def flatNext (i : DCacheIn) : LineMem cfg.toGeometry :=
  if i.cpu.write = true ∧ c.respReady cfg i = true then flat.store i.cpu else flat

def pendNext (i : DCacheIn) : Option CpuPort :=
  if i.cpu.active = true ∧ c.respReady cfg i = false ∧ c.mshrAccept cfg i = false then
    some i.cpu
  else none

def waitingNext (i : DCacheIn) : List (Nat × Word) :=
  (if c.mshrComplete cfg i then waiting.tail else waiting) ++
    (if c.mshrAccept cfg i then [(i.cpu.destReg, flat.load i.cpu.addr i.cpu.funct3)] else [])

end DCache
end Cache
end RvCores
