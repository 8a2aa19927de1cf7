import RvCores.Cache.VictimCache

/-!
# The data cache

A set-associative, write-back, write-allocate cache for 32-bit words.  A miss is
recorded in a miss register; the victim line is written back word by word if it
is dirty, and the missing line is then read word by word.  With more than one
miss register a load miss may be accepted without holding up its issuer.

Every assignment of the clocked block is non-blocking, so a handler reads the
state before the edge and writes into the state under construction.
-/

namespace RvCores
namespace Cache

open Isa Lib

structure DCacheConfig extends Geometry where
  victimEntries : Nat
  mshrEntries : Nat
deriving DecidableEq, Repr

inductive CacheState where
  | idle
  | hitRd
  | wb
  | fill
  | flushScan
deriving DecidableEq, Repr

structure Mshr where
  valid : Bool
  set : Nat
  way : Nat
  tag : Nat
  base : Nat
  wordOff : Nat
  byteOff : Nat
  funct3 : BitVec 3
  destReg : Nat
  origAddr : Nat
  isWrite : Bool
  wdata : Word
  needWb : Bool
  wbLine : Nat
  wbBase : Nat
  earlyRetired : Bool

/--
The request side, held by the caller until it is answered.
-/
structure CpuPort where
  read : Bool
  write : Bool
  addr : Nat
  wdata : Word
  funct3 : BitVec 3
  destReg : Nat
  intLoad : Bool
deriving DecidableEq, Repr

structure DCacheIn where
  cpu : CpuPort
  flushAll : Bool
  mAck : Bool
  mDataI : Word
  probeReq : Bool
  probeAddr : Nat
deriving DecidableEq, Repr

structure DCache where
  state : CacheState
  array : LineArray
  vc : VictimCache
  hitLine : Nat
  hitWord : Nat
  hitFunct3 : BitVec 3
  hitByteOff : Nat
  servedAddr : Nat
  mshr : Nat -> Mshr
  mshrCount : Nat
  mshrHead : Nat
  mshrTail : Nat
  huPending : Bool
  huData : Word
  fillWord : Nat
  wbLine : Nat
  wbBase : Nat
  wbReturnToFlush : Bool
  vwbPending : Bool
  vwbActive : Bool
  vwbTag : Nat
  vwbData : Nat -> Word
  flushScan : Nat
  flushActive : Bool
  flushDone : Bool

namespace CpuPort

def active (p : CpuPort) : Bool := p.read || p.write

end CpuPort

namespace DCache

variable (cfg : DCacheConfig) (c : DCache) (i : DCacheIn)

/-!
# Lookup
-/

def hitMain : Bool := c.array.hitMain cfg.toGeometry i.cpu.addr

def hitLineIdx : Nat := c.array.hitLineIdx cfg.toGeometry i.cpu.addr

def hitData : Word := c.array.hitData cfg.toGeometry i.cpu.addr

def victimTargetWay : Nat :=
  c.array.victimTargetWay cfg.toGeometry (cfg.setIdx i.cpu.addr)

def victimLine : Nat := c.array.victimLine cfg.toGeometry i.cpu.addr

def vcLookupTag : Nat := cfg.concatTag (cfg.tag i.cpu.addr) (cfg.setIdx i.cpu.addr)

def vcLookupHit : Bool := c.vc.lookupHit cfg.victimEntries (vcLookupTag cfg i)

def vcLookupData (w : Nat) : Word :=
  c.vc.lookupData cfg.victimEntries (vcLookupTag cfg i) w

def vcLookupDirty : Bool := c.vc.lookupDirty cfg.victimEntries (vcLookupTag cfg i)

def hit : Bool := c.hitMain cfg i || c.vcLookupHit cfg i

/-!
# Victim buffer controls

The two commands follow the address on the request port whether or not a request
is made.
-/

def vcDoSwap : Bool := c.state == .idle && !c.hitMain cfg i && c.vcLookupHit cfg i

def vcDoInsert : Bool :=
  c.state == .idle && !c.hitMain cfg i && !c.vcLookupHit cfg i &&
    c.array.valid (c.victimLine cfg i)

def outgoingLine : OutgoingLine :=
  { tag := cfg.concatTag (c.array.tag (c.victimLine cfg i)) (cfg.setIdx i.cpu.addr)
    dirty := c.array.dirty (c.victimLine cfg i)
    data := fun w => c.array.data (c.victimLine cfg i, w) }

def vcNext : VictimCache :=
  if cfg.victimEntries = 0 then c.vc
  else c.vc.step cfg.victimEntries (vcLookupTag cfg i) (c.vcDoSwap cfg i)
    (c.vcDoInsert cfg i) (c.outgoingLine cfg i)

/--
A dirty line is pushed out of the victim buffer in this cycle.
-/
def evictOutDirty : Bool :=
  cfg.victimEntries != 0 && c.vcDoInsert cfg i && c.vc.evictOut.valid && c.vc.evictOut.dirty

/-!
# The miss registers
-/

def head : Mshr := c.mshr c.mshrHead

def fillLine : Nat := cfg.lineIdx c.head.set c.head.way

def fillIsLastWord : Bool := c.fillWord == cfg.lineWords - 1

def fillDoMerge : Bool := c.head.isWrite && c.fillWord == c.head.wordOff

def fillValue : Word :=
  if c.fillDoMerge then
    mergeWrite i.mDataI (lowBits c.head.funct3) c.head.byteOff c.head.wdata
  else i.mDataI

def mshrBusy : Bool := c.state == .wb || c.state == .fill

def mshrAddrLineConflict : Bool :=
  anyUpTo cfg.mshrEntries
    (fun m => (c.mshr m).valid && (c.mshr m).tag == cfg.tag i.cpu.addr &&
      (c.mshr m).set == cfg.setIdx i.cpu.addr)

def freshDispatchOk : Bool := c.state == .idle && !(i.flushAll && !c.flushActive)

def mshrFreshLoadMiss : Bool :=
  c.freshDispatchOk i && i.cpu.read && !i.cpu.write && !c.hit cfg i && i.cpu.intLoad &&
    decide (cfg.mshrEntries > 1)

def mshrBusyDispatchHit : Bool :=
  c.mshrBusy && i.cpu.read && !i.cpu.write && c.hitMain cfg i

def mshrRoom : Bool :=
  decide (cfg.mshrEntries > 1) && decide (c.mshrCount < cfg.mshrEntries) &&
    !c.mshrAddrLineConflict cfg i

def mshrBusyDispatchMiss : Bool :=
  c.mshrBusy && i.cpu.read && !i.cpu.write && !c.hit cfg i && i.cpu.intLoad &&
    c.mshrRoom cfg i

def mshrAccept : Bool := c.mshrFreshLoadMiss cfg i || c.mshrBusyDispatchMiss cfg i

def mshrCompleteNow : Bool := c.state == .fill && i.mAck && c.fillIsLastWord cfg

def nextSlot (slot : Nat) : Nat := if slot = cfg.mshrEntries - 1 then 0 else slot + 1

def victimNeedsWb : Bool :=
  c.array.valid (c.victimLine cfg i) && c.array.dirty (c.victimLine cfg i)

def victimBase : Nat :=
  cfg.lineBase
    (cfg.concatTag (c.array.tag (c.victimLine cfg i)) (cfg.setIdx i.cpu.addr))

/--
The contents of a miss register allocated for the request on the port.
-/
def missEntry (isWrite : Bool) (wdata : Word) (earlyRetired : Bool) : Mshr :=
  { valid := true
    set := cfg.setIdx i.cpu.addr
    way := c.victimTargetWay cfg i
    tag := cfg.tag i.cpu.addr
    base := cfg.lineBase (cfg.lineAddr i.cpu.addr)
    wordOff := cfg.wordOff i.cpu.addr
    byteOff := byteOff i.cpu.addr
    funct3 := i.cpu.funct3
    destReg := i.cpu.destReg
    origAddr := i.cpu.addr
    isWrite := isWrite
    wdata := wdata
    needWb := c.victimNeedsWb cfg i
    wbLine := c.victimLine cfg i
    wbBase := c.victimBase cfg i
    earlyRetired := earlyRetired }

/-!
# The entry that follows the head

When the only other entry is allocated in the very cycle in which the head
completes, its fields are forwarded from the request.
-/

def newHeadIsFreshAlloc : Bool :=
  c.mshrBusyDispatchMiss cfg i && nextSlot cfg c.mshrHead == c.mshrTail

def newHeadNeedWb : Bool :=
  if c.newHeadIsFreshAlloc cfg i then c.victimNeedsWb cfg i
  else (c.mshr (nextSlot cfg c.mshrHead)).needWb

def newHeadWbLine : Nat :=
  if c.newHeadIsFreshAlloc cfg i then c.victimLine cfg i
  else (c.mshr (nextSlot cfg c.mshrHead)).wbLine

def newHeadWbBase : Nat :=
  if c.newHeadIsFreshAlloc cfg i then c.victimBase cfg i
  else (c.mshr (nextSlot cfg c.mshrHead)).wbBase

def mshrCountAfterComplete : Nat :=
  (if c.mshrCompleteNow cfg i then c.mshrCount - 1 else c.mshrCount) +
    (if c.mshrBusyDispatchMiss cfg i then 1 else 0)

/-!
# Outputs
-/

def fillAnswers : Bool :=
  c.mshrCompleteNow cfg i && !c.head.earlyRetired && i.cpu.active &&
    i.cpu.addr == c.head.origAddr

def hitAnswers : Bool := c.state == .hitRd && i.cpu.read && i.cpu.addr == c.servedAddr

def respReady : Bool :=
  (c.state == .idle && c.hit cfg i && i.cpu.write) || c.hitAnswers i ||
    c.fillAnswers cfg i || c.huPending

def respFillWord : Word :=
  if c.head.wordOff = c.fillWord then c.fillValue i
  else c.array.data (c.fillLine cfg, c.head.wordOff)

def fillData : Word := extendRead (c.respFillWord cfg i) c.head.funct3 c.head.byteOff

def respRdata : Word :=
  if c.hitAnswers i then
    extendRead (c.array.data (c.hitLine, c.hitWord)) c.hitFunct3 c.hitByteOff
  else if c.fillAnswers cfg i then c.fillData cfg i
  else if c.huPending then c.huData
  else 0

def mshrComplete : Bool := c.mshrCompleteNow cfg i && c.head.earlyRetired

def accessHit : Bool := (c.state == .idle && i.cpu.write && c.hit cfg i) || c.hitAnswers i

def mCyc : Bool := c.state == .wb || c.state == .fill

def mWe : Bool := c.state == .wb

def mAddr : Nat :=
  (if c.state = .wb then c.wbBase else c.head.base) + 4 * c.fillWord

def mDataO : Word :=
  if c.state = .wb then
    if c.vwbActive then c.vwbData c.fillWord else c.array.data (c.wbLine, c.fillWord)
  else 0

/-!
# Inclusion probes
-/

def probeFound : Bool := c.array.hitMain cfg.toGeometry i.probeAddr

def probeFoundLine : Nat := c.array.hitLineIdx cfg.toGeometry i.probeAddr

def probeDirty : Bool := c.probeFound cfg i && c.array.dirty (c.probeFoundLine cfg i)

def probeData (w : Nat) : Word := c.array.data (c.probeFoundLine cfg i, w)

/-!
# What every state does
-/

def touchedAge : Nat × Nat -> Nat :=
  if cfg.policy = .lru ∧ c.accessHit cfg i then
    let way :=
      if c.state = .idle then
        if c.hitMain cfg i then cfg.wayOf (c.hitLineIdx cfg i) else c.victimTargetWay cfg i
      else cfg.wayOf c.hitLine
    let set :=
      if c.state = .idle then
        if c.hitMain cfg i then cfg.setOf (c.hitLineIdx cfg i) else cfg.setIdx i.cpu.addr
      else cfg.setOf c.hitLine
    c.array.lruTouch cfg.toGeometry set way
  else c.array.age

def probedValid : Nat -> Bool :=
  if i.probeReq && c.probeFound cfg i then setAt c.array.valid (c.probeFoundLine cfg i) false
  else c.array.valid

def mshrNext : Nat -> Mshr :=
  let released :=
    if c.mshrCompleteNow cfg i then
      modifyAt c.mshr c.mshrHead (fun m => { m with valid := false })
    else c.mshr
  if c.mshrBusyDispatchMiss cfg i then
    setAt released c.mshrTail (c.missEntry cfg i false 0 true)
  else released

def common : DCache :=
  { c with
    array := { c.array with valid := c.probedValid cfg i, age := c.touchedAge cfg i }
    vc := c.vcNext cfg i
    flushDone := false
    huPending := c.mshrBusyDispatchHit cfg i
    huData :=
      if c.mshrBusyDispatchHit cfg i then
        extendRead (c.hitData cfg i) i.cpu.funct3 (byteOff i.cpu.addr)
      else c.huData
    mshr := c.mshrNext cfg i
    mshrHead := if c.mshrCompleteNow cfg i then nextSlot cfg c.mshrHead else c.mshrHead
    mshrTail :=
      if c.mshrBusyDispatchMiss cfg i then nextSlot cfg c.mshrTail else c.mshrTail
    mshrCount := c.mshrCountAfterComplete cfg i }

/-!
# The handlers of the states
-/

section

variable (next : DCache)

def toHitRd (line : Nat) : DCache :=
  { next with
    state := .hitRd
    hitLine := line
    hitWord := cfg.wordOff i.cpu.addr
    hitFunct3 := i.cpu.funct3
    hitByteOff := byteOff i.cpu.addr
    servedAddr := i.cpu.addr }

def writeHit : DCache :=
  { next with
    array :=
      { next.array with
        data :=
          setAt next.array.data (c.hitLineIdx cfg i, cfg.wordOff i.cpu.addr)
            (mergeWrite (c.hitData cfg i) (lowBits i.cpu.funct3) (byteOff i.cpu.addr)
              i.cpu.wdata)
        dirty := setAt next.array.dirty (c.hitLineIdx cfg i) true } }

/--
A hit in the victim buffer moves the line into the victim way; a store is merged
on the way.
-/
def promote : DCache :=
  { next with
    array :=
      { next.array with
        data := fun k =>
          if k.1 = c.victimLine cfg i ∧ k.2 < cfg.lineWords then
            if i.cpu.write && k.2 == cfg.wordOff i.cpu.addr then
              mergeWrite (c.vcLookupData cfg i k.2) (lowBits i.cpu.funct3)
                (byteOff i.cpu.addr) i.cpu.wdata
            else c.vcLookupData cfg i k.2
          else next.array.data k
        tag := setAt next.array.tag (c.victimLine cfg i) (cfg.tag i.cpu.addr)
        valid := setAt next.array.valid (c.victimLine cfg i) true
        dirty :=
          setAt next.array.dirty (c.victimLine cfg i)
            (if i.cpu.write then true else c.vcLookupDirty cfg i)
        victim :=
          setAt next.array.victim (cfg.setIdx i.cpu.addr)
            (LineArray.nextVictim cfg.toGeometry (c.victimTargetWay cfg i)) } }

def miss : DCache :=
  let allocated : DCache :=
    { next with
      mshr :=
        setAt next.mshr c.mshrTail
          (c.missEntry cfg i i.cpu.write i.cpu.wdata (c.mshrFreshLoadMiss cfg i))
      mshrCount := c.mshrCount + 1
      mshrTail := nextSlot cfg c.mshrTail
      vwbPending := c.evictOutDirty cfg i
      vwbTag := c.vc.evictOut.tag
      vwbData := c.vc.evictOut.data
      fillWord := 0 }
  if c.victimNeedsWb cfg i then
    { allocated with
      wbLine := c.victimLine cfg i
      wbBase := c.victimBase cfg i
      wbReturnToFlush := false
      vwbActive := false
      state := .wb }
  else if c.evictOutDirty cfg i then
    { allocated with
      vwbActive := true
      wbBase := cfg.lineBase c.vc.evictOut.tag
      state := .wb }
  else { allocated with vwbActive := false, state := .fill }

def idleStep : DCache :=
  if i.flushAll && !c.flushActive then
    { next with flushActive := true, flushScan := 0, state := .flushScan }
  else if i.cpu.active then
    if c.hitMain cfg i then
      if i.cpu.write then c.writeHit cfg i next
      else toHitRd cfg i next (c.hitLineIdx cfg i)
    else if c.vcLookupHit cfg i then
      if i.cpu.write then c.promote cfg i next
      else toHitRd cfg i (c.promote cfg i next) (c.victimLine cfg i)
    else c.miss cfg i next
  else next

def flushAdvance : DCache :=
  if c.flushScan = cfg.numLines - 1 then
    { next with flushActive := false, flushDone := true, state := .idle }
  else { next with flushScan := c.flushScan + 1, state := .flushScan }

def wbStep : DCache :=
  if i.mAck then
    if c.fillIsLastWord cfg then
      if c.vwbActive then
        { next with vwbActive := false, vwbPending := false, fillWord := 0, state := .fill }
      else
        let cleaned : DCache :=
          { next with
            array := { next.array with dirty := setAt next.array.dirty c.wbLine false } }
        if c.wbReturnToFlush then c.flushAdvance cfg cleaned
        else if c.vwbPending then
          { cleaned with
            vwbActive := true, wbBase := cfg.lineBase c.vwbTag, fillWord := 0 }
        else { cleaned with fillWord := 0, state := .fill }
    else { next with fillWord := c.fillWord + 1 }
  else next

def fillStep : DCache :=
  if i.mAck then
    let written : DCache :=
      { next with
        array :=
          { next.array with
            data := setAt next.array.data (c.fillLine cfg, c.fillWord) (c.fillValue i) } }
    if c.fillIsLastWord cfg then
      let filled : DCache :=
        { written with
          array :=
            { written.array with
              valid := setAt written.array.valid (c.fillLine cfg) true
              tag := setAt written.array.tag (c.fillLine cfg) c.head.tag
              dirty := setAt written.array.dirty (c.fillLine cfg) c.head.isWrite
              victim :=
                setAt written.array.victim c.head.set
                  (LineArray.nextVictim cfg.toGeometry c.head.way)
              age :=
                if cfg.policy = .lru then
                  c.array.lruTouch cfg.toGeometry c.head.set c.head.way
                else written.array.age } }
      if c.mshrCountAfterComplete cfg i = 0 then { filled with state := .idle }
      else if c.newHeadNeedWb cfg i then
        { filled with
          fillWord := 0
          wbLine := c.newHeadWbLine cfg i
          wbBase := c.newHeadWbBase cfg i
          wbReturnToFlush := false
          vwbActive := false
          state := .wb }
      else { filled with fillWord := 0, state := .fill }
    else { written with fillWord := c.fillWord + 1 }
  else next

def flushScanStep : DCache :=
  if c.array.valid c.flushScan && c.array.dirty c.flushScan then
    { next with
      wbLine := c.flushScan
      wbBase := cfg.lineBase (cfg.concatTag (c.array.tag c.flushScan) (cfg.setOf c.flushScan))
      wbReturnToFlush := true
      fillWord := 0
      state := .wb }
  else c.flushAdvance cfg next

end

def step : DCache :=
  let next := c.common cfg i
  match c.state with
  | .idle => c.idleStep cfg i next
  | .hitRd => { next with state := .idle }
  | .wb => c.wbStep cfg i next
  | .fill => c.fillStep cfg i next
  | .flushScan => c.flushScanStep cfg next

/--
The cache after reset.  Registers that reset leaves alone keep any value.
-/
structure IsReset : Prop where
  state : c.state = .idle
  array : c.array.IsReset cfg.toGeometry
  vc : c.vc.IsReset
  flushActive : c.flushActive = false
  flushDone : c.flushDone = false
  vwbPending : c.vwbPending = false
  vwbActive : c.vwbActive = false
  mshrCount : c.mshrCount = 0
  mshrHead : c.mshrHead = 0
  mshrTail : c.mshrTail = 0
  mshrValid : forall m, (c.mshr m).valid = false
  huPending : c.huPending = false

end DCache
end Cache
end RvCores
