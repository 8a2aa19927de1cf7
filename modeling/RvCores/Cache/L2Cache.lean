import RvCores.Cache.LineArray

/-!
# The second-level cache

A blocking, write-back cache that serves the line transfers of a first-level cache.
Before it gives up a valid line it probes the first level, which hands over the line
if it has a newer copy and forgets it.
-/

namespace RvCores
namespace Cache

open Isa Lib

inductive L2State where
  | idle
  | hitRd
  | probeWait
  | wb
  | fill
  | flushScan
deriving DecidableEq, Repr

structure L2Miss where
  set : Nat
  way : Nat
  tag : Nat
  base : Nat
  wordOff : Nat
  byteOff : Nat
  funct3 : BitVec 3
  isWrite : Bool
  wdata : Word
  origAddr : Nat

structure L2In where
  uCyc : Bool
  uWe : Bool
  uAddr : Nat
  uDataO : Word
  uFunct3 : BitVec 3
  mDataI : Word
  mAck : Bool
  probeAck : Bool
  probeDirty : Bool
  probeData : Nat -> Word
  flushAll : Bool

structure L2Cache where
  state : L2State
  array : LineArray
  hitLine : Nat
  hitWord : Nat
  hitFunct3 : BitVec 3
  hitByteOff : Nat
  servedAddr : Nat
  miss : L2Miss
  fillWord : Nat
  wbLine : Nat
  wbBase : Nat
  probeDirty : Bool
  probeData : Nat -> Word
  flushScan : Nat
  flushActive : Bool
  flushDone : Bool
  wbReturnToFlush : Bool

namespace L2Cache

variable (g : Geometry) (c : L2Cache) (i : L2In)

/-!
# Lookup
-/

def hit : Bool := c.array.hitMain g i.uAddr

def hitLineIdx : Nat := c.array.hitLineIdx g i.uAddr

def hitData : Word := c.array.hitData g i.uAddr

def victimTargetWay : Nat := c.array.victimTargetWay g (g.setIdx i.uAddr)

def victimLine : Nat := c.array.victimLine g i.uAddr

/-!
# The miss under way
-/

def fillLine : Nat := g.lineIdx c.miss.set c.miss.way

def fillIsLastWord : Bool := c.fillWord == g.lineWords - 1

def fillDoMerge : Bool := c.miss.isWrite && c.fillWord == c.miss.wordOff

def fillValue : Word :=
  if c.fillDoMerge then
    mergeWrite i.mDataI (lowBits c.miss.funct3) c.miss.byteOff c.miss.wdata
  else i.mDataI

def respFillWord : Word :=
  if c.miss.wordOff = c.fillWord then c.fillValue i
  else c.array.data (c.fillLine g, c.miss.wordOff)

def missEntry : L2Miss :=
  { set := g.setIdx i.uAddr
    way := c.victimTargetWay g i
    tag := g.tag i.uAddr
    base := g.lineBase (g.lineAddr i.uAddr)
    wordOff := g.wordOff i.uAddr
    byteOff := byteOff i.uAddr
    funct3 := i.uFunct3
    isWrite := i.uWe
    wdata := i.uDataO
    origAddr := i.uAddr }

/-!
# Outputs
-/

def hitAnswers : Bool := c.state == .hitRd && i.uAddr == c.servedAddr

def fillAnswers : Bool :=
  c.state == .fill && i.mAck && c.fillIsLastWord g && i.uAddr == c.miss.origAddr

def uAck : Bool :=
  (c.state == .idle && i.uCyc && i.uWe && c.hit g i) || c.hitAnswers i || c.fillAnswers g i

def uDataI : Word :=
  if c.hitAnswers i then
    extendRead (c.array.data (c.hitLine, c.hitWord)) c.hitFunct3 c.hitByteOff
  else if c.fillAnswers g i then
    extendRead (c.respFillWord g i) c.miss.funct3 c.miss.byteOff
  else 0

def probeReq : Bool := c.state == .probeWait

def probeAddr : Nat := c.wbBase

def mCyc : Bool := c.state == .wb || c.state == .fill

def mWe : Bool := c.state == .wb

def mAddr : Nat := (if c.state = .wb then c.wbBase else c.miss.base) + 4 * c.fillWord

def mDataO : Word :=
  if c.state = .wb then
    if c.probeDirty then c.probeData c.fillWord else c.array.data (c.wbLine, c.fillWord)
  else 0

def accessHit : Bool :=
  (c.state == .idle && i.uCyc && i.uWe && c.hit g i) || c.hitAnswers i

/-!
# The step
-/

def touchedAge : Nat × Nat -> Nat :=
  if g.policy = .lru ∧ c.accessHit g i then
    let line := if c.state = .idle then c.hitLineIdx g i else c.hitLine
    c.array.lruTouch g (g.setOf line) (g.wayOf line)
  else c.array.age

def common : L2Cache :=
  { c with
    array := { c.array with age := c.touchedAge g i }
    flushDone := false }

section

variable (next : L2Cache)

def writeHit : L2Cache :=
  { next with
    array :=
      { next.array with
        data :=
          setAt next.array.data (c.hitLineIdx g i, g.wordOff i.uAddr)
            (mergeWrite (c.hitData g i) (lowBits i.uFunct3) (byteOff i.uAddr) i.uDataO)
        dirty := setAt next.array.dirty (c.hitLineIdx g i) true } }

def readHit : L2Cache :=
  { next with
    hitLine := c.hitLineIdx g i
    hitWord := g.wordOff i.uAddr
    hitFunct3 := i.uFunct3
    hitByteOff := byteOff i.uAddr
    servedAddr := i.uAddr
    state := .hitRd }

def startMiss : L2Cache :=
  if c.array.valid (c.victimLine g i) then
    { next with
      miss := c.missEntry g i
      wbLine := c.victimLine g i
      wbBase := g.lineBase (g.concatTag (c.array.tag (c.victimLine g i)) (g.setIdx i.uAddr))
      state := .probeWait }
  else { next with miss := c.missEntry g i, fillWord := 0, state := .fill }

def idleStep : L2Cache :=
  if i.flushAll && !c.flushActive then
    { next with flushActive := true, flushScan := 0, state := .flushScan }
  else if i.uCyc then
    if c.hit g i then
      if i.uWe then c.writeHit g i next else c.readHit g i next
    else c.startMiss g i next
  else next

def probeStep : L2Cache :=
  if i.probeAck then
    { next with
      probeDirty := i.probeDirty
      probeData := i.probeData
      fillWord := 0
      wbReturnToFlush := false
      state := if c.array.dirty c.wbLine || i.probeDirty then .wb else .fill }
  else next

def flushAdvance : L2Cache :=
  if c.flushScan = g.numLines - 1 then
    { next with flushActive := false, flushDone := true, state := .idle }
  else { next with flushScan := c.flushScan + 1, state := .flushScan }

def wbStep : L2Cache :=
  if i.mAck then
    if c.fillIsLastWord g then
      let cleaned : L2Cache :=
        { next with
          array := { next.array with dirty := setAt next.array.dirty c.wbLine false } }
      if c.wbReturnToFlush then c.flushAdvance g cleaned
      else { cleaned with fillWord := 0, state := .fill }
    else { next with fillWord := c.fillWord + 1 }
  else next

def flushScanStep : L2Cache :=
  if c.array.valid c.flushScan && c.array.dirty c.flushScan then
    { next with
      wbLine := c.flushScan
      wbBase := g.lineBase (g.concatTag (c.array.tag c.flushScan) (g.setOf c.flushScan))
      wbReturnToFlush := true
      probeDirty := false
      fillWord := 0
      state := .wb }
  else c.flushAdvance g next

def fillStep : L2Cache :=
  if i.mAck then
    let written : L2Cache :=
      { next with
        array :=
          { next.array with
            data := setAt next.array.data (c.fillLine g, c.fillWord) (c.fillValue i) } }
    if c.fillIsLastWord g then
      { written with
        array :=
          { written.array with
            valid := setAt written.array.valid (c.fillLine g) true
            tag := setAt written.array.tag (c.fillLine g) c.miss.tag
            dirty := setAt written.array.dirty (c.fillLine g) c.miss.isWrite
            victim :=
              setAt written.array.victim c.miss.set (LineArray.nextVictim g c.miss.way)
            age :=
              if g.policy = .lru then c.array.lruTouch g c.miss.set c.miss.way
              else written.array.age }
        state := .idle }
    else { written with fillWord := c.fillWord + 1 }
  else next

end

def step : L2Cache :=
  let next := c.common g i
  match c.state with
  | .idle => c.idleStep g i next
  | .hitRd => { next with state := .idle }
  | .probeWait => c.probeStep i next
  | .wb => c.wbStep g i next
  | .fill => c.fillStep g i next
  | .flushScan => c.flushScanStep g next

/--
The cache after reset.  Registers that reset leaves alone keep any value.
-/
structure IsReset : Prop where
  state : c.state = .idle
  array : c.array.IsReset g
  flushActive : c.flushActive = false
  flushDone : c.flushDone = false

end L2Cache
end Cache
end RvCores
