import RvCores.Cache.Invariant
import RvCores.Cache.L2Cache

/-!
# The second-level cache against the memory it presents

Above the second-level cache there is a memory of lines: what the first level reads
and writes.  Its lines are in the ways of the array, in the latch that took a line
from a probe, or in the memory below.
-/

namespace RvCores
namespace Cache

open Isa Lib

inductive L2Slot where
  | way (line : Nat)
  | latch
deriving DecidableEq

namespace L2Cache

variable (g : Geometry) (c : L2Cache) (mem upper : LineMem g)

/-!
# Copies
-/

/--
A probed line is on its way to memory in the latch.
-/
def Latched : Prop := c.state = .wb ∧ c.flushActive = false ∧ c.probeDirty = true

instance : Decidable c.Latched :=
  inferInstanceAs (Decidable (c.state = .wb ∧ c.flushActive = false ∧ c.probeDirty = true))

def dead : Option Nat :=
  if c.state = .fill ∨ c.Latched then some (c.fillLine g) else none

def latchCopy : Option (LineCopy g) :=
  if c.Latched then
    some
      { addr := c.array.lineAddr g c.wbLine
        dirty := true
        data := fun w => c.probeData w }
  else none

def copies : L2Slot -> Option (LineCopy g)
  | .way line => c.array.copyAt g (c.dead g) line
  | .latch => c.latchCopy g

/-!
# Phases
-/

/--
The registers of a read that missed.  The first level writes only lines that the
second level has.
-/
structure Missing : Prop where
  way : c.miss.way < g.ways
  set : c.miss.set = g.setIdx c.miss.origAddr
  tag : c.miss.tag = g.tag c.miss.origAddr
  base : c.miss.base = g.lineBase (g.lineAddr c.miss.origAddr)
  wordOff : c.miss.wordOff = g.wordOff c.miss.origAddr
  funct3 : c.miss.funct3 = 0b010
  load : c.miss.isWrite = false
  unheld : forall line, c.array.valid line = true ->
    c.array.lineAddr g line ≠ g.lineAddr c.miss.origAddr

/--
The line that a miss replaces.
-/
structure Replaced : Prop extends Missing g c where
  line : c.wbLine = c.fillLine g
  valid : c.array.valid c.wbLine = true
  base' : c.wbBase = g.lineBase (c.array.lineAddr g c.wbLine)

structure HitRd : Prop where
  state : c.state = .hitRd
  noFlush : c.flushActive = false
  valid : c.array.valid c.hitLine = true
  addr : c.array.lineAddr g c.hitLine = g.lineAddr c.servedAddr
  word : c.hitWord = g.wordOff c.servedAddr
  funct3 : c.hitFunct3 = 0b010

def Written (a : Nat) : Prop :=
  forall w : Fin g.lineWords, w < c.fillWord -> mem a w = upper a w

structure Evict : Prop extends Replaced g c where
  state : c.state = .wb
  noFlush : c.flushActive = false
  noReturn : c.wbReturnToFlush = false
  word : c.fillWord < g.lineWords
  dirty : c.probeDirty = false -> c.array.dirty c.wbLine = true
  written : c.Written g mem upper (c.array.lineAddr g c.wbLine)

structure Fill : Prop extends Missing g c where
  state : c.state = .fill
  noFlush : c.flushActive = false
  word : c.fillWord < g.lineWords
  filled : forall w : Fin g.lineWords, w < c.fillWord ->
    c.array.data (c.fillLine g, w) = upper (g.lineAddr c.miss.origAddr) w

def Scanned : Prop :=
  forall line, line < c.flushScan -> c.array.valid line = true -> c.array.dirty line = false

structure FlushWb : Prop where
  state : c.state = .wb
  flush : c.flushActive = true
  returns : c.wbReturnToFlush = true
  inRange : c.flushScan < g.numLines
  scanned : c.Scanned
  line : c.wbLine = c.flushScan
  valid : c.array.valid c.wbLine = true
  dirty : c.array.dirty c.wbLine = true
  noProbe : c.probeDirty = false
  base : c.wbBase = g.lineBase (c.array.lineAddr g c.wbLine)
  word : c.fillWord < g.lineWords
  written : c.Written g mem upper (c.array.lineAddr g c.wbLine)

inductive Phase : Prop where
  | idle (hstate : c.state = .idle) (hflush : c.flushActive = false) : Phase
  | hitRd (h : c.HitRd g) : Phase
  | probe (hstate : c.state = .probeWait) (hflush : c.flushActive = false)
      (h : c.Replaced g) : Phase
  | evict (h : c.Evict g mem upper) : Phase
  | fill (h : c.Fill g upper) : Phase
  | scan (hstate : c.state = .flushScan) (hflush : c.flushActive = true)
      (hrange : c.flushScan < g.numLines) (hscanned : c.Scanned) : Phase
  | flushWb (h : c.FlushWb g mem upper) : Phase

structure Inv : Prop where
  severalSets : 1 <= g.setBits
  wellFormed : c.array.WellFormed g
  coherent : Coherent (c.copies g) mem upper
  phase : c.Phase g mem upper
  flushed : c.flushDone = true ->
    c.state = .idle ∧ forall line, c.array.valid line = true -> c.array.dirty line = false

/-!
# The environment
-/

/--
The first level holds the read that a busy cycle serves, writes only what is there,
and is silent during a flush; the memory below delivers the word addressed; a probe is
answered at once.
-/
structure Served (i : L2In) : Prop where
  words : i.uFunct3 = 0b010
  writes : i.uCyc = true -> i.uWe = true -> c.hit g i = true
  quiet : i.flushAll = true ∨ c.flushActive = true -> i.uCyc = false
  delivered : c.state = .hitRd -> i.uAddr = c.servedAddr
  held : c.state = .probeWait ∨ (c.state = .wb ∧ c.flushActive = false) ∨ c.state = .fill ->
    i.uCyc = true ∧ i.uWe = false ∧ i.uAddr = c.miss.origAddr
  reads : c.state = .fill -> i.mAck = true -> i.mDataI = mem.read c.mAddr
  probed : i.probeAck = c.probeReq

def memNext (i : L2In) : LineMem g :=
  if i.mAck = true ∧ c.state = .wb then mem.write c.mAddr c.mDataO else mem

/--
The memory above: words that the first level wrote, and lines that a probe took
from it.
-/
def upperNext (i : L2In) : LineMem g :=
  if c.state = .idle ∧ i.uCyc = true ∧ i.uWe = true then upper.write i.uAddr i.uDataO
  else if c.state = .probeWait ∧ i.probeDirty = true then
    setAt upper (c.array.lineAddr g c.wbLine) (fun w => i.probeData w)
  else upper

variable {g c mem upper} {c' : L2Cache} {i : L2In}

/-!
# What a cycle leaves alone
-/

theorem dead_none (hfill : c.state ≠ .fill) (hlatch : ¬ c.Latched) : c.dead g = none := by
  unfold dead
  rw [if_neg]
  rintro (h | h)
  · exact hfill h
  · exact hlatch h

theorem dead_fill (hstate : c.state = .fill) : c.dead g = some (c.fillLine g) := by
  unfold dead
  rw [if_pos (Or.inl hstate)]

theorem dead_latched (hlatch : c.Latched) : c.dead g = some (c.fillLine g) := by
  unfold dead
  rw [if_pos (Or.inr hlatch)]

theorem not_latched_of_state (hstate : c.state ≠ .wb) : ¬ c.Latched :=
  fun h => hstate h.left

theorem not_latched_of_flush (hflush : c.flushActive = true) : ¬ c.Latched := by
  intro h
  have hno := h.right.left
  rw [hflush] at hno
  cases hno

theorem latchCopy_none (hlatch : ¬ c.Latched) : c.latchCopy g = none := by
  unfold latchCopy
  rw [if_neg hlatch]

/--
Only one way and the latch changed.
-/
theorem copies_update {line : Nat}
    (hother : forall k, k ≠ line ->
      c'.array.copyAt g (c'.dead g) k = c.array.copyAt g (c.dead g) k) :
    c'.copies g
      = setAt
          (setAt (c.copies g) (.way line) (c'.array.copyAt g (c'.dead g) line))
          .latch (c'.latchCopy g) := by
  funext s
  cases s with
  | way k =>
      rw [setAt_of_ne (by simp), setAt_apply]
      by_cases hk : k = line
      · rw [if_pos (by rw [hk]), hk]
        rfl
      · rw [if_neg (by simp [hk])]
        exact hother k hk
  | latch =>
      rw [setAt_self]
      rfl

theorem copies_congr
    (harray : forall k, c'.array.copyAt g (c'.dead g) k = c.array.copyAt g (c.dead g) k)
    (hlatch : c'.latchCopy g = c.latchCopy g) :
    c'.copies g = c.copies g := by
  funext s
  cases s with
  | way k => exact harray k
  | latch => exact hlatch

theorem setAt_latch_none {copies : L2Slot -> Option (LineCopy g)}
    (h : copies .latch = none) :
    setAt copies .latch none = copies := by
  funext s
  rw [setAt_apply]
  split
  · next heq => rw [heq, h]
  · rfl

theorem copies_way {line : Nat} (hvalid : c.array.valid line = true)
    (hlive : c.dead g ≠ some line) :
    c.copies g (.way line) = some
      { addr := c.array.lineAddr g line
        dirty := c.array.dirty line
        data := c.array.lineData g line } :=
  LineArray.copyAt_live hvalid hlive

theorem way_current (h : Coherent (c.copies g) mem upper) {line : Nat}
    (hvalid : c.array.valid line = true) (hlive : c.dead g ≠ some line) :
    c.array.lineData g line = upper (c.array.lineAddr g line) :=
  h.current (copies_way hvalid hlive)

theorem memNext_of_not_wb (hstate : c.state ≠ .wb) : c.memNext g mem i = mem := by
  unfold memNext
  rw [if_neg]
  intro h
  exact hstate h.right

theorem memNext_no_ack (hack : i.mAck = false) : c.memNext g mem i = mem := by
  unfold memNext
  rw [if_neg]
  intro h
  rw [hack] at h
  cases h.left

theorem memNext_ack (hstate : c.state = .wb) (hack : i.mAck = true) :
    c.memNext g mem i = mem.write c.mAddr c.mDataO := by
  unfold memNext
  rw [if_pos ⟨hack, hstate⟩]

theorem upperNext_still (hidle : c.state ≠ .idle) (hprobe : c.state ≠ .probeWait) :
    c.upperNext g upper i = upper := by
  unfold upperNext
  rw [if_neg (fun h => hidle h.left), if_neg (fun h => hprobe h.left)]

theorem upperNext_no_write (hprobe : c.state ≠ .probeWait)
    (hwrite : i.uCyc = true -> i.uWe = false) :
    c.upperNext g upper i = upper := by
  unfold upperNext
  rw [if_neg, if_neg (fun h => hprobe h.left)]
  rintro ⟨_, hcyc, hwe⟩
  rw [hwrite hcyc] at hwe
  cases hwe

theorem hitAnswers_of_not_hitRd (hstate : c.state ≠ .hitRd) : c.hitAnswers i = false := by
  unfold hitAnswers
  rw [beq_eq_false_iff_ne.mpr hstate]
  rfl

theorem touchedAge_of_no_hit (h : c.accessHit g i = false) :
    c.touchedAge g i = c.array.age := by
  unfold touchedAge
  rw [if_neg]
  intro hcond
  rw [h] at hcond
  cases hcond.right

/--
A cycle after which every line holds what it held.
-/
theorem inv_of_same (h : c.Inv g mem upper)
    (harray : c'.array = { c.array with age := c'.array.age })
    (hdead : c'.dead g = c.dead g) (hlatch : c'.latchCopy g = c.latchCopy g)
    (hphase : c'.Phase g mem upper) (hdone : c'.flushDone = true ->
      c'.state = .idle ∧
        forall line, c.array.valid line = true -> c.array.dirty line = false) :
    c'.Inv g mem upper where
  severalSets := h.severalSets
  wellFormed := by
    rw [harray]
    exact h.wellFormed.of_eq rfl rfl rfl
  coherent := by
    have hcopies : c'.copies g = c.copies g := by
      apply copies_congr _ hlatch
      intro k
      rw [hdead, harray]
      rfl
    rw [hcopies]
    exact h.coherent
  phase := hphase
  flushed := by
    intro hd
    refine ⟨(hdone hd).left, ?_⟩
    rw [harray]
    exact (hdone hd).right

theorem IsReset.inv (h : c.IsReset g) (hsets : 1 <= g.setBits) (mem : LineMem g) :
    c.Inv g mem mem where
  severalSets := hsets
  wellFormed := h.array.wellFormed
  coherent := by
    have hnone : forall s, c.copies g s = none := by
      intro s
      cases s with
      | way line => exact LineArray.copyAt_invalid (h.array.valid line)
      | latch => exact latchCopy_none (not_latched_of_state (by simp [h.state]))
    exact
      { current := by
          intro s d hs
          rw [hnone] at hs
          cases hs
        unique := by
          intro s t d e hs
          rw [hnone] at hs
          cases hs
        settled := fun _ _ => rfl }
  phase := Phase.idle h.state h.flushActive
  flushed := by
    intro hdone
    rw [h.flushDone] at hdone
    cases hdone

end L2Cache
end Cache
end RvCores
