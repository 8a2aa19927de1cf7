import Mathlib.Algebra.Group.Nat.Defs
import RvCores.Cache.Access
import RvCores.Lib.OneHot
import RvCores.Lib.WriteBack

/-!
# Set-associative line arrays

The data cache and the second-level cache keep their lines in the same kind of
array: valid and dirty bits, tags and words by line index, a round-robin pointer
for each set and an age for each way.  This module has the address fields, the
lookup that all ways do in parallel, and the choice of a victim way.
-/

namespace RvCores
namespace Cache

open Isa Lib

inductive Policy where
  | roundRobin
  | fifo
  | lru
deriving DecidableEq, Repr

/--
Sets, ways and words of a line are powers of two, since every address field is a
slice of bits.  A way and a word offset have at least one bit: their wires are
declared with the number of bits less one.
-/
structure Geometry where
  wayBits : Nat
  setBits : Nat
  wordBits : Nat
  policy : Policy
  wayBits_pos : 1 <= wayBits := by first | exact Nat.one_pos | decide
  wordBits_pos : 1 <= wordBits := by first | exact Nat.one_pos | decide
deriving DecidableEq, Repr

namespace Geometry

variable (g : Geometry)

def ways : Nat := 2 ^ g.wayBits
def sets : Nat := 2 ^ g.setBits
def lineWords : Nat := 2 ^ g.wordBits
def lineBytes : Nat := 4 * g.lineWords
def numLines : Nat := g.sets * g.ways

/-!
# Address fields

An address is a line address and an offset in the line; a line address is a tag
and a set.
-/

def wordOff (addr : Nat) : Nat := addr / 4 % g.lineWords
def lineAddr (addr : Nat) : Nat := addr / g.lineBytes
def setIdx (addr : Nat) : Nat := g.lineAddr addr % g.sets
def tag (addr : Nat) : Nat := g.lineAddr addr / g.sets

def joinTag (tag set : Nat) : Nat := tag * g.sets + set
def lineBase (lineAddr : Nat) : Nat := lineAddr * g.lineBytes
def lineIdx (set way : Nat) : Nat := set * g.ways + way
def setOf (line : Nat) : Nat := line / g.ways
def wayOf (line : Nat) : Nat := line % g.ways

theorem ways_pos : 0 < g.ways := Nat.two_pow_pos _
theorem sets_pos : 0 < g.sets := Nat.two_pow_pos _
theorem lineWords_pos : 0 < g.lineWords := Nat.two_pow_pos _

theorem setIdx_lt (addr : Nat) : g.setIdx addr < g.sets :=
  Nat.mod_lt _ g.sets_pos

theorem wordOff_lt (addr : Nat) : g.wordOff addr < g.lineWords :=
  Nat.mod_lt _ g.lineWords_pos

@[simp] theorem joinTag_tag_setIdx (addr : Nat) :
    g.joinTag (g.tag addr) (g.setIdx addr) = g.lineAddr addr := by
  unfold joinTag tag setIdx
  rw [Nat.mul_comm]
  exact Nat.div_add_mod _ _

theorem joinTag_inj {t t' s s' : Nat} (hs : s < g.sets) (hs' : s' < g.sets)
    (h : g.joinTag t s = g.joinTag t' s') :
    t = t' ∧ s = s' := by
  unfold joinTag at h
  have hmod := congrArg (· % g.sets) h
  simp only [Nat.mul_add_mod_self_right, Nat.mod_eq_of_lt hs, Nat.mod_eq_of_lt hs'] at hmod
  subst hmod
  exact ⟨Nat.eq_of_mul_eq_mul_right g.sets_pos (Nat.add_right_cancel h), rfl⟩

theorem lineIdx_lt {set way : Nat} (hset : set < g.sets) (hway : way < g.ways) :
    g.lineIdx set way < g.numLines := by
  unfold lineIdx numLines
  calc set * g.ways + way < set * g.ways + g.ways := by omega
    _ = (set + 1) * g.ways := by rw [Nat.succ_mul]
    _ <= g.sets * g.ways := Nat.mul_le_mul_right _ hset

@[simp] theorem setOf_lineIdx {set way : Nat} (hway : way < g.ways) :
    g.setOf (g.lineIdx set way) = set := by
  unfold setOf lineIdx
  rw [Nat.add_comm, Nat.add_mul_div_right _ _ g.ways_pos, Nat.div_eq_of_lt hway,
    Nat.zero_add]

@[simp] theorem wayOf_lineIdx {set way : Nat} (hway : way < g.ways) :
    g.wayOf (g.lineIdx set way) = way := by
  unfold wayOf lineIdx
  rw [Nat.mul_add_mod_self_right, Nat.mod_eq_of_lt hway]

theorem lineIdx_setOf_wayOf (line : Nat) :
    g.lineIdx (g.setOf line) (g.wayOf line) = line := by
  unfold lineIdx setOf wayOf
  rw [Nat.mul_comm]
  exact Nat.div_add_mod _ _

theorem wayOf_lt (line : Nat) : g.wayOf line < g.ways := Nat.mod_lt _ g.ways_pos

theorem setOf_lt {line : Nat} (h : line < g.numLines) : g.setOf line < g.sets :=
  Nat.div_lt_of_lt_mul (by rw [Nat.mul_comm]; exact h)

/--
The word that contains an address, counted in words of the whole memory.
-/
theorem word_index (addr : Nat) :
    g.lineAddr addr * g.lineWords + g.wordOff addr = addr / 4 := by
  unfold lineAddr wordOff lineBytes
  rw [← Nat.div_div_eq_div_mul, Nat.mul_comm]
  exact Nat.div_add_mod _ _

/-!
# Concatenated tags

The tag of the victim buffer and the base of a writeback are the bits of a tag
followed by the bits of the set wire.  With one set that wire is declared
`[-1:0]`, which is two bits wide.
-/

def setWidth : Nat := if g.setBits = 0 then 2 else g.setBits

def concatTag (tag set : Nat) : Nat := tag * 2 ^ g.setWidth + set

theorem concatTag_eq (h : 1 <= g.setBits) (tag set : Nat) :
    g.concatTag tag set = g.joinTag tag set := by
  unfold concatTag joinTag setWidth sets
  rw [if_neg (by omega)]

/-!
# Bases
-/

theorem lineAddr_base (a : Nat) {w : Nat} (hw : w < g.lineWords) :
    g.lineAddr (g.lineBase a + 4 * w) = a := by
  unfold lineAddr lineBase lineBytes
  rw [Nat.add_comm, Nat.add_mul_div_right _ _ (Nat.mul_pos (by omega) g.lineWords_pos),
    Nat.div_eq_of_lt (by omega), Nat.zero_add]

theorem wordOff_base (a : Nat) {w : Nat} (hw : w < g.lineWords) :
    g.wordOff (g.lineBase a + 4 * w) = w := by
  unfold wordOff lineBase lineBytes
  have hdiv : (a * (4 * g.lineWords) + 4 * w) / 4 = a * g.lineWords + w := by
    rw [Nat.mul_left_comm, ← Nat.mul_add, Nat.mul_div_cancel_left _ (by omega)]
  rw [hdiv, Nat.mul_add_mod_self_right, Nat.mod_eq_of_lt hw]

end Geometry

/-!
# The array
-/

structure LineArray where
  valid : Nat -> Bool
  dirty : Nat -> Bool
  tag : Nat -> Nat
  data : Nat × Nat -> Word
  victim : Nat -> Nat
  age : Nat × Nat -> Nat

namespace LineArray

variable (g : Geometry) (arr : LineArray)

/-!
# Lookup
-/

def wayHit (addr way : Nat) : Bool :=
  arr.valid (g.lineIdx (g.setIdx addr) way) &&
    arr.tag (g.lineIdx (g.setIdx addr) way) == g.tag addr

def hitMain (addr : Nat) : Bool := anyUpTo g.ways (arr.wayHit g addr)

def hitData (addr : Nat) : Word :=
  orBits (arr.wayHit g addr)
    (fun way => arr.data (g.lineIdx (g.setIdx addr) way, g.wordOff addr)) g.ways

def hitLineIdx (addr : Nat) : Nat :=
  orNat (arr.wayHit g addr) (fun way => g.lineIdx (g.setIdx addr) way) g.ways

/-!
# Victim choice
-/

def lruWayIdx (set : Nat) : Nat :=
  orNat (fun way => arr.age (set, way) == g.ways - 1) (fun way => way) g.ways

def victimTargetWay (set : Nat) : Nat :=
  if g.policy = .lru then arr.lruWayIdx g set else arr.victim set

def victimLine (addr : Nat) : Nat :=
  g.lineIdx (g.setIdx addr) (arr.victimTargetWay g (g.setIdx addr))

/--
The touched way becomes the youngest and every way that was younger than it ages
by one.
-/
def lruTouch (set way : Nat) : Nat × Nat -> Nat :=
  fun k =>
    if k.1 = set ∧ k.2 < g.ways then
      if k.2 = way then 0
      else if arr.age k < arr.age (set, way) then arr.age k + 1
      else arr.age k
    else arr.age k

def nextVictim (way : Nat) : Nat := if way = g.ways - 1 then 0 else way + 1

/-!
# What a line holds
-/

def lineAddr (line : Nat) : Nat := g.joinTag (arr.tag line) (g.setOf line)

def lineData (line : Nat) : Fin g.lineWords -> Word := fun w => arr.data (line, w)

/--
The array after reset.  Tags and words keep what they held.
-/
structure IsReset : Prop where
  valid : forall line, arr.valid line = false
  dirty : forall line, arr.dirty line = false
  victim : forall set, arr.victim set = 0
  age : forall set way, way < g.ways -> arr.age (set, way) = way

/-!
# Well-formed arrays

Valid lines are inside the array, no two of them have the same line address, and
the round-robin pointer names a way.
-/

structure WellFormed : Prop where
  inRange : forall {line}, arr.valid line = true -> line < g.numLines
  distinct : forall {line line'}, arr.valid line = true -> arr.valid line' = true ->
    arr.lineAddr g line = arr.lineAddr g line' -> line = line'
  pointer : forall set, arr.victim set < g.ways

variable {g arr}

theorem IsReset.wellFormed (h : arr.IsReset g) : arr.WellFormed g where
  inRange hvalid := by simp [h.valid] at hvalid
  distinct hvalid := by simp [h.valid] at hvalid
  pointer set := by
    rw [h.victim]
    exact g.ways_pos

theorem WellFormed.of_eq {arr' : LineArray} (h : arr.WellFormed g)
    (hvalid : arr'.valid = arr.valid) (htag : arr'.tag = arr.tag)
    (hvictim : arr'.victim = arr.victim) :
    arr'.WellFormed g where
  inRange hline := h.inRange (hvalid ▸ hline)
  distinct hline hline' haddr := by
    unfold lineAddr at haddr
    rw [htag] at haddr
    exact h.distinct (hvalid ▸ hline) (hvalid ▸ hline') haddr
  pointer set := by
    rw [hvictim]
    exact h.pointer set

/--
A line is put into the array.  No other valid line may have its address.
-/
theorem WellFormed.install {arr' : LineArray} (h : arr.WellFormed g) {line : Nat}
    (hline : line < g.numLines)
    (hother : forall k, k ≠ line ->
      arr'.valid k = arr.valid k ∧ arr'.lineAddr g k = arr.lineAddr g k)
    (hfresh : forall k, k ≠ line -> arr.valid k = true ->
      arr.lineAddr g k ≠ arr'.lineAddr g line)
    (hpointer : forall set, arr'.victim set < g.ways) :
    arr'.WellFormed g where
  inRange := by
    intro k hk
    by_cases heq : k = line
    · rw [heq]
      exact hline
    · rw [(hother k heq).left] at hk
      exact h.inRange hk
  distinct := by
    intro k k' hk hk' haddr
    by_cases heq : k = line
    · by_cases heq' : k' = line
      · rw [heq, heq']
      · rw [(hother k' heq').left] at hk'
        rw [heq, (hother k' heq').right] at haddr
        exact absurd haddr.symm (hfresh k' heq' hk')
    · rw [(hother k heq).left] at hk
      rw [(hother k heq).right] at haddr
      by_cases heq' : k' = line
      · rw [heq'] at haddr
        exact absurd haddr (hfresh k heq hk)
      · rw [(hother k' heq').left] at hk'
        rw [(hother k' heq').right] at haddr
        exact h.distinct hk hk' haddr
  pointer := hpointer

theorem lineAddr_lineIdx {set way : Nat} (hway : way < g.ways) :
    arr.lineAddr g (g.lineIdx set way) = g.joinTag (arr.tag (g.lineIdx set way)) set := by
  unfold lineAddr
  rw [g.setOf_lineIdx hway]

theorem wayHit_iff {addr way : Nat} (hway : way < g.ways) :
    arr.wayHit g addr way = true <->
      arr.valid (g.lineIdx (g.setIdx addr) way) = true ∧
        arr.lineAddr g (g.lineIdx (g.setIdx addr) way) = g.lineAddr addr := by
  unfold wayHit
  rw [Bool.and_eq_true, beq_iff_eq, lineAddr_lineIdx hway, ← g.joinTag_tag_setIdx addr]
  constructor
  · rintro ⟨hvalid, htag⟩
    exact ⟨hvalid, by rw [htag]⟩
  · rintro ⟨hvalid, haddr⟩
    exact ⟨hvalid, (g.joinTag_inj (g.setIdx_lt addr) (g.setIdx_lt addr) haddr).left⟩

/--
A valid line with the line address of a request sits in the set of the request.
-/
theorem setOf_of_lineAddr {line addr : Nat} (hline : line < g.numLines)
    (haddr : arr.lineAddr g line = g.lineAddr addr) :
    g.setOf line = g.setIdx addr := by
  rw [← g.joinTag_tag_setIdx addr] at haddr
  exact (g.joinTag_inj (g.setOf_lt hline) (g.setIdx_lt addr) haddr).right

theorem hitMain_of_valid (h : arr.WellFormed g) {line addr : Nat}
    (hvalid : arr.valid line = true) (haddr : arr.lineAddr g line = g.lineAddr addr) :
    arr.hitMain g addr = true := by
  have hline := h.inRange hvalid
  have hidx : g.lineIdx (g.setIdx addr) (g.wayOf line) = line := by
    rw [← setOf_of_lineAddr hline haddr, g.lineIdx_setOf_wayOf]
  apply anyUpTo_iff.mpr
  refine ⟨g.wayOf line, g.wayOf_lt line, (wayHit_iff (g.wayOf_lt line)).mpr ?_⟩
  rw [hidx]
  exact ⟨hvalid, haddr⟩

theorem hitMain_congr {arr' : LineArray} (hvalid : arr'.valid = arr.valid)
    (htag : arr'.tag = arr.tag) (addr : Nat) :
    arr'.hitMain g addr = arr.hitMain g addr := by
  unfold hitMain wayHit
  rw [hvalid, htag]

theorem not_held_of_miss (h : arr.WellFormed g) {line addr : Nat}
    (hmiss : arr.hitMain g addr = false) (hvalid : arr.valid line = true) :
    arr.lineAddr g line ≠ g.lineAddr addr := by
  intro haddr
  have hhit := hitMain_of_valid h hvalid haddr
  rw [hmiss] at hhit
  cases hhit

/--
On a hit the or chains deliver the index and the word of the one line that holds
the address.
-/
theorem hit_selects (h : arr.WellFormed g) {addr : Nat}
    (hhit : arr.hitMain g addr = true) :
    arr.valid (arr.hitLineIdx g addr) = true ∧
      arr.lineAddr g (arr.hitLineIdx g addr) = g.lineAddr addr ∧
      arr.hitData g addr = arr.data (arr.hitLineIdx g addr, g.wordOff addr) := by
  rcases anyUpTo_iff.mp hhit with ⟨way, hway, hwayHit⟩
  have hfacts := (wayHit_iff hway).mp hwayHit
  have honly : forall j, j < g.ways -> arr.wayHit g addr j = true -> j = way := by
    intro j hj hjHit
    have hjFacts := (wayHit_iff hj).mp hjHit
    have heq := h.distinct hjFacts.left hfacts.left
      (hjFacts.right.trans hfacts.right.symm)
    have hways := congrArg g.wayOf heq
    rwa [g.wayOf_lineIdx hj, g.wayOf_lineIdx hway] at hways
  have hidx : arr.hitLineIdx g addr = g.lineIdx (g.setIdx addr) way :=
    orNat_of_unique hway hwayHit honly
  have hdata : arr.hitData g addr
      = arr.data (g.lineIdx (g.setIdx addr) way, g.wordOff addr) :=
    orBits_of_unique hway hwayHit honly
  rw [hidx]
  exact ⟨hfacts.left, hfacts.right, hdata⟩

theorem victimTargetWay_lt (h : arr.WellFormed g) (set : Nat) :
    arr.victimTargetWay g set < g.ways := by
  unfold victimTargetWay
  split
  · exact orNat_lt_two_pow (fun k hk => hk)
  · exact h.pointer set

theorem nextVictim_lt {way : Nat} (hway : way < g.ways) : nextVictim g way < g.ways := by
  unfold nextVictim
  split <;> omega

theorem victimLine_lt (h : arr.WellFormed g) (addr : Nat) :
    arr.victimLine g addr < g.numLines :=
  g.lineIdx_lt (g.setIdx_lt addr) (victimTargetWay_lt h _)

theorem setOf_victimLine (h : arr.WellFormed g) (addr : Nat) :
    g.setOf (arr.victimLine g addr) = g.setIdx addr :=
  g.setOf_lineIdx (victimTargetWay_lt h _)

theorem concatTag_setOf (hsets : 1 <= g.setBits) (line : Nat) :
    g.concatTag (arr.tag line) (g.setOf line) = arr.lineAddr g line :=
  g.concatTag_eq hsets _ _

theorem concatTag_victimLine (h : arr.WellFormed g) (hsets : 1 <= g.setBits) (addr : Nat) :
    g.concatTag (arr.tag (arr.victimLine g addr)) (g.setIdx addr)
      = arr.lineAddr g (arr.victimLine g addr) := by
  rw [← setOf_victimLine h addr]
  exact concatTag_setOf hsets _

theorem lineData_write {line w : Nat} {word : Word} (hw : w < g.lineWords) :
    LineArray.lineData g { arr with data := setAt arr.data (line, w) word } line
      = setAt (arr.lineData g line) ⟨w, hw⟩ word := by
  funext k
  show setAt arr.data (line, w) word (line, k) = _
  rw [setAt_apply, setAt_apply]
  simp only [Prod.mk.injEq, true_and, Fin.ext_iff]
  rfl

/-!
# Copies in an array

A valid line is a copy, except the one line that is being replaced.
-/

def copyAt (g : Geometry) (arr : LineArray) (dead : Option Nat) (line : Nat) :
    Option (Copy Nat (Fin g.lineWords -> Word)) :=
  if arr.valid line = true ∧ dead ≠ some line then
    some
      { addr := arr.lineAddr g line
        dirty := arr.dirty line
        data := arr.lineData g line }
  else none

theorem copyAt_eq_some {dead : Option Nat} {line : Nat}
    {c : Copy Nat (Fin g.lineWords -> Word)} :
    arr.copyAt g dead line = some c <->
      arr.valid line = true ∧ dead ≠ some line ∧
        c = { addr := arr.lineAddr g line
              dirty := arr.dirty line
              data := arr.lineData g line } := by
  unfold copyAt
  split
  · next h =>
      rw [Option.some.injEq]
      constructor
      · intro hc
        exact ⟨h.left, h.right, hc.symm⟩
      · intro hc
        exact hc.right.right.symm
  · next h =>
      constructor
      · intro hc
        cases hc
      · intro hc
        exact absurd ⟨hc.left, hc.right.left⟩ h

theorem copyAt_live {dead : Option Nat} {line : Nat} (hvalid : arr.valid line = true)
    (hlive : dead ≠ some line) :
    arr.copyAt g dead line = some
      { addr := arr.lineAddr g line
        dirty := arr.dirty line
        data := arr.lineData g line } :=
  copyAt_eq_some.mpr ⟨hvalid, hlive, rfl⟩

theorem copyAt_dead (line : Nat) : arr.copyAt g (some line) line = none := by
  unfold copyAt
  rw [if_neg]
  intro h
  exact h.right rfl

theorem copyAt_invalid {dead : Option Nat} {line : Nat} (hvalid : arr.valid line = false) :
    arr.copyAt g dead line = none := by
  unfold copyAt
  rw [if_neg]
  intro h
  rw [hvalid] at h
  cases h.left

/--
A line whose four fields did not change holds the same copy.
-/
theorem copyAt_congr {arr' : LineArray} {dead dead' : Option Nat} {line : Nat}
    (hvalid : arr'.valid line = arr.valid line) (htag : arr'.tag line = arr.tag line)
    (hdirty : arr'.dirty line = arr.dirty line)
    (hdata : forall w, w < g.lineWords -> arr'.data (line, w) = arr.data (line, w))
    (hdead : dead' = some line <-> dead = some line) :
    arr'.copyAt g dead' line = arr.copyAt g dead line := by
  have hline : arr'.lineData g line = arr.lineData g line := by
    funext w
    exact hdata w w.isLt
  have haddr : arr'.lineAddr g line = arr.lineAddr g line := by
    unfold lineAddr
    rw [htag]
  unfold copyAt
  rw [hvalid, hdirty, hline, haddr]
  simp only [ne_eq, hdead]

end LineArray
end Cache
end RvCores
