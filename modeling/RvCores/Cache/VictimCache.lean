import RvCores.Cache.LineArray

/-!
# The victim buffer

A small fully associative buffer of lines that left the main array.  A hit swaps
the line with the one that leaves the main array; an insert replaces the oldest
entry, which is put out for the cache to write back.
-/

namespace RvCores
namespace Cache

open Isa Lib

structure VictimEntry where
  valid : Bool
  tag : Nat
  dirty : Bool
  data : Nat -> Word

structure VictimCache where
  entry : Nat -> VictimEntry
  fifoNext : Nat

/--
The line that leaves the main array, on the swap and insert ports alike.
-/
structure OutgoingLine where
  tag : Nat
  dirty : Bool
  data : Nat -> Word

namespace VictimCache

variable (n : Nat) (vc : VictimCache)

def vcHit (lookupTag e : Nat) : Bool :=
  (vc.entry e).valid && (vc.entry e).tag == lookupTag

def lookupHit (lookupTag : Nat) : Bool := anyUpTo n (vc.vcHit lookupTag)

def lookupData (lookupTag w : Nat) : Word :=
  orBits (vc.vcHit lookupTag) (fun e => (vc.entry e).data w) n

def lookupDirty (lookupTag : Nat) : Bool :=
  anyUpTo n (fun e => vc.vcHit lookupTag e && (vc.entry e).dirty)

def hitWay (lookupTag : Nat) : Nat := orNat (vc.vcHit lookupTag) (fun e => e) n

def evictOut : VictimEntry := vc.entry vc.fifoNext

def nextFifo : Nat := if vc.fifoNext = n - 1 then 0 else vc.fifoNext + 1

def swapIn (line : OutgoingLine) (e : VictimEntry) : VictimEntry :=
  { e with tag := line.tag, dirty := line.dirty, data := line.data }

def insertIn (line : OutgoingLine) (e : VictimEntry) : VictimEntry :=
  { e with valid := true, tag := line.tag, dirty := line.dirty, data := line.data }

def step (lookupTag : Nat) (doSwap doInsert : Bool) (line : OutgoingLine) : VictimCache :=
  let swapped :=
    if doSwap then modifyAt vc.entry (vc.hitWay n lookupTag) (swapIn line) else vc.entry
  { entry := if doInsert then modifyAt swapped vc.fifoNext (insertIn line) else swapped
    fifoNext := if doInsert then vc.nextFifo n else vc.fifoNext }

structure IsReset : Prop where
  valid : forall e, (vc.entry e).valid = false
  fifoNext : vc.fifoNext = 0

variable {n vc}

theorem vcHit_iff {lookupTag e : Nat} :
    vc.vcHit lookupTag e = true <->
      (vc.entry e).valid = true ∧ (vc.entry e).tag = lookupTag := by
  unfold vcHit
  rw [Bool.and_eq_true, beq_iff_eq]

theorem not_held_of_miss {lookupTag e : Nat} (hmiss : vc.lookupHit n lookupTag = false)
    (he : e < n) (hvalid : (vc.entry e).valid = true) :
    (vc.entry e).tag ≠ lookupTag := by
  intro htag
  have hnone := anyUpTo_eq_false.mp hmiss e he
  rw [vcHit_iff.mpr ⟨hvalid, htag⟩] at hnone
  cases hnone

/--
When no two entries have the tag of the lookup, the or chains deliver the one
entry that has it.
-/
theorem lookup_selects {lookupTag : Nat} (hhit : vc.lookupHit n lookupTag = true)
    (honly : forall e e', e < n -> e' < n -> (vc.entry e).valid = true ->
      (vc.entry e').valid = true -> (vc.entry e).tag = lookupTag ->
      (vc.entry e').tag = lookupTag -> e = e') :
    exists e, e < n ∧ (vc.entry e).valid = true ∧ (vc.entry e).tag = lookupTag ∧
      vc.hitWay n lookupTag = e ∧ vc.lookupDirty n lookupTag = (vc.entry e).dirty ∧
      forall w, vc.lookupData n lookupTag w = (vc.entry e).data w := by
  rcases anyUpTo_iff.mp hhit with ⟨e, he, heHit⟩
  have hfacts := vcHit_iff.mp heHit
  have hunique : forall j, j < n -> vc.vcHit lookupTag j = true -> j = e := by
    intro j hj hjHit
    have hjFacts := vcHit_iff.mp hjHit
    exact honly j e hj he hjFacts.left hfacts.left hjFacts.right hfacts.right
  refine ⟨e, he, hfacts.left, hfacts.right, orNat_of_unique he heHit hunique, ?_, ?_⟩
  · cases hdirty : (vc.entry e).dirty with
    | true =>
        apply anyUpTo_iff.mpr
        exact ⟨e, he, by rw [heHit, hdirty]; rfl⟩
    | false =>
        apply anyUpTo_eq_false.mpr
        intro j hj
        cases hjHit : vc.vcHit lookupTag j with
        | false => rfl
        | true =>
            rw [hunique j hj hjHit, hdirty]
            rfl
  · intro w
    exact orBits_of_unique he heHit hunique

theorem nextFifo_lt (h : vc.fifoNext < n) : vc.nextFifo n < n := by
  unfold nextFifo
  split <;> omega

end VictimCache
end Cache
end RvCores
