import RvCores.Lib.Ring

/-!
# Free list of physical registers

The free list is a circular queue of physical register numbers.  Up to two
registers are granted combinationally from the head, up to two are popped when
the dispatch bundle really goes, and up to two released registers are pushed
behind the tail when their instructions retire.
-/

namespace RvCores
namespace Ooo

open Lib

structure FreeList where
  queue : Nat -> Nat
  count : Nat
  head : Nat
  tail : Nat

structure FreeListIn where
  commitEn0 : Bool
  commitEn1 : Bool
  freeEn0 : Bool
  freePreg0 : Nat
  freeEn1 : Bool
  freePreg1 : Nat

namespace FreeListIn

def popCount (i : FreeListIn) : Nat :=
  i.commitEn0.toNat + i.commitEn1.toNat

def pushCount (i : FreeListIn) : Nat :=
  i.freeEn0.toNat + i.freeEn1.toNat

def pushed (i : FreeListIn) : List Nat :=
  (if i.freeEn0 then [i.freePreg0] else []) ++
    (if i.freeEn1 then [i.freePreg1] else [])

theorem pushed_length (i : FreeListIn) :
    i.pushed.length = i.pushCount := by
  cases h0 : i.freeEn0 <;> cases h1 : i.freeEn1 <;>
    simp [pushed, pushCount, h0, h1]

end FreeListIn

namespace FreeList

def allocOk0 (fl : FreeList) (allocEn0 : Bool) : Bool :=
  allocEn0 && decide (fl.count >= 1)

def allocOk1 (fl : FreeList) (allocEn0 allocEn1 : Bool) : Bool :=
  allocEn1 && decide (fl.count >= if fl.allocOk0 allocEn0 then 2 else 1)

def allocPreg0 (fl : FreeList) : Nat :=
  fl.queue fl.head

def allocPreg1 (cap : Nat) (fl : FreeList) (allocEn0 : Bool) : Nat :=
  fl.queue (wrapAdd cap fl.head (fl.allocOk0 allocEn0).toNat)

def reset (numAregs cap : Nat) (fl : FreeList) : FreeList :=
  { queue := fun i => if i < cap then numAregs + i else fl.queue i
    count := cap
    head := 0
    tail := 0 }

/--
The head only moves when slot 0 commits, although the count goes down by
the number of slots that commit.
-/
def step (cap : Nat) (fl : FreeList) (i : FreeListIn) : FreeList :=
  let queue0 :=
    if i.freeEn0 then setAt fl.queue fl.tail i.freePreg0 else fl.queue
  { queue :=
      if i.freeEn1 then
        setAt queue0 (wrapAdd cap fl.tail i.freeEn0.toNat) i.freePreg1
      else queue0
    count := fl.count - i.popCount + i.pushCount
    head := if i.commitEn0 then wrapAdd cap fl.head i.popCount else fl.head
    tail := if i.pushCount != 0 then wrapAdd cap fl.tail i.pushCount else fl.tail }

/-!
# The queue as a list
-/

structure WellFormed (cap : Nat) (fl : FreeList) : Prop where
  head_lt : fl.head < cap
  count_le : fl.count <= cap
  tail_eq : fl.tail = wrapAdd cap fl.head fl.count

def free (cap : Nat) (fl : FreeList) : List Nat :=
  window cap fl.queue fl.head fl.count

@[simp] theorem free_length (cap : Nat) (fl : FreeList) :
    (fl.free cap).length = fl.count :=
  window_length cap fl.queue fl.head fl.count

def pop (cap k : Nat) (fl : FreeList) : FreeList :=
  { fl with count := fl.count - k, head := wrapAdd cap fl.head k }

def push (cap : Nat) (fl : FreeList) (p : Nat) : FreeList :=
  { fl with
    queue := setAt fl.queue fl.tail p
    count := fl.count + 1
    tail := wrapAdd cap fl.tail 1 }

theorem pop_wellFormed {cap k : Nat} {fl : FreeList}
    (hwf : WellFormed cap fl) (hk : k <= fl.count) :
    WellFormed cap (fl.pop cap k) := by
  have hcount := hwf.count_le
  constructor
  · exact wrapAdd_lt hwf.head_lt (by omega)
  · change fl.count - k <= cap
    omega
  · change fl.tail = wrapAdd cap (wrapAdd cap fl.head k) (fl.count - k)
    rw [wrapAdd_wrapAdd hwf.head_lt (by omega), hwf.tail_eq]
    congr 1
    omega

theorem pop_free_one {cap : Nat} {fl : FreeList} (hcount : 0 < fl.count) :
    fl.free cap = fl.allocPreg0 :: (fl.pop cap 1).free cap :=
  window_drop_one hcount

theorem pop_pop {cap j k : Nat} {fl : FreeList} (hwf : WellFormed cap fl)
    (hk : j + k <= fl.count) :
    (fl.pop cap j).pop cap k = fl.pop cap (j + k) := by
  have hcount := hwf.count_le
  simp only [pop, FreeList.mk.injEq, true_and, and_true]
  constructor
  · omega
  · exact wrapAdd_wrapAdd hwf.head_lt (by omega)

theorem pop_zero {cap : Nat} {fl : FreeList} (hwf : WellFormed cap fl) :
    fl.pop cap 0 = fl := by
  simp [pop, wrapAdd_zero hwf.head_lt]

theorem push_wellFormed {cap p : Nat} {fl : FreeList}
    (hwf : WellFormed cap fl) (hroom : fl.count < cap) :
    WellFormed cap (fl.push cap p) := by
  constructor
  · exact hwf.head_lt
  · change fl.count + 1 <= cap
    omega
  · change wrapAdd cap fl.tail 1 = wrapAdd cap fl.head (fl.count + 1)
    rw [hwf.tail_eq, wrapAdd_wrapAdd hwf.head_lt (by omega)]

theorem push_free {cap p : Nat} {fl : FreeList}
    (hwf : WellFormed cap fl) (hroom : fl.count < cap) :
    (fl.push cap p).free cap = fl.free cap ++ [p] := by
  change window cap (setAt fl.queue fl.tail p) fl.head (fl.count + 1) = _
  rw [hwf.tail_eq]
  exact window_push hwf.head_lt hroom

/-!
# One clock edge

When slot 1 never commits without slot 0, an edge is a pop of the granted
registers followed by the pushes of the released ones.
-/

theorem foldl_push_spec {cap : Nat} {fl : FreeList} {ps : List Nat}
    (hwf : WellFormed cap fl) (hroom : fl.count + ps.length <= cap) :
    WellFormed cap (ps.foldl (push cap) fl) ∧
      (ps.foldl (push cap) fl).free cap = fl.free cap ++ ps := by
  induction ps generalizing fl with
  | nil =>
      exact ⟨hwf, (List.append_nil _).symm⟩
  | cons p ps ih =>
      have hlen : fl.count + (ps.length + 1) <= cap := hroom
      have hnext : (fl.push cap p).count + ps.length <= cap := by
        change fl.count + 1 + ps.length <= cap
        omega
      rcases ih (push_wellFormed hwf (by omega)) hnext with ⟨hwf', hfree⟩
      refine ⟨hwf', ?_⟩
      rw [List.foldl_cons, hfree, push_free hwf (by omega), List.append_assoc]
      rfl

theorem step_eq_pop_push {cap : Nat} {fl : FreeList} {i : FreeListIn}
    (hwf : WellFormed cap fl) (horder : i.commitEn1 = true -> i.commitEn0 = true)
    (hpop : i.popCount <= fl.count)
    (hroom : fl.count - i.popCount + i.pushCount <= cap) :
    fl.step cap i = i.pushed.foldl (push cap) (fl.pop cap i.popCount) := by
  have htail : fl.tail < cap := by
    rw [hwf.tail_eq]
    exact wrapAdd_lt hwf.head_lt hwf.count_le
  have hhead : (if i.commitEn0 then wrapAdd cap fl.head i.popCount else fl.head) =
      wrapAdd cap fl.head i.popCount := by
    cases h0 : i.commitEn0 with
    | true => rfl
    | false =>
        have h1 : i.commitEn1 = false := by
          cases h : i.commitEn1 with
          | false => rfl
          | true => exact absurd (horder h) (by simp [h0])
        simp [FreeListIn.popCount, h0, h1, wrapAdd_zero hwf.head_lt]
  rcases i with ⟨c0, c1, f0, p0, f1, p1⟩
  -- One case for each combination of released slots.
  cases f0 <;> cases f1
  case true.true =>
    have hwrap : wrapAdd cap (wrapAdd cap fl.tail 1) 1 = wrapAdd cap fl.tail 2 :=
      wrapAdd_wrapAdd htail (by simp [FreeListIn.pushCount] at hroom; omega)
    simpa [step, FreeListIn.pushed, FreeListIn.pushCount, push, pop, hwrap] using hhead
  all_goals
    simpa [step, FreeListIn.pushed, FreeListIn.pushCount, push, pop,
      wrapAdd_zero htail] using hhead

theorem step_spec {cap : Nat} {fl : FreeList} {i : FreeListIn}
    (hwf : WellFormed cap fl) (horder : i.commitEn1 = true -> i.commitEn0 = true)
    (hpop : i.popCount <= fl.count)
    (hroom : fl.count - i.popCount + i.pushCount <= cap) :
    WellFormed cap (fl.step cap i) ∧
      (fl.step cap i).free cap = (fl.pop cap i.popCount).free cap ++ i.pushed := by
  rw [step_eq_pop_push hwf horder hpop hroom]
  apply foldl_push_spec (pop_wellFormed hwf hpop)
  rw [i.pushed_length]
  exact hroom

theorem reset_wellFormed {numAregs cap : Nat} (hcap : 0 < cap) (fl : FreeList) :
    WellFormed cap (fl.reset numAregs cap) := by
  constructor
  · exact hcap
  · exact Nat.le_refl cap
  · simp [reset, wrapAdd]

theorem reset_free {numAregs cap : Nat} (fl : FreeList) :
    (fl.reset numAregs cap).free cap = (List.range cap).map (numAregs + ·) := by
  have hprefix : forall k, k <= cap ->
      window cap (fl.reset numAregs cap).queue 0 k =
        (List.range k).map (numAregs + ·) := by
    intro k
    induction k with
    | zero =>
        intro _
        rfl
    | succ k ih =>
        intro hk
        have hidx : wrapAdd cap 0 k = k := by
          unfold wrapAdd
          split <;> omega
        rw [window_snoc (by omega) (by omega), ih (by omega), hidx,
          List.range_succ, List.map_append]
        have hlt : k < cap := by omega
        simp [reset, hlt]
  exact hprefix cap (Nat.le_refl cap)

end FreeList
end Ooo
end RvCores
