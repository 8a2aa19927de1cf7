import RvCores.Block.Divider
import RvCores.Block.Float
import RvCores.Lib.Sequencer

/-!
# The arithmetic units as sequencers

The integer divider, the floating-point divider and the square root follow one
protocol, and so each has a result for every operand pair.
-/

namespace RvCores
namespace Block

open Lib

/-!
# Integer division
-/

namespace Divider

variable {w : Nat}

def fresh (w : Nat) : Divider w :=
  { busy := false, done := false, quotient := 0, remainder := 0, r := 0, q := 0, d := 0
    count := 0, negQuotient := false, negRemainder := false }

def sequencer (w : Nat) : Sequencer (Divider w) (DividerIn w) Unit (BitVec w × BitVec w) where
  fresh := fresh w
  busy := Divider.busy
  done := Divider.done
  start := DividerIn.start
  key := fun _ => ()
  begin := begin
  iterate := fun u _ => u.iterate
  rest := fun u => { u with done := false }
  output := fun u => (u.quotient, u.remainder)
  core := fun u => { u with quotient := 0, remainder := 0, done := false }
  count := Divider.count
  last := w - 1
  limit := w + 1

theorem step_eq (u : Divider w) (i : DividerIn w) : u.step i = (sequencer w).step u i := rfl

theorem count_iterate {u : Divider w} : u.iterate.count = u.count + 1 := rfl

theorem iterate_busy {u : Divider w} (hbusy : u.busy = true) :
    u.iterate.busy = !decide (u.count = w - 1) := by
  by_cases hlast : u.count = w - 1 <;> simp [iterate, hlast, hbusy]

theorem agree_begin {u v : Divider w} (i : DividerIn w) (hu : u.busy = false)
    (hv : v.busy = false) :
    (sequencer w).Agree (u.begin i) (v.begin i) := by
  unfold begin
  split
  · exact ⟨hu.trans hv.symm, fun _ => rfl, fun h => absurd (hu.symm.trans h) (by simp)⟩
  · split
    · exact ⟨hu.trans hv.symm, fun _ => rfl,
        fun h => absurd (hu.symm.trans h) (by simp)⟩
    · exact ⟨rfl, fun h => (by cases h), fun _ => rfl⟩

theorem agree_iterate {u v : Divider w} (h : (sequencer w).Agree u v) (hbusy : u.busy = true) :
    (sequencer w).Agree u.iterate v.iterate := by
  obtain ⟨_, _, hworking⟩ := h
  have hsame := hworking hbusy
  cases u
  cases v
  simp only [sequencer, Divider.mk.injEq] at hsame
  obtain ⟨rfl, -, -, -, rfl, rfl, rfl, rfl, rfl, rfl⟩ := hsame
  constructor
  · rfl
  · intro hidle
    simp only [sequencer, iterate] at hidle ⊢
    split at hidle
    · simp_all
    · simp_all
  · intro _
    rfl

theorem sequencer_lawful (w : Nat) : (sequencer w).Lawful where
  fresh_idle := rfl
  rest_busy := fun _ => rfl
  rest_done := fun _ => rfl
  agree_begin := agree_begin
  agree_iterate := fun _ => agree_iterate
  begin_active := by
    intro u i hidle
    simp only [sequencer, begin] at hidle ⊢
    split
    · simp [hidle]
    · split <;> simp [hidle]
  iterate_active := by
    intro u k hbusy
    simp only [sequencer] at hbusy ⊢
    rw [iterate_busy hbusy]
    simp [iterate]
  begin_count := by
    intro i hbusy
    simp only [sequencer, begin] at hbusy ⊢
    split at hbusy
    · cases hbusy
    · split at hbusy
      · cases hbusy
      · simp_all
  iterate_count := fun _ _ => rfl
  iterate_busy := fun _ _ => iterate_busy
  last_lt := by
    show w - 1 < w + 1
    omega

end Divider

/-!
# Floating-point division
-/

namespace FDivider

def fresh : FDivider :=
  { busy := false, done := false, result := 0, flags := {}, r := 0, q := 0, d := 0
    count := 0, resultSign := false, expA := 0, expB := 0 }

def sequencer : Sequencer FDivider FDividerIn (BitVec 3) FpOut where
  fresh := fresh
  busy := FDivider.busy
  done := FDivider.done
  start := FDividerIn.start
  key := FDividerIn.rm
  begin := begin
  iterate := iterate
  rest := fun u => { u with done := false }
  output := fun u => { result := u.result, flags := u.flags }
  core := fun u => { u with result := 0, done := false }
  count := FDivider.count
  last := 50
  limit := 51

theorem step_eq (u : FDivider) (i : FDividerIn) : u.step i = sequencer.step u i := rfl

theorem count_iterate {u : FDivider} {k : BitVec 3} : (u.iterate k).count = u.count + 1 := rfl

theorem iterate_busy {u : FDivider} (k : BitVec 3) (hbusy : u.busy = true) :
    (u.iterate k).busy = !decide (u.count = 50) := by
  by_cases hlast : u.count = 50 <;> simp [iterate, hlast, hbusy]

theorem agree_begin {u v : FDivider} (i : FDividerIn) (hu : u.busy = false)
    (hv : v.busy = false) :
    sequencer.Agree (u.begin i) (v.begin i) := by
  unfold begin
  split
  · exact ⟨hu.trans hv.symm, fun _ => rfl, fun h => absurd (hu.symm.trans h) (by simp)⟩
  · exact ⟨rfl, fun h => (by cases h), fun _ => rfl⟩

theorem agree_iterate {u v : FDivider} (k : BitVec 3) (h : sequencer.Agree u v)
    (hbusy : u.busy = true) :
    sequencer.Agree (u.iterate k) (v.iterate k) := by
  obtain ⟨_, _, hworking⟩ := h
  have hsame := hworking hbusy
  cases u
  cases v
  simp only [sequencer, FDivider.mk.injEq] at hsame
  obtain ⟨rfl, -, -, rfl, rfl, rfl, rfl, rfl, rfl, rfl, rfl⟩ := hsame
  constructor
  · rfl
  · intro hidle
    simp only [sequencer, iterate] at hidle ⊢
    split at hidle
    · simp_all [packQuotient]
    · simp_all
  · intro _
    rfl

theorem sequencer_lawful : sequencer.Lawful where
  fresh_idle := rfl
  rest_busy := fun _ => rfl
  rest_done := fun _ => rfl
  agree_begin := agree_begin
  agree_iterate := agree_iterate
  begin_active := by
    intro u i hidle
    simp only [sequencer, begin] at hidle ⊢
    split <;> simp [hidle]
  iterate_active := by
    intro u k hbusy
    simp only [sequencer] at hbusy ⊢
    rw [iterate_busy k hbusy]
    simp [iterate]
  begin_count := by
    intro i hbusy
    simp only [sequencer, begin] at hbusy ⊢
    split at hbusy
    · cases hbusy
    · simp_all
  iterate_count := fun _ _ => rfl
  iterate_busy := fun _ k => iterate_busy k
  last_lt := by decide

end FDivider

/-!
# Square root
-/

namespace FSqrt

def fresh : FSqrt :=
  { busy := false, done := false, result := 0, flags := {}, rad := 0, r := 0, qRoot := 0
    count := 0, resultExp := 0 }

def sequencer : Sequencer FSqrt FSqrtIn (BitVec 3) FpOut where
  fresh := fresh
  busy := FSqrt.busy
  done := FSqrt.done
  start := FSqrtIn.start
  key := FSqrtIn.rm
  begin := begin
  iterate := iterate
  rest := fun u => { u with done := false }
  output := fun u => { result := u.result, flags := u.flags }
  core := fun u => { u with result := 0, done := false }
  count := FSqrt.count
  last := 25
  limit := 26

theorem step_eq (u : FSqrt) (i : FSqrtIn) : u.step i = sequencer.step u i := rfl

theorem count_iterate {u : FSqrt} {k : BitVec 3} : (u.iterate k).count = u.count + 1 := rfl

theorem iterate_busy {u : FSqrt} (k : BitVec 3) (hbusy : u.busy = true) :
    (u.iterate k).busy = !decide (u.count = 25) := by
  by_cases hlast : u.count = 25 <;> simp [iterate, hlast, hbusy]

theorem agree_begin {u v : FSqrt} (i : FSqrtIn) (hu : u.busy = false) (hv : v.busy = false) :
    sequencer.Agree (u.begin i) (v.begin i) := by
  unfold begin
  split
  · exact ⟨hu.trans hv.symm, fun _ => rfl, fun h => absurd (hu.symm.trans h) (by simp)⟩
  · exact ⟨rfl, fun h => (by cases h), fun _ => rfl⟩

theorem agree_iterate {u v : FSqrt} (k : BitVec 3) (h : sequencer.Agree u v)
    (hbusy : u.busy = true) :
    sequencer.Agree (u.iterate k) (v.iterate k) := by
  obtain ⟨_, _, hworking⟩ := h
  have hsame := hworking hbusy
  cases u
  cases v
  simp only [sequencer, FSqrt.mk.injEq] at hsame
  obtain ⟨rfl, -, -, rfl, rfl, rfl, rfl, rfl, rfl⟩ := hsame
  constructor
  · rfl
  · intro hidle
    simp only [sequencer, iterate] at hidle ⊢
    split at hidle
    · simp_all
    · simp_all
  · intro _
    rfl

theorem sequencer_lawful : sequencer.Lawful where
  fresh_idle := rfl
  rest_busy := fun _ => rfl
  rest_done := fun _ => rfl
  agree_begin := agree_begin
  agree_iterate := agree_iterate
  begin_active := by
    intro u i hidle
    simp only [sequencer, begin] at hidle ⊢
    split <;> simp [hidle]
  iterate_active := by
    intro u k hbusy
    simp only [sequencer] at hbusy ⊢
    rw [iterate_busy k hbusy]
    simp [iterate]
  begin_count := by
    intro i hbusy
    simp only [sequencer, begin] at hbusy ⊢
    split at hbusy
    · cases hbusy
    · simp_all
  iterate_count := fun _ _ => rfl
  iterate_busy := fun _ k => iterate_busy k
  last_lt := by decide

end FSqrt
end Block
end RvCores
