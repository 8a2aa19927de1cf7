import RvCores.Lib.Table
import Mathlib.Data.List.Basic

/-!
# Circular windows

Queues in hardware are usually a memory, a head index and a count.  This module
gives such a triple its meaning as a list, the window of the memory that starts
at the head and wraps around at the capacity, and describes what a pop at the
head and a write behind the tail do to that list.
-/

namespace RvCores
namespace Lib

variable {alpha : Type}

/-!
# Wrapping index arithmetic

One conditional subtraction is enough as long as the base is an index and the
amount does not exceed the capacity.
-/

def wrapAdd (cap base amount : Nat) : Nat :=
  if cap <= base + amount then base + amount - cap else base + amount

theorem wrapAdd_zero {cap base : Nat} (hbase : base < cap) :
    wrapAdd cap base 0 = base := by
  unfold wrapAdd
  split <;> omega

theorem wrapAdd_lt {cap base amount : Nat} (hbase : base < cap)
    (hamount : amount <= cap) :
    wrapAdd cap base amount < cap := by
  unfold wrapAdd
  split <;> omega

theorem wrapAdd_wrapAdd {cap base a b : Nat} (hbase : base < cap)
    (hab : a + b <= cap) :
    wrapAdd cap (wrapAdd cap base a) b = wrapAdd cap base (a + b) := by
  unfold wrapAdd
  split <;> split <;> split <;> omega

theorem wrapAdd_injective {cap base a b : Nat}
    (ha : a < cap) (hb : b < cap)
    (h : wrapAdd cap base a = wrapAdd cap base b) :
    a = b := by
  unfold wrapAdd at h
  split at h <;> split at h <;> omega

/-!
# Window indices
-/

def InWindow (cap head count idx : Nat) : Prop :=
  exists k, k < count ∧ idx = wrapAdd cap head k

theorem not_inWindow_zero (cap head idx : Nat) :
    ¬ InWindow cap head 0 idx := by
  rintro ⟨k, hk, _⟩
  omega

theorem inWindow_head {cap head count : Nat} (hhead : head < cap)
    (hcount : 0 < count) :
    InWindow cap head count head :=
  ⟨0, hcount, (wrapAdd_zero hhead).symm⟩

theorem inWindow_lt {cap head count idx : Nat} (hhead : head < cap)
    (hcount : count <= cap) (h : InWindow cap head count idx) :
    idx < cap := by
  rcases h with ⟨k, hk, rfl⟩
  exact wrapAdd_lt hhead (by omega)

/--
The slot behind the last element is free as long as the ring is not full.
-/
theorem not_inWindow_tail {cap head count k : Nat} (hk : k < cap)
    (hcount : count <= k) :
    ¬ InWindow cap head count (wrapAdd cap head k) := by
  rintro ⟨j, hj, hidx⟩
  have hkj : k = j := wrapAdd_injective hk (by omega) hidx
  omega

theorem inWindow_wrapAdd {cap head count k idx : Nat} (hhead : head < cap)
    (hcount : count <= cap) (hk : k <= count) :
    InWindow cap (wrapAdd cap head k) (count - k) idx ↔
      exists j, k <= j ∧ j < count ∧ idx = wrapAdd cap head j := by
  constructor
  · rintro ⟨j, hj, hidx⟩
    refine ⟨k + j, by omega, by omega, ?_⟩
    rw [hidx, wrapAdd_wrapAdd hhead (by omega)]
  · rintro ⟨j, hkj, hj, hidx⟩
    refine ⟨j - k, by omega, ?_⟩
    rw [hidx, wrapAdd_wrapAdd hhead (by omega)]
    congr 1
    omega

theorem inWindow_advance {cap head count idx : Nat} (hhead : head < cap)
    (hcount : count + 1 <= cap) :
    InWindow cap head (count + 1) idx ↔
      idx = head ∨ InWindow cap (wrapAdd cap head 1) count idx := by
  constructor
  · rintro ⟨k, hk, hidx⟩
    cases k with
    | zero =>
        exact Or.inl (hidx.trans (wrapAdd_zero hhead))
    | succ k =>
        refine Or.inr ⟨k, by omega, ?_⟩
        rw [hidx, wrapAdd_wrapAdd hhead (by omega), Nat.add_comm 1 k]
  · rintro (hidx | ⟨k, hk, hidx⟩)
    · rw [hidx]
      exact inWindow_head hhead (Nat.succ_pos count)
    · refine ⟨k + 1, by omega, ?_⟩
      rw [hidx, wrapAdd_wrapAdd hhead (by omega), Nat.add_comm 1 k]

theorem not_inWindow_head_of_advance {cap head count : Nat} (hhead : head < cap)
    (hcount : count + 1 <= cap) :
    ¬ InWindow cap (wrapAdd cap head 1) count head := by
  rintro ⟨k, hk, hidx⟩
  rw [wrapAdd_wrapAdd hhead (by omega)] at hidx
  have hzero : wrapAdd cap head 0 = wrapAdd cap head (1 + k) :=
    (wrapAdd_zero hhead).trans hidx
  have hbad : 0 = 1 + k :=
    wrapAdd_injective (by omega) (by omega) hzero
  omega

/-!
# Window contents
-/

def window (cap : Nat) (mem : Nat -> alpha) : Nat -> Nat -> List alpha
  | _, 0 => []
  | head, count + 1 => mem head :: window cap mem (wrapAdd cap head 1) count

@[simp] theorem window_zero (cap : Nat) (mem : Nat -> alpha) (head : Nat) :
    window cap mem head 0 = [] := rfl

theorem window_succ (cap : Nat) (mem : Nat -> alpha) (head count : Nat) :
    window cap mem head (count + 1) =
      mem head :: window cap mem (wrapAdd cap head 1) count := rfl

@[simp] theorem window_length (cap : Nat) (mem : Nat -> alpha) (head count : Nat) :
    (window cap mem head count).length = count := by
  induction count generalizing head with
  | zero => rfl
  | succ count ih => simp [window_succ, ih]

theorem mem_window {cap : Nat} {mem : Nat -> alpha} {head count : Nat} {x : alpha}
    (hhead : head < cap) (hcount : count <= cap) :
    x ∈ window cap mem head count ↔
      exists idx, InWindow cap head count idx ∧ x = mem idx := by
  induction count generalizing head with
  | zero =>
      simp [not_inWindow_zero]
  | succ count ih =>
      have hnext : wrapAdd cap head 1 < cap := wrapAdd_lt hhead (by omega)
      rw [window_succ, List.mem_cons, ih hnext (by omega)]
      constructor
      · rintro (hx | ⟨idx, hidx, hx⟩)
        · exact ⟨head, inWindow_head hhead (Nat.succ_pos count), hx⟩
        · exact ⟨idx, (inWindow_advance hhead hcount).mpr (Or.inr hidx), hx⟩
      · rintro ⟨idx, hidx, hx⟩
        rcases (inWindow_advance hhead hcount).mp hidx with heq | hin
        · exact Or.inl (heq ▸ hx)
        · exact Or.inr ⟨idx, hin, hx⟩

theorem window_congr {cap : Nat} {mem mem' : Nat -> alpha} {head count : Nat}
    (hhead : head < cap) (hcount : count <= cap)
    (h : forall idx, InWindow cap head count idx -> mem idx = mem' idx) :
    window cap mem head count = window cap mem' head count := by
  induction count generalizing head with
  | zero => rfl
  | succ count ih =>
      have hnext : wrapAdd cap head 1 < cap := wrapAdd_lt hhead (by omega)
      have hfirst : mem head = mem' head :=
        h head (inWindow_head hhead (Nat.succ_pos count))
      have hrest : window cap mem (wrapAdd cap head 1) count =
          window cap mem' (wrapAdd cap head 1) count := by
        apply ih hnext (by omega)
        intro idx hidx
        exact h idx ((inWindow_advance hhead hcount).mpr (Or.inr hidx))
      rw [window_succ, window_succ, hfirst, hrest]

theorem window_update_of_not_inWindow {cap : Nat} {mem : Nat -> alpha}
    {head count idx : Nat} {x : alpha} (hhead : head < cap)
    (hcount : count <= cap) (hidx : ¬ InWindow cap head count idx) :
    window cap (setAt mem idx x) head count =
      window cap mem head count := by
  apply window_congr hhead hcount
  intro j hj
  have hne : j ≠ idx := by
    intro heq
    exact hidx (heq ▸ hj)
  exact setAt_of_ne hne

theorem window_snoc {cap : Nat} {mem : Nat -> alpha} {head count : Nat}
    (hhead : head < cap) (hcount : count < cap) :
    window cap mem head (count + 1) =
      window cap mem head count ++ [mem (wrapAdd cap head count)] := by
  induction count generalizing head with
  | zero =>
      simp [window_succ, wrapAdd_zero hhead]
  | succ count ih =>
      have hnext : wrapAdd cap head 1 < cap := wrapAdd_lt hhead (by omega)
      rw [window_succ, ih hnext (by omega),
        wrapAdd_wrapAdd hhead (by omega), Nat.add_comm 1 count]
      rfl

/--
Writing the slot behind the tail and counting it appends one element.
-/
theorem window_push {cap : Nat} {mem : Nat -> alpha} {head count : Nat} {x : alpha}
    (hhead : head < cap) (hcount : count < cap) :
    window cap (setAt mem (wrapAdd cap head count) x) head (count + 1) =
      window cap mem head count ++ [x] := by
  have hfree : ¬ InWindow cap head count (wrapAdd cap head count) :=
    not_inWindow_tail hcount (Nat.le_refl count)
  rw [window_snoc hhead hcount,
    window_update_of_not_inWindow hhead (by omega) hfree,
    setAt_self]

theorem window_map {beta : Type} (cap : Nat) (mem : Nat -> alpha)
    (f : alpha -> beta) (head count : Nat) :
    (window cap mem head count).map f = window cap (fun i => f (mem i)) head count := by
  induction count generalizing head with
  | zero => rfl
  | succ count ih => simp [window_succ, ih]

theorem window_drop_one {cap : Nat} {mem : Nat -> alpha} {head count : Nat}
    (hcount : 0 < count) :
    window cap mem head count =
      mem head :: window cap mem (wrapAdd cap head 1) (count - 1) := by
  cases count with
  | zero => omega
  | succ count => rfl

theorem window_drop {cap : Nat} {mem : Nat -> alpha} {head count k : Nat}
    (hhead : head < cap) (hcount : count <= cap) (hk : k <= count) :
    window cap mem (wrapAdd cap head k) (count - k) =
      (window cap mem head count).drop k := by
  induction k generalizing head count with
  | zero =>
      rw [wrapAdd_zero hhead]
      rfl
  | succ k ih =>
      have hnext : wrapAdd cap head 1 < cap := wrapAdd_lt hhead (by omega)
      have hlen : count - (k + 1) = count - 1 - k := by omega
      have hpos : 0 < count := by omega
      rw [window_drop_one hpos, List.drop_succ_cons,
        <- ih hnext (by omega) (by omega), wrapAdd_wrapAdd hhead (by omega),
        Nat.add_comm 1 k, hlen]

end Lib
end RvCores
