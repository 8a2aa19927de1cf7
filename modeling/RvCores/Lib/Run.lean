import Mathlib.Logic.Relation
import Mathlib.Data.List.Induction

/-!
# Runs of a clocked system

A synchronous circuit is a state type, a type of per-cycle inputs and a step
function.  This module fixes the vocabulary for runs of such a system: states
reached from a start state by cycles that all satisfy a side condition, and the
induction rule that turns a one-cycle fact into a fact about every run.
-/

namespace RvCores
namespace Lib

variable {state input : Type}

/-!
# Guarded cycles

The side condition of a cycle may look at the state before the clock edge and
at the inputs of that cycle.  Taking it to be always true gives plain
reachability.
-/

def CycleWhen (step : state -> input -> state) (cond : state -> input -> Prop)
    (s t : state) : Prop :=
  exists i, cond s i ∧ t = step s i

def ReachableWhen (step : state -> input -> state)
    (cond : state -> input -> Prop) : state -> state -> Prop :=
  Relation.ReflTransGen (CycleWhen step cond)

def Reachable (step : state -> input -> state) : state -> state -> Prop :=
  ReachableWhen step (fun _ _ => True)

def run (step : state -> input -> state) (s : state) (is : List input) : state :=
  is.foldl step s

theorem reachableWhen_refl {step : state -> input -> state}
    {cond : state -> input -> Prop} (s : state) :
    ReachableWhen step cond s s :=
  Relation.ReflTransGen.refl

theorem reachableWhen_tail {step : state -> input -> state}
    {cond : state -> input -> Prop} {s t : state} {i : input}
    (hst : ReachableWhen step cond s t) (hcond : cond t i) :
    ReachableWhen step cond s (step t i) :=
  Relation.ReflTransGen.tail hst ⟨i, hcond, rfl⟩

theorem reachable_run {step : state -> input -> state} (s : state)
    (is : List input) :
    Reachable step s (run step s is) := by
  induction is using List.reverseRecOn with
  | nil =>
      exact reachableWhen_refl s
  | append_singleton is i ih =>
      have hlast : Reachable step s (step (run step s is) i) :=
        reachableWhen_tail ih trivial
      simpa [run, List.foldl_append] using hlast

/-!
# The invariant rule
-/

theorem invariant_of_reachableWhen {step : state -> input -> state}
    {cond : state -> input -> Prop} {Inv : state -> Prop} {s t : state}
    (hinit : Inv s)
    (hstep : forall u i, Inv u -> cond u i -> Inv (step u i))
    (hst : ReachableWhen step cond s t) :
    Inv t := by
  induction hst with
  | refl =>
      exact hinit
  | tail _ hcycle ih =>
      rcases hcycle with ⟨i, hcond, rfl⟩
      exact hstep _ i ih hcond

theorem reachableWhen_mono {step : state -> input -> state}
    {cond weaker : state -> input -> Prop} {s t : state}
    (hweaker : forall u i, cond u i -> weaker u i)
    (hst : ReachableWhen step cond s t) :
    ReachableWhen step weaker s t := by
  induction hst with
  | refl =>
      exact reachableWhen_refl s
  | tail _ hcycle ih =>
      rcases hcycle with ⟨i, hcond, rfl⟩
      exact reachableWhen_tail ih (hweaker _ i hcond)

/-!
# Concrete runs

On given inputs the side condition can be checked cycle by cycle.
-/

def Along (step : state -> input -> state) (cond : state -> input -> Prop) :
    state -> List input -> Prop
  | _, [] => True
  | s, i :: is => cond s i ∧ Along step cond (step s i) is

instance decidableAlong (step : state -> input -> state) (cond : state -> input -> Prop)
    [inst : forall s i, Decidable (cond s i)] :
    forall s is, Decidable (Along step cond s is)
  | _, [] => isTrue trivial
  | s, i :: is =>
      have := decidableAlong step cond (step s i) is
      inferInstanceAs (Decidable (cond s i ∧ Along step cond (step s i) is))

theorem run_append (step : state -> input -> state) (s : state) (is js : List input) :
    run step s (is ++ js) = run step (run step s is) js :=
  List.foldl_append

theorem along_append {step : state -> input -> state} {cond : state -> input -> Prop}
    {s : state} {is js : List input} (his : Along step cond s is)
    (hjs : Along step cond (run step s is) js) :
    Along step cond s (is ++ js) := by
  induction is generalizing s with
  | nil => exact hjs
  | cons i is ih => exact ⟨his.left, ih his.right hjs⟩

theorem along_mono {step : state -> input -> state}
    {cond weaker : state -> input -> Prop} {s : state} {is : List input}
    (hweaker : forall t i, cond t i -> weaker t i) (h : Along step cond s is) :
    Along step weaker s is := by
  induction is generalizing s with
  | nil => trivial
  | cons i is ih => exact ⟨hweaker s i h.left, ih h.right⟩

theorem reachableWhen_run {step : state -> input -> state}
    {cond : state -> input -> Prop} {s : state} {is : List input}
    (h : Along step cond s is) :
    ReachableWhen step cond s (run step s is) := by
  induction is generalizing s with
  | nil => exact reachableWhen_refl s
  | cons i is ih =>
      exact Relation.ReflTransGen.head ⟨i, h.left, rfl⟩ (ih h.right)

/-!
# Endless runs
-/

def IsRun (step : state -> input -> state) (cond : state -> input -> Prop)
    (s : Nat -> state) (i : Nat -> input) : Prop :=
  forall n, cond (s n) (i n) ∧ s (n + 1) = step (s n) (i n)

theorem IsRun.reachableWhen {step : state -> input -> state}
    {cond : state -> input -> Prop} {s : Nat -> state} {i : Nat -> input}
    (h : IsRun step cond s i) (n : Nat) :
    ReachableWhen step cond (s 0) (s n) := by
  induction n with
  | zero => exact reachableWhen_refl (s 0)
  | succ n ih =>
      rw [(h n).right]
      exact reachableWhen_tail ih (h n).left

/--
What every cycle keeps stays once it holds.
-/
theorem IsRun.keeps {step : state -> input -> state} {cond : state -> input -> Prop}
    {s : Nat -> state} {i : Nat -> input} {P : state -> Prop} (h : IsRun step cond s i)
    (hstep : forall u j, P u -> P (step u j)) {m n : Nat} (hle : m <= n) (hm : P (s m)) :
    P (s n) := by
  induction hle with
  | refl => exact hm
  | step _ ih =>
      rw [(h _).right]
      exact hstep _ _ ih

/--
The states under given inputs.
-/
def fed (step : state -> input -> state) (i : Nat -> input) (s : state) : Nat -> state
  | 0 => s
  | n + 1 => step (fed step i s n) (i n)

theorem isRun_fed (step : state -> input -> state) (i : Nat -> input) (s : state) :
    IsRun step (fun _ _ => True) (fed step i s) i :=
  fun _ => ⟨trivial, rfl⟩

/--
The inputs answer to the state.
-/
def driven (step : state -> input -> state) (drive : state -> input) (s : state) : Nat -> state
  | 0 => s
  | n + 1 => step (driven step drive s n) (drive (driven step drive s n))

theorem reachableWhen_driven {step : state -> input -> state}
    {cond : state -> input -> Prop} {drive : state -> input} {s : state} (n : Nat)
    (h : forall k, k < n -> cond (driven step drive s k) (drive (driven step drive s k))) :
    ReachableWhen step cond s (driven step drive s n) := by
  induction n with
  | zero => exact reachableWhen_refl s
  | succ n ih =>
      exact reachableWhen_tail (ih fun k hk => h k (Nat.lt_succ_of_lt hk))
        (h n (Nat.lt_succ_self n))

section

variable {waits stalls : Nat -> Prop} {work : Nat -> Nat}

/--
Waiting ends, or some work is done, by the first cycle that is not stalled.
-/
theorem waits_until_unstalled
    (hwork : forall n, waits n ->
      work (n + 1) < work n ∨ (stalls n ∧ work (n + 1) = work n))
    (d n : Nat) (hfree : ¬ stalls (n + d)) :
    exists m, n <= m ∧ (forall k, n <= k -> k < m -> waits k) ∧
      (¬ waits m ∨ work m < work n) := by
  induction d generalizing n with
  | zero =>
      by_cases hn : waits n
      · rcases hwork n hn with hless | ⟨hstall, _⟩
        · refine ⟨n + 1, Nat.le_succ n, ?_, Or.inr hless⟩
          intro k hk hlt
          have hkn : k = n := by omega
          rw [hkn]
          exact hn
        · exact absurd hstall hfree
      · exact ⟨n, Nat.le_refl n, fun k hk hlt => absurd hk (by omega), Or.inl hn⟩
  | succ d ih =>
      by_cases hn : waits n
      · have hfrom : forall m, n + 1 <= m -> (forall k, n + 1 <= k -> k < m -> waits k) ->
            forall k, n <= k -> k < m -> waits k := by
          intro m _ hall k hk hlt
          rcases Nat.eq_or_lt_of_le hk with heq | hgt
          · rw [← heq]
            exact hn
          · exact hall k hgt hlt
        rcases hwork n hn with hless | ⟨_, hsame⟩
        · exact ⟨n + 1, Nat.le_succ n,
            hfrom (n + 1) (Nat.le_refl _) (fun k hk hlt => absurd hk (by omega)),
            Or.inr hless⟩
        · have hnext : ¬ stalls (n + 1 + d) := by
            rwa [Nat.add_right_comm, Nat.add_assoc]
          obtain ⟨m, hm, hall, hend⟩ := ih (n + 1) hnext
          refine ⟨m, Nat.le_of_succ_le hm, hfrom m hm hall, ?_⟩
          rw [← hsame]
          exact hend
      · exact ⟨n, Nat.le_refl n, fun k hk hlt => absurd hk (by omega), Or.inl hn⟩

/--
A wait ends when every cycle of it does some work or is stalled, and every stall
ends.
-/
theorem waits_end
    (hwork : forall n, waits n ->
      work (n + 1) < work n ∨ (stalls n ∧ work (n + 1) = work n))
    (hfair : forall n, stalls n -> exists m, n <= m ∧ ¬ stalls m) (n : Nat) :
    exists m, n <= m ∧ (forall k, n <= k -> k < m -> waits k) ∧ ¬ waits m := by
  have hfree : forall n, exists d, ¬ stalls (n + d) := by
    intro n
    by_cases hn : stalls n
    · obtain ⟨m, hm, hfree⟩ := hfair n hn
      exact ⟨m - n, by rwa [Nat.add_sub_cancel' hm]⟩
    · exact ⟨0, hn⟩
  -- induction on the work that is left
  induction hw : work n using Nat.strongRecOn generalizing n with
  | ind w ih =>
      obtain ⟨d, hd⟩ := hfree n
      obtain ⟨m, hm, hall, hend | hless⟩ := waits_until_unstalled hwork d n hd
      · exact ⟨m, hm, hall, hend⟩
      · obtain ⟨m', hm', hall', hend'⟩ := ih (work m) (hw ▸ hless) m rfl
        refine ⟨m', Nat.le_trans hm hm', ?_, hend'⟩
        intro k hk hlt
        by_cases hkm : k < m
        · exact hall k hk hkm
        · exact hall' k (Nat.le_of_not_lt hkm) hlt

end

end Lib
end RvCores
