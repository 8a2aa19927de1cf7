import RvCores.Lib.Table
import Mathlib.Data.List.Perm.Lattice
import Mathlib.Data.List.Nodup
import Mathlib.Logic.Function.Iterate

/-!
# Register renaming

A renamer hands out physical registers to instructions in program order and
takes them back as the instructions retire.  The abstract state is the list of
free registers, the map of the retired instructions, and the allocations that
are still pending, oldest first.  Each allocation remembers the register it
replaced, which is the one that its retirement releases.
-/

namespace RvCores
namespace Lib

structure Allocation (name reg : Type) where
  areg : name
  preg : reg
  old : reg

structure Renamer (name reg : Type) where
  free : List reg
  arch : name -> reg
  pending : List (Allocation name reg)

namespace Renamer

variable {name reg : Type} [DecidableEq name]

/-!
# Maps and allocations
-/

def apply (map : name -> reg) (a : Allocation name reg) : name -> reg :=
  setAt map a.areg a.preg

def spec (r : Renamer name reg) : name -> reg :=
  r.pending.foldl apply r.arch

/--
Every pending allocation replaces the register of the map just before it.
-/
def Coherent : (name -> reg) -> List (Allocation name reg) -> Prop
  | _, [] => True
  | map, a :: pending => a.old = map a.areg ∧ Coherent (apply map a) pending

theorem coherent_append {map : name -> reg} {older younger : List (Allocation name reg)} :
    Coherent map (older ++ younger) ↔
      Coherent map older ∧ Coherent (older.foldl apply map) younger := by
  induction older generalizing map with
  | nil => simp [Coherent]
  | cons a older ih => simp [Coherent, ih, and_assoc]

theorem foldl_apply_mem (map : name -> reg) (pending : List (Allocation name reg))
    (x : name) :
    pending.foldl apply map x = map x ∨
      pending.foldl apply map x ∈ pending.map Allocation.preg := by
  induction pending generalizing map with
  | nil => exact Or.inl rfl
  | cons a pending ih =>
      rcases ih (apply map a) with harch | hpending
      · by_cases hx : x = a.areg
        · right
          rw [List.foldl_cons, harch, hx]
          simp [apply]
        · left
          rw [List.foldl_cons, harch]
          exact setAt_of_ne hx
      · right
        rw [List.foldl_cons, List.map_cons]
        exact List.mem_cons_of_mem a.preg hpending

/-!
# Operations
-/

def rename (r : Renamer name reg) (x : name) : Renamer name reg :=
  match r.free with
  | [] => r
  | p :: free =>
      { r with
        free := free
        pending := r.pending ++ [{ areg := x, preg := p, old := r.spec x }] }

def retire (r : Renamer name reg) : Renamer name reg :=
  match r.pending with
  | [] => r
  | a :: pending =>
      { free := r.free ++ [a.old], arch := apply r.arch a, pending := pending }

theorem rename_eq {r : Renamer name reg} {x : name} {p : reg} {free : List reg}
    (hfree : r.free = p :: free) :
    r.rename x =
      { free := free
        arch := r.arch
        pending := r.pending ++ [{ areg := x, preg := p, old := r.spec x }] } := by
  simp [rename, hfree]

theorem retire_eq {r : Renamer name reg} {a : Allocation name reg}
    {pending : List (Allocation name reg)} (hpending : r.pending = a :: pending) :
    r.retire =
      { free := r.free ++ [a.old], arch := apply r.arch a, pending := pending } := by
  simp [retire, hpending]

theorem spec_rename {r : Renamer name reg} {x : name} {p : reg} {free : List reg}
    (hfree : r.free = p :: free) :
    (r.rename x).spec = setAt r.spec x p := by
  rw [rename_eq hfree]
  simp [spec, apply]

theorem spec_retire (r : Renamer name reg) : r.retire.spec = r.spec := by
  cases hpending : r.pending with
  | nil => simp [retire, hpending]
  | cons a pending => simp [retire_eq hpending, spec, hpending]

/-!
# Conservation

The free registers, the registers of the retired map and the registers of the
pending allocations together are a fixed stock, each occurring once.
-/

def held (aregs : List name) (r : Renamer name reg) : List reg :=
  aregs.map r.arch ++ r.pending.map Allocation.preg

structure Conserves (aregs : List name) (stock : List reg) (r : Renamer name reg) :
    Prop where
  coherent : Coherent r.arch r.pending
  known : forall a, a ∈ r.pending -> a.areg ∈ aregs
  perm : (r.free ++ held aregs r).Perm stock

theorem map_apply_perm {aregs : List name} (hnodup : aregs.Nodup)
    (map : name -> reg) {a : Allocation name reg} (hmem : a.areg ∈ aregs) :
    (map a.areg :: aregs.map (apply map a)).Perm (a.preg :: aregs.map map) := by
  induction aregs with
  | nil => simp at hmem
  | cons x aregs ih =>
      rw [List.nodup_cons] at hnodup
      by_cases hx : x = a.areg
      · have hrest : aregs.map (apply map a) = aregs.map map := by
          apply List.map_congr_left
          intro y hy
          have hne : y ≠ a.areg := by
            intro heq
            exact hnodup.left (hx ▸ heq ▸ hy)
          exact setAt_of_ne hne
        rw [List.map_cons, List.map_cons, hrest, hx]
        simpa [apply] using List.Perm.swap a.preg (map a.areg) (aregs.map map)
      · have hmem' : a.areg ∈ aregs := by
          rcases List.mem_cons.mp hmem with heq | hin
          · exact absurd heq.symm hx
          · exact hin
        have hsame : apply map a x = map x := setAt_of_ne hx
        rw [List.map_cons, List.map_cons, hsame]
        calc (map a.areg :: map x :: aregs.map (apply map a)).Perm
              (map x :: map a.areg :: aregs.map (apply map a)) := List.Perm.swap _ _ _
          _ |>.Perm (map x :: a.preg :: aregs.map map) :=
              (ih hnodup.right hmem').cons (map x)
          _ |>.Perm (a.preg :: map x :: aregs.map map) := List.Perm.swap _ _ _

theorem rename_conserves {aregs : List name} {stock : List reg}
    {r : Renamer name reg} {x : name} (h : Conserves aregs stock r)
    (hx : x ∈ aregs) :
    Conserves aregs stock (r.rename x) := by
  cases hfree : r.free with
  | nil => simpa [rename, hfree] using h
  | cons p free =>
      rw [rename_eq hfree]
      constructor
      · exact coherent_append.mpr ⟨h.coherent, rfl, trivial⟩
      · intro a ha
        rcases List.mem_append.mp ha with hold | hnew
        · exact h.known a hold
        · rw [List.mem_singleton.mp hnew]
          exact hx
      · have hperm := h.perm
        rw [hfree] at hperm
        refine List.Perm.trans ?_ hperm
        simp only [held, List.map_append, List.map_cons, List.map_nil]
        rw [<- List.append_assoc, <- List.append_assoc, List.append_assoc free]
        exact List.perm_append_singleton p _

theorem retire_conserves {aregs : List name} {stock : List reg}
    {r : Renamer name reg} (hnodup : aregs.Nodup) (h : Conserves aregs stock r) :
    Conserves aregs stock r.retire := by
  cases hpending : r.pending with
  | nil => simpa [retire, hpending] using h
  | cons a pending =>
      have hcoherent := h.coherent
      rw [hpending] at hcoherent
      rw [retire_eq hpending]
      constructor
      · exact hcoherent.right
      · intro b hb
        apply h.known
        rw [hpending]
        exact List.mem_cons_of_mem a hb
      · have hperm := h.perm
        simp only [held, hpending, List.map_cons] at hperm
        refine List.Perm.trans ?_ hperm
        have hmem : a.areg ∈ aregs := h.known a (by simp [hpending])
        have hswap := map_apply_perm hnodup r.arch hmem
        simp only [held, List.append_assoc]
        apply List.Perm.append_left
        have hmid : (aregs.map r.arch ++ a.preg :: pending.map Allocation.preg).Perm
            (a.preg :: (aregs.map r.arch ++ pending.map Allocation.preg)) :=
          List.perm_middle
        refine List.Perm.trans ?_ hmid.symm
        rw [hcoherent.left]
        exact hswap.append_right (pending.map Allocation.preg)

/-!
# Several retirements
-/

theorem retire_iterate_eq {r : Renamer name reg} {done rest : List (Allocation name reg)}
    (hpending : r.pending = done ++ rest) :
    retire^[done.length] r =
      { free := r.free ++ done.map Allocation.old
        arch := done.foldl apply r.arch
        pending := rest } := by
  induction done generalizing r with
  | nil => cases r; simp_all
  | cons a done ih =>
      rw [List.length_cons, Function.iterate_succ_apply, retire_eq hpending, ih rfl]
      simp

theorem retire_iterate_conserves {aregs : List name} {stock : List reg}
    {r : Renamer name reg} (hnodup : aregs.Nodup) (h : Conserves aregs stock r)
    (k : Nat) :
    Conserves aregs stock (retire^[k] r) := by
  induction k generalizing r with
  | zero => exact h
  | succ k ih => exact ih (retire_conserves hnodup h)

theorem spec_retire_iterate (r : Renamer name reg) (k : Nat) :
    (retire^[k] r).spec = r.spec := by
  induction k generalizing r with
  | zero => rfl
  | succ k ih => rw [Function.iterate_succ_apply, ih, spec_retire]

theorem conserves_length {aregs : List name} {stock : List reg} {r : Renamer name reg}
    (h : Conserves aregs stock r) :
    r.free.length + aregs.length + r.pending.length = stock.length := by
  have hlen := h.perm.length_eq
  simp [held] at hlen
  omega

/-!
# Freshness

A register on the free list is neither mapped, in either map, nor pending.
-/

theorem free_not_held {aregs : List name} {stock : List reg} {r : Renamer name reg}
    (h : Conserves aregs stock r) (hstock : stock.Nodup) {p : reg}
    (hp : p ∈ r.free) :
    p ∉ held aregs r := by
  have hnodup : (r.free ++ held aregs r).Nodup := h.perm.nodup_iff.mpr hstock
  intro hheld
  exact (List.nodup_append.mp hnodup).right.right p hp p hheld rfl

theorem spec_mem_held {aregs : List name} {r : Renamer name reg} {x : name}
    (hx : x ∈ aregs) :
    r.spec x ∈ held aregs r := by
  rcases foldl_apply_mem r.arch r.pending x with harch | hpending
  · rw [spec, harch]
    exact List.mem_append_left _ (List.mem_map_of_mem hx)
  · exact List.mem_append_right _ hpending

end Renamer
end Lib
end RvCores
