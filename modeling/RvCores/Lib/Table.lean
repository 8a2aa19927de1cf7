import Mathlib.Logic.Basic

/-!
# Tables

Register arrays and memories are total functions from an index.  Writing one
element is an update without a dependent cast, so that closed tables evaluate.
-/

namespace RvCores
namespace Lib

variable {index alpha : Type} [DecidableEq index]

def setAt (table : index -> alpha) (idx : index) (x : alpha) : index -> alpha :=
  fun j => if j = idx then x else table j

def modifyAt (table : index -> alpha) (idx : index) (f : alpha -> alpha) :
    index -> alpha :=
  fun j => if j = idx then f (table j) else table j

theorem setAt_apply (table : index -> alpha) (idx : index) (x : alpha) (j : index) :
    setAt table idx x j = if j = idx then x else table j := rfl

@[simp] theorem setAt_self (table : index -> alpha) (idx : index) (x : alpha) :
    setAt table idx x idx = x :=
  if_pos rfl

theorem setAt_of_ne {table : index -> alpha} {idx j : index} {x : alpha}
    (h : j ≠ idx) :
    setAt table idx x j = table j :=
  if_neg h

theorem setAt_setAt (table : index -> alpha) (idx : index) (x y : alpha) :
    setAt (setAt table idx x) idx y = setAt table idx y := by
  funext j
  simp only [setAt_apply]
  split <;> rfl

theorem comp_setAt {beta : Type} (f : alpha -> beta) (table : index -> alpha)
    (idx : index) (x : alpha) :
    (fun j => f (setAt table idx x j)) = setAt (fun j => f (table j)) idx (f x) := by
  funext j
  simp only [setAt_apply]
  split <;> rfl

theorem modifyAt_apply (table : index -> alpha) (idx : index) (f : alpha -> alpha)
    (j : index) :
    modifyAt table idx f j = if j = idx then f (table j) else table j := rfl

@[simp] theorem modifyAt_self (table : index -> alpha) (idx : index)
    (f : alpha -> alpha) :
    modifyAt table idx f idx = f (table idx) :=
  if_pos rfl

theorem modifyAt_of_ne {table : index -> alpha} {idx j : index}
    {f : alpha -> alpha} (h : j ≠ idx) :
    modifyAt table idx f j = table j :=
  if_neg h

end Lib
end RvCores
