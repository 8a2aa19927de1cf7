import RvCores.Lib.Table

/-!
# Register alias tables

Each table maps architectural to physical registers twice: the speculative map
is written at dispatch and read to rename sources, the architectural map follows
at retirement.  Two slots write each map in one cycle, the second slot last.
-/

namespace RvCores
namespace Ooo

open Lib

structure RegisterAliasTable where
  specMap : Nat -> Nat
  archMap : Nat -> Nat

structure RatWrite where
  en : Bool
  areg : Nat
  preg : Nat

structure RatIn where
  w0 : RatWrite
  w1 : RatWrite
  c0 : RatWrite
  c1 : RatWrite
  restoreEn : Bool

namespace RegisterAliasTable

def rpreg (hardwireReg0 : Bool) (rat : RegisterAliasTable) (raddr : Nat) : Nat :=
  if hardwireReg0 && decide (raddr = 0) then 0 else rat.specMap raddr

def oldPreg0 (rat : RegisterAliasTable) (w0 : RatWrite) : Nat :=
  rat.specMap w0.areg

def oldPreg1 (rat : RegisterAliasTable) (w0 w1 : RatWrite) : Nat :=
  if w0.en && decide (w0.areg = w1.areg) then w0.preg else rat.specMap w1.areg

def writes (hardwireReg0 : Bool) (w : RatWrite) : Bool :=
  w.en && (!hardwireReg0 || decide (w.areg ≠ 0))

def write (hardwireReg0 : Bool) (map : Nat -> Nat) (w : RatWrite) : Nat -> Nat :=
  if writes hardwireReg0 w then setAt map w.areg w.preg else map

def reset (numAregs : Nat) (rat : RegisterAliasTable) : RegisterAliasTable :=
  { specMap := fun a => if a < numAregs then a else rat.specMap a
    archMap := fun a => if a < numAregs then a else rat.archMap a }

def step (hardwireReg0 : Bool) (rat : RegisterAliasTable) (i : RatIn) :
    RegisterAliasTable :=
  { specMap :=
      if i.restoreEn then rat.archMap
      else write hardwireReg0 (write hardwireReg0 rat.specMap i.w0) i.w1
    archMap := write hardwireReg0 (write hardwireReg0 rat.archMap i.c0) i.c1 }

end RegisterAliasTable
end Ooo
end RvCores
