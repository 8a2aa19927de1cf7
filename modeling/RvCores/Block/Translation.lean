import RvCores.Block.Paging

/-!
# Sv39 translation

The 64-bit cores translate through tables of three levels.
-/

namespace RvCores
namespace Block

def vpn (vaddr : BitVec 64) : BitVec 27 := vaddr.extractLsb 38 12

abbrev Tlb39 := Tlb 64 27

inductive WalkLevel where
  | l2
  | l1
  | l0
deriving DecidableEq, Repr

abbrev Ptw39 := Ptw WalkLevel 64 27 44

namespace WalkRequest

def vpn2 (q : WalkRequest 27 44) : BitVec 9 := q.vpn.extractLsb 26 18
def vpn1 (q : WalkRequest 27 44) : BitVec 9 := q.vpn.extractLsb 17 9
def vpn0 (q : WalkRequest 27 44) : BitVec 9 := q.vpn.extractLsb 8 0

/--
The entry address at a level, given the entry read at the level above.
-/
def pteAddr (q : WalkRequest 27 44) (level : WalkLevel) (pte : BitVec 64) : BitVec 64 :=
  let base : BitVec 20 :=
    match level with
    | .l2 => q.satpPpn.setWidth 20
    | .l1 => Pte.ppn20 pte
    | .l0 => Pte.ppn20 pte
  let idx : BitVec 9 :=
    match level with
    | .l2 => q.vpn2
    | .l1 => q.vpn1
    | .l0 => q.vpn0
  ((base ++ 0#12) ||| (0#20 ++ idx ++ 0#3)).setWidth 64

def misaligned (level : WalkLevel) (pte : BitVec 64) : Bool :=
  match level with
  | .l2 => decide ((pte.extractLsb 27 10 : BitVec 18) ≠ 0)
  | .l1 => decide ((pte.extractLsb 18 10 : BitVec 9) ≠ 0)
  | .l0 => false

def leafPpn (q : WalkRequest 27 44) (level : WalkLevel) (pte : BitVec 64) : BitVec 64 :=
  match level with
  | .l2 =>
      (((Pte.ppn20 pte).extractLsb 19 18 : BitVec 2) ++ q.vpn1 ++ q.vpn0).setWidth 64
  | .l1 => (((Pte.ppn20 pte).extractLsb 19 9 : BitVec 11) ++ q.vpn0).setWidth 64
  | .l0 => (Pte.ppn20 pte).setWidth 64

end WalkRequest

instance sv39 : PagingScheme 64 WalkLevel 27 44 where
  vpn := vpn
  top := .l2
  bottom := .l0
  below := fun level =>
    match level with
    | .l2 => [.l1, .l0]
    | .l1 => [.l0]
    | .l0 => []
  pteAddr := WalkRequest.pteAddr
  misaligned := WalkRequest.misaligned
  leafPpn := WalkRequest.leafPpn
  below_next := by
    intro level next rest h
    cases level with
    | l2 =>
        cases h
        rfl
    | l1 =>
        cases h
        rfl
    | l0 => cases h
  pteAddr_top := fun _ _ => rfl
  pteAddr_place := fun _ _ _ => rfl
  leafPpn_place := fun _ _ _ => rfl

def sv39Walk (read : BitVec 64 -> BitVec 64) (satpPpn : BitVec 44) (n : BitVec 27) :
    Option (Page 64) :=
  walk read satpPpn n

end Block
end RvCores
