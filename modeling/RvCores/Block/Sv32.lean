import RvCores.Block.Paging

/-!
# Sv32 translation

The 32-bit cores translate through tables of two levels.
-/

namespace RvCores
namespace Block
namespace Sv32

def vpn (vaddr : BitVec 32) : BitVec 20 := vaddr.extractLsb' 12 20

abbrev Tlb := Block.Tlb 32 20

inductive Level where
  | l1
  | l0
deriving DecidableEq, Repr

abbrev Ptw := Block.Ptw Level 32 20 22
abbrev PtwIn := Block.PtwIn 32 22
abbrev WalkRequest := Block.WalkRequest 20 22

namespace WalkRequest

def vpn1 (q : WalkRequest) : BitVec 10 := q.vpn.extractLsb' 10 10
def vpn0 (q : WalkRequest) : BitVec 10 := q.vpn.extractLsb' 0 10

def l1Addr (q : WalkRequest) : BitVec 32 :=
  (q.satpPpn.setWidth 20 ++ 0#12) ||| (0#20 ++ q.vpn1 ++ 0#2)

def l0Addr (q : WalkRequest) (pte : BitVec 32) : BitVec 32 :=
  (Pte.ppn20 pte ++ 0#12) ||| (0#20 ++ q.vpn0 ++ 0#2)

/--
The entry address at a level, given the entry read at the level above.
-/
def pteAddr (q : WalkRequest) (level : Level) (pte : BitVec 32) : BitVec 32 :=
  match level with
  | .l1 => q.l1Addr
  | .l0 => q.l0Addr pte

def misaligned (level : Level) (pte : BitVec 32) : Bool :=
  match level with
  | .l1 => decide (pte.extractLsb' 10 10 ≠ 0#10)
  | .l0 => false

def leafPpn (q : WalkRequest) (level : Level) (pte : BitVec 32) : BitVec 32 :=
  match level with
  | .l1 => 0#12 ++ pte.extractLsb' 20 10 ++ q.vpn0
  | .l0 => 0#12 ++ Pte.ppn20 pte

end WalkRequest

instance sv32 : PagingScheme 32 Level 20 22 where
  vpn := vpn
  top := .l1
  bottom := .l0
  below := fun level =>
    match level with
    | .l1 => [.l0]
    | .l0 => []
  pteAddr := WalkRequest.pteAddr
  misaligned := WalkRequest.misaligned
  leafPpn := WalkRequest.leafPpn
  below_next := by
    intro level next rest h
    cases level with
    | l1 =>
        cases h
        rfl
    | l0 => cases h
  pteAddr_top := fun _ _ => rfl
  pteAddr_place := fun _ _ _ => rfl
  leafPpn_place := fun _ _ _ => rfl

def walk (read : BitVec 32 -> BitVec 32) (satpPpn : BitVec 22) (n : BitVec 20) :
    Option (Page 32) :=
  Block.walk read satpPpn n

end Sv32
end Block
end RvCores
