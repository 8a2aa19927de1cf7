import Mathlib.Algebra.Group.Nat.Defs
import RvCores.Isa.Control

/-!
# Arithmetic and logic unit

The second-level decoder picks one operation, and the unit computes it at any
width.  The word forms work on the low 32 bits and sign-extend their result.
-/

namespace RvCores
namespace Isa

inductive AluCtl where
  | add | sub | sll | slt | sltu | xor | srl | sra | or | and
  | beq | bne | blt | bge | ble | bgt | bltu | bgeu
  | mul | mulh | mulhsu | mulhu | div | divu | rem | remu
  | andn | orn | xnor | min | minu | max | maxu | rol | ror
  | clz | ctz | cpop | sextb | sexth | orcb | rev8
  | bclr | bext | binv | bset | sh1add | sh2add | sh3add | addUw | slliUw
  | clmul | clmulh | pack | packh | brev8 | xperm4 | xperm8
  | sha256sum0 | sha256sum1 | sha256sig0 | sha256sig1
  | sha512sum0 | sha512sum1 | sha512sig0 | sha512sig1
  | aes64esm | aes64es | aes64dsm | aes64ds | aes64ks1i | aes64ks2 | aes64im
  | illegal
deriving DecidableEq, Repr

/-!
# Operation select
-/

def rtypeTable : List ((BitVec 7 × BitVec 3) × AluCtl) :=
  [((0b0000000, 0b000), .add), ((0b0100000, 0b000), .sub),
    ((0b0000000, 0b001), .sll), ((0b0000000, 0b010), .slt),
    ((0b0000000, 0b011), .sltu), ((0b0000000, 0b100), .xor),
    ((0b0000000, 0b101), .srl), ((0b0100000, 0b101), .sra),
    ((0b0000000, 0b110), .or), ((0b0000000, 0b111), .and),
    ((0b0000001, 0b000), .mul), ((0b0000001, 0b001), .mulh),
    ((0b0000001, 0b010), .mulhsu), ((0b0000001, 0b011), .mulhu),
    ((0b0000001, 0b100), .div), ((0b0000001, 0b101), .divu),
    ((0b0000001, 0b110), .rem), ((0b0000001, 0b111), .remu),
    ((0b0100000, 0b111), .andn), ((0b0100000, 0b110), .orn),
    ((0b0100000, 0b100), .xnor), ((0b0000101, 0b100), .min),
    ((0b0000101, 0b101), .minu), ((0b0000101, 0b110), .max),
    ((0b0000101, 0b111), .maxu), ((0b0110000, 0b001), .rol),
    ((0b0110000, 0b101), .ror), ((0b0010000, 0b010), .sh1add),
    ((0b0010000, 0b100), .sh2add), ((0b0010000, 0b110), .sh3add),
    ((0b0100100, 0b001), .bclr), ((0b0100100, 0b101), .bext),
    ((0b0110100, 0b001), .binv), ((0b0010100, 0b001), .bset),
    ((0b0000100, 0b000), .addUw), ((0b0000101, 0b001), .clmul),
    ((0b0000101, 0b011), .clmulh), ((0b0000100, 0b100), .pack),
    ((0b0000100, 0b111), .packh), ((0b0010100, 0b010), .xperm4),
    ((0b0010100, 0b100), .xperm8), ((0b0011011, 0b000), .aes64esm),
    ((0b0011001, 0b000), .aes64es), ((0b0011111, 0b000), .aes64dsm),
    ((0b0011101, 0b000), .aes64ds), ((0b0111111, 0b000), .aes64ks2)]

def branchTable : List (BitVec 3 × AluCtl) :=
  [(0b000, .beq), (0b001, .bne), (0b010, .ble), (0b011, .bgt), (0b100, .blt),
    (0b101, .bge), (0b110, .bltu), (0b111, .bgeu)]

def countTable : List (BitVec 5 × AluCtl) :=
  [(0b00000, .clz), (0b00001, .ctz), (0b00010, .cpop), (0b00100, .sextb),
    (0b00101, .sexth)]

def shaTable : List (BitVec 5 × AluCtl) :=
  [(0b00000, .sha256sum0), (0b00001, .sha256sum1), (0b00010, .sha256sig0),
    (0b00011, .sha256sig1), (0b00100, .sha512sum0), (0b00101, .sha512sum1),
    (0b00110, .sha512sig0), (0b00111, .sha512sig1)]

def shiftLeftImm (funct6 : BitVec 6) (rs2 : BitVec 5) : AluCtl :=
  if funct6 = 0b010010 then .bclr
  else if funct6 = 0b011010 then .binv
  else if funct6 = 0b001010 then .bset
  else if funct6 = 0b011000 then (countTable.lookup rs2).getD .illegal
  else if funct6 = 0b000010 then .slliUw
  else if funct6 = 0b001100 then if rs2 = 0 then .aes64im else .aes64ks1i
  else if funct6 = 0b000100 then (shaTable.lookup rs2).getD .illegal
  else .sll

def shiftRightImm (funct6 : BitVec 6) (rs2 : BitVec 5) : AluCtl :=
  if funct6 = 0b010000 then .sra
  else if funct6 = 0b010010 then .bext
  else if funct6 = 0b011000 then .ror
  else if funct6 = 0b001010 ∧ rs2 = 0b00111 then .orcb
  else if funct6 = 0b011010 ∧ rs2 = 0b11000 then .rev8
  else if funct6 = 0b011010 ∧ rs2 = 0b00111 then .brev8
  else .srl

def itypeCtrl (funct7 : BitVec 7) (funct3 : BitVec 3) (rs2 : BitVec 5) : AluCtl :=
  let funct6 : BitVec 6 := funct7.extractLsb 6 1
  if funct3 = 0b000 then .add
  else if funct3 = 0b001 then shiftLeftImm funct6 rs2
  else if funct3 = 0b010 then .slt
  else if funct3 = 0b011 then .sltu
  else if funct3 = 0b100 then .xor
  else if funct3 = 0b101 then shiftRightImm funct6 rs2
  else if funct3 = 0b110 then .or
  else .and

def aluCtrl (aluOp : AluOp) (funct7 : BitVec 7) (funct3 : BitVec 3)
    (rs2 : BitVec 5) : AluCtl :=
  match aluOp with
  | .loadStore => .add
  | .rtype => (rtypeTable.lookup (funct7, funct3)).getD .illegal
  | .branch => (branchTable.lookup funct3).getD .illegal
  | .itype => itypeCtrl funct7 funct3 rs2

def AluCtl.isDiv (ctl : AluCtl) : Bool :=
  match ctl with
  | .div | .divu | .rem | .remu => true
  | _ => false

theorem countTable_not_isDiv :
    forall rs2 : BitVec 5, ((countTable.lookup rs2).getD .illegal).isDiv = false := by
  decide

theorem shaTable_not_isDiv :
    forall rs2 : BitVec 5, ((shaTable.lookup rs2).getD .illegal).isDiv = false := by
  decide

theorem branchTable_not_isDiv :
    forall funct3 : BitVec 3, ((branchTable.lookup funct3).getD .illegal).isDiv = false := by
  decide

theorem not_isDiv_ite {c : Prop} [Decidable c] {a b : AluCtl} (ha : a.isDiv = false)
    (hb : b.isDiv = false) :
    (if c then a else b).isDiv = false := by
  split
  · exact ha
  · exact hb

theorem itypeCtrl_not_isDiv (funct7 : BitVec 7) (funct3 : BitVec 3) (rs2 : BitVec 5) :
    (itypeCtrl funct7 funct3 rs2).isDiv = false := by
  simp only [itypeCtrl, shiftLeftImm, shiftRightImm]
  repeat' first
    | apply not_isDiv_ite
    | exact countTable_not_isDiv rs2
    | exact shaTable_not_isDiv rs2
    | rfl

/--
Only register-register instructions divide.
-/
theorem rtype_of_isDiv {aluOp : AluOp} {funct7 : BitVec 7} {funct3 : BitVec 3}
    {rs2 : BitVec 5} (h : (aluCtrl aluOp funct7 funct3 rs2).isDiv = true) :
    aluOp = .rtype := by
  cases aluOp with
  | rtype => rfl
  | loadStore => simp [aluCtrl, AluCtl.isDiv] at h
  | branch => simp [aluCtrl, branchTable_not_isDiv] at h
  | itype => simp [aluCtrl, itypeCtrl_not_isDiv] at h

/-!
# Bit loops
-/

variable {w : Nat}

def byteAt (a : BitVec w) (i : Nat) : BitVec 8 := a.extractLsb' (8 * i) 8

def assemble (w len n : Nat) (slice : Nat -> BitVec len) : BitVec w :=
  (List.range n).foldl
    (fun acc i => acc ||| ((slice i).setWidth w <<< (len * i))) 0#w

/--
Leading and trailing zeros share the loop; only the order of the bits differs.
-/
def countZeros (a : BitVec w) (order : List Nat) : Nat :=
  (order.foldl
    (fun st i =>
      if !a.getLsbD i && !st.2 then (st.1 + 1, st.2) else (st.1, true))
    ((0, false) : Nat × Bool)).1

def countOnes (a : BitVec w) (n : Nat) : Nat :=
  (List.range n).foldl (fun count i => count + (a.getLsbD i).toNat) 0

def clmulLow (a b : BitVec w) : BitVec w :=
  (List.range w).foldl (fun acc i => if b.getLsbD i then acc ^^^ (a <<< i) else acc) 0#w

def clmulHigh (a b : BitVec w) : BitVec w :=
  ((List.range w).drop 1).foldl
    (fun acc i => if b.getLsbD i then acc ^^^ (a >>> (w - i)) else acc) 0#w

def brevByte (x : BitVec 8) : BitVec 8 := x.reverse

def xperm (len : Nat) (a b : BitVec w) : BitVec w :=
  assemble w len (w / len) fun i =>
    let idx := (b.extractLsb' (len * i) len).toNat
    if idx < w / len then a.extractLsb' (len * idx) len else (0 : BitVec len)

/-!
# SHA-2 and AES helpers
-/

def sha32 (w : Nat) (x : BitVec 32) : BitVec w := x.signExtend w

def aesXt2 (x : BitVec 8) : BitVec 8 :=
  (x <<< 1) ^^^ (if x.getLsbD 7 then 0x1b else 0x00)

def aesXt3 (x : BitVec 8) : BitVec 8 := x ^^^ aesXt2 x

def aesMixcolumnFwd (x : BitVec 32) : BitVec 32 :=
  let s0 := byteAt x 0
  let s1 := byteAt x 1
  let s2 := byteAt x 2
  let s3 := byteAt x 3
  let b0 := aesXt2 s0 ^^^ aesXt3 s1 ^^^ s2 ^^^ s3
  let b1 := s0 ^^^ aesXt2 s1 ^^^ aesXt3 s2 ^^^ s3
  let b2 := s0 ^^^ s1 ^^^ aesXt2 s2 ^^^ aesXt3 s3
  let b3 := aesXt3 s0 ^^^ s1 ^^^ s2 ^^^ aesXt2 s3
  b3 ++ b2 ++ b1 ++ b0

def aesGfmul (x : BitVec 8) (y : BitVec 4) : BitVec 8 :=
  (if y.getLsbD 0 then x else 0) ^^^ (if y.getLsbD 1 then aesXt2 x else 0) ^^^
    (if y.getLsbD 2 then aesXt2 (aesXt2 x) else 0) ^^^
    (if y.getLsbD 3 then aesXt2 (aesXt2 (aesXt2 x)) else 0)

def aesMixcolumnInv (x : BitVec 32) : BitVec 32 :=
  let s0 := byteAt x 0
  let s1 := byteAt x 1
  let s2 := byteAt x 2
  let s3 := byteAt x 3
  let b0 := aesGfmul s0 0xE ^^^ aesGfmul s1 0xB ^^^ aesGfmul s2 0xD ^^^ aesGfmul s3 0x9
  let b1 := aesGfmul s0 0x9 ^^^ aesGfmul s1 0xE ^^^ aesGfmul s2 0xB ^^^ aesGfmul s3 0xD
  let b2 := aesGfmul s0 0xD ^^^ aesGfmul s1 0x9 ^^^ aesGfmul s2 0xE ^^^ aesGfmul s3 0xB
  let b3 := aesGfmul s0 0xB ^^^ aesGfmul s1 0xD ^^^ aesGfmul s2 0x9 ^^^ aesGfmul s3 0xE
  b3 ++ b2 ++ b1 ++ b0

def aesRconTable : List (BitVec 32) :=
  [0x01, 0x02, 0x04, 0x08, 0x10, 0x20, 0x40, 0x80, 0x1b, 0x36]

def aesDecodeRcon (rnum : BitVec 4) : BitVec 32 :=
  aesRconTable.getD rnum.toNat 0

def aesSboxFwdRom : List (BitVec 8) :=
  [
    0x63, 0x7c, 0x77, 0x7b, 0xf2, 0x6b, 0x6f, 0xc5, 0x30, 0x01, 0x67, 0x2b,
    0xfe, 0xd7, 0xab, 0x76, 0xca, 0x82, 0xc9, 0x7d, 0xfa, 0x59, 0x47, 0xf0,
    0xad, 0xd4, 0xa2, 0xaf, 0x9c, 0xa4, 0x72, 0xc0, 0xb7, 0xfd, 0x93, 0x26,
    0x36, 0x3f, 0xf7, 0xcc, 0x34, 0xa5, 0xe5, 0xf1, 0x71, 0xd8, 0x31, 0x15,
    0x04, 0xc7, 0x23, 0xc3, 0x18, 0x96, 0x05, 0x9a, 0x07, 0x12, 0x80, 0xe2,
    0xeb, 0x27, 0xb2, 0x75, 0x09, 0x83, 0x2c, 0x1a, 0x1b, 0x6e, 0x5a, 0xa0,
    0x52, 0x3b, 0xd6, 0xb3, 0x29, 0xe3, 0x2f, 0x84, 0x53, 0xd1, 0x00, 0xed,
    0x20, 0xfc, 0xb1, 0x5b, 0x6a, 0xcb, 0xbe, 0x39, 0x4a, 0x4c, 0x58, 0xcf,
    0xd0, 0xef, 0xaa, 0xfb, 0x43, 0x4d, 0x33, 0x85, 0x45, 0xf9, 0x02, 0x7f,
    0x50, 0x3c, 0x9f, 0xa8, 0x51, 0xa3, 0x40, 0x8f, 0x92, 0x9d, 0x38, 0xf5,
    0xbc, 0xb6, 0xda, 0x21, 0x10, 0xff, 0xf3, 0xd2, 0xcd, 0x0c, 0x13, 0xec,
    0x5f, 0x97, 0x44, 0x17, 0xc4, 0xa7, 0x7e, 0x3d, 0x64, 0x5d, 0x19, 0x73,
    0x60, 0x81, 0x4f, 0xdc, 0x22, 0x2a, 0x90, 0x88, 0x46, 0xee, 0xb8, 0x14,
    0xde, 0x5e, 0x0b, 0xdb, 0xe0, 0x32, 0x3a, 0x0a, 0x49, 0x06, 0x24, 0x5c,
    0xc2, 0xd3, 0xac, 0x62, 0x91, 0x95, 0xe4, 0x79, 0xe7, 0xc8, 0x37, 0x6d,
    0x8d, 0xd5, 0x4e, 0xa9, 0x6c, 0x56, 0xf4, 0xea, 0x65, 0x7a, 0xae, 0x08,
    0xba, 0x78, 0x25, 0x2e, 0x1c, 0xa6, 0xb4, 0xc6, 0xe8, 0xdd, 0x74, 0x1f,
    0x4b, 0xbd, 0x8b, 0x8a, 0x70, 0x3e, 0xb5, 0x66, 0x48, 0x03, 0xf6, 0x0e,
    0x61, 0x35, 0x57, 0xb9, 0x86, 0xc1, 0x1d, 0x9e, 0xe1, 0xf8, 0x98, 0x11,
    0x69, 0xd9, 0x8e, 0x94, 0x9b, 0x1e, 0x87, 0xe9, 0xce, 0x55, 0x28, 0xdf,
    0x8c, 0xa1, 0x89, 0x0d, 0xbf, 0xe6, 0x42, 0x68, 0x41, 0x99, 0x2d, 0x0f,
    0xb0, 0x54, 0xbb, 0x16]

def aesSboxInvRom : List (BitVec 8) :=
  [
    0x52, 0x09, 0x6a, 0xd5, 0x30, 0x36, 0xa5, 0x38, 0xbf, 0x40, 0xa3, 0x9e,
    0x81, 0xf3, 0xd7, 0xfb, 0x7c, 0xe3, 0x39, 0x82, 0x9b, 0x2f, 0xff, 0x87,
    0x34, 0x8e, 0x43, 0x44, 0xc4, 0xde, 0xe9, 0xcb, 0x54, 0x7b, 0x94, 0x32,
    0xa6, 0xc2, 0x23, 0x3d, 0xee, 0x4c, 0x95, 0x0b, 0x42, 0xfa, 0xc3, 0x4e,
    0x08, 0x2e, 0xa1, 0x66, 0x28, 0xd9, 0x24, 0xb2, 0x76, 0x5b, 0xa2, 0x49,
    0x6d, 0x8b, 0xd1, 0x25, 0x72, 0xf8, 0xf6, 0x64, 0x86, 0x68, 0x98, 0x16,
    0xd4, 0xa4, 0x5c, 0xcc, 0x5d, 0x65, 0xb6, 0x92, 0x6c, 0x70, 0x48, 0x50,
    0xfd, 0xed, 0xb9, 0xda, 0x5e, 0x15, 0x46, 0x57, 0xa7, 0x8d, 0x9d, 0x84,
    0x90, 0xd8, 0xab, 0x00, 0x8c, 0xbc, 0xd3, 0x0a, 0xf7, 0xe4, 0x58, 0x05,
    0xb8, 0xb3, 0x45, 0x06, 0xd0, 0x2c, 0x1e, 0x8f, 0xca, 0x3f, 0x0f, 0x02,
    0xc1, 0xaf, 0xbd, 0x03, 0x01, 0x13, 0x8a, 0x6b, 0x3a, 0x91, 0x11, 0x41,
    0x4f, 0x67, 0xdc, 0xea, 0x97, 0xf2, 0xcf, 0xce, 0xf0, 0xb4, 0xe6, 0x73,
    0x96, 0xac, 0x74, 0x22, 0xe7, 0xad, 0x35, 0x85, 0xe2, 0xf9, 0x37, 0xe8,
    0x1c, 0x75, 0xdf, 0x6e, 0x47, 0xf1, 0x1a, 0x71, 0x1d, 0x29, 0xc5, 0x89,
    0x6f, 0xb7, 0x62, 0x0e, 0xaa, 0x18, 0xbe, 0x1b, 0xfc, 0x56, 0x3e, 0x4b,
    0xc6, 0xd2, 0x79, 0x20, 0x9a, 0xdb, 0xc0, 0xfe, 0x78, 0xcd, 0x5a, 0xf4,
    0x1f, 0xdd, 0xa8, 0x33, 0x88, 0x07, 0xc7, 0x31, 0xb1, 0x12, 0x10, 0x59,
    0x27, 0x80, 0xec, 0x5f, 0x60, 0x51, 0x7f, 0xa9, 0x19, 0xb5, 0x4a, 0x0d,
    0x2d, 0xe5, 0x7a, 0x9f, 0x93, 0xc9, 0x9c, 0xef, 0xa0, 0xe0, 0x3b, 0x4d,
    0xae, 0x2a, 0xf5, 0xb0, 0xc8, 0xeb, 0xbb, 0x3c, 0x83, 0x53, 0x99, 0x61,
    0x17, 0x2b, 0x04, 0x7e, 0xba, 0x77, 0xd6, 0x26, 0xe1, 0x69, 0x14, 0x63,
    0x55, 0x21, 0x0c, 0x7d]

def aesSboxFwd (x : BitVec 8) : BitVec 8 := aesSboxFwdRom.getD x.toNat 0
def aesSboxInv (x : BitVec 8) : BitVec 8 := aesSboxInvRom.getD x.toNat 0

def aesSubwordFwd (x : BitVec 32) : BitVec 32 :=
  assemble 32 8 4 fun i => aesSboxFwd (byteAt x i)

def aesApplyFwdSboxToEachByte (x : BitVec 64) : BitVec 64 :=
  assemble 64 8 8 fun i => aesSboxFwd (byteAt x i)

def aesApplyInvSboxToEachByte (x : BitVec 64) : BitVec 64 :=
  assemble 64 8 8 fun i => aesSboxInv (byteAt x i)

def aesRv64ShiftrowsFwd (rs2 rs1 : BitVec 64) : BitVec 64 :=
  byteAt rs1 3 ++ byteAt rs2 6 ++ byteAt rs2 1 ++ byteAt rs1 4 ++
    byteAt rs2 7 ++ byteAt rs2 2 ++ byteAt rs1 5 ++ byteAt rs1 0

def aesRv64ShiftrowsInv (rs2 rs1 : BitVec 64) : BitVec 64 :=
  byteAt rs2 3 ++ byteAt rs2 6 ++ byteAt rs1 1 ++ byteAt rs1 4 ++
    byteAt rs1 7 ++ byteAt rs2 2 ++ byteAt rs2 5 ++ byteAt rs1 0

def aesMixHalves (mix : BitVec 32 -> BitVec 32) (x : BitVec 64) : BitVec 64 :=
  mix (x.extractLsb 63 32) ++ mix (x.extractLsb 31 0)

def aes64ks1i (a : BitVec 64) (rnum : BitVec 4) : BitVec 64 :=
  let tmp1 : BitVec 32 := a.extractLsb 63 32
  let rc := aesDecodeRcon rnum
  let tmp2 : BitVec 32 := if rnum = 0xA then tmp1 else tmp1.rotateRight 8
  let tmp3 := aesSubwordFwd tmp2
  (tmp3 ^^^ rc) ++ (tmp3 ^^^ rc)

def aes64ks2 (a b : BitVec 64) : BitVec 64 :=
  let aHi : BitVec 32 := a.extractLsb 63 32
  let bLo : BitVec 32 := b.extractLsb 31 0
  let bHi : BitVec 32 := b.extractLsb 63 32
  (aHi ^^^ bLo ^^^ bHi) ++ (aHi ^^^ bLo)

/-!
# The unit
-/

def shamt (b : BitVec w) : Nat := b.toNat % 2 ^ Nat.log2 w

def rotateLeftBy {n : Nat} (a : BitVec n) (k : Nat) : BitVec n :=
  if k = 0 then a else (a <<< k) ||| (a >>> (n - k))

def rotateRightBy {n : Nat} (a : BitVec n) (k : Nat) : BitVec n :=
  if k = 0 then a else (a >>> k) ||| (a <<< (n - k))

def mulHigh (a b : BitVec (2 * w)) : BitVec w := (a * b).extractLsb' w w

def flag (w : Nat) (c : Bool) : BitVec w := if c then 1#w else 0#w

def shaddOperand (a : BitVec w) (wordOp : Bool) : BitVec w :=
  if wordOp then (a.setWidth 32).setWidth w else a

def alu (ctl : AluCtl) (a b : BitVec w) (wordOp : Bool) : BitVec w :=
  let a32 : BitVec 32 := a.setWidth 32
  let b32 : BitVec 32 := b.setWidth 32
  let k := shamt b
  let k32 := b.toNat % 32
  let a64 : BitVec 64 := a.setWidth 64
  let b64 : BitVec 64 := b.setWidth 64
  match ctl with
  | .add => if wordOp then (a32 + b32).signExtend w else a + b
  | .sub => if wordOp then (a32 - b32).signExtend w else a - b
  | .sll => if wordOp then (a32 <<< k32).signExtend w else a <<< k
  | .slt => flag w (a.slt b)
  | .sltu => flag w (a.ult b)
  | .xor => a ^^^ b
  | .srl => if wordOp then (a32 >>> k32).signExtend w else a >>> k
  | .sra => if wordOp then (a32.sshiftRight k32).signExtend w else a.sshiftRight k
  | .or => a ||| b
  | .and => a &&& b
  | .beq | .bne | .blt | .bge | .ble | .bgt | .bltu | .bgeu => a &&& b
  | .ctz =>
      BitVec.ofNat w (countZeros a (List.range (if wordOp then 32 else w)))
  | .andn => a &&& ~~~b
  | .orn => a ||| ~~~b
  | .xnor => ~~~(a ^^^ b)
  | .min => if a.slt b then a else b
  | .minu => if a.ult b then a else b
  | .max => if b.slt a then a else b
  | .maxu => if b.ult a then a else b
  | .rol =>
      if wordOp then (rotateLeftBy a32 k32).signExtend w else rotateLeftBy a k
  | .ror =>
      if wordOp then (rotateRightBy a32 k32).signExtend w else rotateRightBy a k
  | .clz =>
      BitVec.ofNat w (countZeros a (List.range (if wordOp then 32 else w)).reverse)
  | .cpop => BitVec.ofNat w (countOnes a (if wordOp then 32 else w))
  | .sextb => (a.setWidth 8).signExtend w
  | .sexth => (a.setWidth 16).signExtend w
  | .orcb =>
      assemble w 8 (w / 8) fun i => if byteAt a i ≠ 0 then 0xFF#8 else 0x00#8
  | .rev8 => assemble w 8 (w / 8) fun i => byteAt a (w / 8 - 1 - i)
  | .bclr => a &&& ~~~(1#w <<< k)
  | .bext => (a >>> k) &&& 1#w
  | .binv => a ^^^ (1#w <<< k)
  | .bset => a ||| (1#w <<< k)
  | .sh1add => (shaddOperand a wordOp <<< 1) + b
  | .sh2add => (shaddOperand a wordOp <<< 2) + b
  | .sh3add => (shaddOperand a wordOp <<< 3) + b
  | .addUw => a32.setWidth w + b
  | .slliUw => a32.setWidth w <<< k
  | .mul => if wordOp then (a32 * b32).signExtend w else a * b
  | .mulh => mulHigh (a.signExtend (2 * w)) (b.signExtend (2 * w))
  | .mulhsu => mulHigh (a.signExtend (2 * w)) (b.setWidth (2 * w))
  | .mulhu => mulHigh (a.setWidth (2 * w)) (b.setWidth (2 * w))
  | .clmul => clmulLow a b
  | .clmulh => clmulHigh a b
  | .pack =>
      if wordOp then ((b.setWidth 16 ++ a.setWidth 16 : BitVec 32)).signExtend w
      else ((b.setWidth (w / 2)).setWidth w <<< (w / 2)) |||
        (a.setWidth (w / 2)).setWidth w
  | .packh => (b.setWidth 8 ++ a.setWidth 8 : BitVec 16).setWidth w
  | .brev8 => assemble w 8 (w / 8) fun i => brevByte (byteAt a i)
  | .sha256sum0 =>
      sha32 w (a32.rotateRight 2 ^^^ a32.rotateRight 13 ^^^ a32.rotateRight 22)
  | .sha256sum1 =>
      sha32 w (a32.rotateRight 6 ^^^ a32.rotateRight 11 ^^^ a32.rotateRight 25)
  | .sha256sig0 =>
      sha32 w (a32.rotateRight 7 ^^^ a32.rotateRight 18 ^^^ (a32 >>> 3))
  | .sha256sig1 =>
      sha32 w (a32.rotateRight 17 ^^^ a32.rotateRight 19 ^^^ (a32 >>> 10))
  | .sha512sum0 =>
      (a64.rotateRight 28 ^^^ a64.rotateRight 34 ^^^ a64.rotateRight 39).setWidth w
  | .sha512sum1 =>
      (a64.rotateRight 14 ^^^ a64.rotateRight 18 ^^^ a64.rotateRight 41).setWidth w
  | .sha512sig0 =>
      (a64.rotateRight 1 ^^^ a64.rotateRight 8 ^^^ (a64 >>> 7)).setWidth w
  | .sha512sig1 =>
      (a64.rotateRight 19 ^^^ a64.rotateRight 61 ^^^ (a64 >>> 6)).setWidth w
  | .xperm4 => xperm 4 a b
  | .xperm8 => xperm 8 a b
  | .aes64ks1i => (aes64ks1i a64 (b.setWidth 4)).setWidth w
  | .aes64ks2 => (aes64ks2 a64 b64).setWidth w
  | .aes64esm =>
      (aesMixHalves aesMixcolumnFwd
        (aesApplyFwdSboxToEachByte (aesRv64ShiftrowsFwd b64 a64))).setWidth w
  | .aes64es =>
      (aesApplyFwdSboxToEachByte (aesRv64ShiftrowsFwd b64 a64)).setWidth w
  | .aes64dsm =>
      (aesMixHalves aesMixcolumnInv
        (aesApplyInvSboxToEachByte (aesRv64ShiftrowsInv b64 a64))).setWidth w
  | .aes64ds =>
      (aesApplyInvSboxToEachByte (aesRv64ShiftrowsInv b64 a64)).setWidth w
  | .aes64im => (aesMixHalves aesMixcolumnInv a64).setWidth w
  | .div | .divu | .rem | .remu | .illegal => 0#w

def branchZero (ctl : AluCtl) (a b : BitVec w) : Bool :=
  match ctl with
  | .beq => decide (a = b)
  | .bne => decide (a ≠ b)
  | .blt => a.slt b
  | .bge => b.sle a
  | .ble => a.sle b
  | .bgt => b.slt a
  | .bltu => a.ult b
  | .bgeu => b.ule a
  | _ => false

end Isa
end RvCores
