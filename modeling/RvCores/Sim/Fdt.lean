import RvCores.Lib.BigEndian

/-!
# The device tree emitter

The emitter appends tokens to a structure block and keeps each property name once in a
strings block.  The validator walks the finished blob with an index of its own.
-/

namespace RvCores
namespace Sim

open Lib

def fdtMagic : Nat := 0xd00dfeed
def fdtVersion : Nat := 17
def fdtLastCompVersion : Nat := 16

def fdtBeginNode : Nat := 0x1
def fdtEndNode : Nat := 0x2
def fdtProp : Nat := 0x3
def fdtEnd : Nat := 0x9

/--
The exceptions of the emitter and of the validator.
-/
inductive FdtError where
  | unicodeEncodeError
  | structError
  | valueError
  | assertionError (message : String)
deriving DecidableEq, Repr

/-!
# Words and strings
-/

/--
`s.encode("ascii")`
-/
def encodeAscii (s : String) : Except FdtError ByteString :=
  if s.toList.all (fun c => c.toNat < 128) then
    .ok (s.toList.map fun c => BitVec.ofNat 8 c.toNat)
  else .error .unicodeEncodeError

/--
`struct.pack` of unsigned 32-bit words, which refuses what does not fit.
-/
def packU32s : List Nat -> Except FdtError ByteString
  | [] => .ok []
  | v :: vs => do
    if v < 2 ^ 32 then
      let more <- packU32s vs
      return packBe 4 v ++ more
    else .error .structError

def slice (bs : ByteString) (start stop : Nat) : ByteString :=
  (bs.drop start).take (stop - start)

/--
`struct.unpack` of unsigned words of one size, which refuses any other length.
-/
def unpackWords (size count : Nat) (bs : ByteString) : Except FdtError (Nat -> Nat) :=
  if bs.length = size * count then
    .ok fun k => unpackBe (slice bs (size * k) (size * k + size))
  else .error .structError

def align4 (data : ByteString) : ByteString := align 4 data

def assertThat (condition : Bool) (message : String) : Except FdtError Unit :=
  if condition then .ok () else .error (.assertionError message)

/-!
# The emitter
-/

structure FdtBuilder where
  struct : ByteString
  strings : ByteString
  stringOffsets : List (String × Nat)
deriving DecidableEq, Repr

namespace FdtBuilder

def init : FdtBuilder := { struct := [], strings := [], stringOffsets := [] }

def stringOff (b : FdtBuilder) (name : String) : Except FdtError (Nat × FdtBuilder) :=
  match b.stringOffsets.lookup name with
  | some off => .ok (off, b)
  | none => do
    let text <- encodeAscii name
    return (b.strings.length,
      { b with
        strings := b.strings ++ cString text
        stringOffsets := (name, b.strings.length) :: b.stringOffsets })

def append (b : FdtBuilder) (data : ByteString) : FdtBuilder :=
  { b with struct := b.struct ++ data }

def beginNode (b : FdtBuilder) (name : String) : Except FdtError FdtBuilder := do
  let text <- encodeAscii name
  return (b.append (packBe 4 fdtBeginNode)).append (align4 (cString text))

def endNode (b : FdtBuilder) : FdtBuilder := b.append (packBe 4 fdtEndNode)

def propRaw (b : FdtBuilder) (name : String) (value : ByteString) :
    Except FdtError FdtBuilder := do
  let (off, b) <- b.stringOff name
  let words <- packU32s [value.length, off]
  return ((b.append (packBe 4 fdtProp)).append words).append (align4 value)

/--
`val & 0xFFFFFFFF` and `val & 0xFFFFFFFFFFFFFFFF`, of which the bytes are taken.
-/
def masked (bytes : Nat) (val : Int) : ByteString :=
  packBe bytes (val % 256 ^ bytes).toNat

def propEmpty (b : FdtBuilder) (name : String) : Except FdtError FdtBuilder :=
  b.propRaw name []

def propU32 (b : FdtBuilder) (name : String) (val : Int) : Except FdtError FdtBuilder :=
  b.propRaw name (masked 4 val)

def propU64 (b : FdtBuilder) (name : String) (val : Int) : Except FdtError FdtBuilder :=
  b.propRaw name (masked 8 val)

def propCells (b : FdtBuilder) (name : String) (cells : List Int) :
    Except FdtError FdtBuilder :=
  b.propRaw name (cells.flatMap (masked 4))

def propStr (b : FdtBuilder) (name val : String) : Except FdtError FdtBuilder := do
  let text <- encodeAscii val
  b.propRaw name (cString text)

def encodeStrlist : List String -> Except FdtError ByteString
  | [] => .ok []
  | v :: vs => do
    let text <- encodeAscii v
    let more <- encodeStrlist vs
    return cString text ++ more

def propStrlist (b : FdtBuilder) (name : String) (vals : List String) :
    Except FdtError FdtBuilder := do
  let value <- encodeStrlist vals
  b.propRaw name value

def build (b : FdtBuilder) : Except FdtError (ByteString × FdtBuilder) := do
  let b := b.append (packBe 4 fdtEnd)
  let rsvmap := packBe 8 0 ++ packBe 8 0
  let offMemRsvmap := 40
  let offDtStruct := offMemRsvmap + rsvmap.length
  let offDtStrings := offDtStruct + b.struct.length
  let totalsize := offDtStrings + b.strings.length
  let header <- packU32s
    [fdtMagic, totalsize, offDtStruct, offDtStrings, offMemRsvmap, fdtVersion,
      fdtLastCompVersion, 0, b.strings.length, b.struct.length]
  return (header ++ rsvmap ++ b.struct ++ b.strings, b)

end FdtBuilder

/-!
# Runs of the emitter
-/

inductive FdtCall where
  | beginNode (name : String)
  | endNode
  | propEmpty (name : String)
  | propU32 (name : String) (val : Int)
  | propU64 (name : String) (val : Int)
  | propCells (name : String) (cells : List Int)
  | propStr (name val : String)
  | propStrlist (name : String) (vals : List String)
deriving DecidableEq, Repr

def FdtCall.apply (b : FdtBuilder) : FdtCall -> Except FdtError FdtBuilder
  | beginNode name => b.beginNode name
  | endNode => .ok b.endNode
  | propEmpty name => b.propEmpty name
  | propU32 name val => b.propU32 name val
  | propU64 name val => b.propU64 name val
  | propCells name cells => b.propCells name cells
  | propStr name val => b.propStr name val
  | propStrlist name vals => b.propStrlist name vals

def FdtBuilder.run (b : FdtBuilder) : List FdtCall -> Except FdtError FdtBuilder
  | [] => .ok b
  | call :: calls => do
    let b <- call.apply b
    b.run calls

/--
The blob that a new emitter builds after the calls.
-/
def assemble (calls : List FdtCall) : Except FdtError ByteString := do
  let b <- FdtBuilder.init.run calls
  let (blob, _) <- b.build
  return blob

/-!
# The validator
-/

structure Walk where
  depth : Nat
  maxDepth : Nat
  propCount : Nat
  i : Nat
deriving DecidableEq, Repr

def hexText (n : Nat) : String := "0x" ++ String.ofList (Nat.toDigits 16 n)

def Walk.beginNode (structBytes : ByteString) (s : Walk) : Except FdtError Walk :=
  match (structBytes.drop s.i).findIdx? (· == 0) with
  | none => .error .valueError
  | some n =>
      .ok
        { s with
          depth := s.depth + 1
          maxDepth := max s.maxDepth (s.depth + 1)
          i := s.i + alignUp 4 (n + 1) }

def Walk.endNode (s : Walk) : Except FdtError Walk := do
  assertThat (0 < s.depth) "END_NODE with no matching BEGIN_NODE"
  return { s with depth := s.depth - 1 }

def Walk.prop (structBytes stringsBytes : ByteString) (s : Walk) : Except FdtError Walk := do
  let words <- unpackWords 4 2 (slice structBytes s.i (s.i + 8))
  assertThat (words 1 < stringsBytes.length)
    ("prop nameoff " ++ toString (words 1) ++ " outside strings block")
  return { s with propCount := s.propCount + 1, i := s.i + 8 + alignUp 4 (words 0) }

/--
The body of the loop; the loop is left at the last token.
-/
def Walk.token (structBytes stringsBytes : ByteString) (s : Walk) :
    Except FdtError (Option Walk) := do
  let words <- unpackWords 4 1 (slice structBytes s.i (s.i + 4))
  let tok := words 0
  let s := { s with i := s.i + 4 }
  if tok = fdtBeginNode then (s.beginNode structBytes).map some
  else if tok = fdtEndNode then s.endNode.map some
  else if tok = fdtProp then (s.prop structBytes stringsBytes).map some
  else if tok = fdtEnd then .ok none
  else
    .error (.assertionError ("unknown structure token " ++ hexText tok ++
      " at struct-block offset " ++ toString (s.i - 4)))

theorem bind_eq_ok {alpha beta : Type} {x : Except FdtError alpha}
    {next : alpha -> Except FdtError beta} {b : beta} (h : x >>= next = .ok b) :
    exists a, x = .ok a ∧ next a = .ok b := by
  cases x with
  | error e => cases h
  | ok a => exact ⟨a, rfl, h⟩

theorem map_some_eq_ok {alpha : Type} {x : Except FdtError alpha} {a : alpha}
    (h : x.map some = .ok (some a)) : x = .ok a := by
  cases x with
  | error e => cases h
  | ok b =>
      cases h
      rfl

section

variable {structBytes stringsBytes : ByteString} {s s' : Walk}

theorem Walk.beginNode_forward (h : s.beginNode structBytes = .ok s') : s.i <= s'.i := by
  unfold Walk.beginNode at h
  cases hfound : (structBytes.drop s.i).findIdx? (· == 0) with
  | none =>
    rw [hfound] at h
    cases h
  | some n =>
    rw [hfound] at h
    cases h
    exact Nat.le_add_right _ _

theorem Walk.endNode_forward (h : s.endNode = .ok s') : s.i <= s'.i := by
  obtain ⟨_, _, hnext⟩ := bind_eq_ok h
  cases hnext
  exact Nat.le_refl _

theorem Walk.prop_forward (h : s.prop structBytes stringsBytes = .ok s') : s.i <= s'.i := by
  obtain ⟨words, _, hwords⟩ := bind_eq_ok h
  obtain ⟨_, _, hnext⟩ := bind_eq_ok hwords
  cases hnext
  exact Nat.le_trans (Nat.le_add_right _ 8) (Nat.le_add_right _ _)

theorem Walk.token_forward (h : s.token structBytes stringsBytes = .ok (some s')) :
    s.i < s'.i := by
  obtain ⟨words, _, hnext⟩ := bind_eq_ok h
  have hfour : s.i < s.i + 4 := Nat.lt_add_of_pos_right (by decide)
  dsimp only at hnext
  split_ifs at hnext with hbegin hend hprop hlast
  · exact Nat.lt_of_lt_of_le hfour (Walk.beginNode_forward (map_some_eq_ok hnext))
  · exact Nat.lt_of_lt_of_le hfour (Walk.endNode_forward (map_some_eq_ok hnext))
  · exact Nat.lt_of_lt_of_le hfour (Walk.prop_forward (map_some_eq_ok hnext))
  · cases hnext

end

/--
The loop, with whether it met the last token.
-/
def walk (structBytes stringsBytes : ByteString) (s : Walk) : Except FdtError (Walk × Bool) :=
  if s.i < structBytes.length then
    match _htoken : s.token structBytes stringsBytes with
    | .error e => .error e
    | .ok none => .ok (s, true)
    | .ok (some s') => walk structBytes stringsBytes s'
  else .ok (s, false)
termination_by structBytes.length - s.i
decreasing_by
  have hforward := Walk.token_forward _htoken
  omega

structure FdtInfo where
  maxDepth : Nat
  propCount : Nat
  totalsize : Nat
deriving DecidableEq, Repr

def parseAndValidate (blob : ByteString) : Except FdtError FdtInfo := do
  let header <- unpackWords 4 10 (slice blob 0 40)
  let totalsize := header 1
  let offStruct := header 2
  let offStrings := header 3
  let offRsvmap := header 4
  let sizeStrings := header 8
  let sizeStruct := header 9
  assertThat (header 0 = fdtMagic) ("bad magic: " ++ hexText (header 0))
  assertThat (totalsize = blob.length)
    ("totalsize " ++ toString totalsize ++ " != actual blob length " ++ toString blob.length)
  assertThat (offRsvmap = 40)
    ("off_mem_rsvmap " ++ toString offRsvmap ++ " != 40 (fixed header size)")
  assertThat (offStruct = offRsvmap + 16)
    "off_dt_struct doesn't immediately follow the (one-entry) rsvmap"
  assertThat (offStrings = offStruct + sizeStruct)
    "off_dt_strings doesn't immediately follow the struct block"
  assertThat (offStrings + sizeStrings = totalsize)
    "strings block doesn't end exactly at totalsize"
  let rsvmap <- unpackWords 8 2 (slice blob offRsvmap (offRsvmap + 16))
  assertThat (rsvmap 0 = 0 && rsvmap 1 = 0) "rsvmap not terminated by a (0,0) entry"
  let structBytes := slice blob offStruct (offStruct + sizeStruct)
  let stringsBytes := slice blob offStrings (offStrings + sizeStrings)
  let (s, sawEnd) <- walk structBytes stringsBytes
    { depth := 0, maxDepth := 0, propCount := 0, i := 0 }
  assertThat (s.depth = 0)
    ("unbalanced BEGIN_NODE/END_NODE, final depth " ++ toString s.depth)
  assertThat sawEnd "structure block never reached FDT_END"
  assertThat (2 <= s.maxDepth)
    ("suspiciously shallow tree (max_depth=" ++ toString s.maxDepth ++
      ") -- did node emission actually run?")
  assertThat (0 < s.propCount) "zero properties emitted"
  return { maxDepth := s.maxDepth, propCount := s.propCount, totalsize }

end Sim
end RvCores
