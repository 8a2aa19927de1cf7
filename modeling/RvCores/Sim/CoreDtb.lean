import RvCores.Sim.FdtSize

/-!
# The device tree of the core

One tree describes the hart, the memory, the serial port and the timer.  A few values are
arguments, among them the text of the boot arguments and the place of an initial file
system, which may be left out.
-/

namespace RvCores
namespace Sim

open Lib FlatTree

def cpuCalls (timebaseFreq : Int) : List FdtCall :=
  [.beginNode "cpus",
    .propU32 "#address-cells" 1,
    .propU32 "#size-cells" 0,
    .propU32 "timebase-frequency" timebaseFreq,
    .beginNode "cpu@0",
    .propU32 "phandle" 1,
    .propStr "device_type" "cpu",
    .propU32 "reg" 0,
    .propStr "status" "okay",
    .propStr "compatible" "riscv",
    .propStr "riscv,isa" "rv64imafd",
    .propStr "mmu-type" "riscv,sv39",
    .beginNode "interrupt-controller",
    .propU32 "#interrupt-cells" 1,
    .propEmpty "interrupt-controller",
    .propStr "compatible" "riscv,cpu-intc",
    .propU32 "phandle" 2,
    .endNode,
    .endNode,
    .endNode]

def memoryCalls (memSizeBytes : Int) : List FdtCall :=
  [.beginNode "memory@0",
    .propStr "device_type" "memory",
    .propCells "reg" [0, 0, 0, memSizeBytes],
    .endNode]

def socCalls (uartClockFreq : Int) : List FdtCall :=
  [.beginNode "soc",
    .propU32 "#address-cells" 2,
    .propU32 "#size-cells" 2,
    .propStr "compatible" "simple-bus",
    .propEmpty "ranges",
    .beginNode "uart@10000000",
    .propStr "compatible" "ns16550a",
    .propCells "reg" [0, 0x10000000, 0, 0x20],
    .propU32 "clock-frequency" uartClockFreq,
    .propU32 "reg-shift" 2,
    .propU32 "reg-io-width" 4,
    .endNode,
    .beginNode "clint@10100000",
    .propStr "compatible" "riscv,clint0",
    .propCells "reg" [0, 0x10100000, 0, 0x10000],
    .propCells "interrupts-extended" [2, 3, 2, 7],
    .endNode,
    .endNode]

/--
The two halves of an address; the mask of the lower half is made again by the emitter.
-/
def initrdCells (address : Int) : List Int := [address / 2 ^ 32, address % 2 ^ 32]

def initrdCalls : Option Int -> Option Int -> List FdtCall
  | some initrdStart, some initrdEnd =>
      [.propCells "linux,initrd-start" (initrdCells initrdStart),
        .propCells "linux,initrd-end" (initrdCells initrdEnd)]
  | _, _ => []

def thisCoreCalls (memSizeBytes timebaseFreq uartClockFreq : Int) (bootargs : String)
    (initrdStart initrdEnd : Option Int) : List FdtCall :=
  [.beginNode "",
    .propU32 "#address-cells" 2,
    .propU32 "#size-cells" 2,
    .propStr "compatible" "5-stage-pipelined-processor",
    .propStr "model" "5-stage-pipelined-processor,rv64"] ++
  cpuCalls timebaseFreq ++ memoryCalls memSizeBytes ++ socCalls uartClockFreq ++
  [.beginNode "chosen",
    .propStr "bootargs" bootargs,
    .propStr "stdout-path" "/soc/uart@10000000"] ++
  initrdCalls initrdStart initrdEnd ++ [.endNode, .endNode]

def buildThisCoreDtb (memSizeBytes timebaseFreq uartClockFreq : Int) (bootargs : String)
    (initrdStart initrdEnd : Option Int) : Except FdtError ByteString :=
  assemble
    (thisCoreCalls memSizeBytes timebaseFreq uartClockFreq bootargs initrdStart initrdEnd)

/-!
# What a reader finds
-/

def lookup (path : List String) (name : String) (tree : Forest) : Option ByteString :=
  (tree.descend (path.map asciiBytes)).bind fun place => place.valueOf (asciiBytes name)

/--
The tree tells the arguments, each as far as its cells reach.
-/
structure Describes (memSizeBytes timebaseFreq uartClockFreq : Int) (bootargs : String)
    (initrdStart initrdEnd : Option Int) (tree : Forest) : Prop where
  memory : exists reg, lookup ["", "memory@0"] "reg" tree = some reg ∧
    unpackBe (reg.take 8) = 0 ∧ (unpackBe (reg.drop 8) : Int) = memSizeBytes % 2 ^ 32
  timebase : exists freq, lookup ["", "cpus"] "timebase-frequency" tree = some freq ∧
    (unpackBe freq : Int) = timebaseFreq % 2 ^ 32
  uartClock : exists freq,
    lookup ["", "soc", "uart@10000000"] "clock-frequency" tree = some freq ∧
      (unpackBe freq : Int) = uartClockFreq % 2 ^ 32
  bootargs : lookup ["", "chosen"] "bootargs" tree = some (cString (asciiBytes bootargs))
  initrd : forall start stop, initrdStart = some start -> initrdEnd = some stop ->
    exists first last, lookup ["", "chosen"] "linux,initrd-start" tree = some first ∧
      lookup ["", "chosen"] "linux,initrd-end" tree = some last ∧
        (unpackBe first : Int) = start % 2 ^ 64 ∧ (unpackBe last : Int) = stop % 2 ^ 64
  noInitrd : initrdStart = none ∨ initrdEnd = none ->
    lookup ["", "chosen"] "linux,initrd-start" tree = none ∧
      lookup ["", "chosen"] "linux,initrd-end" tree = none

theorem unpackBe_masked (val : Int) :
    (unpackBe (FdtBuilder.masked 4 val) : Int) = val % 2 ^ 32 := by
  rw [FdtBuilder.masked, unpackBe_packBe (by omega)]
  omega

/--
The size takes two cells, and the upper one is always zero.
-/
theorem unpackBe_memoryReg (memSizeBytes : Int) :
    unpackBe (([0, 0, 0, memSizeBytes].flatMap (FdtBuilder.masked 4)).take 8) = 0 ∧
      (unpackBe (([0, 0, 0, memSizeBytes].flatMap (FdtBuilder.masked 4)).drop 8) : Int) =
        memSizeBytes % 2 ^ 32 := by
  have hzero : unpackBe (FdtBuilder.masked 4 0) = 0 := by
    have hmod := unpackBe_masked 0
    omega
  have htake : ([0, 0, 0, memSizeBytes].flatMap (FdtBuilder.masked 4)).take 8 =
      FdtBuilder.masked 4 0 ++ FdtBuilder.masked 4 0 := rfl
  have hdrop : ([0, 0, 0, memSizeBytes].flatMap (FdtBuilder.masked 4)).drop 8 =
      FdtBuilder.masked 4 0 ++ FdtBuilder.masked 4 memSizeBytes := rfl
  rw [htake, hdrop, unpackBe_append, unpackBe_append, hzero, Nat.zero_mul, Nat.zero_mul,
    Nat.zero_add, Nat.zero_add]
  exact ⟨rfl, unpackBe_masked memSizeBytes⟩

theorem unpackBe_initrdCells (address : Int) :
    (unpackBe ((initrdCells address).flatMap (FdtBuilder.masked 4)) : Int) =
      address % 2 ^ 64 := by
  have hsplit : (initrdCells address).flatMap (FdtBuilder.masked 4) =
      FdtBuilder.masked 4 (address / 2 ^ 32) ++ FdtBuilder.masked 4 (address % 2 ^ 32) := by
    simp [initrdCells]
  have hlength : (FdtBuilder.masked 4 (address % 2 ^ 32)).length = 4 := length_packBe 4 _
  rw [hsplit, unpackBe_append, hlength]
  push_cast
  rw [unpackBe_masked, unpackBe_masked]
  omega

/--
The calls for one choice of the values, with or without an initial file system.
-/
def sampleCalls (given : Bool) : List FdtCall :=
  thisCoreCalls 0 0 0 "" (if given then some 0 else none) (if given then some 0 else none)

theorem sampleCalls_nulFree : forall given name,
    name ∈ (sampleCalls given).map FdtCall.name -> NulFree name := by
  intro given
  cases given <;> decide

theorem sampleCalls_ascii : forall given text,
    text ∈ (sampleCalls given).flatMap FdtCall.texts -> Ascii text := by
  intro given
  cases given <;> exact ascii_of_all rfl

section

variable (memSizeBytes timebaseFreq uartClockFreq : Int) (bootargs : String)
  (initrdStart initrdEnd : Option Int)

theorem initrdCalls_cases : initrdCalls initrdStart initrdEnd = initrdCalls none none ∧
      (initrdStart = none ∨ initrdEnd = none) ∨
    exists start stop, initrdStart = some start ∧ initrdEnd = some stop := by
  cases initrdStart with
  | none => exact .inl ⟨rfl, .inl rfl⟩
  | some start =>
    cases initrdEnd with
    | none => exact .inl ⟨rfl, .inr rfl⟩
    | some stop => exact .inr ⟨start, stop, rfl, rfl⟩

/--
It is enough to look at both ends given or neither.
-/
theorem thisCoreCalls_cases :
    thisCoreCalls memSizeBytes timebaseFreq uartClockFreq bootargs initrdStart initrdEnd =
        thisCoreCalls memSizeBytes timebaseFreq uartClockFreq bootargs none none ∧
      (initrdStart = none ∨ initrdEnd = none) ∨
    exists start stop, initrdStart = some start ∧ initrdEnd = some stop := by
  rcases initrdCalls_cases initrdStart initrdEnd with ⟨hcalls, habsent⟩ | hgiven
  · rw [thisCoreCalls, thisCoreCalls, hcalls]
    exact .inl ⟨rfl, habsent⟩
  · exact .inr hgiven

theorem thisCoreCalls_nested :
    Nested 0 ((thisCoreCalls memSizeBytes timebaseFreq uartClockFreq bootargs initrdStart
      initrdEnd).map FdtCall.event) := by
  rcases thisCoreCalls_cases memSizeBytes timebaseFreq uartClockFreq bootargs initrdStart
    initrdEnd with ⟨hcalls, _⟩ | ⟨start, stop, rfl, rfl⟩
  · rw [hcalls]
    exact (rfl : (0 : Nat) = 0)
  · exact (rfl : (0 : Nat) = 0)

theorem thisCoreCalls_names :
    (thisCoreCalls memSizeBytes timebaseFreq uartClockFreq bootargs initrdStart
      initrdEnd).map FdtCall.name =
        (sampleCalls (initrdStart.isSome && initrdEnd.isSome)).map FdtCall.name := by
  cases initrdStart <;> cases initrdEnd <;> rfl

/--
The boot arguments are the one text that is an argument.
-/
theorem thisCoreCalls_texts :
    (thisCoreCalls memSizeBytes timebaseFreq uartClockFreq bootargs initrdStart
      initrdEnd).flatMap FdtCall.texts =
        ((sampleCalls (initrdStart.isSome && initrdEnd.isSome)).flatMap
          FdtCall.texts).set 54 bootargs := by
  cases initrdStart <;> cases initrdEnd <;> rfl

theorem thisCoreCalls_ascii (hascii : Ascii bootargs) : forall call,
    call ∈ thisCoreCalls memSizeBytes timebaseFreq uartClockFreq bootargs initrdStart
      initrdEnd -> forall s, s ∈ call.texts -> Ascii s := by
  intro call hcall s hs
  have hmem : s ∈ (thisCoreCalls memSizeBytes timebaseFreq uartClockFreq bootargs initrdStart
      initrdEnd).flatMap FdtCall.texts := List.mem_flatMap.mpr ⟨call, hcall, hs⟩
  rw [thisCoreCalls_texts] at hmem
  rcases List.mem_or_eq_of_mem_set hmem with hsample | rfl
  · exact sampleCalls_ascii _ s hsample
  · exact hascii

theorem describes_none :
    Describes memSizeBytes timebaseFreq uartClockFreq bootargs none none
      (forestOf ((thisCoreCalls memSizeBytes timebaseFreq uartClockFreq bootargs none
        none).map FdtCall.event)) where
  memory := ⟨[0, 0, 0, memSizeBytes].flatMap (FdtBuilder.masked 4), rfl,
    unpackBe_memoryReg memSizeBytes⟩
  timebase := ⟨FdtBuilder.masked 4 timebaseFreq, rfl, unpackBe_masked _⟩
  uartClock := ⟨FdtBuilder.masked 4 uartClockFreq, rfl, unpackBe_masked _⟩
  bootargs := rfl
  initrd := fun _ _ hstart => nomatch hstart
  noInitrd := fun _ => ⟨rfl, rfl⟩

theorem describes_some (start stop : Int) :
    Describes memSizeBytes timebaseFreq uartClockFreq bootargs (some start) (some stop)
      (forestOf ((thisCoreCalls memSizeBytes timebaseFreq uartClockFreq bootargs (some start)
        (some stop)).map FdtCall.event)) where
  memory := ⟨[0, 0, 0, memSizeBytes].flatMap (FdtBuilder.masked 4), rfl,
    unpackBe_memoryReg memSizeBytes⟩
  timebase := ⟨FdtBuilder.masked 4 timebaseFreq, rfl, unpackBe_masked _⟩
  uartClock := ⟨FdtBuilder.masked 4 uartClockFreq, rfl, unpackBe_masked _⟩
  bootargs := rfl
  initrd := by
    intro start' stop' hstart hstop
    cases hstart
    cases hstop
    exact ⟨(initrdCells start).flatMap (FdtBuilder.masked 4),
      (initrdCells stop).flatMap (FdtBuilder.masked 4), rfl, rfl,
      unpackBe_initrdCells start, unpackBe_initrdCells stop⟩
  noInitrd := by
    rintro (hstart | hstop)
    · cases hstart
    · cases hstop

theorem describes_forestOf :
    Describes memSizeBytes timebaseFreq uartClockFreq bootargs initrdStart initrdEnd
      (forestOf ((thisCoreCalls memSizeBytes timebaseFreq uartClockFreq bootargs initrdStart
        initrdEnd).map FdtCall.event)) := by
  rcases thisCoreCalls_cases memSizeBytes timebaseFreq uartClockFreq bootargs initrdStart
    initrdEnd with ⟨hcalls, habsent⟩ | ⟨start, stop, rfl, rfl⟩
  · have hnone := describes_none memSizeBytes timebaseFreq uartClockFreq bootargs
    rw [hcalls]
    refine { hnone with initrd := ?_, noInitrd := fun _ => hnone.noInitrd (.inl rfl) }
    intro start stop hstart hstop
    rcases habsent with rfl | rfl
    · cases hstart
    · cases hstop
  · exact describes_some memSizeBytes timebaseFreq uartClockFreq bootargs start stop

theorem thisCoreTree_counts :
    (forestOf ((thisCoreCalls memSizeBytes timebaseFreq uartClockFreq bootargs initrdStart
        initrdEnd).map FdtCall.event)).depth = 4 ∧
      (forestOf ((thisCoreCalls memSizeBytes timebaseFreq uartClockFreq bootargs initrdStart
        initrdEnd).map FdtCall.event)).propCount ≠ 0 := by
  rcases thisCoreCalls_cases memSizeBytes timebaseFreq uartClockFreq bootargs initrdStart
    initrdEnd with ⟨hcalls, _⟩ | ⟨start, stop, rfl, rfl⟩
  · rw [hcalls]
    exact ⟨rfl, Nat.succ_ne_zero _⟩
  · exact ⟨rfl, Nat.succ_ne_zero _⟩

/--
The blob for the core is built whenever the boot arguments are ASCII text that fits.  It is
read as a tree that tells the arguments, and the self-check accepts it.
-/
theorem buildThisCoreDtb_describes (hascii : Ascii bootargs)
    (hfits : blobLength (thisCoreCalls memSizeBytes timebaseFreq uartClockFreq bootargs
      initrdStart initrdEnd) < 2 ^ 32) :
    exists blob tree,
      buildThisCoreDtb memSizeBytes timebaseFreq uartClockFreq bootargs initrdStart initrdEnd =
          .ok blob ∧
        parseBlob blob = some { reservations := [], bootCpu := 0, forest := tree } ∧
          Describes memSizeBytes timebaseFreq uartClockFreq bootargs initrdStart initrdEnd
              tree ∧
            exists info, parseAndValidate blob = .ok info := by
  obtain ⟨blob, hblob⟩ := assemble_ok (thisCoreCalls_ascii memSizeBytes timebaseFreq
    uartClockFreq bootargs initrdStart initrdEnd hascii) hfits
  have hfree : forall call, call ∈ thisCoreCalls memSizeBytes timebaseFreq uartClockFreq
      bootargs initrdStart initrdEnd -> NulFree call.name := by
    intro call hcall
    have hname := List.mem_map_of_mem (f := FdtCall.name) hcall
    rw [thisCoreCalls_names] at hname
    exact sampleCalls_nulFree _ _ hname
  obtain ⟨hparse, hvalid⟩ := assemble_reads
    (thisCoreCalls_nested memSizeBytes timebaseFreq uartClockFreq bootargs initrdStart
      initrdEnd) hfree hblob
  have hdescribes := describes_forestOf memSizeBytes timebaseFreq uartClockFreq bootargs
    initrdStart initrdEnd
  refine ⟨blob, _, hblob, hparse, hdescribes, ?_⟩
  obtain ⟨hdepth, hcount⟩ := thisCoreTree_counts memSizeBytes timebaseFreq uartClockFreq
    bootargs initrdStart initrdEnd
  rw [hvalid, verdict, hdepth, if_neg (by decide), if_neg hcount]
  exact ⟨_, rfl⟩

end

/--
The values that the command line has by default.
-/
theorem buildThisCoreDtb_describes_default :
    exists blob tree,
      buildThisCoreDtb 0x2000000 1000000 1843200 "console=ttyS0 earlycon" none none =
          .ok blob ∧
        parseBlob blob = some { reservations := [], bootCpu := 0, forest := tree } ∧
          Describes 0x2000000 1000000 1843200 "console=ttyS0 earlycon" none none tree ∧
            exists info, parseAndValidate blob = .ok info :=
  buildThisCoreDtb_describes 0x2000000 1000000 1843200 "console=ttyS0 earlycon" none none
    (@ascii_of_all ["console=ttyS0 earlycon"] rfl _ (List.mem_singleton_self _))
    (by decide)

end Sim
end RvCores
