import RvCores.Soc.HandoffProtocol

/-!
# The programs follow the protocol

Every point of a party stands for one instruction of its program, and what the registers,
the mailbox and the data on its way hold there is known.  The mailbox has room for sixty
items.
-/

namespace RvCores
namespace Soc
namespace Handoff

open Block Lib

/-!
# Words and addresses
-/

def wordAddress (j : Nat) : BitVec 64 := mailboxBase + (BitVec.ofNat 12 (4 * j)).signExtend 64

theorem mailboxHit_wordAddress {j : Nat} (h : j < 64) : mailboxHit (wordAddress j) = true := by
  revert j
  decide

theorem wordIndex_wordAddress {j : Nat} (h : j < 64) :
    Mailbox.wordIndex mailboxWords (wordAddress j) = j := by
  revert j
  decide

theorem wordAddress_succ {j : Nat} (h : j < 64) :
    wordAddress j + (4 : BitVec 12).signExtend 64 = wordAddress (j + 1) := by
  revert j
  decide

/-!
# Items
-/

def itemAt (items : List (BitVec 12)) (k : Nat) : BitVec 64 := (items.getD k 0).signExtend 64

def total (items : List (BitVec 12)) : Nat -> BitVec 64
  | 0 => 0
  | k + 1 => total items k + itemAt items k

def countOf (items : List (BitVec 12)) : BitVec 64 := BitVec.ofNat 64 items.length

theorem total_cons (item : BitVec 12) (items : List (BitVec 12)) (k : Nat) :
    total (item :: items) (k + 1) = item.signExtend 64 + total items k := by
  induction k with
  | zero => exact BitVec.add_comm _ _
  | succ k ih =>
      change total (item :: items) (k + 1) + itemAt items k = _ + (total items k + _)
      rw [ih, BitVec.add_assoc]

theorem total_length (items : List (BitVec 12)) :
    total items items.length = (items.map fun item => item.signExtend 64).sum := by
  induction items with
  | nil => rfl
  | cons item items ih =>
      rw [List.length_cons, total_cons, ih, List.map_cons, List.sum_cons]

/-!
# Points and instructions
-/

def Producer.pc (n : Nat) : Producer -> Nat
  | lui => 0
  | addiCount => 1
  | swCount => 2
  | addiItem k => 3 + 2 * k
  | swItem k => 4 + 2 * k
  | addiGo => 3 + 2 * n
  | swGo => 4 + 2 * n
  | lwDone => 5 + 2 * n
  | beqDone _ => 6 + 2 * n
  | lwResult => 7 + 2 * n
  | fence => 8 + 2 * n
  | halt => 9 + 2 * n

def Producer.instr (items : List (BitVec 12)) : Producer -> Instr
  | lui => .lui 31 0x10200
  | addiCount => .addi 1 0 (BitVec.ofNat 12 items.length)
  | swCount => .sw 1 4 31
  | addiItem k => .addi 1 0 (items.getD k 0)
  | swItem k => .sw 1 (BitVec.ofNat 12 (16 + 4 * k)) 31
  | addiGo => .addi 1 0 1
  | swGo => .sw 1 0 31
  | lwDone => .lw 2 8 31
  | beqDone _ => .beq 2 0 (5 + 2 * items.length)
  | lwResult => .lw 10 12 31
  | fence => .fence
  | halt => .jal (9 + 2 * items.length)

theorem length_storeItems (j : Nat) (items : List (BitVec 12)) :
    (storeItems j items).length = 2 * items.length := by
  induction items generalizing j with
  | nil => rfl
  | cons item items ih =>
      rw [storeItems, List.length_cons, List.length_cons, ih, List.length_cons]
      omega

theorem getElem?_storeItems {items : List (BitVec 12)} {k : Nat} (h : k < items.length)
    (j : Nat) :
    (storeItems j items)[2 * k]? = some (.addi 1 0 (items.getD k 0)) ∧
      (storeItems j items)[2 * k + 1]? =
        some (.sw 1 (BitVec.ofNat 12 (16 + 4 * (j + k))) 31) := by
  induction items generalizing j k with
  | nil => exact absurd h (Nat.not_lt_zero k)
  | cons item items ih =>
      cases k with
      | zero => exact ⟨rfl, rfl⟩
      | succ k =>
          have hrest := ih (Nat.lt_of_succ_lt_succ h) (j + 1)
          rw [Nat.add_right_comm, Nat.add_assoc] at hrest
          exact hrest

theorem getElem?_heteroPipelined {items : List (BitVec 12)} {p : Producer}
    (h : p.InRange items.length) :
    (heteroPipelined items)[p.pc items.length]? = some (p.instr items) := by
  have hlen := length_storeItems 0 items
  have htail : forall j i, j = 3 + 2 * items.length + i -> (heteroPipelined items)[j]? =
      [Instr.addi 1 0 1, .sw 1 0 31, .lw 2 8 31, .beq 2 0 (5 + 2 * items.length), .lw 10 12 31,
        .fence, .jal (9 + 2 * items.length)][i]? := by
    intro j i hj
    unfold heteroPipelined
    rw [hj, List.getElem?_append_right (by rw [List.length_append, hlen]; simp),
      List.length_append, hlen]
    congr 1
    simp
  have hitem : forall j i, j = 3 + i -> i < 2 * items.length ->
      (heteroPipelined items)[j]? = (storeItems 0 items)[i]? := by
    intro j i hj hi
    unfold heteroPipelined
    rw [hj, List.getElem?_append_left (by rw [List.length_append, hlen]; simp; omega),
      List.getElem?_append_right (by simp)]
    congr 1
    simp
  cases p with
  | lui => rfl
  | addiCount => rfl
  | swCount => rfl
  | addiItem k =>
      have hk : k < items.length := h
      exact (hitem _ (2 * k) rfl (by omega)).trans (getElem?_storeItems hk 0).left
  | swItem k =>
      have hk : k < items.length := h
      have hget := (getElem?_storeItems hk 0).right
      rw [Nat.zero_add] at hget
      exact (hitem _ (2 * k + 1) (Nat.add_right_comm 3 1 _) (by omega)).trans hget
  | addiGo => exact htail _ 0 rfl
  | swGo => exact htail _ 1 (Nat.add_right_comm 3 1 _)
  | lwDone => exact htail _ 2 (Nat.add_right_comm 3 2 _)
  | beqDone seen => exact htail _ 3 (Nat.add_right_comm 3 3 _)
  | lwResult => exact htail _ 4 (Nat.add_right_comm 3 4 _)
  | fence => exact htail _ 5 (Nat.add_right_comm 3 5 _)
  | halt => exact htail _ 6 (Nat.add_right_comm 3 6 _)

/-!
# Registers
-/

theorem reg_setReg_self (h : Hart) {r : Nat} (hr : r ≠ 0) (x : BitVec 64) :
    (h.setReg r x).reg r = x := by
  unfold Hart.reg
  rw [if_neg hr]
  exact setAt_self h.regs r x

theorem reg_setReg_of_ne (h : Hart) {r r' : Nat} (hne : r' ≠ r) (x : BitVec 64) :
    (h.setReg r x).reg r' = h.reg r' := by
  unfold Hart.reg
  congr 1
  exact setAt_of_ne hne

theorem reg_addi (h : Hart) {rd : Nat} (hrd : rd ≠ 0) (rs1 : Nat) (imm : BitVec 12) :
    (Instr.exec h (.addi rd rs1 imm)).reg rd = h.reg rs1 + imm.signExtend 64 :=
  reg_setReg_self h hrd _

theorem reg_addi_of_ne (h : Hart) {rd r : Nat} (hne : r ≠ rd) (rs1 : Nat) (imm : BitVec 12) :
    (Instr.exec h (.addi rd rs1 imm)).reg r = h.reg r :=
  reg_setReg_of_ne h hne _

theorem reg_li (h : Hart) {rd : Nat} (hrd : rd ≠ 0) (imm : BitVec 12) :
    (Instr.exec h (.addi rd 0 imm)).reg rd = imm.signExtend 64 :=
  (reg_addi h hrd 0 imm).trans (BitVec.zero_add _)

/-!
# The in-order core
-/

def Producer.RegsAt (items : List (BitVec 12)) (h : Hart) : Producer -> Prop
  | swCount => h.reg 1 = countOf items
  | swItem k => h.reg 1 = itemAt items k
  | swGo => h.reg 1 = 1
  | beqDone seen => h.reg 2 = if seen then 1 else 0
  | fence | halt => h.reg 10 = total items items.length
  | _ => True

structure ProducerAt (items : List (BitVec 12)) (p : Producer) (h : Hart) : Prop where
  pc : h.pc = p.pc items.length
  base : p ≠ .lui -> h.reg 31 = mailboxBase
  regs : p.RegsAt items h

/--
The word that a load of the producer reads.
-/
def Producer.loads : Producer -> Option Nat
  | lwDone => some 2
  | lwResult => some 3
  | _ => none

def Producer.stores (items : List (BitVec 12)) : Producer -> Option (Nat × BitVec 64)
  | swCount => some (1, countOf items)
  | swItem k => some (4 + k, itemAt items k)
  | swGo => some (0, 1)
  | _ => none

def Producer.Data (items : List (BitVec 12)) (finished : Bool) (x : BitVec 64) :
    Producer -> Prop
  | lwDone => x = if finished then 1 else 0
  | lwResult => x = total items items.length
  | _ => True

theorem signExtend_ofNat {n : Nat} (h : n < 2 ^ 11) :
    (BitVec.ofNat 12 n).signExtend 64 = BitVec.ofNat 64 n := by
  rw [BitVec.signExtend_eq_setWidth_of_msb_false]
  · apply BitVec.eq_of_toNat_eq
    rw [BitVec.toNat_setWidth, BitVec.toNat_ofNat, BitVec.toNat_ofNat]
    omega
  · rw [BitVec.msb_eq_false_iff_two_mul_lt, BitVec.toNat_ofNat]
    omega

theorem ProducerAt.getElem {items : List (BitVec 12)} {p : Producer} {h : Hart}
    (hat : ProducerAt items p h) (hrange : p.InRange items.length) :
    (heteroPipelined items)[h.pc]? = some (p.instr items) := by
  rw [hat.pc]
  exact getElem?_heteroPipelined hrange

theorem address_of_base {h : Hart} (hbase : h.reg 31 = mailboxBase) {off : BitVec 12} {j : Nat}
    (hoff : off = BitVec.ofNat 12 (4 * j)) : h.address off 31 = wordAddress j := by
  unfold Hart.address
  rw [hbase, hoff]
  rfl

theorem hit_of_base {h : Hart} (hbase : h.reg 31 = mailboxBase) {off : BitVec 12} {j : Nat}
    (hoff : off = BitVec.ofNat 12 (4 * j)) (hj : j < 64) :
    mailboxHit (h.address off 31) = true := by
  rw [address_of_base hbase hoff]
  exact mailboxHit_wordAddress hj

theorem load_of_base {h : Hart} (hbase : h.reg 31 = mailboxBase) {off : BitVec 12} {j : Nat}
    (hoff : off = BitVec.ofNat 12 (4 * j)) (hj : j < 64) :
    (if mailboxHit (h.address off 31) then some (h.address off 31) else none) =
      some (wordAddress j) := by
  rw [if_pos (hit_of_base hbase hoff hj), address_of_base hbase hoff]

theorem store_of_base {h : Hart} (hbase : h.reg 31 = mailboxBase) {off : BitVec 12} {j : Nat}
    (hoff : off = BitVec.ofNat 12 (4 * j)) (hj : j < 64) {r : Nat} {x : BitVec 64}
    (hreg : h.reg r = x) :
    (if mailboxHit (h.address off 31) then some (h.address off 31, h.reg r) else none) =
      some (wordAddress j, x) := by
  rw [if_pos (hit_of_base hbase hoff hj), address_of_base hbase hoff, hreg]

theorem producerAt_nextItem {items : List (BitVec 12)} {h : Hart} {k : Nat}
    (hk : k <= items.length) (hpc : h.pc = 3 + 2 * k) (hbase : h.reg 31 = mailboxBase) :
    ProducerAt items (Producer.nextItem items.length k) h := by
  unfold Producer.nextItem
  split
  · exact ⟨hpc, fun _ => hbase, trivial⟩
  · have hend : k = items.length := by omega
    rw [hend] at hpc
    exact ⟨hpc, fun _ => hbase, trivial⟩

theorem producerAt_move {items : List (BitVec 12)} {p : Producer} {h : Hart}
    {finished : Bool} {x : BitVec 64} (hlen : items.length <= 60)
    (hat : ProducerAt items p h) (hrange : p.InRange items.length)
    (hdata : p.Data items finished x) :
    ProducerAt items (p.next items.length finished)
      (h.movePipelined (heteroPipelined items) x) := by
  have hget := hat.getElem hrange
  have hpc := hat.pc
  unfold Hart.movePipelined
  rw [hget]
  cases p with
  | lui =>
      refine ⟨congrArg (· + 1) hpc, fun _ => ?_, trivial⟩
      exact (reg_setReg_self h (show 31 ≠ 0 by decide) _).trans
        (show ((0x10200 : BitVec 20) ++ 0#12).signExtend 64 = mailboxBase by decide)
  | addiCount =>
      exact ⟨congrArg (· + 1) hpc,
        fun _ => (reg_addi_of_ne h (show 31 ≠ 1 by decide) 0 _).trans (hat.base nofun),
        (reg_li h (show 1 ≠ 0 by decide) _).trans (signExtend_ofNat (by omega))⟩
  | swCount =>
      have hbase := hat.base nofun
      dsimp only [Producer.instr]
      rw [if_pos (@hit_of_base h hbase 4 1 rfl (by decide))]
      exact producerAt_nextItem (Nat.zero_le _) (congrArg (· + 1) hpc) hbase
  | addiItem k =>
      refine ⟨(congrArg (· + 1) hpc).trans (Nat.add_right_comm 3 _ 1),
        fun _ => (reg_addi_of_ne h (show 31 ≠ 1 by decide) 0 _).trans (hat.base nofun), ?_⟩
      exact reg_li h (show 1 ≠ 0 by decide) _
  | swItem k =>
      have hk : k < items.length := hrange
      have hbase := hat.base nofun
      have hoff : 16 + 4 * k = 4 * (4 + k) := by omega
      dsimp only [Producer.instr]
      rw [if_pos (hit_of_base hbase (congrArg _ hoff) (by omega))]
      refine producerAt_nextItem hk ?_ hbase
      change h.pc + 1 = 3 + 2 * (k + 1)
      rw [hpc]
      change 4 + 2 * k + 1 = 3 + 2 * (k + 1)
      omega
  | addiGo =>
      refine ⟨(congrArg (· + 1) hpc).trans (Nat.add_right_comm 3 _ 1),
        fun _ => (reg_addi_of_ne h (show 31 ≠ 1 by decide) 0 _).trans (hat.base nofun), ?_⟩
      exact (reg_li h (show 1 ≠ 0 by decide) _).trans (by decide)
  | swGo =>
      have hbase := hat.base nofun
      dsimp only [Producer.instr]
      rw [if_pos (@hit_of_base h hbase 0 0 rfl (by decide))]
      exact ⟨(congrArg (· + 1) hpc).trans (Nat.add_right_comm 4 _ 1), fun _ => hbase, trivial⟩
  | lwDone =>
      have hbase := hat.base nofun
      dsimp only [Producer.instr]
      rw [if_pos (@hit_of_base h hbase 8 2 rfl (by decide))]
      exact ⟨(congrArg (· + 1) hpc).trans (Nat.add_right_comm 5 _ 1),
        fun _ => (reg_setReg_of_ne h (show 31 ≠ 2 by decide) x).trans hbase,
        (reg_setReg_self h (show 2 ≠ 0 by decide) _).trans hdata⟩
  | beqDone seen =>
      have hseen : h.reg 2 = if seen then 1 else 0 := hat.regs
      change ProducerAt items _ (if h.reg 2 = 0 then _ else _)
      rw [hseen]
      cases seen with
      | false => exact ⟨rfl, fun _ => hat.base nofun, trivial⟩
      | true =>
          exact ⟨(congrArg (· + 1) hpc).trans (Nat.add_right_comm 6 _ 1),
            fun _ => hat.base nofun, trivial⟩
  | lwResult =>
      have hbase := hat.base nofun
      dsimp only [Producer.instr]
      rw [if_pos (@hit_of_base h hbase 12 3 rfl (by decide))]
      exact ⟨(congrArg (· + 1) hpc).trans (Nat.add_right_comm 7 _ 1),
        fun _ => (reg_setReg_of_ne h (show 31 ≠ 10 by decide) x).trans hbase,
        (reg_setReg_self h (show 10 ≠ 0 by decide) _).trans hdata⟩
  | fence =>
      exact ⟨(congrArg (· + 1) hpc).trans (Nat.add_right_comm 8 _ 1),
        fun _ => hat.base nofun, hat.regs⟩
  | halt => exact ⟨rfl, fun _ => hat.base nofun, hat.regs⟩

theorem producerAt_load {items : List (BitVec 12)} {p : Producer} {h : Hart}
    (hat : ProducerAt items p h) (hrange : p.InRange items.length) :
    h.loadAddress (heteroPipelined items) = p.loads.map wordAddress := by
  unfold Hart.loadAddress
  rw [hat.getElem hrange]
  cases p with
  | lwDone => exact @load_of_base h (hat.base nofun) 8 2 rfl (by decide)
  | lwResult => exact @load_of_base h (hat.base nofun) 12 3 rfl (by decide)
  | _ => rfl

theorem producerAt_store {items : List (BitVec 12)} {p : Producer} {h : Hart}
    (hlen : items.length <= 60) (hat : ProducerAt items p h)
    (hrange : p.InRange items.length) :
    h.store (heteroPipelined items) =
      (p.stores items).map fun st => (wordAddress st.1, st.2) := by
  unfold Hart.store
  rw [hat.getElem hrange]
  cases p with
  | swCount => exact @store_of_base h (hat.base nofun) 4 1 rfl (by decide) 1 _ hat.regs
  | swItem k =>
      have hk : k < items.length := hrange
      have hoff : BitVec.ofNat 12 (16 + 4 * k) = BitVec.ofNat 12 (4 * (4 + k)) :=
        congrArg _ (by omega)
      exact @store_of_base h (hat.base nofun) _ _ hoff (by omega) 1 _ hat.regs
  | swGo => exact @store_of_base h (hat.base nofun) 0 0 rfl (by decide) 1 _ hat.regs
  | _ => rfl

/-!
# The out-of-order core
-/

def Worker.pc : Worker -> Nat
  | base k => k
  | lwGo | lwGoBack _ => 4
  | beqGo _ => 5
  | lwCount | lwCountBack => 6
  | clearSum => 7
  | clearIndex => 8
  | firstItem => 9
  | beqEnd _ => 10
  | lwItem _ | lwItemBack _ => 11
  | addItem _ => 12
  | nextItem _ => 13
  | nextIndex _ => 14
  | again _ => 15
  | swResult => 16
  | addiDone => 17
  | swDone => 18
  | halt => 19

def Worker.waits : Worker -> Bool
  | lwGoBack _ | lwCountBack | lwItemBack _ => true
  | _ => false

/--
The address register after the first instructions.
-/
def baseSoFar : Nat -> BitVec 64
  | 1 => 64
  | 2 => 64 <<< 11
  | 3 => (64 <<< 11) + 1024
  | _ => 0

/--
The registers in the loop, with the sum, the index and the item reached.
-/
structure InLoop (items : List (BitVec 12)) (sum : BitVec 64) (index word : Nat) (h : Hart) :
    Prop where
  count : h.reg 2 = countOf items
  sum : h.reg 3 = sum
  index : h.reg 4 = BitVec.ofNat 64 index
  item : h.reg 9 = wordAddress word

def Worker.RegsAt (items : List (BitVec 12)) (h : Hart) (back : BitVec 64) : Worker -> Prop
  | base k => k ≠ 0 -> h.reg 31 = baseSoFar k
  | lwGoBack seen => back = if seen then 1 else 0
  | beqGo seen => h.reg 1 = if seen then 1 else 0
  | lwCountBack => back = countOf items
  | clearSum => h.reg 2 = countOf items
  | clearIndex => h.reg 2 = countOf items ∧ h.reg 3 = 0
  | firstItem => h.reg 2 = countOf items ∧ h.reg 3 = 0 ∧ h.reg 4 = 0
  | beqEnd k | lwItem k => InLoop items (total items k) k (4 + k) h
  | lwItemBack k => InLoop items (total items k) k (4 + k) h ∧ back = itemAt items k
  | addItem k => InLoop items (total items k) k (4 + k) h ∧ h.reg 5 = itemAt items k
  | nextItem k => InLoop items (total items (k + 1)) k (4 + k) h
  | nextIndex k => InLoop items (total items (k + 1)) k (4 + (k + 1)) h
  | again k => InLoop items (total items (k + 1)) (k + 1) (4 + (k + 1)) h
  | swResult => h.reg 3 = total items items.length
  | swDone => h.reg 6 = 1
  | _ => True

def Worker.booted : Worker -> Bool
  | base _ => false
  | _ => true

structure WorkerAt (items : List (BitVec 12)) (q : Worker) (h : Hart) (back : BitVec 64) :
    Prop where
  pc : h.pc = q.pc
  waiting : h.waiting = q.waits
  base : q.booted = true -> h.reg 31 = mailboxBase
  regs : q.RegsAt items h back

def Worker.loads : Worker -> Option Nat
  | lwGo | lwGoBack _ => some 0
  | lwCount | lwCountBack => some 1
  | lwItem k | lwItemBack k => some (4 + k)
  | _ => none

def Worker.stores (items : List (BitVec 12)) : Worker -> Option (Nat × BitVec 64)
  | swResult => some (3, total items items.length)
  | swDone => some (2, 1)
  | _ => none

/--
What a load that the worker asks for in this cycle brings back.
-/
def Worker.Data (items : List (BitVec 12)) (raised : Bool) (back : BitVec 64) :
    Worker -> Prop
  | lwGo => back = if raised then 1 else 0
  | lwCount => back = countOf items
  | lwItem k => back = itemAt items k
  | _ => True

def Worker.instr : Worker -> Instr
  | base 0 => .addi 31 0 64
  | base 2 => .addi 31 31 1024
  | base _ => .slli 31 31 11
  | lwGo | lwGoBack _ => .lw 1 0 31
  | beqGo _ => .beq 1 0 4
  | lwCount | lwCountBack => .lw 2 4 31
  | clearSum => .addi 3 0 0
  | clearIndex => .addi 4 0 0
  | firstItem => .addi 9 31 16
  | beqEnd _ => .beq 4 2 16
  | lwItem _ | lwItemBack _ => .lw 5 0 9
  | addItem _ => .add 3 3 5
  | nextItem _ => .addi 9 9 4
  | nextIndex _ => .addi 4 4 1
  | again _ => .beq 0 0 10
  | swResult => .sw 3 12 31
  | addiDone => .addi 6 0 1
  | swDone => .sw 6 8 31
  | halt => .beq 0 0 19

theorem WorkerAt.getElem {items : List (BitVec 12)} {q : Worker} {h : Hart}
    {back : BitVec 64} (hat : WorkerAt items q h back) (hrange : q.InRange items.length) :
    heteroOooN1[h.pc]? = some q.instr := by
  rw [hat.pc]
  cases q with
  | base k =>
      have hboot : forall k, k < 4 -> heteroOooN1[k]? = some (Worker.base k).instr := by decide
      exact hboot k hrange
  | _ => rfl

theorem InLoop.of_regs {items : List (BitVec 12)} {sum : BitVec 64} {index word : Nat}
    {h h' : Hart} (hloop : InLoop items sum index word h) (h2 : h'.reg 2 = h.reg 2)
    (h3 : h'.reg 3 = h.reg 3) (h4 : h'.reg 4 = h.reg 4) (h9 : h'.reg 9 = h.reg 9) :
    InLoop items sum index word h' :=
  ⟨h2.trans hloop.count, h3.trans hloop.sum, h4.trans hloop.index, h9.trans hloop.item⟩

theorem countOf_eq_iff {items : List (BitVec 12)} {k : Nat} (hlen : items.length <= 60)
    (hk : k <= items.length) : BitVec.ofNat 64 k = countOf items <-> k = items.length := by
  unfold countOf
  constructor
  · intro h
    have hnat := congrArg BitVec.toNat h
    rw [BitVec.toNat_ofNat, BitVec.toNat_ofNat] at hnat
    omega
  · exact congrArg _

theorem exec_base {k : Nat} (hk : k < 4) {h : Hart}
    (hreg : k ≠ 0 -> h.reg 31 = baseSoFar k) :
    ((Worker.base k).instr.exec h).pc = h.pc + 1 ∧
      ((Worker.base k).instr.exec h).waiting = h.waiting ∧
      ((Worker.base k).instr.exec h).reg 31 =
        if k < 3 then baseSoFar (k + 1) else mailboxBase := by
  match k, hk with
  | 0, _ => exact ⟨rfl, rfl, (reg_li h (show 31 ≠ 0 by decide) 64).trans (by decide)⟩
  | 1, _ =>
      refine ⟨rfl, rfl, ?_⟩
      refine (reg_setReg_self h (show 31 ≠ 0 by decide) (h.reg 31 <<< 11)).trans ?_
      rw [hreg nofun]
      decide
  | 2, _ =>
      refine ⟨rfl, rfl, (reg_addi h (show 31 ≠ 0 by decide) 31 1024).trans ?_⟩
      rw [hreg nofun]
      decide
  | 3, _ =>
      refine ⟨rfl, rfl, ?_⟩
      refine (reg_setReg_self h (show 31 ≠ 0 by decide) (h.reg 31 <<< 11)).trans ?_
      rw [hreg nofun]
      decide

/--
One move of the out-of-order core at a point where it neither asks for data nor takes it.
-/
theorem workerAt_exec {items : List (BitVec 12)} {q : Worker} {h : Hart}
    {back back' : BitVec 64} {raised : Bool} (hlen : items.length <= 60)
    (hat : WorkerAt items q h back) (hrange : q.InRange items.length)
    (hloads : q.loads = none) (hstores : q.stores items = none) :
    WorkerAt items (q.next items.length raised) (q.instr.exec h) back' := by
  have hpc := hat.pc
  have hwaiting := hat.waiting
  cases q with
  | base k =>
      have hk : k < 4 := hrange
      obtain ⟨hplace, hidle, hreg⟩ := exec_base hk hat.regs
      rw [hpc] at hplace
      rw [hwaiting] at hidle
      change WorkerAt items (if k < 3 then .base (k + 1) else .lwGo) _ back'
      by_cases hmore : k < 3
      · rw [if_pos hmore] at hreg ⊢
        exact ⟨hplace, hidle, nofun, fun _ => hreg⟩
      · rw [if_neg hmore] at hreg ⊢
        refine ⟨hplace.trans ?_, hidle, fun _ => hreg, trivial⟩
        change k + 1 = 4
        omega
  | beqGo seen =>
      have hseen : h.reg 1 = if seen then 1 else 0 := hat.regs
      change WorkerAt items _ (if h.reg 1 = 0 then _ else _) back'
      rw [hseen]
      cases seen with
      | false => exact ⟨rfl, hwaiting, fun _ => hat.base rfl, trivial⟩
      | true => exact ⟨congrArg (· + 1) hpc, hwaiting, fun _ => hat.base rfl, trivial⟩
  | clearSum =>
      have hreg : forall r, r ≠ 3 -> (Instr.exec h (.addi 3 0 0)).reg r = h.reg r :=
        fun r hne => reg_addi_of_ne h hne 0 0
      exact ⟨congrArg (· + 1) hpc, hwaiting,
        fun _ => (hreg 31 (by decide)).trans (hat.base rfl),
        (hreg 2 (by decide)).trans hat.regs,
        (reg_li h (show 3 ≠ 0 by decide) 0).trans (by decide)⟩
  | clearIndex =>
      have hreg : forall r, r ≠ 4 -> (Instr.exec h (.addi 4 0 0)).reg r = h.reg r :=
        fun r hne => reg_addi_of_ne h hne 0 0
      obtain ⟨hcount, hsum⟩ := hat.regs
      exact ⟨congrArg (· + 1) hpc, hwaiting,
        fun _ => (hreg 31 (by decide)).trans (hat.base rfl),
        (hreg 2 (by decide)).trans hcount, (hreg 3 (by decide)).trans hsum,
        (reg_li h (show 4 ≠ 0 by decide) 0).trans (by decide)⟩
  | firstItem =>
      have hreg : forall r, r ≠ 9 -> (Instr.exec h (.addi 9 31 16)).reg r = h.reg r :=
        fun r hne => reg_addi_of_ne h hne 31 16
      obtain ⟨hcount, hsum, hindex⟩ := hat.regs
      refine ⟨congrArg (· + 1) hpc, hwaiting,
        fun _ => (hreg 31 (by decide)).trans (hat.base rfl),
        (hreg 2 (by decide)).trans hcount, (hreg 3 (by decide)).trans hsum,
        (hreg 4 (by decide)).trans hindex, ?_⟩
      refine (reg_addi h (show 9 ≠ 0 by decide) 31 16).trans ?_
      rw [hat.base rfl]
      rfl
  | beqEnd k =>
      have hloop : InLoop items (total items k) k (4 + k) h := hat.regs
      have hcond : h.reg 4 = h.reg 2 <-> k = items.length := by
        rw [hloop.index, hloop.count]
        exact countOf_eq_iff hlen hrange
      change WorkerAt items (if k = items.length then .swResult else .lwItem k)
        (if h.reg 4 = h.reg 2 then _ else _) back'
      by_cases hend : k = items.length
      · rw [if_pos hend, if_pos (hcond.mpr hend)]
        refine ⟨rfl, hwaiting, fun _ => hat.base rfl, hloop.sum.trans ?_⟩
        rw [hend]
      · rw [if_neg hend, if_neg (fun heq => hend (hcond.mp heq))]
        exact ⟨congrArg (· + 1) hpc, hwaiting, fun _ => hat.base rfl,
          hloop.of_regs rfl rfl rfl rfl⟩
  | addItem k =>
      have hreg : forall r, r ≠ 3 -> (Instr.exec h (.add 3 3 5)).reg r = h.reg r :=
        fun r hne => reg_setReg_of_ne h hne _
      obtain ⟨hloop, hitem⟩ := hat.regs
      refine ⟨congrArg (· + 1) hpc, hwaiting,
        fun _ => (hreg 31 (by decide)).trans (hat.base rfl),
        (hreg 2 (by decide)).trans hloop.count, ?_, (hreg 4 (by decide)).trans hloop.index,
        (hreg 9 (by decide)).trans hloop.item⟩
      refine (reg_setReg_self h (show 3 ≠ 0 by decide) _).trans ?_
      rw [hloop.sum, hitem]
      rfl
  | nextItem k =>
      have hreg : forall r, r ≠ 9 -> (Instr.exec h (.addi 9 9 4)).reg r = h.reg r :=
        fun r hne => reg_addi_of_ne h hne 9 4
      have hk : k < items.length := hrange
      have hloop : InLoop items (total items (k + 1)) k (4 + k) h := hat.regs
      refine ⟨congrArg (· + 1) hpc, hwaiting,
        fun _ => (hreg 31 (by decide)).trans (hat.base rfl),
        (hreg 2 (by decide)).trans hloop.count, (hreg 3 (by decide)).trans hloop.sum,
        (hreg 4 (by decide)).trans hloop.index, ?_⟩
      refine (reg_addi h (show 9 ≠ 0 by decide) 9 4).trans ?_
      rw [hloop.item, wordAddress_succ (by omega)]
      rfl
  | nextIndex k =>
      have hreg : forall r, r ≠ 4 -> (Instr.exec h (.addi 4 4 1)).reg r = h.reg r :=
        fun r hne => reg_addi_of_ne h hne 4 1
      have hloop : InLoop items (total items (k + 1)) k (4 + (k + 1)) h := hat.regs
      refine ⟨congrArg (· + 1) hpc, hwaiting,
        fun _ => (hreg 31 (by decide)).trans (hat.base rfl),
        (hreg 2 (by decide)).trans hloop.count, (hreg 3 (by decide)).trans hloop.sum, ?_,
        (hreg 9 (by decide)).trans hloop.item⟩
      refine (reg_addi h (show 4 ≠ 0 by decide) 4 1).trans ?_
      rw [hloop.index, BitVec.ofNat_add]
      rfl
  | again k =>
      have hloop : InLoop items (total items (k + 1)) (k + 1) (4 + (k + 1)) h := hat.regs
      exact ⟨rfl, hwaiting, fun _ => hat.base rfl, hloop.of_regs rfl rfl rfl rfl⟩
  | addiDone =>
      exact ⟨congrArg (· + 1) hpc, hwaiting,
        fun _ => (reg_addi_of_ne h (show 31 ≠ 6 by decide) 0 1).trans (hat.base rfl),
        (reg_li h (show 6 ≠ 0 by decide) 1).trans (by decide)⟩
  | halt => exact ⟨rfl, hwaiting, fun _ => hat.base rfl, trivial⟩
  | swResult => cases hstores
  | swDone => cases hstores
  | lwGo => cases hloads
  | lwGoBack seen => cases hloads
  | lwCount => cases hloads
  | lwCountBack => cases hloads
  | lwItem k => cases hloads
  | lwItemBack k => cases hloads

theorem moveOoo_eq_exec {items : List (BitVec 12)} {q : Worker} {h : Hart}
    {back : BitVec 64} (hat : WorkerAt items q h back) (hrange : q.InRange items.length)
    (hloads : q.loads = none) (hstores : q.stores items = none) :
    h.moveOoo heteroOooN1 back = q.instr.exec h := by
  unfold Hart.moveOoo
  rw [hat.getElem hrange]
  cases q with
  | base k =>
      match k, (show k < 4 from hrange) with
      | 0, _ => rfl
      | 1, _ => rfl
      | 2, _ => rfl
      | 3, _ => rfl
  | swResult => cases hstores
  | swDone => cases hstores
  | lwGo => cases hloads
  | lwGoBack seen => cases hloads
  | lwCount => cases hloads
  | lwCountBack => cases hloads
  | lwItem k => cases hloads
  | lwItemBack k => cases hloads
  | _ => rfl

/--
The word of an item is where the loop's address register points.
-/
theorem address_item {items : List (BitVec 12)} {sum : BitVec 64} {index word : Nat} {h : Hart}
    (hloop : InLoop items sum index word h) : h.address 0 9 = wordAddress word := by
  unfold Hart.address
  rw [hloop.item]
  exact BitVec.add_zero _

theorem hit_item {items : List (BitVec 12)} {sum : BitVec 64} {index word : Nat} {h : Hart}
    (hloop : InLoop items sum index word h) (hword : word < 64) :
    mailboxHit (h.address 0 9) = true := by
  rw [address_item hloop]
  exact mailboxHit_wordAddress hword

theorem load_of_loop {items : List (BitVec 12)} {sum : BitVec 64} {index word : Nat} {h : Hart}
    (hloop : InLoop items sum index word h) (hword : word < 64) :
    (if mailboxHit (h.address 0 9) then some (h.address 0 9) else none) =
      some (wordAddress word) := by
  rw [if_pos (hit_item hloop hword), address_item hloop]

section

variable {prog : List Instr} {h : Hart} {rd rs1 rs2 : Nat} {off : BitVec 12}

theorem moveOoo_ask (hget : prog[h.pc]? = some (.lw rd off rs1))
    (hhit : mailboxHit (h.address off rs1) = true) (hidle : h.waiting = false)
    (x : BitVec 64) : h.moveOoo prog x = { h with waiting := true } := by
  unfold Hart.moveOoo
  rw [hget]
  dsimp only
  rw [if_pos hhit, hidle]
  rfl

theorem moveOoo_take (hget : prog[h.pc]? = some (.lw rd off rs1))
    (hhit : mailboxHit (h.address off rs1) = true) (hwaits : h.waiting = true)
    (x : BitVec 64) :
    h.moveOoo prog x = { (h.setReg rd x).next with waiting := false } := by
  unfold Hart.moveOoo
  rw [hget]
  dsimp only
  rw [if_pos hhit, if_pos hwaits]

theorem moveOoo_store (hget : prog[h.pc]? = some (.sw rs2 off rs1))
    (hhit : mailboxHit (h.address off rs1) = true) (x : BitVec 64) :
    h.moveOoo prog x = h.next := by
  unfold Hart.moveOoo
  rw [hget]
  dsimp only
  rw [if_pos hhit]

end

theorem workerAt_move {items : List (BitVec 12)} {q : Worker} {h : Hart}
    {back back' : BitVec 64} {raised : Bool} (hlen : items.length <= 60)
    (hat : WorkerAt items q h back) (hrange : q.InRange items.length)
    (hdata : q.Data items raised back') :
    WorkerAt items (q.next items.length raised) (h.moveOoo heteroOooN1 back) back' := by
  have hget := hat.getElem hrange
  have hpc := hat.pc
  have hwaiting := hat.waiting
  have hexec := @moveOoo_eq_exec items q h back hat hrange
  have hmove := @workerAt_exec items q h back back' raised hlen hat hrange
  cases q with
  | lwGo =>
      have hbase := hat.base rfl
      rw [moveOoo_ask hget (@hit_of_base h hbase 0 0 rfl (by decide)) hwaiting]
      exact ⟨hpc, rfl, fun _ => hbase, hdata⟩
  | lwGoBack seen =>
      have hbase := hat.base rfl
      rw [moveOoo_take hget (@hit_of_base h hbase 0 0 rfl (by decide)) hwaiting]
      exact ⟨congrArg (· + 1) hpc, rfl,
        fun _ => (reg_setReg_of_ne h (show 31 ≠ 1 by decide) back).trans hbase,
        (reg_setReg_self h (show 1 ≠ 0 by decide) back).trans hat.regs⟩
  | lwCount =>
      have hbase := hat.base rfl
      rw [moveOoo_ask hget (@hit_of_base h hbase 4 1 rfl (by decide)) hwaiting]
      exact ⟨hpc, rfl, fun _ => hbase, hdata⟩
  | lwCountBack =>
      have hbase := hat.base rfl
      rw [moveOoo_take hget (@hit_of_base h hbase 4 1 rfl (by decide)) hwaiting]
      exact ⟨congrArg (· + 1) hpc, rfl,
        fun _ => (reg_setReg_of_ne h (show 31 ≠ 2 by decide) back).trans hbase,
        (reg_setReg_self h (show 2 ≠ 0 by decide) back).trans hat.regs⟩
  | lwItem k =>
      have hk : k < items.length := hrange
      have hloop : InLoop items (total items k) k (4 + k) h := hat.regs
      rw [moveOoo_ask hget (hit_item hloop (by omega)) hwaiting]
      exact ⟨hpc, rfl, fun _ => hat.base rfl, hloop.of_regs rfl rfl rfl rfl, hdata⟩
  | lwItemBack k =>
      have hk : k < items.length := hrange
      obtain ⟨hloop, hback⟩ := hat.regs
      have hreg : forall r, r ≠ 5 -> (h.setReg 5 back).reg r = h.reg r :=
        fun r hne => reg_setReg_of_ne h hne back
      rw [moveOoo_take hget (hit_item hloop (by omega)) hwaiting]
      exact ⟨congrArg (· + 1) hpc, rfl, fun _ => (hreg 31 (by decide)).trans (hat.base rfl),
        hloop.of_regs (hreg 2 (by decide)) (hreg 3 (by decide)) (hreg 4 (by decide))
          (hreg 9 (by decide)),
        (reg_setReg_self h (show 5 ≠ 0 by decide) back).trans hback⟩
  | swResult =>
      have hbase := hat.base rfl
      rw [moveOoo_store hget (@hit_of_base h hbase 12 3 rfl (by decide))]
      exact ⟨congrArg (· + 1) hpc, hwaiting, fun _ => hbase, trivial⟩
  | swDone =>
      have hbase := hat.base rfl
      rw [moveOoo_store hget (@hit_of_base h hbase 8 2 rfl (by decide))]
      exact ⟨congrArg (· + 1) hpc, hwaiting, fun _ => hbase, trivial⟩
  | _ =>
      rw [hexec rfl rfl]
      exact hmove rfl rfl

theorem workerAt_load {items : List (BitVec 12)} {q : Worker} {h : Hart}
    {back : BitVec 64} (hlen : items.length <= 60) (hat : WorkerAt items q h back)
    (hrange : q.InRange items.length) :
    h.loadAddress heteroOooN1 = q.loads.map wordAddress := by
  unfold Hart.loadAddress
  rw [hat.getElem hrange]
  cases q with
  | base k =>
      match k, (show k < 4 from hrange) with
      | 0, _ => rfl
      | 1, _ => rfl
      | 2, _ => rfl
      | 3, _ => rfl
  | lwGo => exact @load_of_base h (hat.base rfl) 0 0 rfl (by decide)
  | lwGoBack seen => exact @load_of_base h (hat.base rfl) 0 0 rfl (by decide)
  | lwCount => exact @load_of_base h (hat.base rfl) 4 1 rfl (by decide)
  | lwCountBack => exact @load_of_base h (hat.base rfl) 4 1 rfl (by decide)
  | lwItem k =>
      have hk : k < items.length := hrange
      exact load_of_loop hat.regs (by omega)
  | lwItemBack k =>
      have hk : k < items.length := hrange
      exact load_of_loop hat.regs.left (by omega)
  | _ => rfl

theorem workerAt_store {items : List (BitVec 12)} {q : Worker} {h : Hart}
    {back : BitVec 64} (hat : WorkerAt items q h back) (hrange : q.InRange items.length) :
    h.store heteroOooN1 = (q.stores items).map fun st => (wordAddress st.1, st.2) := by
  unfold Hart.store
  rw [hat.getElem hrange]
  cases q with
  | base k =>
      match k, (show k < 4 from hrange) with
      | 0, _ => rfl
      | 1, _ => rfl
      | 2, _ => rfl
      | 3, _ => rfl
  | swResult => exact @store_of_base h (hat.base rfl) 12 3 rfl (by decide) 3 _ hat.regs
  | swDone => exact @store_of_base h (hat.base rfl) 8 2 rfl (by decide) 6 _ hat.regs
  | _ => rfl

/-!
# The mailbox
-/

def Producer.counted : Producer -> Bool
  | lui | addiCount | swCount => false
  | _ => true

/--
How many items are out.
-/
def Producer.stored (n : Nat) : Producer -> Nat
  | lui | addiCount | swCount => 0
  | addiItem k | swItem k => k
  | _ => n

def Worker.summed : Worker -> Bool
  | addiDone | swDone | halt => true
  | _ => false

structure MemAt (items : List (BitVec 12)) (a : State) (mem : Nat -> BitVec 64) : Prop where
  go : mem 0 = if a.producer.raised then 1 else 0
  done : mem 2 = if a.worker.finished then 1 else 0
  count : a.producer.counted = true -> mem 1 = countOf items
  item : forall k, k < a.producer.stored items.length -> mem (4 + k) = itemAt items k
  result : a.worker.summed = true -> mem 3 = total items items.length

theorem producer_of_nextItem {n k : Nat} (hk : k <= n) :
    (Producer.nextItem n k).raised = false ∧ (Producer.nextItem n k).counted = true ∧
      (Producer.nextItem n k).stored n = k := by
  unfold Producer.nextItem
  split
  · exact ⟨rfl, rfl, rfl⟩
  · exact ⟨rfl, rfl, Nat.le_antisymm (Nat.le_of_not_lt ‹_›) hk⟩

theorem memAt_producer {items : List (BitVec 12)} {p : Producer} {q : Worker}
    {mem : Nat -> BitVec 64} (finished : Bool) (hrange : p.InRange items.length)
    (h : MemAt items ⟨p, q⟩ mem) :
    MemAt items ⟨p.next items.length finished, q⟩ (Mailbox.applyStore mem (p.stores items)) := by
  cases p with
  | lui => exact ⟨h.go, h.done, nofun, h.item, h.result⟩
  | addiCount => exact ⟨h.go, h.done, nofun, h.item, h.result⟩
  | swCount =>
      obtain ⟨hraised, -, hstored⟩ := producer_of_nextItem (Nat.zero_le items.length)
      refine ⟨?_, h.done, fun _ => setAt_self mem 1 _, fun k hk => ?_, h.result⟩
      · change _ = if (Producer.nextItem items.length 0).raised then 1 else 0
        rw [hraised]
        exact h.go
      · change k < (Producer.nextItem items.length 0).stored items.length at hk
        rw [hstored] at hk
        exact absurd hk (Nat.not_lt_zero k)
  | addiItem k => exact ⟨h.go, h.done, fun _ => h.count rfl, h.item, h.result⟩
  | swItem k =>
      have hk : k < items.length := hrange
      obtain ⟨hraised, -, hstored⟩ := producer_of_nextItem (Nat.succ_le_of_lt hk)
      have hother : forall j, j ≠ 4 + k -> setAt mem (4 + k) (itemAt items k) j = mem j :=
        fun j hne => setAt_of_ne hne
      refine ⟨?_, (hother 2 (by omega)).trans h.done,
        fun _ => (hother 1 (by omega)).trans (h.count rfl), fun j hj => ?_,
        fun hsummed => (hother 3 (by omega)).trans (h.result hsummed)⟩
      · change _ = if (Producer.nextItem items.length (k + 1)).raised then 1 else 0
        rw [hraised]
        exact (hother 0 (by omega)).trans h.go
      · change j < (Producer.nextItem items.length (k + 1)).stored items.length at hj
        rw [hstored] at hj
        rcases Nat.lt_succ_iff_lt_or_eq.mp hj with hlt | heq
        · exact (hother (4 + j) (by omega)).trans (h.item j hlt)
        · rw [heq]
          exact setAt_self mem (4 + k) (itemAt items k)
  | addiGo => exact ⟨h.go, h.done, fun _ => h.count rfl, h.item, h.result⟩
  | swGo =>
      have hother : forall j, j ≠ 0 -> setAt mem 0 1 j = mem j := fun j hne => setAt_of_ne hne
      exact ⟨setAt_self mem 0 1, (hother 2 (by decide)).trans h.done,
        fun _ => (hother 1 (by decide)).trans (h.count rfl),
        fun j hj => (hother (4 + j) (by omega)).trans (h.item j hj),
        fun hsummed => (hother 3 (by decide)).trans (h.result hsummed)⟩
  | lwDone => exact ⟨h.go, h.done, fun _ => h.count rfl, h.item, h.result⟩
  | beqDone seen =>
      cases seen with
      | false => exact ⟨h.go, h.done, fun _ => h.count rfl, h.item, h.result⟩
      | true => exact ⟨h.go, h.done, fun _ => h.count rfl, h.item, h.result⟩
  | lwResult => exact ⟨h.go, h.done, fun _ => h.count rfl, h.item, h.result⟩
  | fence => exact ⟨h.go, h.done, fun _ => h.count rfl, h.item, h.result⟩
  | halt => exact ⟨h.go, h.done, fun _ => h.count rfl, h.item, h.result⟩

theorem memAt_of_worker {items : List (BitVec 12)} {p : Producer} {q q' : Worker}
    {mem : Nat -> BitVec 64} (h : MemAt items ⟨p, q⟩ mem) (hfinished : q'.finished = q.finished)
    (hsummed : q'.summed = true -> q.summed = true) : MemAt items ⟨p, q'⟩ mem := by
  refine ⟨h.go, h.done.trans ?_, h.count, h.item, fun hsum => h.result (hsummed hsum)⟩
  change (if q.finished then (1 : BitVec 64) else 0) = if q'.finished then 1 else 0
  rw [hfinished]

theorem memAt_worker {items : List (BitVec 12)} {p : Producer} {q : Worker}
    {mem : Nat -> BitVec 64} (raised : Bool) (h : MemAt items ⟨p, q⟩ mem) :
    MemAt items ⟨p, q.next items.length raised⟩ (Mailbox.applyStore mem (q.stores items)) := by
  cases q with
  | base k =>
      change MemAt items ⟨p, if k < 3 then .base (k + 1) else .lwGo⟩ mem
      split <;> exact memAt_of_worker h rfl nofun
  | beqGo seen => cases seen <;> exact memAt_of_worker h rfl nofun
  | beqEnd k =>
      change MemAt items ⟨p, if k = items.length then .swResult else .lwItem k⟩ mem
      split <;> exact memAt_of_worker h rfl nofun
  | swResult =>
      have hother : forall j, j ≠ 3 -> setAt mem 3 (total items items.length) j = mem j :=
        fun j hne => setAt_of_ne hne
      exact ⟨(hother 0 (by decide)).trans h.go, (hother 2 (by decide)).trans h.done,
        fun hcounted => (hother 1 (by decide)).trans (h.count hcounted),
        fun j hj => (hother (4 + j) (by omega)).trans (h.item j hj),
        fun _ => setAt_self mem 3 _⟩
  | addiDone => exact memAt_of_worker h rfl fun _ => rfl
  | swDone =>
      have hother : forall j, j ≠ 2 -> setAt mem 2 1 j = mem j := fun j hne => setAt_of_ne hne
      exact ⟨(hother 0 (by decide)).trans h.go, setAt_self mem 2 1,
        fun hcounted => (hother 1 (by decide)).trans (h.count hcounted),
        fun j hj => (hother (4 + j) (by omega)).trans (h.item j hj),
        fun _ => (hother 3 (by decide)).trans (h.result rfl)⟩
  | halt => exact h
  | _ => exact memAt_of_worker h rfl nofun

/-!
# One cycle of both cores
-/

structure Follows (items : List (BitVec 12)) (s : HeteroSoC) (a : State) : Prop where
  producer : ProducerAt items a.producer s.pipelined
  worker : WorkerAt items a.worker s.ooo s.mailbox.bReadData
  mem : MemAt items a s.mailbox.mem

theorem stores_lt {items : List (BitVec 12)} {p : Producer} {st : Nat × BitVec 64}
    (hlen : items.length <= 60) (hrange : p.InRange items.length)
    (h : p.stores items = some st) : st.1 < 64 := by
  cases p with
  | swCount => exact Option.some.inj h ▸ (show 1 < 64 by decide)
  | swItem k =>
      have hk : k < items.length := hrange
      exact Option.some.inj h ▸ (show 4 + k < 64 by omega)
  | swGo => exact Option.some.inj h ▸ (show 0 < 64 by decide)
  | _ => cases h

theorem worker_stores_lt {items : List (BitVec 12)} {q : Worker} {st : Nat × BitVec 64}
    (h : q.stores items = some st) : st.1 < 64 := by
  cases q with
  | swResult => exact Option.some.inj h ▸ (show 3 < 64 by decide)
  | swDone => exact Option.some.inj h ▸ (show 2 < 64 by decide)
  | _ => cases h

theorem worker_stores_of_loads {items : List (BitVec 12)} {q : Worker} {j : Nat}
    (h : q.loads = some j) : q.stores items = none := by
  cases q with
  | swResult => cases h
  | swDone => cases h
  | _ => rfl

theorem worker_loads_lt {n : Nat} {q : Worker} {j : Nat} (hlen : n <= 60)
    (hrange : q.InRange n) (h : q.loads = some j) : j < 64 := by
  cases q with
  | lwGo => exact Option.some.inj h ▸ (show 0 < 64 by decide)
  | lwGoBack seen => exact Option.some.inj h ▸ (show 0 < 64 by decide)
  | lwCount => exact Option.some.inj h ▸ (show 1 < 64 by decide)
  | lwCountBack => exact Option.some.inj h ▸ (show 1 < 64 by decide)
  | lwItem k =>
      have hk : k < n := hrange
      exact Option.some.inj h ▸ (show 4 + k < 64 by omega)
  | lwItemBack k =>
      have hk : k < n := hrange
      exact Option.some.inj h ▸ (show 4 + k < 64 by omega)
  | _ => cases h

section

variable {items : List (BitVec 12)} {s : HeteroSoC} {a : State} {moves : Moves}

theorem Follows.aStore (hlen : items.length <= 60) (hagreed : Agreed items.length a)
    (h : Follows items s a) :
    Mailbox.aStore mailboxWords (s.ports (heteroPipelined items) heteroOooN1 moves) =
      if moves.pipelined then a.producer.stores items else none := by
  unfold HeteroSoC.ports
  rw [producerAt_store hlen h.producer hagreed.producer]
  unfold Mailbox.aStore HeteroSoC.portsOf
  cases hst : a.producer.stores items with
  | none => cases moves.pipelined <;> simp
  | some st =>
      have hidx := wordIndex_wordAddress (stores_lt hlen hagreed.producer hst)
      cases moves.pipelined <;> simp [hidx]

theorem Follows.bStore (hagreed : Agreed items.length a) (h : Follows items s a) :
    Mailbox.bStore mailboxWords (s.ports (heteroPipelined items) heteroOooN1 moves) =
      if moves.ooo then a.worker.stores items else none := by
  unfold HeteroSoC.ports
  rw [workerAt_store h.worker hagreed.worker]
  unfold Mailbox.bStore HeteroSoC.portsOf
  cases hst : a.worker.stores items with
  | none => cases moves.ooo <;> simp
  | some st =>
      have hidx := wordIndex_wordAddress (worker_stores_lt hst)
      cases moves.ooo <;> simp [hidx]

theorem Follows.mem_step (hlen : items.length <= 60) (hagreed : Agreed items.length a)
    (h : Follows items s a) :
    MemAt items (a.step items.length moves)
      (s.step (heteroPipelined items) heteroOooN1 moves).mailbox.mem := by
  have hproducer : MemAt items ⟨(a.step items.length moves).producer, a.worker⟩
      (Mailbox.applyStore s.mailbox.mem
        (if moves.pipelined then a.producer.stores items else none)) := by
    dsimp only [State.step]
    cases moves.pipelined with
    | false => exact h.mem
    | true => exact memAt_producer _ hagreed.producer h.mem
  dsimp only [HeteroSoC.step]
  rw [Mailbox.mem_step, h.aStore hlen hagreed, h.bStore hagreed]
  cases hmove : moves.ooo with
  | false =>
      have hstay : (a.step items.length moves).worker = a.worker := by
        dsimp only [State.step]
        rw [hmove]
        rfl
      rw [← hstay] at hproducer
      exact hproducer
  | true =>
      have hgo : (a.step items.length moves).worker =
          a.worker.next items.length a.producer.raised := by
        dsimp only [State.step]
        rw [hmove]
        rfl
      have hworker := memAt_worker a.producer.raised hproducer
      rw [← hgo] at hworker
      exact hworker

theorem summed_of_finished {q : Worker} (h : q.finished = true) : q.summed = true := by
  cases q with
  | halt => rfl
  | _ => cases h

/--
The data of a load of the in-order core.
-/
theorem Follows.producer_data (hagreed : Agreed items.length a) (h : Follows items s a) :
    a.producer.Data items a.worker.finished
      (s.mailbox.aDataI mailboxWords (s.ports (heteroPipelined items) heteroOooN1 moves)) := by
  have hload := producerAt_load h.producer hagreed.producer
  have hget := h.producer.getElem hagreed.producer
  have hdone := hagreed.done
  unfold HeteroSoC.ports Hart.store
  rw [hload, hget]
  cases hp : a.producer with
  | lwDone =>
      change s.mailbox.mem (Mailbox.wordIndex mailboxWords (wordAddress 2)) = _
      rw [wordIndex_wordAddress (by decide)]
      exact h.mem.done
  | lwResult =>
      change s.mailbox.mem (Mailbox.wordIndex mailboxWords (wordAddress 3)) = _
      rw [wordIndex_wordAddress (by decide)]
      rw [hp] at hdone
      exact h.mem.result (summed_of_finished (hdone rfl))
  | _ => trivial

theorem Follows.bReadData (hlen : items.length <= 60) (hagreed : Agreed items.length a)
    (h : Follows items s a) :
    (s.step (heteroPipelined items) heteroOooN1 moves).mailbox.bReadData =
      match (if moves.ooo && !a.worker.waits then a.worker.loads else none) with
      | some j => s.mailbox.mem j
      | none => s.mailbox.bReadData := by
  dsimp only [HeteroSoC.step]
  rw [Mailbox.bReadData_step]
  unfold HeteroSoC.ports
  rw [workerAt_load hlen h.worker hagreed.worker, workerAt_store h.worker hagreed.worker,
    h.worker.waiting]
  unfold HeteroSoC.portsOf
  cases hload : a.worker.loads with
  | none => cases moves.ooo <;> cases a.worker.waits <;> simp
  | some j =>
      have hidx := wordIndex_wordAddress (worker_loads_lt hlen hagreed.worker hload)
      rw [worker_stores_of_loads hload]
      cases moves.ooo <;> cases a.worker.waits <;> simp [hidx]

/--
The data that the out-of-order core has asked for in a cycle.
-/
theorem Follows.worker_data (hlen : items.length <= 60) (hagreed : Agreed items.length a)
    (h : Follows items s a) (hmove : moves.ooo = true) :
    a.worker.Data items a.producer.raised
      (s.step (heteroPipelined items) heteroOooN1 moves).mailbox.bReadData := by
  rw [h.bReadData hlen hagreed, hmove]
  have hgo := hagreed.go
  have hrange := hagreed.worker
  -- past its poll the worker finds everything in place
  have hplaced : a.producer.raised = true -> a.producer.counted = true ∧
      a.producer.stored items.length = items.length := by
    cases a.producer with
    | lwDone => exact fun _ => ⟨rfl, rfl⟩
    | beqDone seen => exact fun _ => ⟨rfl, rfl⟩
    | lwResult => exact fun _ => ⟨rfl, rfl⟩
    | fence => exact fun _ => ⟨rfl, rfl⟩
    | halt => exact fun _ => ⟨rfl, rfl⟩
    | _ => exact nofun
  cases hq : a.worker with
  | lwGo => exact h.mem.go
  | lwCount =>
      rw [hq] at hgo
      exact h.mem.count (hplaced (hgo rfl)).left
  | lwItem k =>
      rw [hq] at hgo hrange
      have hk : k < items.length := hrange
      refine h.mem.item k ?_
      rw [(hplaced (hgo rfl)).right]
      exact hk
  | _ => trivial

theorem workerAt_idle {q : Worker} {h : Hart} {back back' : BitVec 64}
    (hat : WorkerAt items q h back) (hback : back' = back) : WorkerAt items q h back' := by
  rw [hback]
  exact hat

theorem follows_step (hlen : items.length <= 60) (hagreed : Agreed items.length a)
    (h : Follows items s a) (moves : Moves) :
    Follows items (s.step (heteroPipelined items) heteroOooN1 moves)
      (a.step items.length moves) := by
  refine ⟨?_, ?_, h.mem_step hlen hagreed⟩
  · dsimp only [HeteroSoC.step, State.step]
    cases moves.pipelined with
    | false => exact h.producer
    | true =>
        exact producerAt_move hlen h.producer hagreed.producer (h.producer_data hagreed)
  · change WorkerAt items (if moves.ooo then _ else _) (if moves.ooo then _ else _) _
    cases hmove : moves.ooo with
    | false =>
        refine workerAt_idle h.worker ?_
        rw [h.bReadData hlen hagreed, hmove]
        rfl
    | true =>
        exact workerAt_move hlen h.worker hagreed.worker (h.worker_data hlen hagreed hmove)

end

theorem follows_initial (items : List (BitVec 12)) :
    Follows items HeteroSoC.reset State.initial where
  producer := ⟨rfl, fun hne => absurd rfl hne, trivial⟩
  worker := ⟨rfl, rfl, nofun, fun hne => absurd rfl hne⟩
  mem := ⟨rfl, rfl, nofun, fun _ hk => absurd hk (Nat.not_lt_zero _), nofun⟩

theorem follows_isRun {items : List (BitVec 12)} (hlen : items.length <= 60)
    {s : Nat -> HeteroSoC} {a : Nat -> State} {moves : Nat -> Moves}
    (hrun : Lib.IsRun (HeteroSoC.step (heteroPipelined items) heteroOooN1)
      (fun _ _ => True) s moves)
    (hprotocol : Lib.IsRun (State.step items.length) (fun _ _ => True) a moves)
    (hagreed : forall t, Agreed items.length (a t)) (hinit : Follows items (s 0) (a 0))
    (t : Nat) : Follows items (s t) (a t) := by
  induction t with
  | zero => exact hinit
  | succ t ih =>
      rw [(hrun t).right, (hprotocol t).right]
      exact follows_step hlen (hagreed t) ih (moves t)

/-!
# What the cores agree on
-/

/--
The in-order core spins at the end of its program.
-/
def atHalt (items : List (BitVec 12)) (s : HeteroSoC) : Prop :=
  s.pipelined.pc = 9 + 2 * items.length

theorem producer_eq_halt {n : Nat} {p : Producer} (hrange : p.InRange n)
    (h : p.pc n = 9 + 2 * n) : p = .halt := by
  cases p with
  | halt => rfl
  | addiItem k =>
      have hk : k < n := hrange
      change 3 + 2 * k = _ at h
      omega
  | swItem k =>
      have hk : k < n := hrange
      change 4 + 2 * k = _ at h
      omega
  | _ =>
      dsimp only [Producer.pc] at h
      omega

theorem Follows.sum_of_atHalt {items : List (BitVec 12)} {s : HeteroSoC} {a : State}
    (hagreed : Agreed items.length a) (h : Follows items s a) (hhalt : atHalt items s) :
    s.pipelined.reg 10 = (items.map fun item => item.signExtend 64).sum := by
  have hp := producer_eq_halt hagreed.producer (h.producer.pc.symm.trans hhalt)
  have hregs := h.producer.regs
  rw [hp] at hregs
  exact Eq.trans hregs (total_length items)

/--
The words of the two cores are apart.
-/
theorem stores_apart {items : List (BitVec 12)} {p : Producer} {q : Worker}
    {st st' : Nat × BitVec 64} (hp : p.stores items = some st)
    (hq : q.stores items = some st') : st.1 ≠ st'.1 := by
  have hproducer : st.1 = 0 ∨ st.1 = 1 ∨ 4 <= st.1 := by
    cases p with
    | swCount => exact Or.inr (Or.inl (congrArg Prod.fst (Option.some.inj hp)).symm)
    | swItem k =>
        have hword : 4 + k = st.1 := congrArg Prod.fst (Option.some.inj hp)
        omega
    | swGo => exact Or.inl (congrArg Prod.fst (Option.some.inj hp)).symm
    | _ => cases hp
  have hworker : st'.1 = 2 ∨ st'.1 = 3 := by
    cases q with
    | swResult => exact Or.inr (congrArg Prod.fst (Option.some.inj hq)).symm
    | swDone => exact Or.inl (congrArg Prod.fst (Option.some.inj hq)).symm
    | _ => cases hq
  omega

theorem eq_some_of_ite {alpha : Type} {c : Bool} {o : Option alpha} {x : alpha}
    (h : (if c then o else none) = some x) : o = some x := by
  cases c with
  | false => cases h
  | true => exact h

/--
Whatever pauses the two cores make, the in-order core ends with the sum of the items, the
two never store to one word in one cycle, and it does end if neither core stops for good.
-/
theorem handoff_delivers {items : List (BitVec 12)} (hlen : items.length <= 60)
    {s : Nat -> HeteroSoC} {moves : Nat -> Moves}
    (hrun : Lib.IsRun (HeteroSoC.step (heteroPipelined items) heteroOooN1)
      (fun _ _ => True) s moves) (hinit : s 0 = HeteroSoC.reset) :
    (forall t, atHalt items (s t) ->
        (s t).pipelined.reg 10 = (items.map fun item => item.signExtend 64).sum) ∧
      (forall t st st',
        let i := (s t).ports (heteroPipelined items) heteroOooN1 (moves t)
        Mailbox.aStore mailboxWords i = some st -> Mailbox.bStore mailboxWords i = some st' ->
          st.1 ≠ st'.1) ∧
      ((forall t, exists u, t <= u ∧ (moves u).pipelined = true) ->
        (forall t, exists u, t <= u ∧ (moves u).ooo = true) ->
          exists t, atHalt items (s t)) := by
  let a : Nat -> State := Lib.fed (State.step items.length) moves State.initial
  have hprotocol : Lib.IsRun (State.step items.length) (fun _ _ => True) a moves :=
    Lib.isRun_fed _ moves State.initial
  have hagreed := agreed_isRun hprotocol (agreed_initial items.length)
  have hstart : Follows items (s 0) (a 0) := by
    rw [hinit]
    exact follows_initial items
  have hfollows := follows_isRun hlen hrun hprotocol hagreed hstart
  refine ⟨fun t hhalt => (hfollows t).sum_of_atHalt (hagreed t) hhalt, ?_, ?_⟩
  · intro t st st' i hst hst'
    change Mailbox.aStore mailboxWords (HeteroSoC.ports _ _ (s t) (moves t)) = _ at hst
    change Mailbox.bStore mailboxWords (HeteroSoC.ports _ _ (s t) (moves t)) = _ at hst'
    rw [(hfollows t).aStore hlen (hagreed t)] at hst
    rw [(hfollows t).bStore (hagreed t)] at hst'
    exact stores_apart (eq_some_of_ite hst) (eq_some_of_ite hst')
  · intro hpipelined hooo
    obtain ⟨t, hhalt⟩ := producer_halts hprotocol (agreed_initial items.length) hpipelined hooo
    refine ⟨t, (hfollows t).producer.pc.trans ?_⟩
    rw [hhalt]
    rfl

/--
The program with the six numbers, with no pauses.
-/
theorem handoff_delivers_n1 :
    let s := Lib.driven (HeteroSoC.step heteroPipelinedN1 heteroOooN1)
      (fun _ => { pipelined := true, ooo := true }) HeteroSoC.reset
    exists t, (s t).pipelined.pc = 21 ∧ (s t).pipelined.reg 10 = 21 := by
  intro s
  have hrun : Lib.IsRun
      (HeteroSoC.step (heteroPipelined [1, 2, 3, 4, 5, 6]) heteroOooN1) (fun _ _ => True) s
      (fun _ => { pipelined := true, ooo := true }) := by
    rw [← heteroPipelinedN1_eq]
    exact fun _ => ⟨trivial, rfl⟩
  obtain ⟨hsum, -, hends⟩ := handoff_delivers (by decide) hrun rfl
  obtain ⟨t, hhalt⟩ :=
    hends (fun t => ⟨t, Nat.le_refl t, rfl⟩) (fun t => ⟨t, Nat.le_refl t, rfl⟩)
  exact ⟨t, hhalt, (hsum t hhalt).trans (by decide)⟩

end Handoff
end Soc
end RvCores
