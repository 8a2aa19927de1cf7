import RvCores.Block.Uart

/-!
# Bytes across the line

The transmitter of one port drives the receiver of another one with the same divisor.  Both
machines are placed on one time scale, the cycles since a byte was accepted, on which the
receiver looks at the line in the middle of every bit.
-/

namespace RvCores
namespace Block

variable {c : Nat} {byte : BitVec 8}

/-!
# The line

A frame is a clear start bit, the bits of the byte and a set stop bit.  The line shows it two
cycles after the byte is accepted.
-/

def frameBit (c : Nat) (byte : BitVec 8) (x : Nat) : Bool :=
  if x < c then false else if x < 9 * c then byte.getLsbD (x / c - 1) else true

def lineAt (c : Nat) (byte : BitVec 8) (e : Nat) : Bool :=
  if e < 2 then true else frameBit c byte (e - 2)

theorem frameBit_start {x : Nat} (hx : x < c) : frameBit c byte x = false := by
  unfold frameBit
  rw [if_pos hx]

theorem frameBit_data {k j : Nat} (hk : k < 8) (hj : j < c) :
    frameBit c byte (c * (k + 1) + j) = byte.getLsbD k := by
  have hlow : ¬ c * (k + 1) + j < c := by
    rw [Nat.mul_succ]
    omega
  have hhigh : c * (k + 1) + j < 9 * c := by
    have hmul : c * (k + 1) <= c * 8 := Nat.mul_le_mul_left c hk
    omega
  have hdiv : (c * (k + 1) + j) / c = k + 1 := by
    rw [Nat.mul_add_div (by omega), Nat.div_eq_of_lt hj, Nat.add_zero]
  unfold frameBit
  rw [if_neg hlow, if_pos hhigh, hdiv, Nat.add_sub_cancel]

theorem frameBit_stop {x : Nat} (hx : 9 * c <= x) : frameBit c byte x = true := by
  unfold frameBit
  rw [if_neg (by omega), if_neg (by omega)]

/-!
# The transmitter on the time scale
-/

inductive TxPhase (c : Nat) (byte : BitVec 8) : Nat -> UartTx -> Prop where
  | start {e j : Nat} {t : UartTx} (hj : j < c) (he : e = 1 + j) (hstate : t.state = .start)
      (hcount : t.clkCount = j) (hbyte : t.shiftReg = byte) : TxPhase c byte e t
  | data {e k j : Nat} {t : UartTx} (hk : k < 8) (hj : j < c) (he : e = 1 + c * (k + 1) + j)
      (hstate : t.state = .data) (hcount : t.clkCount = j) (hindex : t.bitIndex.toNat = k)
      (hbyte : t.shiftReg = byte) : TxPhase c byte e t
  | stop {e j : Nat} {t : UartTx} (hj : j < c) (he : e = 1 + 9 * c + j)
      (hstate : t.state = .stop) (hcount : t.clkCount = j) : TxPhase c byte e t
  | idle {e : Nat} {t : UartTx} (he : 10 * c < e) (hstate : t.state = .idle) : TxPhase c byte e t

structure TxAt (c : Nat) (byte : BitVec 8) (e : Nat) (t : UartTx) : Prop where
  phase : TxPhase c byte e t
  line : t.tx = lineAt c byte e

section Transmitter

variable {e : Nat} {t : UartTx}

theorem TxPhase.idle_iff (h : TxPhase c byte e t) : t.state = .idle <-> 10 * c < e := by
  cases h with
  | start hj he hstate =>
      rw [hstate]
      exact ⟨fun hidle => TxState.noConfusion hidle, fun hlate => by omega⟩
  | @data k j _ hk hj he hstate =>
      have hmul : c * (k + 1) <= c * 8 := Nat.mul_le_mul_left c hk
      rw [hstate]
      exact ⟨fun hidle => TxState.noConfusion hidle, fun hlate => by omega⟩
  | stop hj he hstate =>
      rw [hstate]
      exact ⟨fun hidle => TxState.noConfusion hidle, fun hlate => by omega⟩
  | idle he hstate => exact ⟨fun _ => he, fun _ => hstate⟩

/--
A byte that is accepted starts the time scale anew.
-/
theorem txAt_accept (hc : 0 < c) (hstate : t.state = .idle) (byte : BitVec 8) :
    TxAt c byte 1 (t.step c (some byte)) := by
  unfold UartTx.step
  rw [hstate]
  exact ⟨.start hc rfl rfl rfl rfl, rfl⟩

theorem lineAt_succ (he : 1 <= e) : lineAt c byte (e + 1) = frameBit c byte (e - 1) := by
  unfold lineAt
  rw [if_neg (by omega)]
  rfl

theorem TxAt.step {write : Option (BitVec 8)} (h : TxAt c byte e t)
    (hquiet : t.state = .idle -> write = none) : TxAt c byte (e + 1) (t.step c write) := by
  cases h.phase with
  | @start j _ hj he hstate hcount hbyte =>
      have hline : lineAt c byte (e + 1) = false := by
        rw [lineAt_succ (by omega)]
        exact frameBit_start (by omega)
      unfold UartTx.step
      rw [hstate]
      dsimp only
      rw [hcount, hline.symm]
      by_cases hlast : j + 1 = c
      · rw [if_pos hlast]
        exact ⟨.data (show 0 < 8 by decide) (show 0 < c by omega) (by omega) rfl rfl rfl hbyte, rfl⟩
      · rw [if_neg hlast, nextCount_eq hj]
        exact ⟨.start (show j + 1 < c by omega) (by omega) rfl rfl hbyte, rfl⟩
  | @data k j _ hk hj he hstate hcount hindex hbyte =>
      have hline : lineAt c byte (e + 1) = byte.getLsbD k := by
        have hoffset : e - 1 = c * (k + 1) + j := by omega
        rw [lineAt_succ (by omega), hoffset]
        exact frameBit_data hk hj
      have hnext : c * (k + 1 + 1) = c * (k + 1) + c := Nat.mul_succ c (k + 1)
      unfold UartTx.step
      rw [hstate]
      dsimp only
      rw [hcount, hindex, hbyte, hline.symm]
      by_cases hlast : j + 1 = c
      · rw [if_pos hlast]
        by_cases hseven : t.bitIndex = 7
        · have hk7 : k = 7 := by
            rw [← hindex, hseven]
            rfl
          subst hk7
          rw [if_pos hseven]
          exact ⟨.stop (show 0 < c by omega) (by omega) rfl rfl, rfl⟩
        · have hk7 : k ≠ 7 := by
            intro hk7
            apply hseven
            apply BitVec.eq_of_toNat_eq
            rw [hindex, hk7]
            rfl
          have hstep : (t.bitIndex + 1).toNat = k + 1 := by
            rw [BitVec.toNat_add, hindex]
            exact Nat.mod_eq_of_lt (show k + 1 < 8 by omega)
          rw [if_neg hseven]
          exact ⟨.data (show k + 1 < 8 by omega) (show 0 < c by omega) (by omega) rfl rfl hstep rfl,
            rfl⟩
      · rw [if_neg hlast, nextCount_eq hj]
        exact ⟨.data hk (show j + 1 < c by omega) (by omega) rfl rfl hindex rfl, rfl⟩
  | @stop j _ hj he hstate hcount =>
      have hline : lineAt c byte (e + 1) = true := by
        rw [lineAt_succ (by omega)]
        exact frameBit_stop (by omega)
      unfold UartTx.step
      rw [hstate]
      dsimp only
      rw [hcount, hline.symm]
      by_cases hlast : j + 1 = c
      · rw [if_pos hlast]
        exact ⟨.idle (by omega) rfl, rfl⟩
      · rw [if_neg hlast, nextCount_eq hj]
        exact ⟨.stop (show j + 1 < c by omega) (by omega) rfl rfl, rfl⟩
  | idle he hstate =>
      have hline : lineAt c byte (e + 1) = true := by
        rw [lineAt_succ (by omega)]
        exact frameBit_stop (by omega)
      unfold UartTx.step
      rw [hstate, hquiet hstate]
      exact ⟨.idle (by omega) rfl, hline.symm⟩

end Transmitter

/-!
# The receiver on the time scale
-/

inductive RxPhase (c : Nat) (byte : BitVec 8) : Nat -> UartRx -> Prop where
  | waiting {e : Nat} {r : UartRx} (he : e <= 2) (hstate : r.state = .idle)
      (hprev : r.prev = true) : RxPhase c byte e r
  | start {e j : Nat} {r : UartRx} (hj : j < c / 2) (he : e = 3 + j) (hstate : r.state = .start)
      (hcount : r.clkCount = j) : RxPhase c byte e r
  | data {e k j : Nat} {r : UartRx} (hk : k < 8) (hj : j < c) (he : e = 3 + c / 2 + c * k + j)
      (hstate : r.state = .data) (hcount : r.clkCount = j) (hindex : r.bitIndex.toNat = k)
      (hbits : forall i, i < k -> r.shiftReg.getLsbD i = byte.getLsbD i) : RxPhase c byte e r
  | stop {e j : Nat} {r : UartRx} (hj : j < c) (he : e = 3 + c / 2 + 8 * c + j)
      (hstate : r.state = .stop) (hcount : r.clkCount = j) (hbyte : r.shiftReg = byte) :
      RxPhase c byte e r
  | done {e : Nat} {r : UartRx} (he : 3 + c / 2 + 9 * c <= e) (hstate : r.state = .idle)
      (hprev : r.prev = true) : RxPhase c byte e r

/--
The cycles from the acceptance of a byte to its completion.
-/
def loopbackDelay (c : Nat) : Nat := 2 + c / 2 + 9 * c

section Receiver

variable {e : Nat} {r : UartRx}

theorem lineAt_of_le_one (he : e <= 1) : lineAt c byte e = true := by
  unfold lineAt
  rw [if_pos (by omega)]

theorem lineAt_of_two_le (he : 2 <= e) : lineAt c byte e = frameBit c byte (e - 2) := by
  unfold lineAt
  rw [if_neg (by omega)]

/--
Half a bit after the edge the start bit is still on the line.
-/
theorem lineAt_middle_of_start (hc : 2 <= c) : lineAt c byte (2 + c / 2) = false := by
  rw [lineAt_of_two_le (by omega)]
  exact frameBit_start (by omega)

/--
Each further full bit period ends in the middle of the next bit.
-/
theorem lineAt_middle_of_data (hc : 2 <= c) {k : Nat} (hk : k < 8) :
    lineAt c byte (2 + c / 2 + c * k + c) = byte.getLsbD k := by
  have hoffset : 2 + c / 2 + c * k + c - 2 = c * (k + 1) + c / 2 := by
    rw [Nat.mul_succ]
    omega
  rw [lineAt_of_two_le (by omega), hoffset]
  exact frameBit_data hk (by omega)

theorem lineAt_stop (he : 2 + 9 * c <= e) : lineAt c byte e = true := by
  rw [lineAt_of_two_le (by omega)]
  exact frameBit_stop (by omega)

theorem RxPhase.step (h : RxPhase c byte e r) (hc : 2 <= c) (rbrRead : Bool) :
    RxPhase c byte (e + 1) (r.step c rbrRead (lineAt c byte e)) := by
  cases h with
  | waiting he hstate hprev =>
      have hprev' := r.step_prev c rbrRead (lineAt c byte e)
      by_cases hedge : e = 2
      · have hline : lineAt c byte e = false := by
          rw [hedge, lineAt_of_two_le (Nat.le_refl 2)]
          exact frameBit_start (by omega)
        unfold UartRx.step
        rw [hstate, hprev, hline]
        exact .start (show 0 < c / 2 by omega) (by omega) rfl rfl
      · have hline : lineAt c byte e = true := lineAt_of_le_one (by omega)
        rw [hline] at hprev' ⊢
        refine .waiting (by omega) ?_ hprev'
        unfold UartRx.step
        rw [hstate, hprev]
        rfl
  | @start j _ hj he hstate hcount =>
      unfold UartRx.step
      rw [hstate]
      dsimp only
      rw [hcount]
      by_cases hlast : j + 1 = c / 2
      · have hline : lineAt c byte e = false := by
          rw [show e = 2 + c / 2 by omega]
          exact lineAt_middle_of_start hc
        rw [if_pos hlast, hline]
        exact .data (show 0 < 8 by decide) (show 0 < c by omega) (by omega) rfl rfl rfl
          fun i hi => absurd hi (Nat.not_lt_zero i)
      · rw [if_neg hlast, nextCount_eq (by omega)]
        exact .start (show j + 1 < c / 2 by omega) (by omega) rfl rfl
  | @data k j _ hk hj he hstate hcount hindex hbits =>
      have hnext : c * (k + 1) = c * k + c := Nat.mul_succ c k
      unfold UartRx.step
      rw [hstate]
      dsimp only
      rw [hcount, hindex]
      by_cases hlast : j + 1 = c
      · have hline : lineAt c byte e = byte.getLsbD k := by
          rw [show e = 2 + c / 2 + c * k + c by omega]
          exact lineAt_middle_of_data hc hk
        have hbits' : forall i, i < k + 1 ->
            (setBit r.shiftReg k (byte.getLsbD k)).getLsbD i = byte.getLsbD i := by
          intro i hi
          rw [getLsbD_setBit _ _ _ (by omega)]
          by_cases hik : i = k
          · rw [if_pos hik, hik]
          · rw [if_neg hik]
            exact hbits i (by omega)
        rw [if_pos hlast, hline]
        by_cases hseven : r.bitIndex = 7
        · have hk7 : k = 7 := by
            rw [← hindex, hseven]
            rfl
          subst hk7
          rw [if_pos hseven]
          exact .stop (show 0 < c by omega) (by omega) rfl rfl (BitVec.eq_of_getLsbD_eq hbits')
        · have hk7 : k ≠ 7 := by
            intro hk7
            apply hseven
            apply BitVec.eq_of_toNat_eq
            rw [hindex, hk7]
            rfl
          have hstep : (r.bitIndex + 1).toNat = k + 1 := by
            rw [BitVec.toNat_add, hindex]
            exact Nat.mod_eq_of_lt (show k + 1 < 8 by omega)
          rw [if_neg hseven]
          exact .data (show k + 1 < 8 by omega) (show 0 < c by omega) (by omega) rfl rfl hstep
            hbits'
      · rw [if_neg hlast, nextCount_eq hj]
        exact .data hk (show j + 1 < c by omega) (by omega) rfl rfl hindex hbits
  | @stop j _ hj he hstate hcount hbyte =>
      by_cases hlast : j + 1 = c
      · have hline : lineAt c byte e = true := lineAt_stop (by omega)
        have hprev' := r.step_prev c rbrRead (lineAt c byte e)
        refine .done (by omega) ?_ (hprev'.trans hline)
        unfold UartRx.step
        rw [hstate]
        dsimp only
        rw [hcount, if_pos hlast]
      · unfold UartRx.step
        rw [hstate]
        dsimp only
        rw [hcount, if_neg hlast, nextCount_eq hj]
        exact .stop (show j + 1 < c by omega) (by omega) rfl rfl hbyte
  | done he hstate hprev =>
      have hline : lineAt c byte e = true := lineAt_stop (by omega)
      have hprev' := r.step_prev c rbrRead (lineAt c byte e)
      refine .done (by omega) ?_ (hprev'.trans hline)
      unfold UartRx.step
      rw [hstate, hprev, hline]
      rfl

/--
The receiver is idle again, with the line at rest, when the next byte may be accepted.
-/
theorem RxPhase.restart (h : RxPhase c byte e r) (hc : 2 <= c) (he : 10 * c < e)
    (rbrRead : Bool) (byte' : BitVec 8) :
    RxPhase c byte' 1 (r.step c rbrRead (lineAt c byte e)) := by
  have hnext := h.step hc rbrRead
  cases hnext with
  | waiting _ hstate hprev => exact .waiting (by decide) hstate hprev
  | start => omega
  | @data k j _ hk =>
      have hmul : c * k <= c * 7 := Nat.mul_le_mul_left c (by omega)
      omega
  | stop => omega
  | done _ hstate hprev => exact .waiting (by decide) hstate hprev

theorem RxPhase.completes (h : RxPhase c byte e r) (hc : 2 <= c) :
    r.completes? c = if e = loopbackDelay c then some byte else none := by
  unfold loopbackDelay
  cases h with
  | waiting he hstate =>
      rw [r.completes_of_ne c (by rw [hstate]; decide), if_neg (by omega)]
  | start hj he hstate =>
      rw [r.completes_of_ne c (by rw [hstate]; decide), if_neg (by omega)]
  | @data k j _ hk hj he hstate =>
      have hmul : c * k <= c * 7 := Nat.mul_le_mul_left c (by omega)
      rw [r.completes_of_ne c (by rw [hstate]; decide), if_neg (by omega)]
  | @stop j _ hj he hstate hcount hbyte =>
      unfold UartRx.completes?
      rw [hcount, hbyte]
      by_cases hlast : j + 1 = c
      · rw [if_pos ⟨hstate, hlast⟩, if_pos (by omega)]
      · rw [if_neg fun h => hlast h.right, if_neg (by omega)]
  | done he hstate =>
      rw [r.completes_of_ne c (by rw [hstate]; decide), if_neg (by omega)]

end Receiver

/-!
# The pair of ports
-/

/--
The byte that the transmitter takes in a cycle: a write to the holding register while it is
empty.
-/
def Uart.accepts? (u : Uart) (i : UartIn) : Option (BitVec 8) :=
  if i.rst && u.lsr.getLsbD 5 then u.regs.thrWrite? i else none

/--
The byte that the receiver completes in a cycle.
-/
def Uart.completes? (c : Nat) (u : Uart) (i : UartIn) : Option (BitVec 8) :=
  if i.rst then u.rx.completes? c else none

/--
The byte that software takes from the receiver in a cycle: a read of the buffer register
that finds data ready.
-/
def Uart.reads? (u : Uart) (i : UartIn) : Option (BitVec 8) :=
  if i.rst && u.regs.rbrRead i && u.lsr.getLsbD 0 then some ((u.sDataI i).setWidth 8) else none

/--
The port a sends to the port b, which may be the same.  Both are reset in the first cycle and
never again.
-/
structure Loopback (c : Nat) (a b : Nat -> Uart) (ia ib : Nat -> UartIn) : Prop where
  stepA : forall n, a (n + 1) = (a n).step c (ia n)
  stepB : forall n, b (n + 1) = (b n).step c (ib n)
  wire : forall n, (ib n).rx = (a n).tx.tx
  resetA : forall n, (ia n).rst = decide (n ≠ 0)
  resetB : forall n, (ib n).rst = decide (n ≠ 0)

theorem Uart.lsr_thre (u : Uart) : u.lsr.getLsbD 5 = !u.tx.busy := by
  unfold Uart.lsr
  cases u.tx.busy <;> cases u.rx.ready <;> rfl

theorem Uart.lsr_dr (u : Uart) : u.lsr.getLsbD 0 = u.rx.ready := by
  unfold Uart.lsr
  cases u.tx.busy <;> cases u.rx.ready <;> rfl

/--
When the last byte was accepted, and that none was between.
-/
structure LastAccepted (c : Nat) (accepted : Nat -> Option (BitVec 8)) (n e : Nat)
    (byte : BitVec 8) : Prop where
  pos : 1 <= e
  last : forall m, m + e = n -> accepted m = some byte
  since : forall m, m < n -> n < m + e -> accepted m = none
  before : forall m, m + e < n -> n <= m + e + 10 * c -> accepted m = none
  never : n < e -> loopbackDelay c < e

section History

variable {accepted : Nat -> Option (BitVec 8)} {n e : Nat}

theorem LastAccepted.wait (h : LastAccepted c accepted n e byte) (hnone : accepted n = none) :
    LastAccepted c accepted (n + 1) (e + 1) byte := by
  refine ⟨by omega, ?_, ?_, ?_, ?_⟩
  · intro m hm
    exact h.last m (by omega)
  · intro m hm hlt
    by_cases hnow : m = n
    · rw [hnow]
      exact hnone
    · exact h.since m (by omega) (by omega)
  · intro m hm hle
    exact h.before m (by omega) (by omega)
  · intro hlt
    have hnever := h.never (by omega)
    omega

theorem LastAccepted.accept (h : LastAccepted c accepted n e byte) (he : 10 * c < e)
    {byte' : BitVec 8} (hsome : accepted n = some byte') :
    LastAccepted c accepted (n + 1) 1 byte' := by
  refine ⟨Nat.le_refl 1, ?_, ?_, ?_, ?_⟩
  · intro m hm
    rw [show m = n by omega]
    exact hsome
  · intro m hm hlt
    omega
  · intro m hm hle
    exact h.since m (by omega) (by omega)
  · intro hlt
    omega

/--
A byte is due when the delay has passed since it was accepted.
-/
theorem LastAccepted.due (h : LastAccepted c accepted n e byte) (hc : 2 <= c) :
    (if e = loopbackDelay c then some byte else none) =
      if loopbackDelay c <= n then accepted (n - loopbackDelay c) else none := by
  have hpos := h.pos
  have hdelay : 1 <= loopbackDelay c ∧ loopbackDelay c <= 1 + 10 * c := by
    unfold loopbackDelay
    omega
  by_cases hdue : e = loopbackDelay c
  · have hlate : e <= n := by
      by_contra hearly
      have hnever := h.never (by omega)
      omega
    rw [if_pos hdue, ← hdue, if_pos hlate]
    exact (h.last (n - e) (by omega)).symm
  · rw [if_neg hdue]
    by_cases hlate : loopbackDelay c <= n
    · rw [if_pos hlate]
      by_cases hmore : loopbackDelay c < e
      · exact (h.since _ (by omega) (by omega)).symm
      · exact (h.before _ (by omega) (by omega)).symm
    · rw [if_neg hlate]

end History

section Run

variable {a b : Nat -> Uart} {ia ib : Nat -> UartIn}

def acceptedAt (a : Nat -> Uart) (ia : Nat -> UartIn) (n : Nat) : Option (BitVec 8) :=
  (a n).accepts? (ia n)

def completedAt (c : Nat) (b : Nat -> Uart) (ib : Nat -> UartIn) (n : Nat) :
    Option (BitVec 8) :=
  (b n).completes? c (ib n)

theorem Uart.accepts_of_idle {u : Uart} {i : UartIn} (hrst : i.rst = true)
    (hidle : u.tx.state = .idle) : u.accepts? i = u.regs.thrWrite? i := by
  have hbusy : u.tx.busy = false := by
    unfold UartTx.busy
    rw [hidle]
    rfl
  unfold Uart.accepts?
  rw [hrst, Uart.lsr_thre, hbusy]
  rfl

theorem Uart.idle_of_accepts {u : Uart} {i : UartIn} {byte : BitVec 8}
    (h : u.accepts? i = some byte) :
    i.rst = true ∧ u.tx.state = .idle ∧ u.regs.thrWrite? i = some byte := by
  unfold Uart.accepts? at h
  rw [Uart.lsr_thre] at h
  cases hrst : i.rst with
  | false => simp [hrst] at h
  | true =>
      cases hbusy : u.tx.busy with
      | true => simp [hbusy] at h
      | false =>
          have hidle : u.tx.state = .idle := by
            unfold UartTx.busy at hbusy
            simpa using hbusy
          simp only [hrst, hbusy, Bool.not_false, Bool.and_self, if_true] at h
          exact ⟨rfl, hidle, h⟩

theorem Uart.step_running {u : Uart} {i : UartIn} (hrst : i.rst = true) :
    u.step c i =
      { regs := u.regs.step i
        tx := u.tx.step c (u.regs.thrWrite? i)
        rx := u.rx.step c (u.regs.rbrRead i) i.rx } := by
  unfold Uart.step
  rw [hrst]
  rfl

/--
Both machines on the time scale of the last accepted byte.
-/
theorem Loopback.phases (h : Loopback c a b ia ib) (hc : 2 <= c) (n : Nat) :
    exists e byte, TxAt c byte e (a (n + 1)).tx ∧ RxPhase c byte e (b (n + 1)).rx ∧
      LastAccepted c (acceptedAt a ia) (n + 1) e byte := by
  induction n with
  | zero =>
      have hresetA : (ia 0).rst = false := h.resetA 0
      have hresetB : (ib 0).rst = false := h.resetB 0
      have ha : (a 1).tx = (a 0).tx.reset := by
        rw [h.stepA 0, Uart.step, hresetA]
        rfl
      have hb : (b 1).rx = (b 0).rx.reset := by
        rw [h.stepB 0, Uart.step, hresetB]
        rfl
      refine ⟨10 * c + 3, 0, ⟨?_, ?_⟩, ?_, ⟨by omega, ?_, ?_, ?_, ?_⟩⟩
      · rw [ha]
        exact .idle (by omega) rfl
      · rw [ha, lineAt_stop (by omega)]
        rfl
      · rw [hb]
        exact .done (by omega) rfl rfl
      · intro m hm
        omega
      · intro m hm _
        have hzero : m = 0 := by omega
        unfold acceptedAt Uart.accepts?
        rw [hzero, hresetA]
        rfl
      · intro m hm
        omega
      · intro _
        unfold loopbackDelay
        omega
  | succ n ih =>
      obtain ⟨e, byte, htx, hrx, hlast⟩ := ih
      have hrstA : (ia (n + 1)).rst = true := h.resetA (n + 1)
      have hrstB : (ib (n + 1)).rst = true := h.resetB (n + 1)
      have hline : (ib (n + 1)).rx = lineAt c byte e := (h.wire (n + 1)).trans htx.line
      rw [h.stepA (n + 1), h.stepB (n + 1), Uart.step_running hrstA, Uart.step_running hrstB,
        hline]
      cases hsent : acceptedAt a ia (n + 1) with
      | none =>
          refine ⟨e + 1, byte, htx.step ?_, hrx.step hc _, hlast.wait hsent⟩
          intro hidle
          rw [← Uart.accepts_of_idle hrstA hidle]
          exact hsent
      | some byte' =>
          obtain ⟨_, hidle, hwrite⟩ := Uart.idle_of_accepts hsent
          have hlate : 10 * c < e := htx.phase.idle_iff.mp hidle
          refine ⟨1, byte', ?_, hrx.restart hc hlate _ byte', hlast.accept hlate hsent⟩
          dsimp only
          rw [hwrite]
          exact txAt_accept (by omega) hidle byte'

/--
Every byte completes after the same delay, and nothing else completes.
-/
theorem Loopback.completed (h : Loopback c a b ia ib) (hc : 2 <= c) (n : Nat) :
    completedAt c b ib n =
      if loopbackDelay c <= n then acceptedAt a ia (n - loopbackDelay c) else none := by
  cases n with
  | zero =>
      have hresetB : (ib 0).rst = false := h.resetB 0
      unfold completedAt Uart.completes? loopbackDelay
      rw [hresetB, if_neg (show ¬ 2 + c / 2 + 9 * c <= 0 by omega)]
      rfl
  | succ n =>
      obtain ⟨e, byte, _, hrx, hlast⟩ := h.phases hc n
      have hrstB : (ib (n + 1)).rst = true := h.resetB (n + 1)
      unfold completedAt Uart.completes?
      rw [hrstB, if_pos rfl, hrx.completes hc]
      exact hlast.due hc

/-!
# Sequences of bytes
-/

/--
What happens before a cycle, in order.
-/
def before (event : Nat -> Option (BitVec 8)) (n : Nat) : List (BitVec 8) :=
  (List.range n).filterMap event

theorem before_succ (event : Nat -> Option (BitVec 8)) (n : Nat) :
    before event (n + 1) = before event n ++ (event n).toList := by
  unfold before
  rw [List.range_succ, List.filterMap_append]
  cases hevent : event n with
  | none => simp [hevent]
  | some byte => simp [hevent]

theorem Loopback.received (h : Loopback c a b ia ib) (hc : 2 <= c) (n : Nat) :
    before (completedAt c b ib) n = before (acceptedAt a ia) (n - loopbackDelay c) := by
  induction n with
  | zero => rw [Nat.zero_sub]; rfl
  | succ n ih =>
      rw [before_succ, ih, h.completed hc n]
      by_cases hlate : loopbackDelay c <= n
      · rw [if_pos hlate, Nat.succ_sub hlate, before_succ]
      · rw [if_neg hlate, show n + 1 - loopbackDelay c = n - loopbackDelay c by omega]
        exact List.append_nil _

def readAt (b : Nat -> Uart) (ib : Nat -> UartIn) (n : Nat) : Option (BitVec 8) :=
  (b n).reads? (ib n)

/--
The byte that is ready and not read yet.
-/
def Uart.unread (u : Uart) : List (BitVec 8) := if u.rx.ready then [u.rx.dataReg] else []

/--
Software takes a byte at the latest in the cycle in which the next one completes.
-/
def ReadsInTime (c : Nat) (b : Nat -> Uart) (ib : Nat -> UartIn) : Prop :=
  forall n, completedAt c b ib n ≠ none -> (b n).rx.ready = true -> (b n).regs.rbrRead (ib n) = true

theorem Uart.sDataI_of_rbrRead {u : Uart} {i : UartIn} (h : u.regs.rbrRead i = true) :
    (u.sDataI i).setWidth 8 = u.rx.dataReg := by
  simp only [UartRegs.rbrRead, Bool.and_eq_true, decide_eq_true_eq, Bool.not_eq_true'] at h
  unfold Uart.sDataI
  rw [if_pos h.left.right, h.right, if_neg Bool.false_ne_true, BitVec.setWidth_setWidth_of_le]
  · exact BitVec.setWidth_eq _
  · decide

theorem Uart.reads_eq {u : Uart} {i : UartIn} (hrst : i.rst = true) :
    u.reads? i =
      if (u.rx.ready && u.regs.rbrRead i) = true then some u.rx.dataReg else none := by
  unfold Uart.reads?
  rw [hrst, Uart.lsr_dr, Bool.true_and, Bool.and_comm]
  cases hread : u.regs.rbrRead i with
  | false => simp
  | true => rw [Uart.sDataI_of_rbrRead hread]

/--
What software has taken and what is still unread make up what has completed.
-/
theorem Loopback.taken (h : Loopback c a b ia ib) (htime : ReadsInTime c b ib) (n : Nat) :
    before (readAt b ib) (n + 1) ++ (b (n + 1)).unread = before (completedAt c b ib) (n + 1) := by
  induction n with
  | zero =>
      have hresetB : (ib 0).rst = false := h.resetB 0
      have hb : (b 1).rx = (b 0).rx.reset := by
        rw [h.stepB 0, Uart.step, hresetB]
        rfl
      have hread : readAt b ib 0 = none := by
        unfold readAt Uart.reads?
        rw [hresetB]
        rfl
      have hcompleted : completedAt c b ib 0 = none := by
        unfold completedAt Uart.completes?
        rw [hresetB]
        rfl
      rw [before_succ, before_succ, hread, hcompleted]
      unfold Uart.unread
      rw [hb]
      rfl
  | succ n ih =>
      have hrst : (ib (n + 1)).rst = true := h.resetB (n + 1)
      have hcompleted : completedAt c b ib (n + 1) = (b (n + 1)).rx.completes? c := by
        unfold completedAt Uart.completes?
        rw [hrst, if_pos rfl]
      have hrx : (b (n + 1 + 1)).rx = (b (n + 1)).rx.step c ((b (n + 1)).regs.rbrRead (ib (n + 1)))
          (ib (n + 1)).rx := by
        rw [h.stepB (n + 1), Uart.step_running hrst]
      have hkept : (readAt b ib (n + 1)).toList ++ (b (n + 1 + 1)).unread =
          (b (n + 1)).unread ++ (completedAt c b ib (n + 1)).toList := by
        have hintime := htime (n + 1)
        unfold readAt Uart.unread
        rw [hcompleted] at hintime ⊢
        rw [Uart.reads_eq hrst, hrx, UartRx.step_ready, UartRx.step_dataReg]
        cases hbyte : (b (n + 1)).rx.completes? c with
        | none =>
            cases (b (n + 1)).rx.ready with
            | false => rfl
            | true =>
                cases (b (n + 1)).regs.rbrRead (ib (n + 1)) with
                | false => rfl
                | true => rfl
        | some byte =>
            cases hready : (b (n + 1)).rx.ready with
            | false => rfl
            | true =>
                rw [hintime (by rw [hbyte]; exact Option.some_ne_none byte) hready]
                rfl
      rw [before_succ _ (n + 1), List.append_assoc, hkept, ← List.append_assoc, ih, ← before_succ]

/--
A completed byte shows in the receive buffer register, which otherwise keeps its byte.
-/
theorem Loopback.shown (h : Loopback c a b ia ib) {n : Nat} (hn : 1 <= n) :
    (b (n + 1)).rx.dataReg = (completedAt c b ib n).getD (b n).rx.dataReg ∧
      (b (n + 1)).rx.ready = ((completedAt c b ib n).isSome ||
        ((b n).rx.ready && !(b n).regs.rbrRead (ib n))) := by
  have hrst : (ib n).rst = true := by
    rw [h.resetB n]
    exact decide_eq_true (by omega)
  unfold completedAt Uart.completes?
  rw [h.stepB n, Uart.step_running hrst, hrst, if_pos rfl]
  exact ⟨UartRx.step_dataReg _ _ _ _, UartRx.step_ready _ _ _ _⟩

/--
The receiver completes the bytes that the transmitter accepted, in order and each once, and
software that reads in time takes these bytes.
-/
theorem uart_loopback (h : Loopback c a b ia ib) (hc : 2 <= c) :
    (forall n, before (completedAt c b ib) n =
      before (acceptedAt a ia) (n - loopbackDelay c)) ∧
    (forall n, 1 <= n ->
      (b (n + 1)).rx.dataReg = (completedAt c b ib n).getD (b n).rx.dataReg ∧
        (b (n + 1)).rx.ready = ((completedAt c b ib n).isSome ||
          ((b n).rx.ready && !(b n).regs.rbrRead (ib n)))) ∧
    (ReadsInTime c b ib -> forall n, 1 <= n ->
      before (readAt b ib) n ++ (b n).unread =
        before (acceptedAt a ia) (n - loopbackDelay c)) := by
  refine ⟨h.received hc, fun n hn => h.shown hn, ?_⟩
  intro htime n hn
  obtain ⟨m, rfl⟩ : exists m, n = m + 1 := ⟨n - 1, by omega⟩
  rw [h.taken htime m, h.received hc (m + 1)]

end Run

/-!
# A port wired to itself
-/

section Self

def selfIn (bus : Nat -> UartIn) (n : Nat) (u : Uart) : UartIn :=
  { bus n with rst := decide (n ≠ 0), rx := u.tx.tx }

def selfRun (c : Nat) (powerUp : Uart) (bus : Nat -> UartIn) : Nat -> Uart
  | 0 => powerUp
  | n + 1 =>
      let u := selfRun c powerUp bus n
      u.step c (selfIn bus n u)

theorem selfRun_loopback (c : Nat) (powerUp : Uart) (bus : Nat -> UartIn) :
    Loopback c (selfRun c powerUp bus) (selfRun c powerUp bus)
      (fun n => selfIn bus n (selfRun c powerUp bus n))
      (fun n => selfIn bus n (selfRun c powerUp bus n)) :=
  ⟨fun _ => rfl, fun _ => rfl, fun _ => rfl, fun _ => rfl, fun _ => rfl⟩

/--
Software writes two bytes and reads the receive buffer in all other cycles.
-/
def helloIn (n : Nat) : UartIn :=
  { rst := true, sCyc := true, sStb := true, sWe := decide (n = 1) || decide (n = 30), sAddr := 0
    sDataO := if n = 1 then 0x148 else 0x69, rx := true }

def coldUart : Uart :=
  { regs := UartRegs.reset
    tx := { state := .stop, tx := false, clkCount := 1, bitIndex := 5, shiftReg := 0xFF }
    rx := { state := .data, clkCount := 1, bitIndex := 7, shiftReg := 0, dataReg := 0x55
            ready := true, prev := false } }

theorem hello_regs (n : Nat) : (selfRun 2 coldUart helloIn n).regs = UartRegs.reset := by
  induction n with
  | zero => rfl
  | succ n ih =>
      change (Uart.step 2 _ _).regs = _
      unfold Uart.step
      split
      · have hsel : (selfIn helloIn n (selfRun 2 coldUart helloIn n)).regSel = regRbrThrDll := by
          change (0 : BitVec 32).extractLsb' 2 3 = _
          decide
        rw [ih, UartRegs.step, if_pos hsel]
        split
        · rfl
        · rfl
      · rfl

theorem hello_readsInTime :
    ReadsInTime 2 (selfRun 2 coldUart helloIn)
      (fun n => selfIn helloIn n (selfRun 2 coldUart helloIn n)) := by
  intro n hcompleted _
  by_cases hfirst : n = 1
  · subst hfirst
    exact absurd (by decide) hcompleted
  · by_cases hsecond : n = 30
    · subst hsecond
      exact absurd (by decide +kernel) hcompleted
    · unfold UartRegs.rbrRead
      rw [hello_regs]
      simp [UartIn.busRead, selfIn, helloIn, hfirst, hsecond, UartIn.regSel, UartRegs.dlab,
        UartRegs.reset, regRbrThrDll]

theorem uart_loopback_hello :
    before (completedAt 2 (selfRun 2 coldUart helloIn)
        (fun n => selfIn helloIn n (selfRun 2 coldUart helloIn n))) 60 = [0x48, 0x69] ∧
      before (readAt (selfRun 2 coldUart helloIn)
          (fun n => selfIn helloIn n (selfRun 2 coldUart helloIn n))) 60 ++
        (selfRun 2 coldUart helloIn 60).unread = [0x48, 0x69] := by
  have hloop := uart_loopback (selfRun_loopback 2 coldUart helloIn) (by decide)
  have hsent : before (acceptedAt (selfRun 2 coldUart helloIn)
      (fun n => selfIn helloIn n (selfRun 2 coldUart helloIn n))) (60 - loopbackDelay 2) =
        [0x48, 0x69] := by
    decide +kernel
  exact ⟨(hloop.left 60).trans hsent,
    (hloop.right.right hello_readsInTime 60 (by decide)).trans hsent⟩

end Self

end Block
end RvCores
