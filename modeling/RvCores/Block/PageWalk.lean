import RvCores.Block.Translation

/-!
# The three-level walk

A reference for the walker: a recursion over the levels of the page table that reads one
entry at each level.  The walker agrees with it for every memory and every delay of the
answers, and reads the entries on its path and no others.
-/

namespace RvCores
namespace Block

/-!
# Reference walk
-/

structure PageRequest where
  vaddr : BitVec 64
  satpPpn : BitVec 44
  isFetch : Bool
  isStore : Bool
  privIsU : Bool
deriving DecidableEq

namespace PageRequest

variable (q : PageRequest)

def index (level : Nat) : BitVec 9 := q.vaddr.extractLsb' (12 + 9 * level) 9

def entryAddr (level : Nat) (table : BitVec 20) : BitVec 64 :=
  (table ++ q.index level ++ 0#3).setWidth 64

/--
The page numbers below the level of a superpage leaf must be zero.
-/
def aligned (level : Nat) (pte : BitVec 64) : Bool :=
  decide (pte.extractLsb' 10 (9 * level) = 0)

def allows (perms : Perms) : Bool :=
  (if q.isFetch then perms.x else if q.isStore then perms.w else perms.r) &&
    perms.u == q.privIsU

/--
The page number of a leaf, with the low parts of a superpage taken from the address.
-/
def leafPage (level : Nat) (pte : BitVec 64) : BitVec 20 :=
  ((Pte.ppn20 pte >>> (9 * level)) <<< (9 * level)) |||
    (q.vaddr.extractLsb' 12 (9 * level)).setWidth 20

def leaf (level : Nat) (pte : BitVec 64) : Option (Page 64) :=
  if aligned level pte && q.allows (Pte.perms pte) then
    some { ppn := (q.leafPage level pte).setWidth 64, perms := Pte.perms pte }
  else none

def descends (pte : BitVec 64) : Bool := Pte.v pte && !Pte.leaf pte

/--
Nothing is found when the walk faults.
-/
def walk (mem : BitVec 64 -> BitVec 64) : Nat -> BitVec 20 -> Option (Page 64)
  | 0, table =>
      let pte := mem (q.entryAddr 0 table)
      if Pte.v pte && Pte.leaf pte then q.leaf 0 pte else none
  | level + 1, table =>
      let pte := mem (q.entryAddr (level + 1) table)
      if descends pte then walk mem level (Pte.ppn20 pte)
      else if Pte.v pte then q.leaf (level + 1) pte
      else none

/--
The entries that the walk reads, in order.
-/
def path (mem : BitVec 64 -> BitVec 64) : Nat -> BitVec 20 -> List (BitVec 64)
  | 0, table => [q.entryAddr 0 table]
  | level + 1, table =>
      let pte := mem (q.entryAddr (level + 1) table)
      q.entryAddr (level + 1) table ::
        if descends pte then path mem level (Pte.ppn20 pte) else []

def root : BitVec 20 := q.satpPpn.setWidth 20

end PageRequest

/-!
# Slices

The walker cuts the address into page numbers when it starts, and has its own
concatenation for each level.
-/

theorem or_append_disjoint (base : BitVec 20) (idx : BitVec 9) :
    (base ++ 0#12) ||| (0#20 ++ idx ++ 0#3) = base ++ idx ++ 0#3 := by
  apply BitVec.eq_of_getLsbD_eq
  intro k hk
  simp only [BitVec.getLsbD_or, BitVec.getLsbD_append, BitVec.getLsbD_zero]
  by_cases h3 : k < 3
  · have h12 : k < 12 := by omega
    simp [h3, h12]
  · by_cases h12 : k < 12
    · have h9 : k - 3 < 9 := by omega
      simp [h3, h12, h9]
    · have h9 : ¬ k - 3 < 9 := by omega
      simp [h3, h12, h9, Nat.sub_sub]

theorem extractLsb'_vpn (vaddr : BitVec 64) {lo : Nat} (hlo : lo + 9 <= 27) :
    (vpn vaddr).extractLsb' lo 9 = vaddr.extractLsb' (12 + lo) 9 := by
  apply BitVec.eq_of_getLsbD_eq
  intro k hk
  have hin : lo + k < 27 := by omega
  simp [vpn, BitVec.extractLsb, hk, hin, Nat.add_assoc]

theorem gigapage_number (ppn : BitVec 20) (vaddr : BitVec 64) :
    (ppn.extractLsb 19 18 : BitVec 2) ++ vaddr.extractLsb' 21 9 ++ vaddr.extractLsb' 12 9
      = (ppn >>> 18) <<< 18 ||| (vaddr.extractLsb' 12 18).setWidth 20 := by
  apply BitVec.eq_of_getLsbD_eq
  intro k hk
  have hlt : k < 20 := hk
  simp only [BitVec.getLsbD_or, BitVec.getLsbD_append, BitVec.getLsbD_shiftLeft,
    BitVec.getLsbD_ushiftRight, BitVec.getLsbD_setWidth, BitVec.getLsbD_extractLsb',
    BitVec.extractLsb]
  by_cases h9 : k < 9
  · have h18 : k < 18 := by omega
    simp [h9, h18, hlt]
  · by_cases h18 : k < 18
    · have hmiddle : k - 9 < 9 := by omega
      have hbit : 21 + (k - 9) = 12 + k := by omega
      simp [h9, h18, hlt, hmiddle, hbit]
    · have hmiddle : ¬ k - 9 < 9 := by omega
      have htop : k - 9 - 9 = k - 18 := by omega
      have hrest : k - 18 < 2 := by omega
      simp [h9, h18, hlt, hmiddle, htop, hrest]

theorem megapage_number (ppn : BitVec 20) (vaddr : BitVec 64) :
    (ppn.extractLsb 19 9 : BitVec 11) ++ vaddr.extractLsb' 12 9
      = (ppn >>> 9) <<< 9 ||| (vaddr.extractLsb' 12 9).setWidth 20 := by
  apply BitVec.eq_of_getLsbD_eq
  intro k hk
  have hlt : k < 20 := hk
  simp only [BitVec.getLsbD_or, BitVec.getLsbD_append, BitVec.getLsbD_shiftLeft,
    BitVec.getLsbD_ushiftRight, BitVec.getLsbD_setWidth, BitVec.getLsbD_extractLsb',
    BitVec.extractLsb]
  by_cases h9 : k < 9
  · simp [h9, hlt]
  · have htop : k - 9 < 11 := by omega
    simp [h9, hlt, htop]

namespace WalkLevel

def number : WalkLevel -> Nat
  | .l2 => 2
  | .l1 => 1
  | .l0 => 0

def below : WalkLevel -> WalkLevel
  | .l2 => .l1
  | .l1 => .l0
  | .l0 => .l0

theorem number_below {level : WalkLevel} {k : Nat} (h : level.number = k + 1) :
    level.below.number = k := by
  cases level with
  | l2 => exact Nat.succ.inj h
  | l1 => exact Nat.succ.inj h
  | l0 => cases h

end WalkLevel

namespace PageRequest

variable (q : PageRequest)

/--
What the walker has latched of a request.
-/
def latched : WalkRequest 27 44 :=
  { vpn := Block.vpn q.vaddr
    satpPpn := q.satpPpn
    isFetch := q.isFetch
    isStore := q.isStore
    privIsU := q.privIsU }

/--
The table of a level, given the entry read at the level above.
-/
def tableAt (level : WalkLevel) (pte : BitVec 64) : BitVec 20 :=
  match level with
  | .l2 => q.root
  | _ => Pte.ppn20 pte

theorem vpn2_latched : q.latched.vpn2 = q.index 2 := extractLsb'_vpn q.vaddr (by decide)
theorem vpn1_latched : q.latched.vpn1 = q.index 1 := extractLsb'_vpn q.vaddr (by decide)
theorem vpn0_latched : q.latched.vpn0 = q.index 0 := extractLsb'_vpn q.vaddr (by decide)

theorem pteAddr_latched (level : WalkLevel) (pte : BitVec 64) :
    PagingScheme.pteAddr q.latched level pte = q.entryAddr level.number (q.tableAt level pte) := by
  show WalkRequest.pteAddr _ _ _ = _
  unfold WalkRequest.pteAddr entryAddr
  cases level with
  | l2 =>
      simp only [or_append_disjoint, vpn2_latched]
      rfl
  | l1 =>
      simp only [or_append_disjoint, vpn1_latched]
      rfl
  | l0 =>
      simp only [or_append_disjoint, vpn0_latched]
      rfl

theorem misaligned_eq (level : WalkLevel) (pte : BitVec 64) :
    PagingScheme.misaligned level pte = !aligned level.number pte := by
  cases level with
  | l2 => exact decide_not
  | l1 => exact decide_not
  | l0 => exact (congrArg (!·) (decide_eq_true (BitVec.of_length_zero))).symm

theorem permitted_latched (pte : BitVec 64) :
    q.latched.permitted pte = q.allows (Pte.perms pte) := by
  unfold WalkRequest.permitted allows latched
  cases hu : (Pte.perms pte).u <;> cases hpriv : q.privIsU <;> simp [hu]

theorem leafPpn_latched (level : WalkLevel) (pte : BitVec 64) :
    PagingScheme.leafPpn q.latched level pte = (q.leafPage level.number pte).setWidth 64 := by
  show WalkRequest.leafPpn _ _ _ = _
  unfold WalkRequest.leafPpn leafPage
  cases level with
  | l2 =>
      rw [vpn1_latched, vpn0_latched]
      exact congrArg (BitVec.setWidth 64) (gigapage_number _ q.vaddr)
  | l1 =>
      rw [vpn0_latched]
      exact congrArg (BitVec.setWidth 64) (megapage_number _ q.vaddr)
  | l0 =>
      apply congrArg (BitVec.setWidth 64)
      apply BitVec.eq_of_getLsbD_eq
      intro k hk
      simp [WalkLevel.number, hk]

end PageRequest

/-!
# One level of the walker
-/

def PtwIn.page (i : PtwIn 64 44) : PageRequest :=
  { vaddr := i.vaddr
    satpPpn := i.satpPpn
    isFetch := i.isFetch
    isStore := i.isStore
    privIsU := i.privIsU }

namespace Ptw39

open Ptw

variable {q : PageRequest} {level : WalkLevel} {table : BitVec 20} {u : Ptw39}

/--
The walker has asked for the entry of a level.
-/
structure Waiting (q : PageRequest) (level : WalkLevel) (table : BitVec 20) (u : Ptw39) :
    Prop where
  state : u.state = .wait level
  busy : u.busy = true
  done : u.done = false
  request : u.request = q.latched
  table : q.tableAt level u.pte = table

/--
The walker has the entry.
-/
structure Decoding (q : PageRequest) (level : WalkLevel) (pte : BitVec 64) (u : Ptw39) :
    Prop where
  state : u.state = .decode level
  busy : u.busy = true
  done : u.done = false
  request : u.request = q.latched
  pte : u.pte = pte

structure Finished (found : Option (Page 64)) (u : Ptw39) : Prop where
  state : u.state = .idle
  busy : u.busy = false
  done : u.done = true
  outcome : u.outcome = found

theorem waiting_begin {i : PtwIn 64 44} (hidle : u.state = .idle) (hbusy : u.busy = false)
    (hdone : u.done = false) (hstart : i.start = true) :
    Waiting i.page .l2 i.page.root (u.step i) := by
  have hstep : u.step i = ({ u with done := false } : Ptw39).begin i := by
    simp [step, hidle, hbusy, hdone, hstart]
  rw [hstep]
  exact ⟨rfl, rfl, rfl, rfl, rfl⟩

theorem Waiting.addr (h : Waiting q level table u) :
    u.addr = q.entryAddr level.number table := by
  rw [addr_wait h.state, h.request, q.pteAddr_latched, h.table]

theorem Waiting.cyc (h : Waiting q level table u) : u.cyc = true :=
  cyc_iff.mpr ⟨level, h.state⟩

theorem Waiting.stay (h : Waiting q level table u) {i : PtwIn 64 44} (hack : i.ack = false) :
    Waiting q level table (u.step i) := by
  have hstep : u.step i = { u with done := false } := by simp [step, h.state, hack]
  rw [hstep]
  exact ⟨h.state, h.busy, rfl, h.request, h.table⟩

theorem Waiting.answer (h : Waiting q level table u) {i : PtwIn 64 44} (hack : i.ack = true) :
    Decoding q level i.dataIn (u.step i) := by
  have hstep : u.step i = { u with done := false, pte := i.dataIn, state := .decode level } := by
    simp [step, h.state, hack]
  rw [hstep]
  exact ⟨rfl, h.busy, rfl, h.request, rfl⟩

theorem Decoding.cyc {pte : BitVec 64} (h : Decoding q level pte u) : u.cyc = false := by
  simp [Ptw.cyc, h.state]

theorem Decoding.step_eq {pte : BitVec 64} (h : Decoding q level pte u) (i : PtwIn 64 44) :
    u.step i = ({ u with done := false } : Ptw39).decode level := by
  simp [step, h.state]

theorem Decoding.descend {pte : BitVec 64} (h : Decoding q level pte u) {k : Nat}
    (hlevel : level.number = k + 1) (hdescends : PageRequest.descends pte = true)
    (i : PtwIn 64 44) :
    Waiting q level.below (Pte.ppn20 pte) (u.step i) := by
  rw [PageRequest.descends, Bool.and_eq_true, Bool.not_eq_true'] at hdescends
  rw [h.step_eq i]
  unfold decode
  simp only [h.pte, hdescends.left, hdescends.right, Bool.not_true, Bool.false_eq_true, if_false]
  cases level with
  | l2 => exact ⟨rfl, h.busy, rfl, h.request, rfl⟩
  | l1 => exact ⟨rfl, h.busy, rfl, h.request, rfl⟩
  | l0 => cases hlevel

theorem finished_fault (u : Ptw39) : Finished none (u.finish u.faultResult) :=
  ⟨rfl, rfl, rfl, rfl⟩

theorem Decoding.found {pte : BitVec 64} (h : Decoding q level pte u)
    (hv : Pte.v pte = true) (hleaf : Pte.leaf pte = true) (i : PtwIn 64 44) :
    Finished (q.leaf level.number pte) (u.step i) := by
  rw [h.step_eq i]
  unfold decode leafResult
  simp only [h.pte, hv, hleaf, Bool.not_true, Bool.false_eq_true, if_false, if_true, h.request,
    q.permitted_latched, q.leafPpn_latched, PageRequest.misaligned_eq]
  unfold PageRequest.leaf
  cases PageRequest.aligned level.number pte with
  | false => exact finished_fault _
  | true =>
      cases q.allows (Pte.perms pte) with
      | false => exact finished_fault _
      | true => exact ⟨rfl, rfl, rfl, rfl⟩

theorem Decoding.invalid {pte : BitVec 64} (h : Decoding q level pte u)
    (hv : Pte.v pte = false) (i : PtwIn 64 44) : Finished none (u.step i) := by
  rw [h.step_eq i]
  unfold decode
  simp only [h.pte, hv, Bool.not_false, if_true]
  exact finished_fault _

theorem Decoding.bottom {pte : BitVec 64} (h : Decoding q .l0 pte u)
    (hleaf : Pte.leaf pte = false) (i : PtwIn 64 44) : Finished none (u.step i) := by
  rw [h.step_eq i]
  unfold decode
  simp only [h.pte, hleaf, Bool.false_eq_true, if_false]
  split <;> exact finished_fault _

/-!
# Runs
-/

def run (u : Ptw39) (j : Nat -> PtwIn 64 44) : Nat -> Ptw39
  | 0 => u
  | m + 1 => (run u j m).step (j m)

/--
The addresses of the requests that were answered, in order.
-/
def reads (u : Ptw39) (j : Nat -> PtwIn 64 44) : Nat -> List (BitVec 64)
  | 0 => []
  | m + 1 =>
      reads u j m ++ if (run u j m).cyc && (j m).ack then [(run u j m).addr] else []

/--
The memory answers every request at some time, with what it holds.
-/
structure Answers (mem : BitVec 64 -> BitVec 64) (u : Ptw39) (j : Nat -> PtwIn 64 44) : Prop where
  data : forall m, (run u j m).cyc = true -> (j m).ack = true ->
    (j m).dataIn = mem (run u j m).addr
  ack : forall m, (run u j m).cyc = true -> exists d, (j (m + d)).ack = true

variable {mem : BitVec 64 -> BitVec 64} {j : Nat -> PtwIn 64 44}

/--
From one cycle to another the walker works without a pulse.
-/
def Works (u : Ptw39) (j : Nat -> PtwIn 64 44) (m n : Nat) : Prop :=
  m <= n ∧ forall k, m <= k -> k < n -> (run u j k).busy = true ∧ (run u j k).done = false

theorem Works.trans {m n l : Nat} (h : Works u j m n) (h' : Works u j n l) : Works u j m l := by
  refine ⟨h.left.trans h'.left, ?_⟩
  intro k hk hlt
  rcases Nat.lt_or_ge k n with hbefore | hafter
  · exact h.right k hk hbefore
  · exact h'.right k hafter hlt

theorem works_succ {m : Nat} (hbusy : (run u j m).busy = true) (hdone : (run u j m).done = false) :
    Works u j m (m + 1) := by
  refine ⟨Nat.le_succ m, ?_⟩
  intro k hk hlt
  have hsame : k = m := by omega
  rw [hsame]
  exact ⟨hbusy, hdone⟩

/--
A request stays on the port until it is answered.
-/
theorem waits_for_answer {m : Nat} (h : Waiting q level table (run u j m)) (d : Nat)
    (hack : (j (m + d)).ack = true) (hmem : Answers mem u j) :
    exists n, Works u j m n ∧
      Decoding q level (mem (q.entryAddr level.number table)) (run u j n) ∧
      reads u j n = reads u j m ++ [q.entryAddr level.number table] := by
  induction d generalizing m with
  | zero =>
      have hnow : (j m).ack = true := hack
      have hread := h.answer hnow
      rw [hmem.data m h.cyc hnow, h.addr] at hread
      refine ⟨m + 1, works_succ h.busy h.done, hread, ?_⟩
      simp only [reads, h.cyc, h.addr, hnow]
      rfl
  | succ d ih =>
      cases hnow : (j m).ack with
      | true =>
          have hread := h.answer hnow
          rw [hmem.data m h.cyc hnow, h.addr] at hread
          refine ⟨m + 1, works_succ h.busy h.done, hread, ?_⟩
          simp only [reads, h.cyc, h.addr, hnow]
          rfl
      | false =>
          have hnext : (j (m + 1 + d)).ack = true := by
            rwa [Nat.add_right_comm, Nat.add_assoc]
          obtain ⟨n, hworks, hdecoding, hreads⟩ := ih (m := m + 1) (h.stay hnow) hnext
          refine ⟨n, (works_succ h.busy h.done).trans hworks, hdecoding, ?_⟩
          rw [hreads]
          simp only [reads, hnow, Bool.and_false, Bool.false_eq_true, if_false, List.append_nil]

/--
The walk from a level on, by induction on the level.
-/
theorem walks_from (hmem : Answers mem u j) (k : Nat) {level : WalkLevel}
    (hlevel : level.number = k) {table : BitVec 20} {m : Nat}
    (h : Waiting q level table (run u j m)) :
    exists n, m < n ∧ Works u j m n ∧ Finished (q.walk mem k table) (run u j n) ∧
      reads u j n = reads u j m ++ q.path mem k table := by
  induction k generalizing level table m with
  | zero =>
      obtain ⟨d, hack⟩ := hmem.ack m h.cyc
      obtain ⟨n, hworks, hdecoding, hreads⟩ := waits_for_answer h d hack hmem
      rw [hlevel] at hdecoding hreads
      have hbottom : level = .l0 := by
        cases level with
        | l0 => rfl
        | l1 => cases hlevel
        | l2 => cases hlevel
      have hstill : reads u j (n + 1) = reads u j n := by
        simp only [reads, hdecoding.cyc, Bool.false_and, Bool.false_eq_true, if_false,
          List.append_nil]
      refine ⟨n + 1, Nat.lt_succ_of_le hworks.left,
        hworks.trans (works_succ hdecoding.busy hdecoding.done), ?_, hstill.trans hreads⟩
      simp only [PageRequest.walk]
      cases hv : Pte.v (mem (q.entryAddr 0 table)) with
      | false => exact hdecoding.invalid hv (j n)
      | true =>
          cases hleaf : Pte.leaf (mem (q.entryAddr 0 table)) with
          | false =>
              subst hbottom
              exact hdecoding.bottom hleaf (j n)
          | true =>
              have hfound := hdecoding.found hv hleaf (j n)
              rw [hlevel] at hfound
              exact hfound
  | succ k ih =>
      obtain ⟨d, hack⟩ := hmem.ack m h.cyc
      obtain ⟨n, hworks, hdecoding, hreads⟩ := waits_for_answer h d hack hmem
      rw [hlevel] at hdecoding hreads
      have hstill : reads u j (n + 1) = reads u j n := by
        simp only [reads, hdecoding.cyc, Bool.false_and, Bool.false_eq_true, if_false,
          List.append_nil]
      have hstep := works_succ hdecoding.busy hdecoding.done
      simp only [PageRequest.walk, PageRequest.path]
      cases hdescends : PageRequest.descends (mem (q.entryAddr (k + 1) table)) with
      | true =>
          have hwaiting := hdecoding.descend hlevel hdescends (j n)
          obtain ⟨l, hlt, hrest, hfinished, hall⟩ :=
            ih (m := n + 1) (WalkLevel.number_below hlevel) hwaiting
          have hbefore : m < l := Nat.lt_trans (Nat.lt_succ_of_le hworks.left) hlt
          refine ⟨l, hbefore, (hworks.trans hstep).trans hrest, hfinished, ?_⟩
          rw [hall, hstill, hreads, List.append_assoc]
          rfl
      | false =>
          refine ⟨n + 1, Nat.lt_succ_of_le hworks.left, hworks.trans hstep, ?_,
            hstill.trans hreads⟩
          rw [if_neg Bool.false_ne_true]
          cases hv : Pte.v (mem (q.entryAddr (k + 1) table)) with
          | false => exact hdecoding.invalid hv (j n)
          | true =>
              rw [PageRequest.descends, hv, Bool.true_and, Bool.not_eq_false'] at hdescends
              have hfound := hdecoding.found hv hdescends (j n)
              rw [hlevel] at hfound
              exact hfound

/--
A walk started by an idle walker ends with one pulse and the result of the reference walk
of the request on the port in the first cycle, and reads its path.
-/
theorem ptw39_refines_walk (mem : BitVec 64 -> BitVec 64) (u : Ptw39)
    (hidle : u.state = .idle) (hbusy : u.busy = false) (hdone : u.done = false)
    (j : Nat -> PtwIn 64 44) (hstart : (j 0).start = true) (hmem : Answers mem u j) :
    exists n, 0 < n ∧
      (forall m, m < n -> (run u j m).done = false) ∧
      (forall m, 0 < m -> m < n -> (run u j m).busy = true) ∧
      (run u j n).done = true ∧
      (run u j n).outcome = (j 0).page.walk mem 2 (j 0).page.root ∧
      reads u j n = (j 0).page.path mem 2 (j 0).page.root ∧
      forall m, n < m -> (forall k, n < k -> k < m -> (j k).start = false) ->
        (run u j m).done = false := by
  have hbegin : Waiting (j 0).page .l2 (j 0).page.root (run u j 1) :=
    waiting_begin hidle hbusy hdone hstart
  have hnone : reads u j 1 = [] := by
    have hcyc : u.cyc = false := by simp [Ptw.cyc, hidle]
    simp [reads, run, hcyc]
  obtain ⟨n, hlt, hworks, hfinished, hreads⟩ := walks_from hmem 2 rfl hbegin
  refine ⟨n, by omega, ?_, ?_, hfinished.done, hfinished.outcome, ?_, ?_⟩
  · intro m hm
    cases m with
    | zero => exact hdone
    | succ m => exact (hworks.right (m + 1) (by omega) hm).right
  · intro m hpos hm
    exact (hworks.right m hpos hm).left
  · rw [hreads, hnone]
    rfl
  · have hrests (d : Nat) (hquiet : forall k, n < k -> k < n + 1 + d -> (j k).start = false) :
        (run u j (n + 1 + d)).state = .idle ∧ (run u j (n + 1 + d)).done = false := by
      induction d with
      | zero =>
          have hstep : run u j (n + 1) = { run u j n with done := false } := by
            simp [run, step, hfinished.state, hfinished.done]
          rw [Nat.add_zero, hstep]
          exact ⟨hfinished.state, rfl⟩
      | succ d ih =>
          obtain ⟨hstate, _⟩ := ih fun k hk hlt => hquiet k hk (by omega)
          have hlow : (j (n + 1 + d)).start = false := hquiet _ (by omega) (by omega)
          have hstep : run u j (n + 1 + d + 1) = { run u j (n + 1 + d) with done := false } := by
            simp [run, step, hstate, hlow]
          rw [← Nat.add_assoc, hstep]
          exact ⟨hstate, rfl⟩
    intro m hm hquiet
    obtain ⟨d, rfl⟩ : exists d, m = n + 1 + d := ⟨m - (n + 1), by omega⟩
    exact (hrests d hquiet).right

/--
A load by the supervisor under one gigapage at 0x40000000, the address changing after the
start.
-/
def gigapageInputs (n : Nat) : PtwIn 64 44 :=
  { start := true
    vaddr := if n = 0 then 0x12345678 else 0
    satpPpn := 0x80
    isFetch := false
    isStore := false
    privIsU := false
    dataIn := 0x1000000f
    ack := n % 2 == 0 }

theorem ptw39_refines_walk_gigapage :
    exists n, 0 < n ∧ (run powerUp gigapageInputs n).done = true ∧
      (run powerUp gigapageInputs n).outcome = some
        { ppn := 0x52345, perms := { r := true, w := true, x := true, u := false } } ∧
      reads powerUp gigapageInputs n = [0x80000] := by
  obtain ⟨n, hpos, _, _, hdone, houtcome, hreads, _⟩ :=
    ptw39_refines_walk (fun _ => 0x1000000f) powerUp rfl rfl rfl gigapageInputs rfl
      { data := fun _ _ _ => rfl
        ack := by
          intro m _
          refine ⟨m, ?_⟩
          simp only [gigapageInputs, beq_iff_eq]
          omega }
  refine ⟨n, hpos, hdone, ?_, ?_⟩
  · rw [houtcome]
    decide
  · rw [hreads]
    decide

end Ptw39
end Block
end RvCores
