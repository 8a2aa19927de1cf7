import RvCores.Lib.Table
import Mathlib.Data.BitVec

/-!
# Paging

Both register widths translate in the same way.  The translation buffer is direct mapped
on the low bits of the virtual page number.  The walker latches the virtual page number
when it starts, reads one page-table entry at each level, and keeps 20 bits of every
physical page number.  A scheme has its widths, its levels and its slices.
-/

namespace RvCores
namespace Block

structure Perms where
  r : Bool
  w : Bool
  x : Bool
  u : Bool
deriving DecidableEq, Repr

def noPerms : Perms := { r := false, w := false, x := false, u := false }

/--
A physical page with its permissions.
-/
structure Page (w : Nat) where
  ppn : BitVec w
  perms : Perms
deriving DecidableEq

namespace Pte

variable {w : Nat}

def v (pte : BitVec w) : Bool := pte.getLsbD 0
def perms (pte : BitVec w) : Perms :=
  { r := pte.getLsbD 1, w := pte.getLsbD 2, x := pte.getLsbD 3, u := pte.getLsbD 4 }
def leaf (pte : BitVec w) : Bool := (perms pte).r || (perms pte).w || (perms pte).x
def ppn20 (pte : BitVec w) : BitVec 20 := pte.extractLsb' 10 20

end Pte

structure WalkRequest (v p : Nat) where
  vpn : BitVec v
  satpPpn : BitVec p
  isFetch : Bool
  isStore : Bool
  privIsU : Bool
deriving DecidableEq

namespace WalkRequest

variable {w v p : Nat} (q : WalkRequest v p)

def permitted (pte : BitVec w) : Bool :=
  let p := Pte.perms pte
  (if q.isFetch then p.x else if q.isStore then p.w else p.r) &&
    (if q.privIsU then p.u else !p.u)

/--
A request without its access; the tables on a walk do not depend on it.
-/
def place : WalkRequest v p :=
  { vpn := q.vpn, satpPpn := q.satpPpn, isFetch := false, isStore := false, privIsU := false }

end WalkRequest

/-!
# Schemes
-/

/--
The levels below a level are listed from the next one down.  An entry address depends on
the entry read at the level above, except at the top.
-/
class PagingScheme (w : Nat) (Level : outParam Type) (v p : outParam Nat) where
  vpn : BitVec w -> BitVec v
  top : Level
  bottom : Level
  below : Level -> List Level
  pteAddr : WalkRequest v p -> Level -> BitVec w -> BitVec w
  misaligned : Level -> BitVec w -> Bool
  leafPpn : WalkRequest v p -> Level -> BitVec w -> BitVec w
  below_next : forall {level next : Level} {rest : List Level},
    below level = next :: rest -> below next = rest
  pteAddr_top : forall (q : WalkRequest v p) (pte : BitVec w),
    pteAddr q top pte = pteAddr q top 0
  pteAddr_place : forall (q : WalkRequest v p) (level : Level) (pte : BitVec w),
    pteAddr q.place level pte = pteAddr q level pte
  leafPpn_place : forall (q : WalkRequest v p) (level : Level) (pte : BitVec w),
    leafPpn q.place level pte = leafPpn q level pte

/-!
# Translation buffer
-/

structure TlbEntry (w v : Nat) where
  valid : Bool
  tag : BitVec v
  ppn : BitVec w
  perms : Perms

structure Tlb (w v : Nat) where
  entry : Nat -> TlbEntry w v

structure PageFill (w : Nat) where
  valid : Bool
  vaddr : BitVec w
  ppn : BitVec w
  perms : Perms

def PageFill.page {w : Nat} (fill : PageFill w) : Page w :=
  { ppn := fill.ppn, perms := fill.perms }

section Buffer

variable {Level : Type} {w v p : Nat}

namespace Tlb

def entries : Nat := 16

def powerUp : Tlb w v :=
  { entry := fun _ => { valid := false, tag := 0, ppn := 0, perms := noPerms } }

def index (n : BitVec v) : Nat := n.toNat % entries

def flush (tlb : Tlb w v) : Tlb w v :=
  { entry := fun k =>
      if k < entries then { tlb.entry k with valid := false } else tlb.entry k }

theorem index_lt (n : BitVec v) : index n < entries := Nat.mod_lt _ (by decide)

theorem flush_valid (tlb : Tlb w v) {k : Nat} (hk : k < entries) :
    (tlb.flush.entry k).valid = false := by
  simp [flush, hk]

end Tlb

variable [PagingScheme w Level v p]

def PageFill.entry (fill : PageFill w) : TlbEntry w v :=
  { valid := true
    tag := PagingScheme.vpn fill.vaddr
    ppn := fill.ppn
    perms := fill.perms }

namespace Tlb

def lookup (tlb : Tlb w v) (vaddr : BitVec w) : TlbEntry w v :=
  tlb.entry (index (PagingScheme.vpn vaddr))

def hit (tlb : Tlb w v) (vaddr : BitVec w) : Bool :=
  (tlb.lookup vaddr).valid && decide ((tlb.lookup vaddr).tag = PagingScheme.vpn vaddr)

def step (tlb : Tlb w v) (fill : PageFill w) (flushAll : Bool) : Tlb w v :=
  if flushAll then tlb.flush
  else if fill.valid then
    { entry := Lib.setAt tlb.entry (index (PagingScheme.vpn fill.vaddr)) fill.entry }
  else tlb

/--
An entry stays as it is, or is the one a fill writes.
-/
theorem step_entry (tlb : Tlb w v) (fill : PageFill w) (k : Nat) :
    (tlb.step fill false).entry k = tlb.entry k ∨
      (fill.valid = true ∧ (tlb.step fill false).entry k = fill.entry) := by
  cases hfill : fill.valid with
  | false => exact Or.inl (by simp [step, hfill])
  | true =>
      by_cases hslot : k = index (PagingScheme.vpn fill.vaddr)
      · refine Or.inr ⟨rfl, ?_⟩
        simp [step, hfill, hslot]
      · refine Or.inl ?_
        simp [step, hfill, Lib.setAt_of_ne hslot]

end Tlb

end Buffer

/-!
# Page-table walker
-/

inductive PtwState (Level : Type) where
  | idle
  | wait (level : Level)
  | decode (level : Level)
deriving DecidableEq, Repr

structure WalkResult (w : Nat) where
  fault : Bool
  ppn : BitVec w
  perms : Perms
deriving DecidableEq

structure Ptw (Level : Type) (w v p : Nat) where
  state : PtwState Level
  busy : Bool
  done : Bool
  result : WalkResult w
  request : WalkRequest v p
  pte : BitVec w

structure PtwIn (w p : Nat) where
  start : Bool
  vaddr : BitVec w
  satpPpn : BitVec p
  isFetch : Bool
  isStore : Bool
  privIsU : Bool
  dataIn : BitVec w
  ack : Bool

section Walker

variable {Level : Type} {w v p : Nat}

namespace Ptw

def powerUp : Ptw Level w v p :=
  { state := .idle
    busy := false
    done := false
    result := { fault := false, ppn := 0, perms := noPerms }
    request :=
      { vpn := 0, satpPpn := 0, isFetch := false, isStore := false, privIsU := false }
    pte := 0 }

def reset (ptw : Ptw Level w v p) : Ptw Level w v p :=
  { ptw with
    state := .idle
    busy := false
    done := false
    result := { ptw.result with fault := false } }

def cyc (ptw : Ptw Level w v p) : Bool :=
  match ptw.state with
  | .wait _ => true
  | _ => false

def finish (ptw : Ptw Level w v p) (result : WalkResult w) : Ptw Level w v p :=
  { ptw with busy := false, done := true, result := result, state := .idle }

/--
A faulting walk leaves the translation of the last good one in the registers.
-/
def faultResult (ptw : Ptw Level w v p) : WalkResult w := { ptw.result with fault := true }

/--
What the walker shows with its pulse.  A fault leaves old values in the other registers.
-/
def outcome (ptw : Ptw Level w v p) : Option (Page w) :=
  if ptw.result.fault then none else some { ppn := ptw.result.ppn, perms := ptw.result.perms }

structure Coherent (ptw : Ptw Level w v p) : Prop where
  busy : ptw.busy = true <-> ptw.state ≠ .idle
  done : ptw.done = true -> ptw.state = .idle

variable {ptw : Ptw Level w v p}

theorem coherent_reset (ptw : Ptw Level w v p) : ptw.reset.Coherent := by
  constructor
  · simp [reset]
  · intro _
    rfl

theorem Coherent.busy_of_state (h : ptw.Coherent) (hstate : ptw.state ≠ .idle) :
    ptw.busy = true :=
  h.busy.mpr hstate

theorem Coherent.not_busy (h : ptw.Coherent) (hstate : ptw.state = .idle) :
    ptw.busy = false := by
  cases hbusy : ptw.busy with
  | false => rfl
  | true => exact absurd hstate (h.busy.mp hbusy)

theorem Coherent.idle_of_not_busy (h : ptw.Coherent) (hbusy : ptw.busy = false) :
    ptw.state = .idle := by
  by_contra hstate
  exact Bool.noConfusion (hbusy.symm.trans (h.busy_of_state hstate))

theorem cyc_iff : ptw.cyc = true <-> exists level, ptw.state = .wait level := by
  cases hstate : ptw.state <;> simp [cyc, hstate]

end Ptw

variable [PagingScheme w Level v p]

/--
What a walker latches when it starts.
-/
def PtwIn.request (i : PtwIn w p) : WalkRequest v p :=
  { vpn := PagingScheme.vpn i.vaddr
    satpPpn := i.satpPpn
    isFetch := i.isFetch
    isStore := i.isStore
    privIsU := i.privIsU }

namespace Ptw

def addr (ptw : Ptw Level w v p) : BitVec w :=
  match ptw.state with
  | .wait level => PagingScheme.pteAddr ptw.request level ptw.pte
  | _ => PagingScheme.pteAddr ptw.request (PagingScheme.bottom w) ptw.pte

def leafResult (ptw : Ptw Level w v p) (level : Level) : WalkResult w :=
  if PagingScheme.misaligned level ptw.pte then ptw.faultResult
  else if ptw.request.permitted ptw.pte then
    { fault := false
      ppn := PagingScheme.leafPpn ptw.request level ptw.pte
      perms := Pte.perms ptw.pte }
  else ptw.faultResult

def decode (ptw : Ptw Level w v p) (level : Level) : Ptw Level w v p :=
  if !Pte.v ptw.pte then ptw.finish ptw.faultResult
  else if Pte.leaf ptw.pte then ptw.finish (ptw.leafResult level)
  else
    match PagingScheme.below w level with
    | next :: _ => { ptw with state := .wait next }
    | [] => ptw.finish ptw.faultResult

def begin (ptw : Ptw Level w v p) (i : PtwIn w p) : Ptw Level w v p :=
  { ptw with request := i.request, busy := true, state := .wait (PagingScheme.top w) }

def step (ptw : Ptw Level w v p) (i : PtwIn w p) : Ptw Level w v p :=
  let quiet := { ptw with done := false }
  match ptw.state with
  | .idle => if i.start && !ptw.busy && !ptw.done then quiet.begin i else quiet
  | .wait level =>
      if i.ack then { quiet with pte := i.dataIn, state := .decode level } else quiet
  | .decode level => quiet.decode level

end Ptw

/-!
# The walk as a function

What a walk of one page number finds in a memory, independent of when the walker
reads it: nothing, or a physical page with its permissions.
-/

namespace WalkRequest

section Walk

variable (read : BitVec w -> BitVec w) (q : WalkRequest v p)

def leafAt (level : Level) (pte : BitVec w) : Option (Page w) :=
  if PagingScheme.misaligned level pte then none
  else some { ppn := PagingScheme.leafPpn q level pte, perms := Pte.perms pte }

def decodeWith (level : Level) (next : BitVec w -> Option (Page w)) (pte : BitVec w) :
    Option (Page w) :=
  if !Pte.v pte then none
  else if Pte.leaf pte then q.leafAt level pte
  else next pte

def decodeDown : List Level -> Level -> BitVec w -> Option (Page w)
  | [], level => q.decodeWith level (fun _ => none)
  | next :: rest, level =>
      q.decodeWith level fun pte =>
        decodeDown rest next (read (PagingScheme.pteAddr q next pte))

def decodeAt (level : Level) : BitVec w -> Option (Page w) :=
  q.decodeDown read (PagingScheme.below w level) level

def waitAt (level : Level) (pte : BitVec w) : Option (Page w) :=
  q.decodeAt read level (read (PagingScheme.pteAddr q level pte))

end Walk

variable {read : BitVec w -> BitVec w} {q : WalkRequest v p}

theorem leafAt_place (level : Level) (pte : BitVec w) :
    q.place.leafAt level pte = q.leafAt level pte := by
  simp only [leafAt, PagingScheme.leafPpn_place]

theorem decodeDown_place (rest : List Level) (level : Level) (pte : BitVec w) :
    q.place.decodeDown read rest level pte = q.decodeDown read rest level pte := by
  induction rest generalizing level pte with
  | nil => simp only [decodeDown, decodeWith, leafAt_place]
  | cons next rest ih =>
      simp only [decodeDown, decodeWith, leafAt_place, PagingScheme.pteAddr_place, ih]

end WalkRequest

def walk (read : BitVec w -> BitVec w) (satpPpn : BitVec p) (n : BitVec v) : Option (Page w) :=
  WalkRequest.waitAt read
    { vpn := n, satpPpn := satpPpn, isFetch := false, isStore := false, privIsU := false }
    (PagingScheme.top w) 0

/--
A walk starts at the top, whatever entry was read last.
-/
theorem waitAt_top (read : BitVec w -> BitVec w) (q : WalkRequest v p) (pte : BitVec w) :
    q.waitAt read (PagingScheme.top w) pte = walk read q.satpPpn q.vpn := by
  have hplace : walk read q.satpPpn q.vpn = q.place.waitAt read (PagingScheme.top w) 0 := rfl
  rw [hplace]
  simp only [WalkRequest.waitAt, WalkRequest.decodeAt, WalkRequest.decodeDown_place,
    PagingScheme.pteAddr_place, PagingScheme.pteAddr_top q pte]

/-!
# The walker computes the walk

While a walk is in progress its registers determine what it will find, and no
clock edge changes that as long as the memory answers with its contents.
-/

namespace Ptw

variable {ptw : Ptw Level w v p} {i : PtwIn w p} {read : BitVec w -> BitVec w}

def pending (read : BitVec w -> BitVec w) (ptw : Ptw Level w v p) : Option (Page w) :=
  match ptw.state with
  | .idle => none
  | .wait level => ptw.request.waitAt read level ptw.pte
  | .decode level => ptw.request.decodeAt read level ptw.pte

theorem addr_wait {level : Level} (hstate : ptw.state = .wait level) :
    ptw.addr = PagingScheme.pteAddr ptw.request level ptw.pte := by
  simp [addr, hstate]

/-!
# One clock edge
-/

theorem step_start (hstate : ptw.state = .idle)
    (hstart : (i.start && !ptw.busy && !ptw.done) = true) :
    ptw.step i = ({ ptw with done := false } : Ptw Level w v p).begin i := by
  simp [step, hstate, hstart]

theorem step_rest (hstate : ptw.state = .idle)
    (hstart : (i.start && !ptw.busy && !ptw.done) = false) :
    ptw.step i = { ptw with done := false } := by
  simp [step, hstate, hstart]

theorem step_wait {level : Level} (hstate : ptw.state = .wait level) (hack : i.ack = false) :
    ptw.step i = { ptw with done := false } := by
  simp [step, hstate, hack]

theorem step_answer {level : Level} (hstate : ptw.state = .wait level) (hack : i.ack = true) :
    ptw.step i = { ptw with done := false, pte := i.dataIn, state := .decode level } := by
  simp [step, hstate, hack]

theorem step_decode {level : Level} (hstate : ptw.state = .decode level) :
    ptw.step i = ({ ptw with done := false } : Ptw Level w v p).decode level := by
  simp [step, hstate]

/--
An entry ends the walk or sends it down a level, and either agrees with what was pending.
-/
theorem decode_cases (ptw : Ptw Level w v p) (level : Level) :
    (exists r, ptw.decode level = ptw.finish r ∧
      (r.fault = false -> forall read, ptw.request.decodeAt read level ptw.pte =
        some { ppn := r.ppn, perms := r.perms })) ∨
    exists next, ptw.decode level = { ptw with state := .wait next } ∧
      forall read, ptw.request.waitAt read next ptw.pte =
        ptw.request.decodeAt read level ptw.pte := by
  cases hv : Pte.v ptw.pte with
  | false =>
      refine Or.inl ⟨ptw.faultResult, by simp [decode, hv], ?_⟩
      intro hok
      cases hok
  | true =>
      cases hleaf : Pte.leaf ptw.pte with
      | true =>
          refine Or.inl ⟨ptw.leafResult level, by simp [decode, hv, hleaf], ?_⟩
          intro hok read
          have hfound : ptw.request.decodeAt read level ptw.pte =
              ptw.request.leafAt level ptw.pte := by
            unfold WalkRequest.decodeAt
            cases PagingScheme.below w level <;>
              simp [WalkRequest.decodeDown, WalkRequest.decodeWith, hv, hleaf]
          rw [hfound]
          unfold leafResult at hok ⊢
          unfold WalkRequest.leafAt
          cases hmis : PagingScheme.misaligned level ptw.pte with
          | true => simp [hmis, faultResult] at hok
          | false =>
              cases hperm : ptw.request.permitted ptw.pte with
              | true => simp
              | false => simp [hmis, hperm, faultResult] at hok
      | false =>
          cases hbelow : PagingScheme.below w level with
          | nil =>
              refine Or.inl ⟨ptw.faultResult, by simp [decode, hv, hleaf, hbelow], ?_⟩
              intro hok
              cases hok
          | cons next rest =>
              refine Or.inr ⟨next, by simp [decode, hv, hleaf, hbelow], ?_⟩
              intro read
              simp [WalkRequest.waitAt, WalkRequest.decodeAt, WalkRequest.decodeDown,
                WalkRequest.decodeWith, hv, hleaf, hbelow, PagingScheme.below_next hbelow]

theorem step_coherent (h : ptw.Coherent) : (ptw.step i).Coherent := by
  cases hstate : ptw.state with
  | idle =>
      cases hstart : i.start && !ptw.busy && !ptw.done with
      | true =>
          rw [step_start hstate hstart]
          constructor <;> simp [begin]
      | false =>
          rw [step_rest hstate hstart]
          exact ⟨h.busy, fun _ => hstate⟩
  | wait level =>
      cases hack : i.ack with
      | true =>
          rw [step_answer hstate hack]
          constructor <;> simp [h.busy, hstate]
      | false =>
          rw [step_wait hstate hack]
          constructor <;> simp [h.busy, hstate]
  | decode level =>
      rw [step_decode hstate]
      rcases decode_cases { ptw with done := false } level with ⟨r, hends, _⟩ | ⟨next, hnext, _⟩
      · rw [hends]
        constructor <;> simp [finish]
      · rw [hnext]
        constructor <;> simp [h.busy, hstate]

theorem step_begin (hidle : ptw.state = .idle) (hwait : (ptw.step i).state ≠ .idle) :
    (ptw.step i).request = i.request ∧ (ptw.step i).state = .wait (PagingScheme.top w) := by
  cases hstart : i.start && !ptw.busy && !ptw.done with
  | true =>
      rw [step_start hidle hstart]
      exact ⟨rfl, rfl⟩
  | false =>
      rw [step_rest hidle hstart] at hwait
      exact absurd hidle hwait

theorem step_request (hbusy : ptw.state ≠ .idle) :
    (ptw.step i).request = ptw.request := by
  cases hstate : ptw.state with
  | idle => exact absurd hstate hbusy
  | wait level =>
      cases hack : i.ack with
      | true => rw [step_answer hstate hack]
      | false => rw [step_wait hstate hack]
  | decode level =>
      rw [step_decode hstate]
      rcases decode_cases { ptw with done := false } level with ⟨r, hends, _⟩ | ⟨next, hnext, _⟩
      · rw [hends]
        rfl
      · rw [hnext]

theorem step_pending (hbusy : ptw.state ≠ .idle)
    (hread : ptw.cyc = true -> i.ack = true -> i.dataIn = read ptw.addr)
    (hcontinues : (ptw.step i).state ≠ .idle) :
    (ptw.step i).pending read = ptw.pending read := by
  cases hstate : ptw.state with
  | idle => exact absurd hstate hbusy
  | wait level =>
      cases hack : i.ack with
      | false =>
          rw [step_wait hstate hack]
          rfl
      | true =>
          have hdata := hread (cyc_iff.mpr ⟨level, hstate⟩) hack
          rw [addr_wait hstate] at hdata
          rw [step_answer hstate hack]
          simp [pending, hstate, hdata, WalkRequest.waitAt]
  | decode level =>
      rw [step_decode hstate] at hcontinues ⊢
      rcases decode_cases { ptw with done := false } level with
        ⟨r, hends, _⟩ | ⟨next, hnext, hsame⟩
      · rw [hends] at hcontinues
        exact absurd rfl hcontinues
      · rw [hnext]
        simpa [pending, hstate] using hsame read

/--
A walk that ends without a fault ends with what was pending.
-/
theorem step_result (hbusy : ptw.state ≠ .idle) (hends : (ptw.step i).state = .idle)
    (hok : (ptw.step i).result.fault = false) :
    ptw.pending read =
      some { ppn := (ptw.step i).result.ppn, perms := (ptw.step i).result.perms } := by
  cases hstate : ptw.state with
  | idle => exact absurd hstate hbusy
  | wait level =>
      cases hack : i.ack with
      | true =>
          rw [step_answer hstate hack] at hends
          cases hends
      | false =>
          rw [step_wait hstate hack] at hends
          exact absurd hends hbusy
  | decode level =>
      rw [step_decode hstate] at hends hok ⊢
      rcases decode_cases { ptw with done := false } level with
        ⟨r, hfinish, hfound⟩ | ⟨next, hnext, _⟩
      · have hpending : ptw.pending read = ptw.request.decodeAt read level ptw.pte := by
          simp [pending, hstate]
        rw [hfinish] at hok ⊢
        exact hpending.trans (hfound hok read)
      · rw [hnext] at hends
        cases hends

theorem step_busy_of_done (h : (ptw.step i).done = true) : ptw.state ≠ .idle := by
  intro hstate
  cases hstart : i.start && !ptw.busy && !ptw.done with
  | true =>
      rw [step_start hstate hstart] at h
      cases h
  | false =>
      rw [step_rest hstate hstart] at h
      cases h

/--
A request stays on the port, with its address, until it is answered.
-/
theorem step_addr_of_wait {level level' : Level} (hstate : ptw.state = .wait level)
    (hstep : (ptw.step i).state = .wait level') :
    (ptw.step i).addr = ptw.addr := by
  cases hack : i.ack with
  | true =>
      rw [step_answer hstate hack] at hstep
      cases hstep
  | false =>
      rw [step_wait hstate hack]
      rfl

end Ptw

end Walker
end Block
end RvCores
