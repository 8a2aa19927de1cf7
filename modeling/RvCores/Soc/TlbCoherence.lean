import RvCores.Pipe.PowerUp
import RvCores.Soc.Latency
import RvCores.Soc.System

/-!
# Coherence of the translation buffer

The walker latches the page number when it starts.  The entry it fills is tagged with
the fetch address or the execute address of the cycle in which the walk ends.  Nothing
ties the two together while a redirect can move the address.
-/

namespace RvCores
namespace Soc
namespace System

open Isa Block Pipe

variable {w : Nat} {m : Mmu w} {P : RamPort w} {cfg : Config w} {size : Nat}
  {s : System m P} {i : SystemIn w}

/-!
# What a walk returns
-/

def pageRead (size : Nat) (s : System m P) : BitVec w -> BitVec w :=
  fun addr => loadValue size (P.bytes s.ram) addr (ptwFunct3 w)

def walk (size : Nat) (s : System m P) (v : m.Vpn) : Option (Page w) :=
  m.walk (s.pageRead size) s.core.csr.satpPpnVal v

def TlbCoherent (size : Nat) (s : System m P) : Prop :=
  forall v p, m.Holds s.core.tlb v p -> s.walk size v = some p

def TablesKept (cfg : Config w) (size : Nat) (s : System m P) (i : SystemIn w) : Prop :=
  (s.step cfg size i).core.csr.satp = s.core.csr.satp ∧
    forall v, (s.step cfg size i).walk size v = s.walk size v

def FillMatches (cfg : Config w) (s : System m P) : Prop :=
  (s.core.ptwFill cfg).valid = true ->
    m.vpn (s.core.ptwFill cfg).vaddr = m.request s.core.ptw

/-!
# The walker on the bus
-/

def onDevice (addr : BitVec w) : Bool :=
  uartRegion.hit addr || timerRegion.hit addr || mailboxRegion.hit addr

def walkAccess (size : Nat) (s : System m P) : Access w :=
  { bus := { s.ptwBus with stb := m.cyc s.core.ptw && (ramRegion size).hit (m.addr s.core.ptw) }
    late := false }

def WalkBegins (cfg : Config w) (size : Nat) (s : System m P) (i : SystemIn w) : Prop :=
  m.cyc s.core.ptw = false ∧ m.cyc (s.step cfg size i).core.ptw = true

/--
The walker has the port to itself: the data cache stays off it during a walk, the
tables are not in a device, and a read that the walker raises finds the memory port
done with everything before it.
-/
structure WalkServed (D : Session.Discipline P size) (cfg : Config w) (s : System m P)
    (i : SystemIn w) : Prop where
  alone : m.busy s.core.ptw = true -> dcacheCyc cfg i = false
  tables : m.cyc s.core.ptw = true -> onDevice (m.addr s.core.ptw) = false
  ready : WalkBegins cfg size s i ->
    exists burst, D.Idle (s.step cfg size i).ram burst ∧
      D.Ready (s.step cfg size i).ram ((s.step cfg size i).walkAccess size)

theorem bus_of_walk (hbusy : m.busy s.core.ptw = true) (halone : dcacheCyc cfg i = false) :
    s.bus cfg i = s.ptwBus := by
  simp [bus, hbusy, halone]

theorem ramBus_of_walk (hbusy : m.busy s.core.ptw = true) (halone : dcacheCyc cfg i = false) :
    s.ramBus cfg size i = (s.walkAccess size).bus := by
  rw [ramBus, bus_of_walk hbusy halone]
  rfl

theorem pageRead_congr {t : System m P} (hbytes : P.bytes t.ram = P.bytes s.ram) :
    t.pageRead size = s.pageRead size := by
  funext addr
  show loadValue size (P.bytes t.ram) addr (ptwFunct3 w) = _
  rw [hbytes]
  rfl

theorem pageRead_step_of_walk (D : Session.Discipline P size)
    (hbusy : m.busy s.core.ptw = true) (halone : dcacheCyc cfg i = false) :
    (s.step cfg size i).pageRead size = s.pageRead size := by
  have hbytes : P.bytes (s.step cfg size i).ram = P.bytes s.ram := by
    show P.bytes (P.step s.ram (s.ramBus cfg size i)) = _
    rw [D.bytes_step, ramBus_of_walk hbusy halone]
    have hread : (s.walkAccess size).bus.memWrite = false := by
      simp [BusCycle.memWrite, walkAccess, ptwBus]
    rw [hread]
    rfl
  exact pageRead_congr hbytes

/--
What the walker sees of the bus: the memory, or nobody outside of it.
-/
theorem answer_of_walk (hbusy : m.busy s.core.ptw = true) (halone : dcacheCyc cfg i = false)
    (htables : onDevice (m.addr s.core.ptw) = false) :
    s.answer cfg size i =
      if (ramRegion size).hit (m.addr s.core.ptw) then
        { ack := P.ack s.ram (s.walkAccess size).bus, dataI := P.dataI s.ram }
      else .none := by
  simp only [onDevice, Bool.or_eq_false_iff] at htables
  obtain ⟨⟨huart, htimer⟩, hmailbox⟩ := htables
  have haddr : (s.bus cfg i).addr = m.addr s.core.ptw := by
    rw [bus_of_walk hbusy halone]
    rfl
  rw [answer, haddr, ramBus_of_walk hbusy halone]
  simp [wbDecode, huart, htimer, hmailbox]

/-!
# A walk in progress
-/

structure WalkInv (D : Session.Discipline P size) (s : System m P) : Prop where
  ptw : m.Coherent s.core.ptw
  attending : (s.walkAccess size).bus.stb = true ->
    exists age cont, D.Attending s.ram (s.walkAccess size) age cont
  pending : m.busy s.core.ptw = true ->
    m.pending (s.pageRead size) s.core.ptw = s.walk size (m.request s.core.ptw)
  finished : m.done s.core.ptw = true -> m.fault s.core.ptw = false ->
    s.walk size (m.request s.core.ptw) = some (m.result s.core.ptw)

section Step

variable {D : Session.Discipline P size}

/--
A cycle that raises no read of the walker and ends no walk has nothing to show.
-/
theorem walkInv_quiet (hm : m.Lawful) (hptw : m.Coherent s.core.ptw)
    (hbusy : m.busy s.core.ptw = false) (hdone : m.done s.core.ptw = false) :
    WalkInv D s := by
  refine ⟨hptw, ?_, ?_, ?_⟩
  · intro hstb
    simp only [walkAccess, Bool.and_eq_true] at hstb
    rw [hm.busy_of_cyc _ hptw hstb.left] at hbusy
    cases hbusy
  · intro hbusy'
    rw [hbusy] at hbusy'
    cases hbusy'
  · intro hdone'
    rw [hdone] at hdone'
    cases hdone'

theorem done_of_busy (hm : m.Lawful) (hptw : m.Coherent s.core.ptw)
    (hbusy : m.busy s.core.ptw = true) : m.done s.core.ptw = false := by
  cases hdone : m.done s.core.ptw with
  | false => rfl
  | true =>
      rw [hm.idle_of_done _ hptw hdone] at hbusy
      cases hbusy

theorem attending_begins (hserved : WalkServed D cfg s i) (hbegins : WalkBegins cfg size s i)
    (hstb : ((s.step cfg size i).walkAccess size).bus.stb = true) :
    exists age cont, D.Attending (s.step cfg size i).ram ((s.step cfg size i).walkAccess size)
      age cont := by
  obtain ⟨burst, hidle, hready⟩ := hserved.ready hbegins
  exact ⟨0, burst, D.present hidle hstb hready⟩

theorem walkInv_of_idle (hm : m.Lawful) (hptw : m.Coherent s.core.ptw)
    (hbusy : m.busy s.core.ptw = false) (hserved : WalkServed D cfg s i)
    (hkept : TablesKept cfg size s i) :
    WalkInv D (s.step cfg size i) := by
  have hptw' : m.Coherent (s.step cfg size i).core.ptw := hm.step _ _ hptw
  cases hm.cases s.core.ptw (s.core.walkIn cfg (s.coreIn cfg size i)) hptw with
  | idle _ hbusy' hdone => exact walkInv_quiet hm hptw' hbusy' hdone
  | start _ hstart hdone hcyc hrequest hpending =>
      have hcyc0 : m.cyc s.core.ptw = false := by
        cases hcyc0 : m.cyc s.core.ptw with
        | false => rfl
        | true =>
            rw [hm.busy_of_cyc _ hptw hcyc0] at hbusy
            cases hbusy
      have hbusy' := hm.busy_of_cyc _ hptw' hcyc
      refine ⟨hptw', attending_begins hserved ⟨hcyc0, hcyc⟩, ?_, ?_⟩
      · intro _
        have hsatp : (s.step cfg size i).core.csr.satpPpnVal = s.core.csr.satpPpnVal := by
          simp only [Csr.satpPpnVal, hkept.left]
        have hwalk := hpending ((s.step cfg size i).pageRead size)
        show m.pending _ (m.ptwStep s.core.ptw _) = m.walk _ _ (m.request (m.ptwStep s.core.ptw _))
        rw [hwalk, hrequest, hsatp]
        rfl
      · intro hdone'
        rw [done_of_busy hm hptw' hbusy'] at hdone'
        cases hdone'
  | wait hcyc =>
      rw [hm.busy_of_cyc _ hptw hcyc] at hbusy
      cases hbusy
  | answer hcyc =>
      rw [hm.busy_of_cyc _ hptw hcyc] at hbusy
      cases hbusy
  | descend hbusy' =>
      rw [hbusy'] at hbusy
      cases hbusy
  | finish hbusy' =>
      rw [hbusy'] at hbusy
      cases hbusy

/--
Through a cycle that goes on with a walk: the tables are read as before.
-/
theorem pending_kept (hbusy : m.busy s.core.ptw = true) (hserved : WalkServed D cfg s i)
    (hinv : WalkInv D s) (hkept : TablesKept cfg size s i)
    (hrequest : m.request (s.step cfg size i).core.ptw = m.request s.core.ptw)
    (hpending : m.pending (s.pageRead size) (s.step cfg size i).core.ptw =
      m.pending (s.pageRead size) s.core.ptw) :
    m.pending ((s.step cfg size i).pageRead size) (s.step cfg size i).core.ptw =
      (s.step cfg size i).walk size (m.request (s.step cfg size i).core.ptw) := by
  rw [pageRead_step_of_walk D hbusy (hserved.alone hbusy), hpending, hrequest, hkept.right]
  exact hinv.pending hbusy

theorem walkInv_wait (hm : m.Lawful) (hinv : WalkInv D s) (hserved : WalkServed D cfg s i)
    (hkept : TablesKept cfg size s i) (hcyc : m.cyc s.core.ptw = true)
    (hack : (s.answer cfg size i).ack = false)
    (hcyc' : m.cyc (s.step cfg size i).core.ptw = true)
    (haddr : m.addr (s.step cfg size i).core.ptw = m.addr s.core.ptw)
    (hrequest : m.request (s.step cfg size i).core.ptw = m.request s.core.ptw)
    (hpending : m.pending (s.pageRead size) (s.step cfg size i).core.ptw =
      m.pending (s.pageRead size) s.core.ptw) :
    WalkInv D (s.step cfg size i) := by
  have hbusy := hm.busy_of_cyc _ hinv.ptw hcyc
  have hptw' : m.Coherent (s.step cfg size i).core.ptw := hm.step _ _ hinv.ptw
  have hbusy' := hm.busy_of_cyc _ hptw' hcyc'
  refine ⟨hptw', ?_, ?_, ?_⟩
  · have hsame : (s.step cfg size i).walkAccess size = s.walkAccess size := by
      simp only [walkAccess, ptwBus, hcyc, hcyc', haddr]
    rw [hsame]
    intro hstb
    have hhit : (ramRegion size).hit (m.addr s.core.ptw) = true := by
      simp only [walkAccess, Bool.and_eq_true] at hstb
      exact hstb.right
    obtain ⟨age, cont, hattending⟩ := hinv.attending hstb
    have hquiet : P.ack s.ram (s.walkAccess size).bus = false := by
      rw [answer_of_walk hbusy (hserved.alone hbusy) (hserved.tables hcyc), if_pos hhit] at hack
      exact hack
    have hram : (s.step cfg size i).ram = P.step s.ram (s.walkAccess size).bus :=
      congrArg (P.step s.ram) (ramBus_of_walk hbusy (hserved.alone hbusy))
    rw [hram]
    exact ⟨age + 1, cont, D.wait hattending hquiet⟩
  · intro _
    exact pending_kept hbusy hserved hinv hkept hrequest hpending
  · intro hdone'
    rw [done_of_busy hm hptw' hbusy'] at hdone'
    cases hdone'

/--
The word of an acknowledge is the table's.
-/
theorem dataIn_of_ack (hm : m.Lawful) (hinv : WalkInv D s) (hserved : WalkServed D cfg s i)
    (hcyc : m.cyc s.core.ptw = true) (hack : (s.answer cfg size i).ack = true) :
    (s.answer cfg size i).dataI = s.pageRead size (m.addr s.core.ptw) := by
  have hbusy := hm.busy_of_cyc _ hinv.ptw hcyc
  rw [answer_of_walk hbusy (hserved.alone hbusy) (hserved.tables hcyc)] at hack ⊢
  cases hhit : (ramRegion size).hit (m.addr s.core.ptw) with
  | false =>
      rw [hhit] at hack
      cases hack
  | true =>
      rw [hhit] at hack
      have hstb : (s.walkAccess size).bus.stb = true := by simp [walkAccess, hcyc, hhit]
      obtain ⟨age, cont, hattending⟩ := hinv.attending hstb
      have hword := D.answer hattending hack (by rfl) (by rfl)
      exact hword

theorem walkInv_step (hm : m.Lawful) (hinv : WalkInv D s) (hserved : WalkServed D cfg s i)
    (hkept : TablesKept cfg size s i) :
    WalkInv D (s.step cfg size i) := by
  have hptw' : m.Coherent (s.step cfg size i).core.ptw := hm.step _ _ hinv.ptw
  cases hm.cases s.core.ptw (s.core.walkIn cfg (s.coreIn cfg size i)) hinv.ptw with
  | idle hbusy _ _ => exact walkInv_of_idle hm hinv.ptw hbusy hserved hkept
  | start hbusy _ _ _ _ _ => exact walkInv_of_idle hm hinv.ptw hbusy hserved hkept
  | wait hcyc hack hcyc' haddr hrequest hpending =>
      exact walkInv_wait hm hinv hserved hkept hcyc hack hcyc' haddr hrequest (hpending _)
  | answer hcyc hack hbusy' hcyc' hrequest hpending =>
      have hbusy := hm.busy_of_cyc _ hinv.ptw hcyc
      refine ⟨hptw', ?_, ?_, ?_⟩
      · intro hstb
        simp only [walkAccess, Bool.and_eq_true] at hstb
        rw [show m.cyc (s.step cfg size i).core.ptw = false from hcyc'] at hstb
        cases hstb.left
      · intro _
        exact pending_kept hbusy hserved hinv hkept hrequest
          (hpending _ (dataIn_of_ack hm hinv hserved hcyc hack))
      · intro hdone'
        rw [done_of_busy hm hptw' hbusy'] at hdone'
        cases hdone'
  | descend hbusy hcyc hcyc' hrequest hpending =>
      have hbusy' := hm.busy_of_cyc _ hptw' hcyc'
      refine ⟨hptw', attending_begins hserved ⟨hcyc, hcyc'⟩, ?_, ?_⟩
      · intro _
        exact pending_kept hbusy hserved hinv hkept hrequest (hpending _)
      · intro hdone'
        rw [done_of_busy hm hptw' hbusy'] at hdone'
        cases hdone'
  | finish hbusy hcyc hbusy' hdone' hrequest hresult =>
      refine ⟨hptw', ?_, ?_, ?_⟩
      · intro hstb
        simp only [walkAccess, Bool.and_eq_true] at hstb
        have hbusy'' := hm.busy_of_cyc _ hptw' hstb.left
        rw [show m.busy (s.step cfg size i).core.ptw = false from hbusy'] at hbusy''
        cases hbusy''
      · intro hbusy''
        rw [show m.busy (s.step cfg size i).core.ptw = false from hbusy'] at hbusy''
        cases hbusy''
      · intro _ hok
        rw [hkept.right, show m.request (s.step cfg size i).core.ptw = _ from hrequest,
          ← hinv.pending hbusy]
        exact hresult hok _

/-!
# The buffer
-/

theorem tlbCoherent_step (hm : m.Lawful) (hinv : WalkInv D s) (hfill : FillMatches cfg s)
    (hkept : TablesKept cfg size s i) (h : TlbCoherent size s) :
    TlbCoherent size (s.step cfg size i) := by
  intro v p hholds
  rw [hkept.right]
  cases hflush : s.core.sfenceReal && !s.core.reg2Hold cfg (s.coreIn cfg size i) with
  | true =>
      refine absurd hholds ?_
      show ¬ m.Holds (m.tlbStep s.core.tlb (s.core.ptwFill cfg)
        (s.core.sfenceReal && !s.core.reg2Hold cfg (s.coreIn cfg size i))) v p
      rw [hflush]
      exact hm.flush _ _ _ _
  | false =>
      have hnext : m.Holds (m.tlbStep s.core.tlb (s.core.ptwFill cfg) false) v p := by
        rw [← hflush]
        exact hholds
      rcases hm.fill _ _ _ _ hnext with hold | ⟨hvalid, hv, hp⟩
      · exact h v p hold
      · -- the page number of the entry is the one the walk was about
        have hdone : m.done s.core.ptw = true ∧ m.fault s.core.ptw = false := by
          simp only [Core.ptwFill, Core.ptwDoneI, Core.ptwDoneD, Bool.and_eq_true,
            Bool.or_eq_true, Bool.not_eq_true'] at hvalid
          exact ⟨hvalid.left.elim And.left And.left, hvalid.right⟩
        rw [hv, hfill hvalid, hp]
        exact hinv.finished hdone.left hdone.right

end Step

/-!
# Runs since a flush
-/

def reset (cfg : Config w) (s : System m P) (ram : P.State) : System m P :=
  { core := s.core.reset cfg, ram := ram }

theorem coherent_of_reachable (hm : m.Lawful) {s0 : System m P} {ram : P.State}
    (hrun : Lib.Reachable (step cfg size) (s0.reset cfg ram) s) :
    m.Coherent s.core.ptw := by
  refine @Lib.invariant_of_reachableWhen _ _ _ _ (fun s => m.Coherent s.core.ptw) _ _ ?_ ?_ hrun
  · exact hm.reset s0.core.ptw
  · intro u i h _
    exact hm.step _ _ h

/--
The state just after a flush of the whole buffer, by reset or by an executed fence,
with no walk in progress during the flush.
-/
inductive JustFlushed (D : Session.Discipline P size) (cfg : Config w) (s0 : System m P)
    (ram : P.State) : System m P -> Prop where
  | reset : JustFlushed D cfg s0 ram (s0.reset cfg ram)
  | fence {u : System m P} {i : SystemIn w}
      (hrun : Lib.Reachable (step cfg size) (s0.reset cfg ram) u)
      (hfence : u.core.sfenceReal = true)
      (hgoes : u.core.reg2Hold cfg (u.coreIn cfg size i) = false)
      (hidle : m.busy u.core.ptw = false) (hserved : WalkServed D cfg u i)
      (hkept : TablesKept cfg size u i) :
      JustFlushed D cfg s0 ram (u.step cfg size i)

theorem walkInv_of_justFlushed (hm : m.Lawful) {D : Session.Discipline P size}
    {s0 : System m P} {ram : P.State} (h : JustFlushed D cfg s0 ram s) :
    WalkInv D s ∧ TlbCoherent size s := by
  cases h with
  | reset =>
      refine ⟨walkInv_quiet hm (hm.reset _) (hm.reset_idle _) (hm.reset_done _), ?_⟩
      intro v p hholds
      exact absurd hholds (hm.tlb_reset _ _ _)
  | @fence u i hrun hfence hgoes hidle hserved hkept =>
      refine ⟨walkInv_of_idle hm (coherent_of_reachable hm hrun) hidle hserved hkept, ?_⟩
      intro v p hholds
      have hflush : (u.core.sfenceReal &&
          !u.core.reg2Hold cfg (u.coreIn cfg size i)) = true := by
        simp [hfence, hgoes]
      refine absurd hholds ?_
      show ¬ m.Holds (m.tlbStep u.core.tlb (u.core.ptwFill cfg)
        (u.core.sfenceReal && !u.core.reg2Hold cfg (u.coreIn cfg size i))) v p
      rw [hflush]
      exact hm.flush _ _ _ _

structure WalkUndisturbed (D : Session.Discipline P size) (cfg : Config w) (s : System m P)
    (i : SystemIn w) : Prop where
  kept : TablesKept cfg size s i
  served : WalkServed D cfg s i
  fill : FillMatches cfg s

theorem pipelined_tlb_coherent (x : Xlen) {cfg : Config x.bits} {size : Nat}
    {P : RamPort x.bits}
    (D : Session.Discipline P size) {s0 s1 s : System x.mmu P} {ram : P.State}
    (hflush : JustFlushed D cfg s0 ram s1)
    (hrun : Lib.ReachableWhen (step cfg size) (WalkUndisturbed D cfg) s1 s) :
    TlbCoherent size s := by
  have hinv : WalkInv D s ∧ TlbCoherent size s := by
    refine @Lib.invariant_of_reachableWhen _ _ _ _
      (fun s => WalkInv D s ∧ TlbCoherent size s) _ _
      (walkInv_of_justFlushed x.mmu_lawful hflush) ?_ hrun
    rintro u i ⟨hwalk, htlb⟩ ⟨hkept, hserved, hfill⟩
    exact ⟨walkInv_step x.mmu_lawful hwalk hserved hkept,
      tlbCoherent_step x.mmu_lawful hwalk hfill hkept htlb⟩
  exact hinv.right

/-!
# Without latency

The memory port is done with everything before a read of the walker, because a walk
starts in a cycle in which the load unit asks for nothing.
-/

theorem noRequest_of_begins (hm : m.Lawful) (hptw : m.Coherent s.core.ptw)
    (halone : dcacheCyc cfg i = false) (hbegins : WalkBegins cfg size s i) :
    (s.ramBus cfg size i).stb = false := by
  obtain ⟨hcyc, hcyc'⟩ := hbegins
  have hstb : (s.bus cfg i).stb = false := by
    cases hbusy : m.busy s.core.ptw with
    | true =>
        rw [bus_of_walk hbusy halone]
        exact hcyc
    | false =>
        have hlsu : s.bus cfg i = s.lsuBus cfg := by simp [bus, hbusy, halone]
        rw [hlsu, lsuBus]
        cases hcached : cfg.cached with
        | true => rfl
        | false =>
            have hptw' : m.Coherent (s.step cfg size i).core.ptw := hm.step _ _ hptw
            cases hm.cases s.core.ptw (s.core.walkIn cfg (s.coreIn cfg size i)) hptw with
            | idle _ hbusy' _ =>
                have hbusy'' := hm.busy_of_cyc _ hptw' hcyc'
                rw [show m.busy (s.step cfg size i).core.ptw = false from hbusy'] at hbusy''
                cases hbusy''
            | start _ hstart =>
                simp only [Core.walkIn, Core.ptwStart, Bool.and_eq_true,
                  Bool.not_eq_true'] at hstart
                exact hstart.left.right
            | wait hwait =>
                rw [hwait] at hcyc
                cases hcyc
            | answer hwait =>
                rw [hwait] at hcyc
                cases hcyc
            | descend hwalk =>
                rw [hwalk] at hbusy
                cases hbusy
            | finish hwalk =>
                rw [hwalk] at hbusy
                cases hbusy
  simp [ramBus, hstb]

theorem walkServed_direct (hm : m.Lawful) {s : System m (RamPort.direct w size)}
    (hptw : m.Coherent s.core.ptw) (halone : dcacheCyc cfg i = false)
    (htables : m.cyc s.core.ptw = true -> onDevice (m.addr s.core.ptw) = false) :
    WalkServed (RamAdapter.discipline w size) cfg s i where
  alone := fun _ => halone
  tables := htables
  ready := by
    intro hbegins
    refine ⟨false, RamAdapter.idle_step _ _, ⟨?_⟩⟩
    intro hpending
    have hquiet := noRequest_of_begins hm hptw halone hbegins
    have hread := (RamAdapter.pending_latched hpending).right
    simp [BusCycle.memRead, hquiet] at hread

/-!
# Concrete runs

Nothing is stored and the root of the tables is not written, so the tables stay as
they are.
-/

def NothingWritten (cfg : Config w) (size : Nat) (s : System m P) (i : SystemIn w) : Prop :=
  (s.ramBus cfg size i).memWrite = false ∧
    (s.step cfg size i).core.csr.satp = s.core.csr.satp

theorem tablesKept_of_nothingWritten (D : Session.Discipline P size)
    (h : NothingWritten cfg size s i) : TablesKept cfg size s i := by
  refine ⟨h.right, ?_⟩
  intro v
  have hbytes : P.bytes (s.step cfg size i).ram = P.bytes s.ram := by
    show P.bytes (P.step s.ram (s.ramBus cfg size i)) = _
    rw [D.bytes_step, h.left]
    rfl
  have hsatp : (s.step cfg size i).core.csr.satpPpnVal = s.core.csr.satpPpnVal := by
    simp only [Csr.satpPpnVal, h.right]
  simp only [walk, pageRead_congr hbytes, hsatp]

/--
Machine mode maps the second page through a table that is its own lower level, so that
the first page is not mapped.  User mode starts where `entry` adjusts the address of
the second page to.
-/
def secondPageProgram (entry : Word) : InstructionMemory :=
  InstructionMemory.ofWords 8192
    ([0x0080006f, 0x0000006f, 0x30525073, 0x00100093, 0x00102023, 0x41b00113, 0x00202223,
      0x800001b7, 0x18019073, 0x00001237, entry, 0x34121073, 0x12000073, 0x30200073] ++
      List.replicate 1010 nop)

abbrev SecondPage := System Xlen.rv32.mmu (RamPort.direct 32 8192)

def emptyRam : RamAdapter 32 :=
  { ram := { bytes := fun _ => 0, rawWord := 0, funct3R := 0, memReadR := false }
    req := { active := false, addr := 0, we := false }
    memReadPendingR := false }

def powerUp : SecondPage := { core := Core.powerUp .rv32, ram := emptyRam }

variable (entry : Word)

def secondPageIn (s : SecondPage) : SystemIn 32 :=
  { inst := (secondPageProgram entry).inst (s.core.imemPhysAddr (defaultConfig 32)) }

def secondPageStep (s : SecondPage) : SecondPage :=
  s.step (defaultConfig 32) 8192 (secondPageIn entry s)

def afterCycles : Nat -> SecondPage
  | 0 => powerUp.reset (defaultConfig 32) emptyRam
  | n + 1 => secondPageStep entry (afterCycles n)

def calm (s : SecondPage) : Bool :=
  !(s.ramBus (defaultConfig 32) 8192 (secondPageIn entry s)).memWrite &&
    (secondPageStep entry s).core.csr.satp == s.core.csr.satp &&
    !onDevice (Block.Ptw.addr s.core.ptw)

def Undisturbed (s : SecondPage) : Prop :=
  TablesKept (defaultConfig 32) 8192 s (secondPageIn entry s) ∧
    WalkServed (RamAdapter.discipline 32 8192) (defaultConfig 32) s (secondPageIn entry s)

theorem afterCycles_reachable (n : Nat) :
    Lib.Reachable (step (defaultConfig 32) 8192) (afterCycles entry 0)
      (afterCycles entry n) := by
  induction n with
  | zero => exact Lib.reachableWhen_refl _
  | succ n ih => exact Lib.reachableWhen_tail ih trivial

theorem undisturbed_of_calm (n : Nat) (h : calm entry (afterCycles entry n) = true) :
    Undisturbed entry (afterCycles entry n) := by
  simp only [calm, Bool.and_eq_true, Bool.not_eq_true', beq_iff_eq] at h
  obtain ⟨⟨hwrite, hsatp⟩, hdevice⟩ := h
  have hrun := afterCycles_reachable entry n
  have hptw := coherent_of_reachable Xlen.rv32.mmu_lawful hrun
  exact ⟨tablesKept_of_nothingWritten (RamAdapter.discipline 32 8192) ⟨hwrite, hsatp⟩,
    walkServed_direct Xlen.rv32.mmu_lawful hptw rfl fun _ => hdevice⟩

theorem justFlushed_afterFence (hcalm : calm entry (afterCycles entry 15) = true)
    (hfence : (afterCycles entry 15).core.sfenceReal = true)
    (hgoes : (afterCycles entry 15).core.reg2Hold (defaultConfig 32)
      ((afterCycles entry 15).coreIn (defaultConfig 32) 8192
        (secondPageIn entry (afterCycles entry 15))) = false)
    (hidle : Block.Ptw.busy (afterCycles entry 15).core.ptw = false) :
    JustFlushed (RamAdapter.discipline 32 8192) (defaultConfig 32) powerUp emptyRam
      (afterCycles entry 16) := by
  obtain ⟨hkept, hserved⟩ := undisturbed_of_calm entry 15 hcalm
  exact JustFlushed.fence (afterCycles_reachable entry 15) hfence hgoes hidle hserved hkept

theorem run_of_calm {n k : Nat} {cond : SecondPage -> SystemIn 32 -> Prop}
    (hcond : forall j, j < k -> cond (afterCycles entry (n + j))
      (secondPageIn entry (afterCycles entry (n + j)))) :
    Lib.ReachableWhen (step (defaultConfig 32) 8192) cond (afterCycles entry n)
      (afterCycles entry (n + k)) := by
  induction k with
  | zero => exact Lib.reachableWhen_refl _
  | succ k ih =>
      exact Lib.reachableWhen_tail (ih fun j hj => hcond j (Nat.lt_succ_of_lt hj))
        (hcond k (Nat.lt_succ_self k))

theorem not_coherent_of_unmapped {s : SecondPage}
    (hvalid : (Block.Tlb.entry s.core.tlb 0).valid = true)
    (htag : (Block.Tlb.entry s.core.tlb 0).tag = 0)
    (hnone : (Sv32.walk (s.pageRead 8192) (s.core.csr.satpPpnVal.setWidth 22) 0).isNone =
      true) :
    ¬ TlbCoherent 8192 s := by
  intro hcoherent
  have hholds : Sv32.mmu.Holds s.core.tlb (0 : BitVec 20)
      { ppn := (Block.Tlb.entry s.core.tlb 0).ppn
        perms := (Block.Tlb.entry s.core.tlb 0).perms } :=
    ⟨0, by decide, hvalid, htag, rfl⟩
  have hwalk := hcoherent _ _ hholds
  have hmapped : Sv32.walk (s.pageRead 8192) (s.core.csr.satpPpnVal.setWidth 22) 0 = some _ :=
    hwalk
  rw [Option.isNone_iff_eq_none.mp hnone] at hmapped
  cases hmapped

/--
A user program that starts on the second page.
-/
theorem pipelined_tlb_coherent_secondPage :
    Block.Tlb.hit (afterCycles 0x00020213 26).core.tlb 0x1000 = true ∧
      TlbCoherent 8192 (afterCycles 0x00020213 26) := by
  refine ⟨by decide +kernel, ?_⟩
  refine pipelined_tlb_coherent .rv32 (RamAdapter.discipline 32 8192)
    (justFlushed_afterFence 0x00020213 (by decide +kernel) (by decide +kernel)
      (by decide +kernel) (by decide +kernel))
    (@run_of_calm 0x00020213 16 10 _ ?_)
  intro j hj
  have hcalm : forall j, j < 10 -> calm 0x00020213 (afterCycles 0x00020213 (16 + j)) = true := by
    decide +kernel
  have hfill : forall j, j < 10 ->
      ((afterCycles 0x00020213 (16 + j)).core.ptwFill (defaultConfig 32)).valid = true ->
        Sv32.vpn ((afterCycles 0x00020213 (16 + j)).core.ptwFill (defaultConfig 32)).vaddr =
          (afterCycles 0x00020213 (16 + j)).core.ptw.request.vpn := by
    decide +kernel
  obtain ⟨hkept, hserved⟩ := undisturbed_of_calm 0x00020213 (16 + j) (hcalm j hj)
  exact ⟨hkept, hserved, hfill j hj⟩

/--
A user program that starts at the end of the first page.  Its first fetch faults, and
the trap comes while the walk of the second page runs.
-/
theorem trap_during_walk_breaks_tlb :
    exists s1 s, JustFlushed (RamAdapter.discipline 32 8192) (defaultConfig 32) powerUp
        emptyRam s1 ∧
      Lib.ReachableWhen (step (defaultConfig 32) 8192)
        (fun s i => TablesKept (defaultConfig 32) 8192 s i ∧
          WalkServed (RamAdapter.discipline 32 8192) (defaultConfig 32) s i) s1 s ∧
      ¬ TlbCoherent 8192 s := by
  refine ⟨afterCycles 0xffc20213 16, afterCycles 0xffc20213 (16 + 17),
    justFlushed_afterFence 0xffc20213 (by decide +kernel) (by decide +kernel)
      (by decide +kernel) (by decide +kernel), run_of_calm 0xffc20213 ?_, ?_⟩
  · intro j hj
    have hcalm : forall j, j < 17 ->
        calm 0xffc20213 (afterCycles 0xffc20213 (16 + j)) = true := by
      decide +kernel
    exact undisturbed_of_calm 0xffc20213 (16 + j) (hcalm j hj)
  · exact not_coherent_of_unmapped (by decide +kernel) (by decide +kernel)
      (by decide +kernel)

end System
end Soc
end RvCores
