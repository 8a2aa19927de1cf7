import RvCores.Block.Sv32Walk
import RvCores.Lib.Run

/-!
# Sv32 translation in the reference simulator

The simulator reads a table entry as four bytes, lowest byte first.  Here a read of an entry
is a step of a plan.  The integers of the simulator are never negative, and none of them is
wider than 32 bits here.
-/

namespace RvCores
namespace Sim

open Lib Block

inductive Access where
  | fetch
  | load
  | store
deriving DecidableEq, Repr

/--
What the trap of a page fault records.
-/
structure PageFault where
  cause : BitVec 32
  tval : BitVec 32
deriving DecidableEq, Repr

def pteVBit : Nat := 0
def pteRBit : Nat := 1
def pteWBit : Nat := 2
def pteXBit : Nat := 3
def pteUBit : Nat := 4

def privU : BitVec 2 := 0b00

def Access.pageFaultCause (access : Access) : BitVec 32 :=
  match access with
  | .fetch => 12
  | .load => 13
  | .store => 15

def loadMemByte (mem : BitVec 32 -> BitVec 8) (memMask addr : BitVec 32) : BitVec 8 :=
  if addr >= 0x10000000 then 0 else mem (addr &&& memMask)

def readPte (byte : BitVec 32 -> BitVec 8) (addr : BitVec 32) : BitVec 32 :=
  (byte addr).setWidth 32 ||| ((byte (addr + 1)).setWidth 32 <<< 8) |||
    ((byte (addr + 2)).setWidth 32 <<< 16) ||| ((byte (addr + 3)).setWidth 32 <<< 24)

def pteFlag (pte : BitVec 32) (k : Nat) : Bool := (pte >>> k) &&& 1 != 0

def ptePermOk (privMode : BitVec 2) (pte : BitVec 32) (access : Access) : Bool :=
  let accessBit :=
    if access = .fetch then pteXBit else if access = .store then pteWBit else pteRBit
  if !pteFlag pte accessBit then false
  else
    let privIsU := privMode == privU
    let pteU := pteFlag pte pteUBit
    if privIsU then pteU else !pteU

def translateSv32 (privMode : BitVec 2) (vaddr : BitVec 32) (access : Access)
    (satp : BitVec 32) : ReadPlan (BitVec 32) (BitVec 32) (Except PageFault (BitVec 32)) :=
  let vpn1 := (vaddr >>> 22) &&& 0x3FF
  let vpn0 := (vaddr >>> 12) &&& 0x3FF
  let offset := vaddr &&& 0xFFF
  let satpPpn20 := satp &&& 0xFFFFF
  let fault := .answer (.error { cause := access.pageFaultCause, tval := vaddr })
  let l1Addr := (satpPpn20 <<< 12) ||| (vpn1 <<< 2)
  .read l1Addr fun pte1 =>
    if !pteFlag pte1 pteVBit then fault
    else if pteFlag pte1 pteRBit || pteFlag pte1 pteWBit || pteFlag pte1 pteXBit then
      let ppn20 := (pte1 >>> 10) &&& 0xFFFFF
      if ppn20 &&& 0x3FF ≠ 0 then fault
      else if !ptePermOk privMode pte1 access then fault
      else
        let resultPpn20 := ((ppn20 >>> 10) <<< 10) ||| vpn0
        .answer (.ok ((resultPpn20 <<< 12) ||| offset))
    else
      let l0Addr := (((pte1 >>> 10) &&& 0xFFFFF) <<< 12) ||| (vpn0 <<< 2)
      .read l0Addr fun pte0 =>
        if !pteFlag pte0 pteVBit then fault
        else if !(pteFlag pte0 pteRBit || pteFlag pte0 pteWBit || pteFlag pte0 pteXBit) then fault
        else if !ptePermOk privMode pte0 access then fault
        else
          let ppn20 := (pte0 >>> 10) &&& 0xFFFFF
          .answer (.ok ((ppn20 <<< 12) ||| offset))

/-!
# Fields
-/

theorem pteFlag_eq (pte : BitVec 32) (k : Nat) : pteFlag pte k = pte.getLsbD k := by
  have hone : (pte >>> k) &&& 1#32 = (BitVec.ofBool (pte.getLsbD k)).setWidth 32 := by
    rw [BitVec.and_one_eq_setWidth_ofBool_getLsbD]
    simp
  have hflag : pteFlag pte k = ((pte >>> k) &&& 1#32 != 0) := rfl
  rw [hflag, hone]
  cases pte.getLsbD k <;> rfl

theorem shiftRight_and_mask (x : BitVec 32) (lo n : Nat) :
    (x >>> lo) &&& BitVec.ofNat 32 (2 ^ n - 1) = (x.extractLsb' lo n).setWidth 32 := by
  apply BitVec.eq_of_getLsbD_eq
  intro k hk
  simp only [BitVec.getLsbD_and, BitVec.getLsbD_ushiftRight, BitVec.getLsbD_ofNat,
    Nat.testBit_two_pow_sub_one, BitVec.getLsbD_setWidth, BitVec.getLsbD_extractLsb', hk,
    decide_true, Bool.true_and]
  exact Bool.and_comm _ _

theorem table_address (table : BitVec 20) (idx : BitVec 10) :
    (table.setWidth 32 <<< 12) ||| (idx.setWidth 32 <<< 2) =
      (table ++ 0#12) ||| (0#20 ++ idx ++ 0#2) := by
  apply BitVec.eq_of_getLsbD_eq
  intro k hk
  simp [hk]
  grind

theorem page_number (ppn : BitVec 20) (offset : BitVec 12) :
    ((ppn.setWidth 32 <<< 12) ||| offset.setWidth 32) >>> 12 = 0#12 ++ ppn := by
  apply BitVec.eq_of_getLsbD_eq
  intro k hk
  simp [hk]
  grind

theorem megapage_number (ppn : BitVec 20) (idx : BitVec 10) :
    ((ppn.setWidth 32 >>> 10) <<< 10) ||| idx.setWidth 32 =
      (ppn.extractLsb' 10 10 ++ idx : BitVec 20).setWidth 32 := by
  apply BitVec.eq_of_getLsbD_eq
  intro k hk
  simp [hk]
  grind

theorem megapage_leaf (pte : BitVec 32) (idx : BitVec 10) :
    0#12 ++ pte.extractLsb' 20 10 ++ idx =
      0#12 ++ ((Pte.ppn20 pte).extractLsb' 10 10 ++ idx : BitVec 20) := by
  apply BitVec.eq_of_getLsbD_eq
  intro k hk
  simp [Pte.ppn20]
  grind

/-!
# The walker agrees
-/

/--
The translation that a walk of the simulator finds: the page number of the address, and the
permissions of the entry that was read last.
-/
def translation (mem : BitVec 32 -> BitVec 32) :
    BitVec 32 -> ReadPlan (BitVec 32) (BitVec 32) (Except PageFault (BitVec 32)) ->
      Option (Page 32)
  | _, .answer (.error _) => none
  | pte, .answer (.ok pa) => some { ppn := pa >>> 12, perms := Pte.perms pte }
  | _, .read a next => translation mem (mem a) (next (mem a))

def access (i : Sv32.PtwIn) : Access :=
  if i.isFetch then .fetch else if i.isStore then .store else .load

/--
Two plans read the same entries and find the same, after an entry.
-/
inductive Agrees : BitVec 32 ->
    ReadPlan (BitVec 32) (BitVec 32) (Except PageFault (BitVec 32)) ->
    ReadPlan (BitVec 32) (BitVec 32) (Option (Page 32)) -> Prop
  | fault {pte : BitVec 32} (e : PageFault) :
      Agrees pte (.answer (.error e)) (.answer none)
  | page {pte : BitVec 32} (pa : BitVec 32) :
      Agrees pte (.answer (.ok pa))
        (.answer (some { ppn := pa >>> 12, perms := Pte.perms pte }))
  | read {pte : BitVec 32} (a : BitVec 32)
      {next : BitVec 32 -> ReadPlan (BitVec 32) (BitVec 32) (Except PageFault (BitVec 32))}
      {next' : BitVec 32 -> ReadPlan (BitVec 32) (BitVec 32) (Option (Page 32))}
      (hnext : forall pte', Agrees pte' (next pte') (next' pte')) :
      Agrees pte (.read a next) (.read a next')

theorem Agrees.found {pte : BitVec 32}
    {p : ReadPlan (BitVec 32) (BitVec 32) (Except PageFault (BitVec 32))}
    {p' : ReadPlan (BitVec 32) (BitVec 32) (Option (Page 32))} (h : Agrees pte p p')
    (mem : BitVec 32 -> BitVec 32) :
    p'.path mem = p.path mem ∧ p'.result mem = translation mem pte p := by
  induction h with
  | fault e => exact ⟨rfl, rfl⟩
  | page pa => exact ⟨rfl, rfl⟩
  | read a hnext ih =>
      obtain ⟨hpath, hresult⟩ := ih (mem a)
      exact ⟨congrArg (a :: ·) hpath, hresult⟩

section Agreement

variable {mem : BitVec 32 -> BitVec 32} {i : Sv32.PtwIn} {privMode : BitVec 2} {satp : BitVec 32}

theorem ptePermOk_eq (hpriv : (privMode == privU) = i.privIsU) (pte : BitVec 32) :
    ptePermOk privMode pte (access i) = i.request.permitted pte := by
  unfold ptePermOk access WalkRequest.permitted
  simp only [pteFlag_eq, hpriv]
  cases hf : i.isFetch <;> cases hs : i.isStore <;>
    simp [PtwIn.request, Pte.perms, hf, hs, pteXBit, pteWBit, pteRBit, pteUBit]

def faults (i : Sv32.PtwIn) :
    ReadPlan (BitVec 32) (BitVec 32) (Except PageFault (BitVec 32)) :=
  .answer (.error { cause := (access i).pageFaultCause, tval := i.vaddr })

def finds (i : Sv32.PtwIn) (ppn : BitVec 20) :
    ReadPlan (BitVec 32) (BitVec 32) (Except PageFault (BitVec 32)) :=
  .answer (.ok ((ppn.setWidth 32 <<< 12) ||| (i.vaddr.extractLsb' 0 12).setWidth 32))

theorem root_address (hsatp : satp.setWidth 22 = i.satpPpn) :
    ((satp &&& 0xFFFFF) <<< 12) ||| (((i.vaddr >>> 22) &&& 0x3FF) <<< 2) =
      Sv32.WalkRequest.l1Addr i.request := by
  have hroot : satp &&& 0xFFFFF = (i.satpPpn.setWidth 20).setWidth 32 := by
    have hfield := shiftRight_and_mask satp 0 20
    rw [BitVec.ushiftRight_zero] at hfield
    rw [← hsatp]
    refine hfield.trans ?_
    apply BitVec.eq_of_getLsbD_eq
    intro k hk
    simp [hk]
  have hindex : (i.vaddr >>> 22) &&& 0x3FF = (Sv32.WalkRequest.vpn1 i.request).setWidth 32 := by
    refine (shiftRight_and_mask i.vaddr 22 10).trans ?_
    apply BitVec.eq_of_getLsbD_eq
    intro k hk
    simp [hk, Sv32.WalkRequest.vpn1, PtwIn.request, PagingScheme.vpn, Sv32.vpn]
    grind
  rw [hroot, hindex, table_address]
  rfl

theorem index0 (i : Sv32.PtwIn) :
    (i.vaddr >>> 12) &&& 0x3FF = (Sv32.WalkRequest.vpn0 i.request).setWidth 32 := by
  refine (shiftRight_and_mask i.vaddr 12 10).trans ?_
  apply BitVec.eq_of_getLsbD_eq
  intro k hk
  simp [hk, Sv32.WalkRequest.vpn0, PtwIn.request, PagingScheme.vpn, Sv32.vpn]
  grind

theorem ppn20_eq (pte : BitVec 32) :
    (pte >>> 10) &&& 0xFFFFF = (Pte.ppn20 pte).setWidth 32 :=
  shiftRight_and_mask pte 10 20

theorem misaligned_iff (pte : BitVec 32) :
    (Pte.ppn20 pte).setWidth 32 &&& 0x3FF ≠ 0 <->
      Sv32.WalkRequest.misaligned .l1 pte = true := by
  have hfield := shiftRight_and_mask ((Pte.ppn20 pte).setWidth 32) 0 10
  rw [BitVec.ushiftRight_zero] at hfield
  have hlow : (Pte.ppn20 pte).setWidth 32 &&& 0x3FF = (pte.extractLsb' 10 10).setWidth 32 := by
    refine hfield.trans ?_
    apply BitVec.eq_of_getLsbD_eq
    intro k hk
    simp [hk, Pte.ppn20]
    grind
  rw [hlow]
  unfold Sv32.WalkRequest.misaligned
  rw [decide_eq_true_eq, not_iff_not]
  constructor
  · intro h
    have hcut := congrArg (BitVec.setWidth 10) h
    simpa using hcut
  · intro h
    rw [h]
    rfl

theorem leaf_eq (pte : BitVec 32) :
    (pteFlag pte pteRBit || pteFlag pte pteWBit || pteFlag pte pteXBit) = Pte.leaf pte := by
  simp only [pteFlag_eq]
  rfl

theorem valid_eq (pte : BitVec 32) : pteFlag pte pteVBit = Pte.v pte := pteFlag_eq pte 0

theorem offset_eq (vaddr : BitVec 32) :
    vaddr &&& 0xFFF = (vaddr.extractLsb' 0 12).setWidth 32 := by
  have hfield := shiftRight_and_mask vaddr 0 12
  rwa [BitVec.ushiftRight_zero] at hfield

/--
The plan of the simulator, with the fields as the walker names them.
-/
theorem translateSv32_eq (hpriv : (privMode == privU) = i.privIsU)
    (hsatp : satp.setWidth 22 = i.satpPpn) :
    translateSv32 privMode i.vaddr (access i) satp =
      .read (Sv32.WalkRequest.l1Addr i.request) fun pte1 =>
        if !Pte.v pte1 then faults i
        else if Pte.leaf pte1 then
          if Sv32.WalkRequest.misaligned .l1 pte1 then faults i
          else if !i.request.permitted pte1 then faults i
          else finds i ((Pte.ppn20 pte1).extractLsb' 10 10 ++ Sv32.WalkRequest.vpn0 i.request)
        else
          .read (Sv32.WalkRequest.l0Addr i.request pte1) fun pte0 =>
            if !Pte.v pte0 then faults i
            else if !Pte.leaf pte0 then faults i
            else if !i.request.permitted pte0 then faults i
            else finds i (Pte.ppn20 pte0) := by
  have hl0 (pte : BitVec 32) :
      ((Pte.ppn20 pte).setWidth 32 <<< 12) |||
          ((Sv32.WalkRequest.vpn0 i.request).setWidth 32 <<< 2) =
        Sv32.WalkRequest.l0Addr i.request pte :=
    table_address (Pte.ppn20 pte) (Sv32.WalkRequest.vpn0 i.request)
  unfold translateSv32
  simp only [root_address hsatp, index0, ppn20_eq, offset_eq, misaligned_iff, leaf_eq, valid_eq,
    ptePermOk_eq hpriv, hl0, megapage_number, faults, finds]

theorem agrees_fault (i : Sv32.PtwIn) (pte : BitVec 32) :
    Agrees pte (faults i) (.answer none) := .fault _

theorem agrees_page (i : Sv32.PtwIn) (pte : BitVec 32) {ppn : BitVec 20} {found : BitVec 32}
    (hfound : found = 0#12 ++ ppn) :
    Agrees pte (finds i ppn)
      (.answer (some { ppn := found, perms := Pte.perms pte })) := by
  rw [hfound, ← page_number ppn (i.vaddr.extractLsb' 0 12)]
  exact .page _

theorem agrees_l0 (i : Sv32.PtwIn) (pte : BitVec 32) :
    Agrees pte
      (if !Pte.v pte then faults i
      else if !Pte.leaf pte then faults i
      else if !i.request.permitted pte then faults i
      else finds i (Pte.ppn20 pte))
      (Sv32.WalkRequest.decodes0 i.request pte) := by
  unfold Sv32.WalkRequest.decodes0
  cases Pte.v pte with
  | false => exact agrees_fault i pte
  | true =>
      cases Pte.leaf pte with
      | false => exact agrees_fault i pte
      | true =>
          unfold Sv32.WalkRequest.found
          cases i.request.permitted pte with
          | false => exact agrees_fault i pte
          | true => exact agrees_page i pte rfl

theorem agrees_l1 (i : Sv32.PtwIn) (pte : BitVec 32) :
    Agrees pte
      (if !Pte.v pte then faults i
      else if Pte.leaf pte then
        if Sv32.WalkRequest.misaligned .l1 pte then faults i
        else if !i.request.permitted pte then faults i
        else finds i ((Pte.ppn20 pte).extractLsb' 10 10 ++ Sv32.WalkRequest.vpn0 i.request)
      else
        .read (Sv32.WalkRequest.l0Addr i.request pte) fun pte0 =>
          if !Pte.v pte0 then faults i
          else if !Pte.leaf pte0 then faults i
          else if !i.request.permitted pte0 then faults i
          else finds i (Pte.ppn20 pte0))
      (Sv32.WalkRequest.decodes1 i.request pte) := by
  unfold Sv32.WalkRequest.decodes1
  cases Pte.v pte with
  | false => exact agrees_fault i pte
  | true =>
      cases Pte.leaf pte with
      | false => exact .read _ (agrees_l0 i)
      | true =>
          unfold Sv32.WalkRequest.found
          cases Sv32.WalkRequest.misaligned .l1 pte with
          | true => exact agrees_fault i pte
          | false =>
              cases i.request.permitted pte with
              | false => exact agrees_fault i pte
              | true =>
                  exact agrees_page i pte (megapage_leaf pte (Sv32.WalkRequest.vpn0 i.request))

theorem agrees_translate (hpriv : (privMode == privU) = i.privIsU)
    (hsatp : satp.setWidth 22 = i.satpPpn) (pte : BitVec 32) :
    Agrees pte (translateSv32 privMode i.vaddr (access i) satp)
      (Sv32.WalkRequest.plan i.request) := by
  rw [translateSv32_eq hpriv hsatp]
  exact .read _ (agrees_l1 i)

end Agreement

theorem path_length (mem : BitVec 32 -> BitVec 32) (q : Sv32.WalkRequest) :
    (q.plan.path mem).length = 1 ∨ (q.plan.path mem).length = 2 := by
  unfold Sv32.WalkRequest.plan Sv32.WalkRequest.decodes1 Sv32.WalkRequest.decodes0
  simp only [ReadPlan.path]
  split
  · exact Or.inl rfl
  · split
    · exact Or.inl rfl
    · right
      simp only [ReadPlan.path]
      split <;> rfl

open Sv32.Ptw in
/--
A walk started by an idle walker ends with one pulse and what the simulator finds for the
request on the port in the first cycle; on its way the walker asks for the entries that the
simulator reads and for no others.
-/
theorem ptw_refines_translate_sv32 (byte : BitVec 32 -> BitVec 8) (u : Sv32.Ptw)
    (hidle : u.state = .idle) (hbusy : u.busy = false) (hdone : u.done = false)
    (j : Nat -> Sv32.PtwIn) (hstart : (j 0).start = true)
    (hmem : reader.Answers (readPte byte) u j) (privMode : BitVec 2)
    (hpriv : (privMode == privU) = (j 0).privIsU) (satp : BitVec 32)
    (hsatp : satp.setWidth 22 = (j 0).satpPpn) :
    let walk := translateSv32 privMode (j 0).vaddr (access (j 0)) satp
    let path := walk.path (readPte byte)
    (path.length = 1 ∨ path.length = 2) ∧
      exists n, 0 < n ∧
        (forall m, m < n -> (reader.run u j m).done = false) ∧
        (forall m, 0 < m -> m < n -> (reader.run u j m).busy = true) ∧
        (forall m, m < n -> (reader.run u j m).cyc = true -> (reader.run u j m).addr ∈ path) ∧
        (reader.run u j n).done = true ∧
        (reader.run u j n).outcome = translation (readPte byte) 0 walk ∧
        reader.reads u j n = path ∧
        forall m, n < m -> (forall k, n < k -> k < m -> (j k).start = false) ->
          (reader.run u j m).done = false := by
  intro walk path
  have hagrees : Agrees 0 walk (Sv32.WalkRequest.plan (j 0).request) :=
    agrees_translate hpriv hsatp 0
  obtain ⟨hpath, hresult⟩ := hagrees.found (readPte byte)
  have hrests : reader.Rests u := ⟨hidle, hbusy⟩
  obtain ⟨n, hpos, hworks, hfinished, hreads, hquiet⟩ :=
    reader_lawful.started hmem hrests hdone hstart
  refine ⟨?_, n, hpos, ?_, ?_, ?_, hfinished.done, ?_, hreads.trans hpath, hquiet⟩
  · have hlength := path_length (readPte byte) (j 0).request
    rwa [hpath] at hlength
  · intro m hm
    cases m with
    | zero => exact hdone
    | succ m => exact hworks.done (m + 1) (Nat.le_add_left 1 m) hm
  · intro m hm hlt
    exact hworks.busy m hm hlt
  · intro m hm hcyc
    cases m with
    | zero =>
        have hnone : u.cyc = false := reader_lawful.rests_cyc hrests
        exact absurd (hnone.symm.trans hcyc) Bool.false_ne_true
    | succ m =>
        have hasks := hworks.asks (m + 1) (Nat.le_add_left 1 m) hm hcyc
        exact hpath.subst (motive := fun as => (reader.run u j (m + 1)).addr ∈ as) hasks
  · exact hfinished.outcome.trans hresult

/--
A table at 0x1000 that maps the page of 0x00401abc through a second table at 0x2000.
-/
def twoTables (addr : BitVec 32) : BitVec 8 :=
  if addr = 0x1004 then 0x01
  else if addr = 0x1005 then 0x08
  else if addr = 0x2004 then 0x1b
  else if addr = 0x2006 then 0x20
  else 0

def tableByte : BitVec 32 -> BitVec 8 := loadMemByte twoTables 0x3fff

/--
A load by a user whose request is gone after the first cycle.
-/
def load (byte : BitVec 32 -> BitVec 8) (u : Sv32.Ptw) : Sv32.PtwIn :=
  { start := true
    vaddr := if u.state = .idle then 0x00401abc else 0
    satpPpn := if u.state = .idle then 1 else 0
    isFetch := false
    isStore := false
    privIsU := decide (u.state = .idle)
    dataIn := readPte byte u.addr
    ack := true }

def loads (n : Nat) : Sv32.PtwIn :=
  load tableByte (driven Ptw.step (load tableByte) Ptw.powerUp n)

theorem run_loads (n : Nat) :
    Sv32.Ptw.reader.run Ptw.powerUp loads n = driven Ptw.step (load tableByte) Ptw.powerUp n := by
  induction n with
  | zero => rfl
  | succ n ih =>
      show (Sv32.Ptw.reader.run Ptw.powerUp loads n).step (loads n) = _
      rw [ih]
      rfl

theorem ptw_refines_translate_sv32_load :
    exists n, (Sv32.Ptw.reader.run Ptw.powerUp loads n).done = true ∧
      (Sv32.Ptw.reader.run Ptw.powerUp loads n).outcome =
        some { ppn := 0x800, perms := { r := true, w := false, x := true, u := true } } ∧
      Sv32.Ptw.reader.reads Ptw.powerUp loads n = [0x1004, 0x2004] := by
  obtain ⟨_, n, _, _, _, _, hdone, houtcome, hreads, _⟩ :=
    ptw_refines_translate_sv32 tableByte Ptw.powerUp rfl rfl rfl loads rfl
      { data := fun m _ _ => by
          rw [run_loads m]
          rfl
        ack := fun m _ => ⟨0, rfl⟩ }
      privU rfl 0x80000001 rfl
  refine ⟨n, hdone, ?_, ?_⟩
  · rw [houtcome]
    decide
  · rw [hreads]
    decide

end Sim
end RvCores
