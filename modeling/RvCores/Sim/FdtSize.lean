import RvCores.Sim.FdtRoundTrip

/-!
# When a device tree is built

The emitter refuses text that is not ASCII, and a blob of 4 GiB or more.  It refuses
nothing else, and the length of the blob is known from the calls: every event has its
tokens, and every property name is stored once.
-/

namespace RvCores
namespace Sim

open Lib FlatTree

/-!
# Lengths
-/

def Ascii (s : String) : Prop := forall c, c ∈ s.toList -> c.toNat < 128

def FdtCall.texts : FdtCall -> List String
  | beginNode name => [name]
  | endNode => []
  | propEmpty name => [name]
  | propU32 name _ => [name]
  | propU64 name _ => [name]
  | propCells name _ => [name]
  | propStr name val => [name, val]
  | propStrlist name vals => name :: vals

/--
The name that a call brings into the strings block.
-/
def FdtCall.propName : FdtCall -> Option String
  | beginNode _ => none
  | endNode => none
  | propEmpty name => some name
  | propU32 name _ => some name
  | propU64 name _ => some name
  | propCells name _ => some name
  | propStr name _ => some name
  | propStrlist name _ => some name

def eventLength : Event -> Nat
  | .beginNode name => 4 + alignUp 4 (name.length + 1)
  | .endNode => 4
  | .prop _ value => 12 + alignUp 4 value.length

def nameLength (known : List String) (name : String) : Nat :=
  if name ∈ known then 0 else name.toList.length + 1

/--
The bytes that the calls add where the names are known already.
-/
def addedLength : List String -> List FdtCall -> Nat
  | _, [] => 0
  | known, call :: calls =>
      match call.propName with
      | none => eventLength call.event + addedLength known calls
      | some name =>
          eventLength call.event + nameLength known name + addedLength (name :: known) calls

/--
The header, the reservations and the last token take 60 bytes.
-/
def blobLength (calls : List FdtCall) : Nat := 60 + addedLength [] calls

/--
The test of the encoder, over all texts at once.
-/
theorem ascii_of_all {texts : List String}
    (h : texts.all (fun s => s.toList.all fun c => c.toNat < 128) = true) :
    forall s, s ∈ texts -> Ascii s := by
  intro s hs c hc
  exact of_decide_eq_true (List.all_eq_true.mp (List.all_eq_true.mp h s hs) c hc)

/-!
# One call
-/

theorem encodeAscii_ok_iff {s : String} {text : ByteString} :
    encodeAscii s = .ok text <-> Ascii s ∧ text = asciiBytes s := by
  constructor
  · intro h
    exact ⟨(encodeAscii_eq_ok h).right, (encodeAscii_eq_ok h).left⟩
  · rintro ⟨hascii, rfl⟩
    have hall : s.toList.all (fun c => c.toNat < 128) = true :=
      List.all_eq_true.mpr fun c hc => decide_eq_true (hascii c hc)
    rw [encodeAscii, if_pos hall]
    rfl

theorem encodeStrlist_ok {vals : List String} (h : forall v, v ∈ vals -> Ascii v) :
    FdtBuilder.encodeStrlist vals = .ok (vals.flatMap fun v => cString (asciiBytes v)) := by
  induction vals with
  | nil => rfl
  | cons v vals ih =>
    have hfirst := encodeAscii_ok_iff.mpr ⟨h v (List.mem_cons_self ..), rfl⟩
    rw [FdtBuilder.encodeStrlist, hfirst, ok_bind,
      ih fun v hv => h v (List.mem_cons_of_mem _ hv), ok_bind]
    rfl

theorem ascii_of_encodeStrlist {vals : List String} {value : ByteString}
    (h : FdtBuilder.encodeStrlist vals = .ok value) : forall v, v ∈ vals -> Ascii v := by
  induction vals generalizing value with
  | nil => exact fun v hv => nomatch hv
  | cons v vals ih =>
    rw [FdtBuilder.encodeStrlist] at h
    obtain ⟨text, htext, hrest⟩ := bind_eq_ok h
    obtain ⟨more, hmore, _⟩ := bind_eq_ok hrest
    exact List.forall_mem_cons.mpr ⟨(encodeAscii_ok_iff.mp htext).left, ih hmore⟩

namespace FdtBuilder

def known (b : FdtBuilder) : List String := b.stringOffsets.map Prod.fst

def length (b : FdtBuilder) : Nat := b.struct.length + b.strings.length

/--
The offsets of the table lie inside the strings block.
-/
def Inside (b : FdtBuilder) : Prop :=
  forall name off, b.stringOffsets.lookup name = some off -> off <= b.strings.length

theorem lookup_none {b : FdtBuilder} {name : String} :
    b.stringOffsets.lookup name = none <-> name ∉ b.known := by
  rw [List.lookup_eq_none_iff, known]
  simp only [List.mem_map, not_exists, not_and, bne_iff_ne, ne_eq]
  exact ⟨fun h p hp hsame => h p hp hsame.symm, fun h p hp hsame => h p hp hsame.symm⟩

theorem nameLength_congr {known known' : List String}
    (h : forall n, n ∈ known <-> n ∈ known') (name : String) :
    nameLength known name = nameLength known' name := by
  rw [nameLength, nameLength, if_congr (h name) rfl rfl]

theorem addedLength_congr {known known' : List String}
    (h : forall n, n ∈ known <-> n ∈ known') (calls : List FdtCall) :
    addedLength known calls = addedLength known' calls := by
  induction calls generalizing known known' with
  | nil => rfl
  | cons call calls ih =>
    rw [addedLength, addedLength]
    cases call.propName with
    | none => exact congrArg (eventLength call.event + ·) (ih h)
    | some name =>
      have hmore : forall n, n ∈ name :: known <-> n ∈ name :: known' := by
        intro n
        rw [List.mem_cons, List.mem_cons, h n]
      show _ + nameLength known name + _ = _ + nameLength known' name + _
      rw [nameLength_congr h, ih hmore]

variable {b b' : FdtBuilder} {name : String}

theorem length_asciiBytes (s : String) : (asciiBytes s).length = s.toList.length :=
  List.length_map ..

/--
What looking a name up does to the lengths.
-/
theorem stringOff_length {off : Nat} (hb : b.Inside) (h : b.stringOff name = .ok (off, b')) :
    b'.Inside ∧ off <= b'.strings.length ∧ b'.struct = b.struct ∧
      b'.strings.length = b.strings.length + nameLength b.known name ∧
        forall n, n ∈ b'.known <-> n ∈ name :: b.known := by
  unfold stringOff at h
  cases hlookup : b.stringOffsets.lookup name with
  | some found =>
    rw [hlookup] at h
    cases h
    have hmem : name ∈ b.known := by
      by_contra hout
      rw [lookup_none.mpr hout] at hlookup
      cases hlookup
    refine ⟨hb, hb name off hlookup, rfl, ?_, ?_⟩
    · rw [nameLength, if_pos hmem, Nat.add_zero]
    · intro n
      rw [List.mem_cons, or_iff_right_of_imp fun hn => hn ▸ hmem]
  | none =>
    rw [hlookup] at h
    obtain ⟨text, htext, hnext⟩ := bind_eq_ok h
    cases hnext
    have hout := lookup_none.mp hlookup
    have hlength : (b.strings ++ cString text).length =
        b.strings.length + nameLength b.known name := by
      rw [nameLength, if_neg hout, List.length_append, length_cString,
        (encodeAscii_eq_ok htext).left, length_asciiBytes]
    have hinside : b.strings.length <= (b.strings ++ cString text).length := by
      rw [hlength]
      exact Nat.le_add_right _ _
    refine ⟨?_, hinside, rfl, hlength, fun n => Iff.rfl⟩
    intro other off hother
    rw [List.lookup_cons] at hother
    cases hsame : other == name with
    | true =>
      rw [hsame] at hother
      cases hother
      exact hinside
    | false =>
      rw [hsame] at hother
      exact Nat.le_trans (hb other off hother) hinside

theorem stringOff_ok (hascii : Ascii name) : exists r, b.stringOff name = .ok r := by
  unfold stringOff
  cases b.stringOffsets.lookup name with
  | some off => exact ⟨_, rfl⟩
  | none =>
    dsimp only
    rw [encodeAscii_ok_iff.mpr ⟨hascii, rfl⟩]
    exact ⟨_, rfl⟩

/--
What is built and what is still to come have one length together.
-/
def Accounts (b b' : FdtBuilder) (call : FdtCall) : Prop :=
  b'.Inside ∧ forall calls,
    b'.length + addedLength b'.known calls = b.length + addedLength b.known (call :: calls)

theorem propRaw_accounts {value : ByteString} {call : FdtCall} (hb : b.Inside)
    (hname : call.propName = some name) (hevent : call.event = .prop (asciiBytes name) value)
    (h : b.propRaw name value = .ok b') : Accounts b b' call := by
  obtain ⟨⟨off, b1⟩, hoff, hnext⟩ := bind_eq_ok h
  obtain ⟨words, hwords, hresult⟩ := bind_eq_ok hnext
  cases hresult
  obtain ⟨hinside, _, hstruct, hstrings, hknown⟩ := stringOff_length hb hoff
  obtain ⟨rfl, _⟩ := packU32s_eq_ok hwords
  refine ⟨hinside, fun calls => ?_⟩
  have hadded : addedLength b1.known calls = addedLength (name :: b.known) calls :=
    addedLength_congr hknown calls
  have hlength : (b1.struct ++ packBe 4 fdtProp ++ packWords [value.length, off] ++
      align4 value).length = b.struct.length + (12 + alignUp 4 value.length) := by
    rw [align4, List.length_append, List.length_append, List.length_append, length_packBe,
      length_packWords, length_align (by decide), hstruct]
    show b.struct.length + 4 + 4 * 2 + _ = _
    omega
  rw [addedLength, hname, hevent]
  show (b1.struct ++ packBe 4 fdtProp ++ packWords [value.length, off] ++
    align4 value).length + b1.strings.length + addedLength b1.known calls =
      b.struct.length + b.strings.length +
        (12 + alignUp 4 value.length + nameLength b.known name +
          addedLength (name :: b.known) calls)
  rw [hlength, hstrings, hadded]
  omega

theorem propRaw_ok {value : ByteString} (hb : b.Inside) (hascii : Ascii name)
    (hvalue : value.length < 2 ^ 32)
    (hstrings : b.strings.length + nameLength b.known name < 2 ^ 32) :
    exists b', b.propRaw name value = .ok b' := by
  obtain ⟨⟨off, b1⟩, hoff⟩ := stringOff_ok (b := b) hascii
  obtain ⟨_, hinside, _, hlength, _⟩ := stringOff_length hb hoff
  have hsmall : off < 2 ^ 32 := by omega
  rw [propRaw, hoff, ok_bind]
  dsimp only
  rw [packU32s, if_pos hvalue, packU32s, if_pos hsmall]
  exact ⟨_, rfl⟩

end FdtBuilder

open FdtBuilder

variable {b b' : FdtBuilder} {call : FdtCall}

theorem FdtCall.apply_accounts (hb : b.Inside) (h : call.apply b = .ok b') :
    Accounts b b' call := by
  cases call with
  | beginNode name =>
    obtain ⟨text, htext, hresult⟩ := bind_eq_ok h
    cases hresult
    obtain ⟨rfl, _⟩ := encodeAscii_eq_ok htext
    refine ⟨hb, fun calls => ?_⟩
    have hlength : (b.struct ++ packBe 4 fdtBeginNode ++
        align4 (cString (asciiBytes name))).length =
          b.struct.length + (4 + alignUp 4 ((asciiBytes name).length + 1)) := by
      rw [align4, List.length_append, List.length_append, length_packBe,
        length_align (by decide), length_cString, Nat.add_assoc]
    show (b.struct ++ packBe 4 fdtBeginNode ++
      align4 (cString (asciiBytes name))).length + b.strings.length +
        addedLength b.known calls = b.struct.length + b.strings.length +
          (4 + alignUp 4 ((asciiBytes name).length + 1) + addedLength b.known calls)
    rw [hlength]
    omega
  | endNode =>
    cases h
    refine ⟨hb, fun calls => ?_⟩
    show (b.struct ++ packBe 4 fdtEndNode).length + b.strings.length +
      addedLength b.known calls = b.struct.length + b.strings.length +
        (4 + addedLength b.known calls)
    rw [List.length_append, length_packBe]
    omega
  | propEmpty name => exact propRaw_accounts hb rfl rfl h
  | propU32 name val => exact propRaw_accounts hb rfl rfl h
  | propU64 name val => exact propRaw_accounts hb rfl rfl h
  | propCells name cells => exact propRaw_accounts hb rfl rfl h
  | propStr name val =>
    obtain ⟨text, htext, hraw⟩ := bind_eq_ok h
    refine propRaw_accounts hb rfl ?_ hraw
    rw [(encodeAscii_eq_ok htext).left]
    rfl
  | propStrlist name vals =>
    obtain ⟨value, hvalue, hraw⟩ := bind_eq_ok h
    refine propRaw_accounts hb rfl ?_ hraw
    rw [encodeStrlist_eq_ok hvalue]
    rfl

/--
A call is accepted if its texts are ASCII and what it adds fits.
-/
theorem FdtCall.apply_ok (hb : b.Inside) (hascii : forall s, s ∈ call.texts -> Ascii s)
    (hfits : b.length + addedLength b.known [call] < 2 ^ 32) :
    exists b', call.apply b = .ok b' := by
  have hprop : forall {name : String} {value : ByteString}, call.propName = some name ->
      call.event = .prop (asciiBytes name) value ->
        value.length < 2 ^ 32 ∧ b.strings.length + nameLength b.known name < 2 ^ 32 := by
    intro name value hname hevent
    have hle : value.length <= alignUp 4 value.length := le_alignUp (by decide) _
    simp only [addedLength, hname, hevent, eventLength, FdtBuilder.length] at hfits
    omega
  cases call with
  | beginNode name =>
    have htext := encodeAscii_ok_iff.mpr ⟨hascii name (List.mem_cons_self ..), rfl⟩
    exact ⟨_, by rw [FdtCall.apply, FdtBuilder.beginNode, htext, ok_bind]; rfl⟩
  | endNode => exact ⟨_, rfl⟩
  | propEmpty name =>
    obtain ⟨hvalue, hstrings⟩ := hprop rfl rfl
    exact propRaw_ok hb (hascii name (List.mem_cons_self ..)) hvalue hstrings
  | propU32 name val =>
    obtain ⟨hvalue, hstrings⟩ := hprop rfl rfl
    exact propRaw_ok hb (hascii name (List.mem_cons_self ..)) hvalue hstrings
  | propU64 name val =>
    obtain ⟨hvalue, hstrings⟩ := hprop rfl rfl
    exact propRaw_ok hb (hascii name (List.mem_cons_self ..)) hvalue hstrings
  | propCells name cells =>
    obtain ⟨hvalue, hstrings⟩ := hprop rfl rfl
    exact propRaw_ok hb (hascii name (List.mem_cons_self ..)) hvalue hstrings
  | propStr name val =>
    obtain ⟨hvalue, hstrings⟩ := hprop rfl rfl
    have htext := encodeAscii_ok_iff.mpr
      ⟨hascii val (List.mem_cons_of_mem _ (List.mem_cons_self ..)), rfl⟩
    rw [FdtCall.apply, FdtBuilder.propStr, htext, ok_bind]
    exact propRaw_ok hb (hascii name (List.mem_cons_self ..)) hvalue hstrings
  | propStrlist name vals =>
    obtain ⟨hvalue, hstrings⟩ := hprop rfl rfl
    have htext := encodeStrlist_ok fun v hv => hascii v (List.mem_cons_of_mem _ hv)
    rw [FdtCall.apply, FdtBuilder.propStrlist, htext, ok_bind]
    exact propRaw_ok hb (hascii name (List.mem_cons_self ..)) hvalue hstrings

theorem FdtBuilder.propRaw_placed {name : String} {value : ByteString} (hb : b.Placed)
    (h : b.propRaw name value = .ok b') : Ascii name ∧ b'.Placed := by
  obtain ⟨⟨off, b1⟩, hoff, hnext⟩ := bind_eq_ok h
  obtain ⟨words, _, hresult⟩ := bind_eq_ok hnext
  cases hresult
  obtain ⟨_, _, hplaced, hascii, _⟩ := stringOff_spec hb hoff
  exact ⟨hascii, hplaced⟩

theorem FdtCall.apply_placed (hb : b.Placed) (h : call.apply b = .ok b') :
    (forall s, s ∈ call.texts -> Ascii s) ∧ b'.Placed := by
  have hone : forall {name : String} {value : ByteString}, b.propRaw name value = .ok b' ->
      (forall s, s ∈ [name] -> Ascii s) ∧ b'.Placed := by
    intro name value hraw
    obtain ⟨hascii, hplaced⟩ := propRaw_placed hb hraw
    exact ⟨List.forall_mem_singleton.mpr hascii, hplaced⟩
  cases call with
  | beginNode name =>
    obtain ⟨text, htext, hresult⟩ := bind_eq_ok h
    cases hresult
    exact ⟨List.forall_mem_singleton.mpr (encodeAscii_ok_iff.mp htext).left, hb⟩
  | endNode =>
    cases h
    exact ⟨fun s hs => (nomatch hs), hb⟩
  | propEmpty name => exact hone h
  | propU32 name val => exact hone h
  | propU64 name val => exact hone h
  | propCells name cells => exact hone h
  | propStr name val =>
    obtain ⟨text, htext, hraw⟩ := bind_eq_ok h
    obtain ⟨hascii, hplaced⟩ := propRaw_placed hb hraw
    exact ⟨List.forall_mem_cons.mpr ⟨hascii,
      List.forall_mem_singleton.mpr (encodeAscii_ok_iff.mp htext).left⟩, hplaced⟩
  | propStrlist name vals =>
    obtain ⟨value, hvalue, hraw⟩ := bind_eq_ok h
    obtain ⟨hascii, hplaced⟩ := propRaw_placed hb hraw
    exact ⟨List.forall_mem_cons.mpr ⟨hascii, ascii_of_encodeStrlist hvalue⟩, hplaced⟩

/-!
# Runs
-/

theorem addedLength_head (known : List String) (call : FdtCall) (calls : List FdtCall) :
    addedLength known [call] <= addedLength known (call :: calls) := by
  simp only [addedLength]
  cases call.propName with
  | none => exact Nat.add_le_add_left (Nat.zero_le _) _
  | some name => exact Nat.add_le_add_left (Nat.zero_le _) _

theorem FdtBuilder.run_length {calls : List FdtCall} (hb : b.Inside)
    (h : b.run calls = .ok b') : b'.length = b.length + addedLength b.known calls := by
  induction calls generalizing b with
  | nil =>
    cases h
    rfl
  | cons call calls ih =>
    obtain ⟨b1, hcall, hrest⟩ := bind_eq_ok h
    obtain ⟨hinside, haccounts⟩ := call.apply_accounts hb hcall
    exact (ih hinside hrest).trans (haccounts calls)

theorem FdtBuilder.run_ok {calls : List FdtCall} (hb : b.Inside)
    (hascii : forall call, call ∈ calls -> forall s, s ∈ call.texts -> Ascii s)
    (hfits : b.length + addedLength b.known calls < 2 ^ 32) :
    exists b', b.run calls = .ok b' := by
  induction calls generalizing b with
  | nil => exact ⟨b, rfl⟩
  | cons call calls ih =>
    have hhead := addedLength_head b.known call calls
    obtain ⟨b1, hcall⟩ := call.apply_ok hb (hascii call (List.mem_cons_self ..)) (by omega)
    obtain ⟨hinside, haccounts⟩ := call.apply_accounts hb hcall
    obtain ⟨b', hrest⟩ := ih hinside (fun c hc => hascii c (List.mem_cons_of_mem _ hc))
      (by rw [haccounts calls]; exact hfits)
    exact ⟨b', by rw [FdtBuilder.run, hcall, ok_bind]; exact hrest⟩

theorem FdtBuilder.ascii_of_run {calls : List FdtCall} (hb : b.Placed)
    (h : b.run calls = .ok b') :
    forall call, call ∈ calls -> forall s, s ∈ call.texts -> Ascii s := by
  induction calls generalizing b with
  | nil => exact fun call hcall => nomatch hcall
  | cons call calls ih =>
    obtain ⟨b1, hcall, hrest⟩ := bind_eq_ok h
    obtain ⟨hascii, hplaced⟩ := call.apply_placed hb hcall
    exact List.forall_mem_cons.mpr ⟨hascii, ih hplaced hrest⟩

theorem packU32s_ok {ws : List Nat} (h : forall v, v ∈ ws -> v < 2 ^ 32) :
    packU32s ws = .ok (packWords ws) := by
  induction ws with
  | nil => rfl
  | cons v ws ih =>
    rw [packU32s, if_pos (h v (List.mem_cons_self ..)),
      ih fun u hu => h u (List.mem_cons_of_mem _ hu)]
    rfl

theorem FdtBuilder.build_ok (h : 60 + b.length < 2 ^ 32) : exists r, b.build = .ok r := by
  have hsmall : 56 + (b.struct ++ packBe 4 fdtEnd).length + b.strings.length < 2 ^ 32 := by
    rw [FdtBuilder.length] at h
    rw [List.length_append, length_packBe]
    omega
  have hheader := @packU32s_ok
    (headerWords (b.struct ++ packBe 4 fdtEnd).length b.strings.length)
    fun v hv => headerWords_small hsmall hv
  have hbuild : b.build = (packU32s
      (headerWords (b.struct ++ packBe 4 fdtEnd).length b.strings.length) >>= fun header =>
        .ok (header ++ (packBe 8 0 ++ packBe 8 0) ++ (b.struct ++ packBe 4 fdtEnd) ++
          b.strings, b.append (packBe 4 fdtEnd))) := rfl
  rw [hbuild, hheader]
  exact ⟨_, rfl⟩

theorem inside_init : FdtBuilder.init.Inside := by
  intro name off h
  cases h

theorem length_of_assemble {calls : List FdtCall} {blob : ByteString}
    (h : assemble calls = .ok blob) : blob.length = blobLength calls := by
  obtain ⟨b, hrun, hnext⟩ := bind_eq_ok h
  obtain ⟨⟨blob', b'⟩, hbuild, hblob⟩ := bind_eq_ok hnext
  cases hblob
  obtain ⟨rfl, _⟩ := FdtBuilder.build_eq_ok hbuild
  have hlength : b.struct.length + b.strings.length = 0 + addedLength [] calls :=
    FdtBuilder.run_length inside_init hrun
  rw [layout_length, List.length_append, length_packBe, blobLength]
  omega

theorem assemble_ok {calls : List FdtCall}
    (hascii : forall call, call ∈ calls -> forall s, s ∈ call.texts -> Ascii s)
    (hfits : blobLength calls < 2 ^ 32) : exists blob, assemble calls = .ok blob := by
  have hrunFits : FdtBuilder.init.length + addedLength FdtBuilder.init.known calls <
      2 ^ 32 := by
    show 0 + addedLength [] calls < 2 ^ 32
    rw [blobLength] at hfits
    omega
  obtain ⟨b, hrun⟩ := FdtBuilder.run_ok inside_init hascii hrunFits
  have hlength : b.length = 0 + addedLength [] calls :=
    FdtBuilder.run_length inside_init hrun
  obtain ⟨⟨blob, b'⟩, hbuild⟩ := FdtBuilder.build_ok (b := b) (by
    rw [hlength, Nat.zero_add]
    exact hfits)
  exact ⟨blob, by rw [assemble, hrun, ok_bind, hbuild]; rfl⟩

/--
A blob is built exactly if all text is ASCII and the blob is shorter than 4 GiB.
-/
theorem assemble_ok_iff (calls : List FdtCall) :
    (exists blob, assemble calls = .ok blob) <->
      (forall call, call ∈ calls -> forall s, s ∈ call.texts -> Ascii s) ∧
        blobLength calls < 2 ^ 32 := by
  constructor
  · rintro ⟨blob, h⟩
    have hlength := length_of_assemble h
    obtain ⟨b, hrun, hnext⟩ := bind_eq_ok h
    obtain ⟨⟨blob', b'⟩, hbuild, hblob⟩ := bind_eq_ok hnext
    cases hblob
    obtain ⟨rfl, hsmall⟩ := FdtBuilder.build_eq_ok hbuild
    rw [layout_length] at hlength
    exact ⟨FdtBuilder.ascii_of_run FdtBuilder.placed_init hrun, hlength ▸ hsmall⟩
  · rintro ⟨hascii, hfits⟩
    exact assemble_ok hascii hfits

end Sim
end RvCores
