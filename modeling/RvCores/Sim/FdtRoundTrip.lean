import RvCores.Lib.FlatTreeParser
import RvCores.Sim.Fdt

/-!
# Device trees come back from their blobs

Each call appends the tokens of one event.  The offset of a name stays good while the
strings block grows, so at the end the structure block encodes the calls beside the final
strings, and the reader of the format and the validator go through it in step.
-/

namespace RvCores
namespace Sim

open Lib FlatTree

/-!
# What the calls say
-/

def asciiBytes (s : String) : ByteString := s.toList.map fun c => BitVec.ofNat 8 c.toNat

def FdtCall.event : FdtCall -> Event
  | beginNode name => .beginNode (asciiBytes name)
  | endNode => .endNode
  | propEmpty name => .prop (asciiBytes name) []
  | propU32 name val => .prop (asciiBytes name) (FdtBuilder.masked 4 val)
  | propU64 name val => .prop (asciiBytes name) (FdtBuilder.masked 8 val)
  | propCells name cells => .prop (asciiBytes name) (cells.flatMap (FdtBuilder.masked 4))
  | propStr name val => .prop (asciiBytes name) (cString (asciiBytes val))
  | propStrlist name vals =>
      .prop (asciiBytes name) (vals.flatMap fun v => cString (asciiBytes v))

/--
The name of the node or property, where the call gives one.
-/
def FdtCall.name : FdtCall -> String
  | beginNode name => name
  | endNode => ""
  | propEmpty name => name
  | propU32 name _ => name
  | propU64 name _ => name
  | propCells name _ => name
  | propStr name _ => name
  | propStrlist name _ => name

def NulFree (s : String) : Prop := Char.ofNat 0 ∉ s.toList

instance (s : String) : Decidable (NulFree s) :=
  inferInstanceAs (Decidable (Char.ofNat 0 ∉ s.toList))

theorem encodeAscii_eq_ok {s : String} {text : ByteString} (h : encodeAscii s = .ok text) :
    text = asciiBytes s ∧ forall c, c ∈ s.toList -> c.toNat < 128 := by
  unfold encodeAscii at h
  split_ifs at h with hascii
  cases h
  refine ⟨rfl, fun c hc => ?_⟩
  simpa using List.all_eq_true.mp hascii c hc

theorem zero_notMem_asciiBytes {s : String} (hascii : forall c, c ∈ s.toList -> c.toNat < 128)
    (hfree : NulFree s) : 0 ∉ asciiBytes s := by
  intro hzero
  obtain ⟨c, hc, hbyte⟩ := List.mem_map.mp hzero
  have hnat := congrArg BitVec.toNat hbyte
  rw [BitVec.toNat_ofNat, Nat.mod_eq_of_lt (by have := hascii c hc; omega)] at hnat
  have hchar : c = Char.ofNat 0 := by
    rw [← Char.ofNat_toNat c, hnat]
    rfl
  exact hfree (hchar ▸ hc)

theorem packU32s_eq_ok {ws : List Nat} {bs : ByteString} (h : packU32s ws = .ok bs) :
    bs = packWords ws ∧ forall v, v ∈ ws -> v < 2 ^ 32 := by
  induction ws generalizing bs with
  | nil =>
    cases h
    exact ⟨rfl, fun v hv => nomatch hv⟩
  | cons w ws ih =>
    rw [packU32s] at h
    split_ifs at h with hw
    obtain ⟨more, hmore, hbs⟩ := bind_eq_ok h
    cases hbs
    obtain ⟨rfl, hws⟩ := ih hmore
    exact ⟨rfl, List.forall_mem_cons.mpr ⟨hw, hws⟩⟩

theorem encodeStrlist_eq_ok {vals : List String} {value : ByteString}
    (h : FdtBuilder.encodeStrlist vals = .ok value) :
    value = vals.flatMap fun v => cString (asciiBytes v) := by
  induction vals generalizing value with
  | nil =>
    cases h
    rfl
  | cons v vals ih =>
    rw [FdtBuilder.encodeStrlist] at h
    obtain ⟨text, htext, hrest⟩ := bind_eq_ok h
    obtain ⟨more, hmore, hvalue⟩ := bind_eq_ok hrest
    cases hvalue
    rw [ih hmore, (encodeAscii_eq_ok htext).left]
    rfl

/-!
# Calls append tokens
-/

namespace FdtBuilder

/--
Every name of the table stands at its offset.
-/
def Placed (b : FdtBuilder) : Prop :=
  forall name off, b.stringOffsets.lookup name = some off ->
    (forall c, c ∈ name.toList -> c.toNat < 128) ∧
      cString (asciiBytes name) <+: b.strings.drop off

/--
One emitter has gone on from another and appended the tokens of an event.
-/
structure Emitted (b b' : FdtBuilder) (e : Event) : Prop where
  grow : b.strings <+: b'.strings
  placed : b'.Placed
  struct : exists bs, b'.struct = b.struct ++ bs ∧ Encodes b'.strings e bs

theorem placed_init : init.Placed := by
  intro name off h
  cases h

variable {b b' : FdtBuilder} {name : String}

theorem stringOff_spec {off : Nat} (hb : b.Placed) (h : b.stringOff name = .ok (off, b')) :
    b'.struct = b.struct ∧ b.strings <+: b'.strings ∧ b'.Placed ∧
      (forall c, c ∈ name.toList -> c.toNat < 128) ∧
        cString (asciiBytes name) <+: b'.strings.drop off := by
  unfold stringOff at h
  cases hlookup : b.stringOffsets.lookup name with
  | some found =>
    rw [hlookup] at h
    cases h
    exact ⟨rfl, List.prefix_rfl, hb, hb name off hlookup⟩
  | none =>
    rw [hlookup] at h
    obtain ⟨text, htext, hnext⟩ := bind_eq_ok h
    cases hnext
    obtain ⟨rfl, hascii⟩ := encodeAscii_eq_ok htext
    have hplace : cString (asciiBytes name) <+:
        (b.strings ++ cString (asciiBytes name)).drop b.strings.length :=
      ⟨[], by rw [List.append_nil, List.drop_left' rfl]⟩
    refine ⟨rfl, List.prefix_append _ _, ?_, hascii, hplace⟩
    intro other off hother
    rw [List.lookup_cons] at hother
    cases hsame : other == name with
    | true =>
      rw [hsame] at hother
      cases hother
      rw [eq_of_beq hsame]
      exact ⟨hascii, hplace⟩
    | false =>
      rw [hsame] at hother
      obtain ⟨hotherAscii, hotherPlace⟩ := hb other off hother
      exact ⟨hotherAscii, prefix_drop_grow hotherPlace (List.prefix_append _ _)⟩

theorem propRaw_emitted {value : ByteString} (hb : b.Placed) (hfree : NulFree name)
    (h : b.propRaw name value = .ok b') : Emitted b b' (.prop (asciiBytes name) value) := by
  obtain ⟨⟨off, b1⟩, hoff, hnext⟩ := bind_eq_ok h
  obtain ⟨words, hwords, hresult⟩ := bind_eq_ok hnext
  cases hresult
  obtain ⟨hstruct, hgrow, hplaced, hascii, hplace⟩ := stringOff_spec hb hoff
  obtain ⟨rfl, hsmall⟩ := packU32s_eq_ok hwords
  refine ⟨hgrow, hplaced, _, ?_, .prop (zero_notMem_asciiBytes hascii hfree)
    (hsmall _ (by simp)) (hsmall off (by simp)) hplace⟩
  show b1.struct ++ _ ++ _ ++ _ = _
  rw [hstruct, packWords]
  simp [align4, fdtProp, propToken]

theorem beginNode_emitted (hb : b.Placed) (hfree : NulFree name)
    (h : b.beginNode name = .ok b') : Emitted b b' (.beginNode (asciiBytes name)) := by
  obtain ⟨text, htext, hresult⟩ := bind_eq_ok h
  cases hresult
  obtain ⟨rfl, hascii⟩ := encodeAscii_eq_ok htext
  exact ⟨List.prefix_rfl, hb, _, List.append_assoc _ _ _,
    .beginNode (zero_notMem_asciiBytes hascii hfree)⟩

theorem endNode_emitted (hb : b.Placed) : Emitted b b.endNode .endNode :=
  ⟨List.prefix_rfl, hb, _, rfl, .endNode⟩

end FdtBuilder

theorem FdtCall.apply_emitted {b b' : FdtBuilder} {call : FdtCall} (hb : b.Placed)
    (hfree : NulFree call.name) (h : call.apply b = .ok b') :
    FdtBuilder.Emitted b b' call.event := by
  cases call with
  | beginNode name => exact FdtBuilder.beginNode_emitted hb hfree h
  | endNode =>
    cases h
    exact FdtBuilder.endNode_emitted hb
  | propEmpty name => exact FdtBuilder.propRaw_emitted hb hfree h
  | propU32 name val => exact FdtBuilder.propRaw_emitted hb hfree h
  | propU64 name val => exact FdtBuilder.propRaw_emitted hb hfree h
  | propCells name cells => exact FdtBuilder.propRaw_emitted hb hfree h
  | propStr name val =>
    obtain ⟨text, htext, hraw⟩ := bind_eq_ok h
    rw [(encodeAscii_eq_ok htext).left] at hraw
    exact FdtBuilder.propRaw_emitted hb hfree hraw
  | propStrlist name vals =>
    obtain ⟨value, hvalue, hraw⟩ := bind_eq_ok h
    rw [encodeStrlist_eq_ok hvalue] at hraw
    exact FdtBuilder.propRaw_emitted hb hfree hraw

theorem FdtBuilder.run_encodes {b b' : FdtBuilder} {calls : List FdtCall} {es : List Event}
    (hb : b.Placed) (hfree : forall call, call ∈ calls -> NulFree call.name)
    (hes : EncodesAll b.strings es b.struct) (h : b.run calls = .ok b') :
    EncodesAll b'.strings (es ++ calls.map FdtCall.event) b'.struct := by
  induction calls generalizing b es with
  | nil =>
    cases h
    simpa using hes
  | cons call calls ih =>
    obtain ⟨b1, hcall, hrest⟩ := bind_eq_ok h
    obtain ⟨hgrow, hplaced, bs, hstruct, hencodes⟩ :=
      call.apply_emitted hb (hfree call (List.mem_cons_self ..)) hcall
    have hes1 : EncodesAll b1.strings (es ++ [call.event]) b1.struct := by
      rw [hstruct]
      exact (hes.grow hgrow).snoc hencodes
    have hall := ih hplaced (fun c hc => hfree c (List.mem_cons_of_mem _ hc)) hes1 hrest
    simpa using hall

/-!
# The reader of the format
-/

def headerWords (structLength stringsLength : Nat) : List Nat :=
  [fdtMagic, 56 + structLength + stringsLength, 56, 56 + structLength, 40, fdtVersion,
    fdtLastCompVersion, 0, stringsLength, structLength]

def layout (structBytes stringsBytes : ByteString) : ByteString :=
  packWords (headerWords structBytes.length stringsBytes.length) ++
    ((packBe 8 0 ++ packBe 8 0) ++ (structBytes ++ stringsBytes))

theorem FdtBuilder.build_eq_ok {b b' : FdtBuilder} {blob : ByteString}
    (h : b.build = .ok (blob, b')) :
    blob = layout (b.struct ++ packBe 4 fdtEnd) b.strings ∧
      56 + (b.struct ++ packBe 4 fdtEnd).length + b.strings.length < 2 ^ 32 := by
  obtain ⟨header, hheader, hresult⟩ := bind_eq_ok h
  cases hresult
  obtain ⟨rfl, hsmall⟩ := packU32s_eq_ok hheader
  refine ⟨?_, hsmall _ (List.mem_cons_of_mem _ (List.mem_cons_self ..))⟩
  rw [layout, List.append_assoc, List.append_assoc]
  rfl

section

variable {structBytes stringsBytes : ByteString}

theorem layout_length :
    (layout structBytes stringsBytes).length =
      56 + structBytes.length + stringsBytes.length := by
  simp only [layout, List.length_append, length_packWords, length_packBe]
  show 4 * 10 + (8 + 8 + (structBytes.length + stringsBytes.length)) = _
  omega

theorem block_layout_struct :
    block (layout structBytes stringsBytes) 56 structBytes.length = structBytes := by
  have hfront : (packWords (headerWords structBytes.length stringsBytes.length) ++
      (packBe 8 0 ++ packBe 8 0)).length = 56 := by
    simp only [List.length_append, length_packWords, length_packBe]
    rfl
  rw [block, layout, ← List.append_assoc, List.drop_left' hfront, List.take_left' rfl]

theorem block_layout_strings :
    block (layout structBytes stringsBytes) (56 + structBytes.length) stringsBytes.length =
      stringsBytes := by
  have hfront : (packWords (headerWords structBytes.length stringsBytes.length) ++
      (packBe 8 0 ++ packBe 8 0) ++ structBytes).length = 56 + structBytes.length := by
    simp only [List.length_append, length_packWords, length_packBe]
    rfl
  rw [block, layout, ← List.append_assoc, ← List.append_assoc, List.drop_left' hfront,
    List.take_length]

theorem headerWords_small (hsmall : 56 + structBytes.length + stringsBytes.length < 2 ^ 32)
    {v : Nat} (h : v ∈ headerWords structBytes.length stringsBytes.length) : v < 2 ^ 32 := by
  simp only [headerWords, List.mem_cons, List.not_mem_nil, or_false] at h
  rcases h with rfl | rfl | rfl | rfl | rfl | rfl | rfl | rfl | rfl | rfl <;>
    first
      | decide
      | omega

theorem headerWord_layout (hsmall : 56 + structBytes.length + stringsBytes.length < 2 ^ 32)
    {k v : Nat} (h : (headerWords structBytes.length stringsBytes.length)[k]? = some v) :
    headerWord (layout structBytes stringsBytes) k = v :=
  headerWord_packWords h (headerWords_small hsmall (List.mem_of_getElem? h)) _

end

theorem takeReservations_layout (fuel : Nat) (rest : ByteString) :
    takeReservations (fuel + 1) ((packBe 8 0 ++ packBe 8 0) ++ rest) = some [] := by
  have hfirst : unpackBe (((packBe 8 0 ++ packBe 8 0) ++ rest).take 8) = 0 := by
    rw [List.append_assoc, List.take_left' (length_packBe 8 0)]
    rfl
  have hsecond : unpackBe ((((packBe 8 0 ++ packBe 8 0) ++ rest).drop 8).take 8) = 0 := by
    rw [List.append_assoc, List.drop_left' (length_packBe 8 0),
      List.take_left' (length_packBe 8 0)]
    rfl
  have hlength : ¬ ((packBe 8 0 ++ packBe 8 0) ++ rest).length < 16 := by
    rw [List.length_append, List.length_append, length_packBe]
    omega
  rw [takeReservations, if_neg hlength, hfirst, hsecond]
  rfl

/--
The reader finds the forest whose events a structure block encodes.
-/
theorem parseBlob_layout {body structBytes stringsBytes : ByteString} {f : Forest}
    (hbody : structBytes = body ++ packBe 4 fdtEnd)
    (h : EncodesAll stringsBytes f.events body)
    (hsmall : 56 + structBytes.length + stringsBytes.length < 2 ^ 32) :
    parseBlob (layout structBytes stringsBytes) =
      some { reservations := [], bootCpu := 0, forest := f } := by
  have hword : forall {k v : Nat},
      (headerWords structBytes.length stringsBytes.length)[k]? = some v ->
        headerWord (layout structBytes stringsBytes) k = v :=
    fun hget => headerWord_layout hsmall hget
  have hlength : (layout structBytes stringsBytes).length =
      56 + structBytes.length + stringsBytes.length := layout_length
  have hreservations : takeReservations (layout structBytes stringsBytes).length
      ((layout structBytes stringsBytes).drop 40) = some [] := by
    have hfuel : (layout structBytes stringsBytes).length =
        (55 + structBytes.length + stringsBytes.length) + 1 := by omega
    have hheader : (packWords (headerWords structBytes.length stringsBytes.length)).length =
        40 := length_packWords _
    rw [hfuel, layout, List.drop_left' hheader]
    exact takeReservations_layout _ _
  have hparse : parseForest stringsBytes ((layout structBytes stringsBytes).length + 1)
      structBytes = some (f, packBe 4 endToken ++ []) := by
    have hevents := h.length_le
    have hparts : structBytes.length = body.length + 4 := by
      rw [hbody, List.length_append, length_packBe]
    have hfuel : f.events.length < (layout structBytes stringsBytes).length + 1 := by omega
    rw [hbody] at hfuel ⊢
    exact parseForest_encoded f h (stops_end []) hfuel
  have hcloser : takeWord (packBe 4 endToken ++ []) = some (endToken, []) :=
    takeWord_packBe (by decide) []
  have hheader : 40 <= (layout structBytes stringsBytes).length ∧ fdtMagic = magic ∧
      56 + structBytes.length + stringsBytes.length <=
        (layout structBytes stringsBytes).length ∧ fdtLastCompVersion <= 17 :=
    ⟨by omega, rfl, Nat.le_of_eq hlength.symm, by decide⟩
  rw [parseBlob]
  dsimp only
  rw [hword (k := 0) rfl, hword (k := 1) rfl, hword (k := 2) rfl, hword (k := 3) rfl,
    hword (k := 4) rfl, hword (k := 6) rfl, hword (k := 7) rfl, hword (k := 8) rfl,
    hword (k := 9) rfl, block_layout_struct, block_layout_strings, if_pos hheader,
    hreservations, Option.bind_some, hparse, Option.bind_some]
  dsimp only
  rw [hcloser, Option.bind_some]
  rfl

/-!
# The validator

The validator meets the same tokens.  It leaves a forest with the depth it came with, the
deepest level it has seen and the count of the properties.
-/

section

variable {structBytes stringsBytes chunk rest : ByteString} {s : Walk}

theorem slice_of_drop {i n : Nat} (h : structBytes.drop i = chunk ++ rest)
    (hn : chunk.length = n) : slice structBytes i (i + n) = chunk := by
  rw [slice, h, Nat.add_sub_cancel_left, List.take_left' hn]

theorem drop_of_drop {i : Nat} (h : structBytes.drop i = chunk ++ rest) :
    structBytes.drop (i + chunk.length) = rest := by
  rw [← List.drop_drop, h, List.drop_left' rfl]

theorem lt_of_drop {i n : Nat} (h : structBytes.drop i = chunk ++ rest)
    (hn : chunk.length = n) (hpos : 0 < n) : i < structBytes.length := by
  have hlength := congrArg List.length h
  rw [List.length_drop, List.length_append] at hlength
  omega

theorem unpackWords_packWords {ws : List Nat} (hws : forall v, v ∈ ws -> v < 2 ^ 32) :
    exists words, unpackWords 4 ws.length (packWords ws) = .ok words ∧
      forall k v, ws[k]? = some v -> words k = v := by
  refine ⟨fun k => unpackBe (slice (packWords ws) (4 * k) (4 * k + 4)),
    if_pos (length_packWords ws), ?_⟩
  intro k v hget
  have hslice : slice (packWords ws) (4 * k) (4 * k + 4) = packBe 4 v := by
    rw [slice, Nat.add_sub_cancel_left, ← block_packWords hget [], List.append_nil, block]
  have hv := hws v (List.mem_of_getElem? hget)
  show unpackBe (slice (packWords ws) (4 * k) (4 * k + 4)) = v
  rw [hslice, unpackBe_packBe (by simpa using hv)]

theorem packWords_singleton (v : Nat) : packWords [v] = packBe 4 v :=
  List.append_nil _

theorem packWords_pair (v v' : Nat) : packWords [v, v'] = packBe 4 v ++ packBe 4 v' := by
  rw [packWords, List.flatMap_cons, ← packWords, packWords_singleton]

/--
The word at the index is the token.
-/
theorem token_of_drop {tok : Nat} (h : structBytes.drop s.i = packBe 4 tok ++ rest)
    (htok : tok < 2 ^ 32) :
    exists words, unpackWords 4 1 (slice structBytes s.i (s.i + 4)) = .ok words ∧
      words 0 = tok := by
  obtain ⟨words, hwords, hget⟩ := unpackWords_packWords
    (show forall v, v ∈ [tok] -> v < 2 ^ 32 by simpa using htok)
  refine ⟨words, ?_, hget 0 tok rfl⟩
  rw [slice_of_drop h (length_packBe 4 tok), ← packWords_singleton]
  exact hwords

theorem walk_token {s' : Walk} (hlt : s.i < structBytes.length)
    (htoken : s.token structBytes stringsBytes = .ok (some s')) :
    walk structBytes stringsBytes s = walk structBytes stringsBytes s' := by
  rw [walk, if_pos hlt]
  split
  · next e herror => rw [htoken] at herror; cases herror
  · next hnone => rw [htoken] at hnone; cases hnone
  · next s'' hsome =>
    rw [htoken] at hsome
    cases hsome
    rfl

theorem walk_end (h : structBytes.drop s.i = packBe 4 fdtEnd ++ rest) :
    walk structBytes stringsBytes s = .ok (s, true) := by
  obtain ⟨words, hwords, htok⟩ := token_of_drop h (by decide)
  have htoken : s.token structBytes stringsBytes = .ok none := by
    rw [Walk.token, hwords]
    show (if words 0 = fdtBeginNode then _ else _) = _
    rw [htok]
    rfl
  rw [walk, if_pos (lt_of_drop h (length_packBe 4 fdtEnd) (by decide))]
  split
  · next e herror => rw [htoken] at herror; cases herror
  · rfl
  · next s'' hsome => rw [htoken] at hsome; cases hsome

theorem token_beginNode (stringsBytes : ByteString) {name : ByteString} (hname : 0 ∉ name)
    (h : structBytes.drop s.i =
      (packBe 4 fdtBeginNode ++ align 4 (cString name)) ++ rest) :
    s.token structBytes stringsBytes = .ok (some
      { s with
        depth := s.depth + 1
        maxDepth := max s.maxDepth (s.depth + 1)
        i := s.i + (packBe 4 fdtBeginNode ++ align 4 (cString name)).length }) := by
  rw [List.append_assoc] at h
  obtain ⟨words, hwords, htok⟩ := token_of_drop h (by decide)
  have hfound : (structBytes.drop (s.i + 4)).findIdx? (· == 0) = some name.length := by
    have hdrop := drop_of_drop h
    rw [length_packBe] at hdrop
    rw [hdrop, align, List.append_assoc, findIdx?_cString hname]
  have hlength : (packBe 4 fdtBeginNode ++ align 4 (cString name)).length =
      4 + alignUp 4 (name.length + 1) := by
    rw [List.length_append, length_packBe, length_align (by decide), length_cString]
  rw [Walk.token, hwords]
  show (if words 0 = fdtBeginNode then _ else _) = _
  rw [if_pos htok, Walk.beginNode, hfound, hlength, ← Nat.add_assoc]
  rfl

theorem token_endNode (stringsBytes : ByteString) (hdepth : 0 < s.depth)
    (h : structBytes.drop s.i = packBe 4 fdtEndNode ++ rest) :
    s.token structBytes stringsBytes = .ok (some
      { s with depth := s.depth - 1, i := s.i + (packBe 4 fdtEndNode).length }) := by
  obtain ⟨words, hwords, htok⟩ := token_of_drop h (by decide)
  have hleave : Walk.endNode { s with i := s.i + 4 } =
      .ok { s with depth := s.depth - 1, i := s.i + 4 } := by
    rw [Walk.endNode, assertThat, if_pos (decide_eq_true hdepth)]
    rfl
  rw [Walk.token, hwords]
  show (if words 0 = fdtBeginNode then _ else if words 0 = fdtEndNode then _ else _) = _
  rw [htok, if_neg (by decide), if_pos rfl, hleave]
  rfl

theorem token_prop {name value : ByteString} {off : Nat} (hvalue : value.length < 2 ^ 32)
    (hoff : off < 2 ^ 32) (hplace : cString name <+: stringsBytes.drop off)
    (h : structBytes.drop s.i = (packBe 4 fdtProp ++
      (packBe 4 value.length ++ (packBe 4 off ++ align 4 value))) ++ rest) :
    s.token structBytes stringsBytes = .ok (some
      { s with
        propCount := s.propCount + 1
        i := s.i + (packBe 4 fdtProp ++
          (packBe 4 value.length ++ (packBe 4 off ++ align 4 value))).length }) := by
  have hlength : (packBe 4 fdtProp ++
      (packBe 4 value.length ++ (packBe 4 off ++ align 4 value))).length =
        4 + (8 + alignUp 4 value.length) := by
    rw [List.length_append, List.length_append, List.length_append, length_packBe,
      length_packBe, length_packBe, length_align (by decide)]
    omega
  have hinside : off < stringsBytes.length := by
    have hle := hplace.length_le
    rw [length_cString, List.length_drop] at hle
    omega
  rw [List.append_assoc] at h
  obtain ⟨words, hwords, htok⟩ := token_of_drop h (by decide)
  have hdrop := drop_of_drop h
  rw [length_packBe, ← List.append_assoc, ← packWords_pair, List.append_assoc] at hdrop
  obtain ⟨pair, hpair, hget⟩ := unpackWords_packWords
    (List.forall_mem_cons.mpr ⟨hvalue, List.forall_mem_singleton.mpr hoff⟩)
  have hwordPair : unpackWords 4 2 (slice structBytes (s.i + 4) (s.i + 4 + 8)) =
      .ok pair := by
    have hlength : (packWords [value.length, off]).length = 8 := length_packWords _
    rw [slice_of_drop hdrop hlength]
    exact hpair
  have hproperty : Walk.prop structBytes stringsBytes { s with i := s.i + 4 } =
      .ok
        { s with
          propCount := s.propCount + 1
          i := s.i + (4 + (8 + alignUp 4 value.length)) } := by
    have hassert : assertThat (decide (pair 1 < stringsBytes.length))
        ("prop nameoff " ++ toString (pair 1) ++ " outside strings block") = .ok () := by
      rw [hget 1 off rfl, assertThat, if_pos (decide_eq_true hinside)]
    rw [Walk.prop, hwordPair]
    show (assertThat (decide (pair 1 < stringsBytes.length)) _ >>= fun _ => _) = _
    rw [hassert, hget 0 value.length rfl, ← Nat.add_assoc, ← Nat.add_assoc]
    rfl
  rw [Walk.token, hwords]
  show (if words 0 = fdtBeginNode then _ else if words 0 = fdtEndNode then _
    else if words 0 = fdtProp then _ else _) = _
  rw [htok, if_neg (by decide), if_neg (by decide), if_pos rfl, hproperty, hlength]
  rfl

end

/--
The state after a forest.
-/
def Walk.after (s : Walk) (f : Forest) (length : Nat) : Walk :=
  { depth := s.depth
    maxDepth := max s.maxDepth (s.depth + f.depth)
    propCount := s.propCount + f.propCount
    i := s.i + length }

theorem walk_forest {structBytes stringsBytes : ByteString} (f : Forest)
    {chunk rest : ByteString} {s : Walk} (hchunk : EncodesAll stringsBytes f.events chunk)
    (h : structBytes.drop s.i = chunk ++ rest) (hdepth : s.depth <= s.maxDepth) :
    walk structBytes stringsBytes s =
      walk structBytes stringsBytes (s.after f chunk.length) := by
  induction f generalizing chunk rest s with
  | nil =>
    cases hchunk
    have hsame : s.after .nil 0 = s := by
      simp [Walk.after, Forest.depth, Forest.propCount, Nat.max_eq_left hdepth]
    exact congrArg (walk structBytes stringsBytes) hsame.symm
  | prop name value siblings ih =>
    cases hchunk with
    | @cons _ _ bs more head tail =>
      rw [List.append_assoc] at h
      have hlt := lt_of_drop h rfl (Nat.lt_of_lt_of_le (by decide) head.length_le)
      have hdrop := drop_of_drop h
      cases head with
      | prop hname hvalue hoff hplace =>
        have htoken := walk_token hlt (token_prop hvalue hoff hplace h)
        refine htoken.trans ((ih tail hdrop ?_).trans (congrArg _ ?_))
        · exact hdepth
        simp only [Walk.after, Forest.depth, Forest.propCount, List.length_append,
          length_packBe, Walk.mk.injEq, true_and]
        omega
  | node name children siblings ihchildren ih =>
    cases hchunk with
    | @cons _ _ bs more head tail =>
      rw [List.append_assoc] at h
      have hlt := lt_of_drop h rfl (Nat.lt_of_lt_of_le (by decide) head.length_le)
      have hdrop := drop_of_drop h
      obtain ⟨xs, ys, rfl, hxs, hys⟩ := tail.split
      cases head with
      | beginNode hname =>
        have hbegin := walk_token hlt (token_beginNode stringsBytes hname h)
        rw [List.append_assoc] at hdrop
        have hcloses := drop_of_drop hdrop
        cases hys with
        | @cons _ _ cs after closer hys =>
          rw [List.append_assoc] at hcloses
          have hltCloser := lt_of_drop hcloses rfl
            (Nat.lt_of_lt_of_le (by decide) closer.length_le)
          have hafter := drop_of_drop hcloses
          cases closer with
          | endNode =>
            refine hbegin.trans ((ihchildren hxs hdrop ?_).trans
              ((walk_token hltCloser (token_endNode stringsBytes ?_ hcloses)).trans
                ((ih hys hafter ?_).trans (congrArg _ ?_))))
            · exact Nat.le_max_right _ _
            · exact Nat.succ_pos _
            · simp only [Walk.after]
              omega
            · simp only [Walk.after, Forest.depth, Forest.propCount, List.length_append,
                length_packBe, Walk.mk.injEq]
              omega

/-!
# The whole blob
-/

theorem walk_layout {body structBytes stringsBytes : ByteString} {f : Forest}
    (hbody : structBytes = body ++ packBe 4 fdtEnd)
    (h : EncodesAll stringsBytes f.events body) :
    walk structBytes stringsBytes { depth := 0, maxDepth := 0, propCount := 0, i := 0 } =
      .ok ({ depth := 0, maxDepth := f.depth, propCount := f.propCount, i := body.length },
        true) := by
  have hstart : structBytes.drop 0 = body ++ (packBe 4 fdtEnd ++ []) := by
    rw [hbody, List.drop_zero, List.append_nil]
  have hend := drop_of_drop hstart
  rw [walk_forest (s := ⟨0, 0, 0, 0⟩) f h hstart (Nat.le_refl 0)]
  simp only [Walk.after, Nat.zero_max, Nat.zero_add] at hend ⊢
  exact walk_end hend

theorem unpackWords_layout {structBytes stringsBytes : ByteString}
    (hsmall : 56 + structBytes.length + stringsBytes.length < 2 ^ 32) :
    exists words, unpackWords 4 10 (slice (layout structBytes stringsBytes) 0 40) =
        .ok words ∧
      forall k v, (headerWords structBytes.length stringsBytes.length)[k]? = some v ->
        words k = v := by
  obtain ⟨words, hwords, hget⟩ := @unpackWords_packWords
    (headerWords structBytes.length stringsBytes.length)
    (fun v hv => headerWords_small hsmall hv)
  refine ⟨words, ?_, hget⟩
  have hlength : (packWords (headerWords structBytes.length stringsBytes.length)).length =
      40 := length_packWords _
  rw [slice, layout, List.drop_zero, List.take_left' hlength]
  exact hwords

theorem rsvmap_layout {structBytes stringsBytes : ByteString} :
    exists words, unpackWords 8 2 (slice (layout structBytes stringsBytes) 40 (40 + 16)) =
        .ok words ∧ (words 0 = 0 && words 1 = 0) = true := by
  have hheader : (packWords (headerWords structBytes.length stringsBytes.length)).length =
      40 := length_packWords _
  have hslice : slice (layout structBytes stringsBytes) 40 (40 + 16) =
      packBe 8 0 ++ packBe 8 0 := by
    have hrsvmap : (packBe 8 0 ++ packBe 8 0).length = 40 + 16 - 40 := rfl
    rw [slice, layout, List.drop_left' hheader, List.take_left' hrsvmap]
  have hfirst : slice (packBe 8 0 ++ packBe 8 0) (8 * 0) (8 * 0 + 8) = packBe 8 0 := rfl
  have hsecond : slice (packBe 8 0 ++ packBe 8 0) (8 * 1) (8 * 1 + 8) = packBe 8 0 := rfl
  have hzero : unpackBe (packBe 8 0) = 0 := unpackBe_packBe (by decide)
  rw [hslice]
  refine ⟨_, if_pos rfl, ?_⟩
  show (decide (unpackBe (slice (packBe 8 0 ++ packBe 8 0) (8 * 0) (8 * 0 + 8)) = 0) &&
    decide (unpackBe (slice (packBe 8 0 ++ packBe 8 0) (8 * 1) (8 * 1 + 8)) = 0)) = true
  rw [hfirst, hsecond, hzero]
  rfl

theorem ok_bind {alpha beta : Type} (a : alpha) (next : alpha -> Except FdtError beta) :
    (Except.ok a >>= next) = next a := rfl

theorem assert_bind {alpha : Type} {condition : Bool} {message : String}
    {next : Unit -> Except FdtError alpha} (h : condition = true) :
    (assertThat condition message >>= next) = next () := by
  rw [assertThat, if_pos h]
  rfl

theorem assert_holds {alpha : Type} {message : String}
    {next : Unit -> Except FdtError alpha} :
    (assertThat (decide True) message >>= next) = next () := rfl

theorem assert_bind_false {alpha : Type} {condition : Bool} {message : String}
    {next : Unit -> Except FdtError alpha} (h : condition = false) :
    (assertThat condition message >>= next) = .error (.assertionError message) := by
  rw [assertThat, h]
  rfl

/--
What the validator says of a forest in a blob of the given size.
-/
def verdict (f : Forest) (totalsize : Nat) : Except FdtError FdtInfo :=
  if f.depth < 2 then
    .error (.assertionError ("suspiciously shallow tree (max_depth=" ++ toString f.depth ++
      ") -- did node emission actually run?"))
  else if f.propCount = 0 then .error (.assertionError "zero properties emitted")
  else .ok { maxDepth := f.depth, propCount := f.propCount, totalsize }

theorem parseAndValidate_layout {body structBytes stringsBytes : ByteString} {f : Forest}
    (hbody : structBytes = body ++ packBe 4 fdtEnd)
    (h : EncodesAll stringsBytes f.events body)
    (hsmall : 56 + structBytes.length + stringsBytes.length < 2 ^ 32) :
    parseAndValidate (layout structBytes stringsBytes) =
      verdict f (layout structBytes stringsBytes).length := by
  obtain ⟨words, hwords, hget⟩ := unpackWords_layout hsmall
  obtain ⟨rsvmap, hrsvmap, hzero⟩ := @rsvmap_layout structBytes stringsBytes
  have hstruct : slice (layout structBytes stringsBytes) 56 (56 + structBytes.length) =
      structBytes := by
    rw [slice, Nat.add_sub_cancel_left]
    exact block_layout_struct
  have hstrings : slice (layout structBytes stringsBytes) (56 + structBytes.length)
      (56 + structBytes.length + stringsBytes.length) = stringsBytes := by
    rw [slice, Nat.add_sub_cancel_left]
    exact block_layout_strings
  rw [parseAndValidate, hwords, ok_bind]
  simp only [hget 0 _ rfl, hget 1 _ rfl, hget 2 _ rfl, hget 3 _ rfl, hget 4 _ rfl,
    hget 8 _ rfl, hget 9 _ rfl, layout_length]
  rw [assert_holds, assert_holds, assert_holds, assert_holds, assert_holds, assert_holds,
    hrsvmap, ok_bind, assert_bind hzero, hstruct, hstrings, walk_layout hbody h, ok_bind]
  dsimp only
  rw [assert_bind (decide_eq_true (Eq.refl 0)), assert_bind rfl, verdict]
  by_cases hdepth : f.depth < 2
  · rw [if_pos hdepth, assert_bind_false (decide_eq_false (Nat.not_le_of_lt hdepth))]
  · rw [if_neg hdepth, assert_bind (decide_eq_true (Nat.le_of_not_lt hdepth))]
    by_cases hcount : f.propCount = 0
    · rw [if_pos hcount, assert_bind_false (by simp [hcount])]
    · rw [if_neg hcount, assert_bind (decide_eq_true (Nat.pos_of_ne_zero hcount))]
      rfl

/-!
# Round trip
-/

theorem assemble_reads {calls : List FdtCall} {blob : ByteString}
    (hnested : Nested 0 (calls.map FdtCall.event))
    (hfree : forall call, call ∈ calls -> NulFree call.name)
    (h : assemble calls = .ok blob) :
    parseBlob blob = some
        { reservations := [], bootCpu := 0, forest := forestOf (calls.map FdtCall.event) } ∧
      parseAndValidate blob = verdict (forestOf (calls.map FdtCall.event)) blob.length := by
  have hf := events_forestOf hnested
  obtain ⟨b, hrun, hnext⟩ := bind_eq_ok h
  obtain ⟨⟨blob', b'⟩, hbuild, hblob⟩ := bind_eq_ok hnext
  cases hblob
  obtain ⟨rfl, hsmall⟩ := FdtBuilder.build_eq_ok hbuild
  have hencodes := FdtBuilder.run_encodes FdtBuilder.placed_init hfree .nil hrun
  rw [List.nil_append, ← hf] at hencodes
  exact ⟨parseBlob_layout rfl hencodes hsmall, parseAndValidate_layout rfl hencodes hsmall⟩

/--
The blob of a nested sequence of calls is read as the one tree that the calls describe, and
the validator accepts it if the tree is two levels deep and has a property.
-/
theorem assemble_round_trip {calls : List FdtCall} {blob : ByteString}
    (hnested : Nested 0 (calls.map FdtCall.event))
    (hfree : forall call, call ∈ calls -> NulFree call.name)
    (h : assemble calls = .ok blob) :
    exists f : Forest, f.events = calls.map FdtCall.event ∧
      (forall g : Forest, g.events = calls.map FdtCall.event -> g = f) ∧
      parseBlob blob = some { reservations := [], bootCpu := 0, forest := f } ∧
        parseAndValidate blob = verdict f blob.length := by
  have hevents := events_forestOf hnested
  refine ⟨_, hevents, ?_, assemble_reads hnested hfree h⟩
  intro g hg
  exact events_injective (hg.trans hevents.symm)

def twoNodes : List FdtCall :=
  [.beginNode "", .propU32 "#size-cells" 2, .beginNode "memory@0", .propStr "status" "okay",
    .endNode, .endNode]

theorem assemble_round_trip_twoNodes : exists blob, assemble twoNodes = .ok blob ∧
    exists f : Forest, f.events = twoNodes.map FdtCall.event ∧
      (forall g : Forest, g.events = twoNodes.map FdtCall.event -> g = f) ∧
      parseBlob blob = some { reservations := [], bootCpu := 0, forest := f } ∧
        parseAndValidate blob = verdict f blob.length := by
  have hok : (assemble twoNodes).isOk = true := by decide +kernel
  cases hblob : assemble twoNodes with
  | error e =>
      rw [hblob] at hok
      cases hok
  | ok blob => exact ⟨blob, rfl, assemble_round_trip (by decide) (by decide) hblob⟩

end Sim
end RvCores
