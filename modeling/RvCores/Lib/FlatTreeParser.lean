import RvCores.Lib.FlatTree

/-!
# Reading a flattened tree

The reader goes through the tokens of a structure block by recursive descent.  It is
written from the format alone; whatever encodes the events of a tree is read as that tree.
-/

namespace RvCores
namespace Lib
namespace FlatTree

/-!
# Words, values and names
-/

def takeWord (bs : ByteString) : Option (Nat × ByteString) :=
  if 4 <= bs.length then some (unpackBe (bs.take 4), bs.drop 4) else none

def takePadded (n : Nat) (bs : ByteString) : Option (ByteString × ByteString) :=
  if alignUp 4 n <= bs.length then some (bs.take n, bs.drop (alignUp 4 n)) else none

def takeName (bs : ByteString) : Option (ByteString × ByteString) :=
  (takeCString bs).map fun found => (found.1, bs.drop (alignUp 4 (found.1.length + 1)))

def lookupName (strings : ByteString) (off : Nat) : Option ByteString :=
  (takeCString (strings.drop off)).map fun found => found.1

def takeProp (strings bs : ByteString) : Option ((ByteString × ByteString) × ByteString) :=
  (takeWord bs).bind fun (length, bs) =>
    (takeWord bs).bind fun (off, bs) =>
      (lookupName strings off).bind fun name =>
        (takePadded length bs).map fun (value, bs) => ((name, value), bs)

theorem takeWord_packBe {v : Nat} (hv : v < 2 ^ 32) (rest : ByteString) :
    takeWord (packBe 4 v ++ rest) = some (v, rest) := by
  have hlength : 4 <= (packBe 4 v ++ rest).length := by simp
  rw [takeWord, if_pos hlength, List.take_left' (length_packBe 4 v),
    List.drop_left' (length_packBe 4 v), unpackBe_packBe (by simpa using hv)]

theorem drop_align (bs rest : ByteString) :
    (align 4 bs ++ rest).drop (alignUp 4 bs.length) = rest :=
  List.drop_left' (length_align (by decide) bs)

theorem takePadded_align (value rest : ByteString) :
    takePadded value.length (align 4 value ++ rest) = some (value, rest) := by
  have hlength : alignUp 4 value.length <= (align 4 value ++ rest).length := by
    rw [List.length_append, length_align (by decide)]
    exact Nat.le_add_right _ _
  rw [takePadded, if_pos hlength, drop_align, align, List.append_assoc, List.take_left' rfl]

theorem takeName_align {name : ByteString} (hname : 0 ∉ name) (rest : ByteString) :
    takeName (align 4 (cString name) ++ rest) = some (name, rest) := by
  have hfound : takeCString (align 4 (cString name) ++ rest) =
      some (name, List.replicate (padding 4 (cString name).length) 0 ++ rest) := by
    rw [align, List.append_assoc, takeCString_append hname]
  rw [takeName, hfound]
  show some (name, (align 4 (cString name) ++ rest).drop (alignUp 4 (name.length + 1))) = _
  rw [← length_cString, drop_align]

theorem lookupName_of_place {strings name : ByteString} {off : Nat} (hname : 0 ∉ name)
    (hplace : cString name <+: strings.drop off) : lookupName strings off = some name := by
  obtain ⟨more, hmore⟩ := hplace
  rw [lookupName, ← hmore, takeCString_append hname]
  rfl

theorem takeProp_encoded {strings name value : ByteString} {off : Nat} (hname : 0 ∉ name)
    (hvalue : value.length < 2 ^ 32) (hoff : off < 2 ^ 32)
    (hplace : cString name <+: strings.drop off) (rest : ByteString) :
    takeProp strings (packBe 4 value.length ++ (packBe 4 off ++ align 4 value) ++ rest) =
      some ((name, value), rest) := by
  have hlength := takeWord_packBe hvalue (packBe 4 off ++ (align 4 value ++ rest))
  have hword := takeWord_packBe hoff (align 4 value ++ rest)
  have hname' := lookupName_of_place hname hplace
  have hpadded := takePadded_align value rest
  rw [List.append_assoc, List.append_assoc, takeProp, hlength, Option.bind_some]
  dsimp only
  rw [hword, Option.bind_some]
  dsimp only
  rw [hname', Option.bind_some, hpadded, Option.map_some]

/-!
# Forests

A forest ends before the end of the node around it or before the end of the block.
-/

def parseForest (strings : ByteString) : Nat -> ByteString -> Option (Forest × ByteString)
  | 0, _ => none
  | fuel + 1, bs => do
    let (token, rest) <- takeWord bs
    if token = nopToken then parseForest strings fuel rest
    else if token = propToken then do
      let ((name, value), rest) <- takeProp strings rest
      let (siblings, rest) <- parseForest strings fuel rest
      return (.prop name value siblings, rest)
    else if token = beginNodeToken then do
      let (name, rest) <- takeName rest
      let (children, rest) <- parseForest strings fuel rest
      let (closer, rest) <- takeWord rest
      if closer = endNodeToken then do
        let (siblings, rest) <- parseForest strings fuel rest
        return (.node name children siblings, rest)
      else none
    else if token = endNodeToken ∨ token = endToken then return (.nil, bs)
    else none

def Stops (bs : ByteString) : Prop :=
  exists token rest, takeWord bs = some (token, rest) ∧
    (token = endNodeToken ∨ token = endToken)

section

variable {strings bs rest : ByteString} {fuel : Nat}

theorem parseForest_stop (h : Stops rest) :
    parseForest strings (fuel + 1) rest = some (.nil, rest) := by
  obtain ⟨token, tail, hword, htoken⟩ := h
  rw [parseForest, hword]
  rcases htoken with rfl | rfl <;> rfl

theorem parseForest_prop {name value tail : ByteString} {siblings : Forest}
    (hprop : takeProp strings bs = some ((name, value), tail))
    (hrest : parseForest strings fuel tail = some (siblings, rest)) :
    parseForest strings (fuel + 1) (packBe 4 propToken ++ bs) =
      some (.prop name value siblings, rest) := by
  have hword := takeWord_packBe (v := propToken) (by decide) bs
  have hnop : propToken ≠ nopToken := by decide
  simp only [parseForest, hword, hprop, hrest, Option.bind_eq_bind, Option.bind_some,
    Option.pure_def, if_neg hnop, if_pos]

theorem parseForest_node {name inner tail : ByteString} {children siblings : Forest}
    (hname : takeName bs = some (name, inner))
    (hchildren : parseForest strings fuel inner =
      some (children, packBe 4 endNodeToken ++ tail))
    (hrest : parseForest strings fuel tail = some (siblings, rest)) :
    parseForest strings (fuel + 1) (packBe 4 beginNodeToken ++ bs) =
      some (.node name children siblings, rest) := by
  have hword := takeWord_packBe (v := beginNodeToken) (by decide) bs
  have hcloser := takeWord_packBe (v := endNodeToken) (by decide) tail
  have hnop : beginNodeToken ≠ nopToken := by decide
  have hnoProp : beginNodeToken ≠ propToken := by decide
  simp only [parseForest, hword, hname, hchildren, hcloser, hrest, Option.bind_eq_bind,
    Option.bind_some, Option.pure_def, if_neg hnop, if_neg hnoProp, if_pos]

theorem stops_endNode (rest : ByteString) : Stops (packBe 4 endNodeToken ++ rest) :=
  ⟨endNodeToken, rest, takeWord_packBe (by decide) rest, .inl rfl⟩

theorem stops_end (rest : ByteString) : Stops (packBe 4 endToken ++ rest) :=
  ⟨endToken, rest, takeWord_packBe (by decide) rest, .inr rfl⟩

end

theorem parseForest_encoded {strings rest : ByteString} (f : Forest) {bs : ByteString}
    (h : EncodesAll strings f.events bs) (hstop : Stops rest) {fuel : Nat}
    (hfuel : f.events.length < fuel) :
    parseForest strings fuel (bs ++ rest) = some (f, rest) := by
  induction f generalizing bs rest fuel with
  | nil =>
    cases h
    cases fuel with
    | zero => exact absurd hfuel (Nat.not_lt_zero _)
    | succ fuel => exact parseForest_stop hstop
  | prop name value siblings ih =>
    cases fuel with
    | zero => exact absurd hfuel (Nat.not_lt_zero _)
    | succ fuel =>
      cases h with
      | cons head tail =>
        cases head with
        | prop hname hvalue hoff hplace =>
          have hrest := ih tail hstop (Nat.lt_of_succ_lt_succ hfuel)
          rw [List.append_assoc, List.append_assoc]
          exact parseForest_prop (takeProp_encoded hname hvalue hoff hplace _) hrest
  | node name children siblings ihchildren ih =>
    cases fuel with
    | zero => exact absurd hfuel (Nat.not_lt_zero _)
    | succ fuel =>
      have hlength : children.events.length + (siblings.events.length + 1) < fuel := by
        rw [Forest.events, List.length_cons, List.length_append, List.length_cons] at hfuel
        exact Nat.lt_of_succ_lt_succ hfuel
      cases h with
      | cons head tail =>
        cases head with
        | beginNode hname =>
          obtain ⟨xs, ys, rfl, hxs, hys⟩ := tail.split
          cases hys with
          | @cons _ _ _ after closer hys =>
            cases closer with
            | endNode =>
              have hrest := ih hys hstop (show siblings.events.length < fuel by omega)
              have hinner := ihchildren hxs (stops_endNode (after ++ rest))
                (show children.events.length < fuel by omega)
              rw [List.append_assoc, List.append_assoc, List.append_assoc, List.append_assoc]
              exact parseForest_node (takeName_align hname _) hinner hrest

/-!
# Whole blobs

Ten header words place the reservations, the structure block and the strings block.
-/

structure Blob where
  reservations : List (Nat × Nat)
  bootCpu : Nat
  forest : Forest
deriving DecidableEq, Repr

def block (blob : ByteString) (start length : Nat) : ByteString :=
  (blob.drop start).take length

def headerWord (blob : ByteString) (k : Nat) : Nat := unpackBe (block blob (4 * k) 4)

def takeReservations : Nat -> ByteString -> Option (List (Nat × Nat))
  | 0, _ => none
  | fuel + 1, bs =>
      let address := unpackBe (bs.take 8)
      let size := unpackBe ((bs.drop 8).take 8)
      if bs.length < 16 then none
      else if address = 0 ∧ size = 0 then some []
      else (takeReservations fuel (bs.drop 16)).map fun more => (address, size) :: more

def parseBlob (blob : ByteString) : Option Blob :=
  let word := headerWord blob
  if 40 <= blob.length ∧ word 0 = magic ∧ word 1 <= blob.length ∧ word 6 <= 17 then
    (takeReservations blob.length (blob.drop (word 4))).bind fun reservations =>
      (parseForest (block blob (word 3) (word 8)) (blob.length + 1)
          (block blob (word 2) (word 9))).bind fun (forest, rest) =>
        (takeWord rest).bind fun (closer, _) =>
          if closer = endToken then some { reservations, bootCpu := word 7, forest } else none
  else none

def packWords (ws : List Nat) : ByteString := ws.flatMap (packBe 4)

@[simp]
theorem length_packWords (ws : List Nat) : (packWords ws).length = 4 * ws.length := by
  induction ws with
  | nil => rfl
  | cons v ws ih =>
    rw [packWords, List.flatMap_cons, List.length_append, length_packBe, ← packWords, ih,
      List.length_cons]
    omega

theorem block_packWords {ws : List Nat} {k v : Nat} (h : ws[k]? = some v) (rest : ByteString) :
    block (packWords ws ++ rest) (4 * k) 4 = packBe 4 v := by
  induction ws generalizing k with
  | nil => cases h
  | cons w ws ih =>
    rw [packWords, List.flatMap_cons, ← packWords, List.append_assoc]
    cases k with
    | zero =>
      rw [List.getElem?_cons_zero, Option.some.injEq] at h
      rw [block, h, Nat.mul_zero, List.drop_zero, List.take_left' (length_packBe 4 v)]
    | succ k =>
      rw [List.getElem?_cons_succ] at h
      have hdrop : (packBe 4 w ++ (packWords ws ++ rest)).drop (4 * (k + 1)) =
          (packWords ws ++ rest).drop (4 * k) := by
        rw [Nat.mul_succ, Nat.add_comm, ← List.drop_drop, List.drop_left' (length_packBe 4 w)]
      rw [block, hdrop]
      exact ih h

theorem headerWord_packWords {ws : List Nat} {k v : Nat} (h : ws[k]? = some v)
    (hv : v < 2 ^ 32) (rest : ByteString) : headerWord (packWords ws ++ rest) k = v := by
  rw [headerWord, block_packWords h, unpackBe_packBe (by simpa using hv)]

end FlatTree
end Lib
end RvCores
