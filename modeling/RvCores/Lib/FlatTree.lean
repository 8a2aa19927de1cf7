import RvCores.Lib.BigEndian

/-!
# Flattened trees

A tree of named nodes and properties is written as a string of 32-bit tokens.  Names and
values are padded to whole words, and the name of a property stands in a block of strings,
in which the token holds its place.
-/

namespace RvCores
namespace Lib
namespace FlatTree

def magic : Nat := 0xd00dfeed
def beginNodeToken : Nat := 1
def endNodeToken : Nat := 2
def propToken : Nat := 3
def nopToken : Nat := 4
def endToken : Nat := 9

/-!
# Trees and what is said of them in order
-/

inductive Event where
  | beginNode (name : ByteString)
  | endNode
  | prop (name value : ByteString)
deriving DecidableEq, Repr

/--
The properties and nodes in one place of the tree, in order.
-/
inductive Forest where
  | nil
  | prop (name value : ByteString) (rest : Forest)
  | node (name : ByteString) (children rest : Forest)
deriving DecidableEq, Repr

namespace Forest

def events : Forest -> List Event
  | nil => []
  | prop name value rest => .prop name value :: rest.events
  | node name children rest =>
      .beginNode name :: (children.events ++ .endNode :: rest.events)

def depth : Forest -> Nat
  | nil => 0
  | prop _ _ rest => rest.depth
  | node _ children rest => max (children.depth + 1) rest.depth

def propCount : Forest -> Nat
  | nil => 0
  | prop _ _ rest => rest.propCount + 1
  | node _ children rest => children.propCount + rest.propCount

/--
The value of a property in this place.
-/
def valueOf (name : ByteString) : Forest -> Option ByteString
  | nil => none
  | prop name' value rest => if name' = name then some value else rest.valueOf name
  | node _ _ rest => rest.valueOf name

def child (name : ByteString) : Forest -> Option Forest
  | nil => none
  | prop _ _ rest => rest.child name
  | node name' children rest => if name' = name then some children else rest.child name

def descend : List ByteString -> Forest -> Option Forest
  | [], f => some f
  | name :: path, f => (f.child name).bind (descend path)

end Forest

/--
With this many nodes open, every end closes a node and in the end all are closed.
-/
def Nested : Nat -> List Event -> Prop
  | opened, [] => opened = 0
  | opened, .beginNode _ :: es => Nested (opened + 1) es
  | 0, .endNode :: _ => False
  | opened + 1, .endNode :: es => Nested opened es
  | opened, .prop _ _ :: es => Nested opened es

instance decidableNested : (opened : Nat) -> (es : List Event) -> Decidable (Nested opened es)
  | opened, [] => inferInstanceAs (Decidable (opened = 0))
  | opened, .beginNode _ :: es => decidableNested (opened + 1) es
  | 0, .endNode :: _ => inferInstanceAs (Decidable False)
  | opened + 1, .endNode :: es => decidableNested opened es
  | opened, .prop _ _ :: es => decidableNested opened es

/--
The forests of the open nodes, from the innermost one outwards.
-/
def closing : Forest -> List Forest -> List Event
  | f, [] => f.events
  | f, g :: gs => f.events ++ .endNode :: closing g gs

/--
The forests that the events leave, the innermost one first.
-/
def gather : List Event -> Forest × List Forest
  | [] => (.nil, [])
  | .beginNode name :: es =>
      match gather es with
      | (f, []) => (.node name f .nil, [])
      | (f, g :: gs) => (.node name f g, gs)
  | .endNode :: es =>
      match gather es with
      | (f, gs) => (.nil, f :: gs)
  | .prop name value :: es =>
      match gather es with
      | (f, gs) => (.prop name value f, gs)

def forestOf (es : List Event) : Forest := (gather es).1

theorem gather_closing {opened : Nat} {es : List Event} (h : Nested opened es) :
    (gather es).2.length = opened ∧ es = closing (gather es).1 (gather es).2 := by
  induction es generalizing opened with
  | nil =>
    cases h
    exact ⟨rfl, rfl⟩
  | cons e es ih =>
    cases e with
    | beginNode name =>
      obtain ⟨hlength, hes⟩ := ih h
      rw [gather]
      cases hgather : gather es with
      | mk f gs =>
        rw [hgather] at hlength hes
        cases gs with
        | nil => cases hlength
        | cons g gs =>
          refine ⟨Nat.succ.inj hlength, ?_⟩
          rw [hes]
          cases gs with
          | nil => simp [closing, Forest.events]
          | cons g' gs => simp [closing, Forest.events]
    | endNode =>
      cases opened with
      | zero => exact h.elim
      | succ opened =>
        obtain ⟨hlength, hes⟩ := ih h
        exact ⟨congrArg Nat.succ hlength, congrArg (Event.endNode :: ·) hes⟩
    | prop name value =>
      obtain ⟨hlength, hes⟩ := ih h
      refine ⟨hlength, (congrArg (Event.prop name value :: ·) hes).trans ?_⟩
      show _ = closing (.prop name value (gather es).1) (gather es).2
      cases (gather es).2 <;> rfl

/--
The events of a nested sequence are those of a tree.
-/
theorem events_forestOf {es : List Event} (h : Nested 0 es) : (forestOf es).events = es := by
  obtain ⟨hlength, hes⟩ := gather_closing h
  rw [List.length_eq_zero_iff] at hlength
  rw [hlength] at hes
  exact hes.symm

/--
What follows a forest inside the events of a tree: nothing, or the end of a node.
-/
def Closed : List Event -> Prop
  | [] => True
  | .endNode :: _ => True
  | _ => False

theorem events_append_inj {f g : Forest} {es es' : List Event} (hes : Closed es)
    (hes' : Closed es') (h : f.events ++ es = g.events ++ es') : f = g ∧ es = es' := by
  induction f generalizing g es es' with
  | nil =>
    cases g with
    | nil => exact ⟨rfl, h⟩
    | prop name value rest =>
      rw [show es = _ from h] at hes
      exact hes.elim
    | node name children rest =>
      rw [show es = _ from h] at hes
      exact hes.elim
  | prop name value rest ih =>
    cases g with
    | nil =>
      rw [show es' = _ from h.symm] at hes'
      exact hes'.elim
    | prop name' value' rest' =>
      simp only [Forest.events, List.cons_append, List.cons.injEq, Event.prop.injEq] at h
      obtain ⟨⟨rfl, rfl⟩, htail⟩ := h
      obtain ⟨rfl, rfl⟩ := ih hes hes' htail
      exact ⟨rfl, rfl⟩
    | node name' children' rest' => cases h
  | node name children rest ihchildren ih =>
    cases g with
    | nil =>
      rw [show es' = _ from h.symm] at hes'
      exact hes'.elim
    | prop name' value' rest' => cases h
    | node name' children' rest' =>
      simp only [Forest.events, List.cons_append, List.append_assoc, List.cons.injEq,
        Event.beginNode.injEq] at h
      obtain ⟨rfl, htail⟩ := h
      obtain ⟨rfl, hrest⟩ := ihchildren (show Closed (.endNode :: _) from trivial)
        (show Closed (.endNode :: _) from trivial) htail
      obtain ⟨rfl, rfl⟩ := ih hes hes' (List.cons.inj hrest).right
      exact ⟨rfl, rfl⟩

/--
A tree is known from its events.
-/
theorem events_injective {f g : Forest} (h : f.events = g.events) : f = g :=
  (events_append_inj (show Closed [] from trivial) (show Closed [] from trivial)
    (congrArg (· ++ []) h)).left

/-!
# The token string of a tree
-/

/--
A string of words stands for an event, beside a block of strings.
-/
inductive Encodes (strings : ByteString) : Event -> ByteString -> Prop
  | beginNode {name : ByteString} (hname : 0 ∉ name) :
      Encodes strings (.beginNode name)
        (packBe 4 beginNodeToken ++ align 4 (cString name))
  | endNode : Encodes strings .endNode (packBe 4 endNodeToken)
  | prop {name value : ByteString} {off : Nat} (hname : 0 ∉ name)
      (hvalue : value.length < 2 ^ 32) (hoff : off < 2 ^ 32)
      (hplace : cString name <+: strings.drop off) :
      Encodes strings (.prop name value)
        (packBe 4 propToken ++ (packBe 4 value.length ++ (packBe 4 off ++ align 4 value)))

inductive EncodesAll (strings : ByteString) : List Event -> ByteString -> Prop
  | nil : EncodesAll strings [] []
  | cons {e : Event} {es : List Event} {bs rest : ByteString} (head : Encodes strings e bs)
      (tail : EncodesAll strings es rest) : EncodesAll strings (e :: es) (bs ++ rest)

variable {strings strings' bs bs' : ByteString} {e : Event} {es es' : List Event}

theorem prefix_drop_grow {x : ByteString} {off : Nat} (h : x <+: strings.drop off)
    (hgrow : strings <+: strings') : x <+: strings'.drop off := by
  obtain ⟨more, rfl⟩ := hgrow
  rw [List.drop_append]
  exact h.trans (List.prefix_append _ _)

theorem Encodes.grow (h : Encodes strings e bs) (hgrow : strings <+: strings') :
    Encodes strings' e bs := by
  cases h with
  | beginNode hname => exact .beginNode hname
  | endNode => exact .endNode
  | prop hname hvalue hoff hplace =>
    exact .prop hname hvalue hoff (prefix_drop_grow hplace hgrow)

theorem EncodesAll.grow (h : EncodesAll strings es bs) (hgrow : strings <+: strings') :
    EncodesAll strings' es bs := by
  induction h with
  | nil => exact .nil
  | cons head tail ih => exact .cons (head.grow hgrow) ih

theorem EncodesAll.snoc (h : EncodesAll strings es bs) (he : Encodes strings e bs') :
    EncodesAll strings (es ++ [e]) (bs ++ bs') := by
  induction h with
  | nil =>
    rw [List.nil_append, List.nil_append, ← List.append_nil bs']
    exact .cons he .nil
  | cons head tail ih =>
    rw [List.cons_append, List.append_assoc]
    exact .cons head ih

theorem EncodesAll.split (h : EncodesAll strings (es ++ es') bs) :
    exists xs ys, bs = xs ++ ys ∧ EncodesAll strings es xs ∧ EncodesAll strings es' ys := by
  induction es generalizing bs with
  | nil => exact ⟨[], bs, rfl, .nil, h⟩
  | cons e es ih =>
    cases h with
    | cons head tail =>
      obtain ⟨xs, ys, rfl, hxs, hys⟩ := ih tail
      exact ⟨_ ++ xs, ys, (List.append_assoc _ _ _).symm, .cons head hxs, hys⟩

theorem Encodes.length_le (h : Encodes strings e bs) : 4 <= bs.length := by
  cases h with
  | beginNode hname => simp
  | endNode => simp
  | prop hname hvalue hoff hplace => simp

theorem EncodesAll.length_le (h : EncodesAll strings es bs) : 4 * es.length <= bs.length := by
  induction h with
  | nil => exact Nat.le_refl 0
  | cons head tail ih =>
    have hhead := head.length_le
    rw [List.length_cons, List.length_append]
    omega

end FlatTree
end Lib
end RvCores
