import ObjectBridge.Bridge.Exception

set_option autoImplicit false

/-!
# Vectors (SPEC §11.3)

A vector holds one claim on each element that is not null.  Putting an element in consumes a claim
on it; taking one out answers a new claim.

Left out: spare capacity.  Whether there is memory for a vector of some size is a matter of the
machine.
-/

namespace ObjectBridge.VectorObj

/-- Largest element count whose storage has an address. -/
def maxSize : Nat := (Nat.pow 2 63 - 1) / 8

/-- The elements, borrowed. -/
def slots (vec : ObjId) : Run (List (Option ObjId)) := certify vec .vector Payload.vector?

/-- Give back the claim on an element that was not put in, and raise. -/
def overflow {α : Type} (elem : Option ObjId) : Run α := do
  releaseAll elem.toList
  raise "Vector index overflow"

/-- An empty vector with room for `capacity` elements. -/
def new (capacity : Nat) : Run ObjId := do
  if maxSize < capacity then overflow none else makeObj .vector (.vector [])

/-- Append an element.  On an object that is no vector the claim is lost. -/
def push (vec : ObjId) (elem : Option ObjId) : Run Unit := do
  setPayload vec (.vector ((← losing elem.toList (slots vec)) ++ [elem]))

/-- A list with its element at `tick` replaced, padded with nulls if it ends before. -/
def storeAt (elems : List (Option ObjId)) (tick : Nat) (elem : Option ObjId) :
    List (Option ObjId) :=
  (elems ++ List.replicate (tick + 1 - elems.length) none).set tick elem

/-- Put an element at `tick`, padding with nulls, and give back the claim on the one it replaces.
If the vector cannot grow so far the claim on the element is given back and the vector stays as it
is; on an object that is no vector the claim is lost. -/
def store (vec : ObjId) (tick : Nat) (elem : Option ObjId) : Run Unit := do
  if maxSize < tick + 1 then overflow elem
  else
    let elems ← losing elem.toList (slots vec)
    let b ← get
    if elems.length < tick + 1 ∧ !b.allocates (tick + 1) then overflow elem
    else
      setPayload vec (.vector (storeAt elems tick elem))
      releaseAll (elems[tick]?).join.toList

/-- A claim on the element at `tick`; none for nulls and beyond the end. -/
def fetch (vec : ObjId) (tick : Nat) : Run (Option ObjId) := do
  let elem := ((← slots vec)[tick]?).join
  elem.toList.forM retain
  return elem

/-- Number of elements, nulls included. -/
def size (vec : ObjId) : Run Nat := do return (← slots vec).length

/-- Every element in order, with a new claim on each that is not null. -/
def elements (vec : ObjId) : Run (List (Option ObjId)) := do
  let elems ← slots vec
  (elems.filterMap id).forM retain
  return elems

end ObjectBridge.VectorObj
