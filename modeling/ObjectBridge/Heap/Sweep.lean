import ObjectBridge.Heap.Basic

set_option autoImplicit false

/-!
# Giving back claims (SPEC §4.1, §11.1)

Giving back the last claim on an object destroys it, and a destroyed object gives back the claims
that it holds. `sweep` does this for a list of claims, depth first: the claims of a destroyed object
come before the rest of the list.  It ends because every step either shortens the list or takes an
object off the heap, whose claims then move from the heap to the list.

A claim that cannot be given back stops the sweep, and what was left of the list stays given out.
-/

namespace ObjectBridge

/-- Why a claim could not be given back. -/
inductive Stop where
  /-- the count of the object was zero -/
  | overdrawn (o : ObjId) (cls : Class)
  /-- there is no such object -/
  | dangling (o : ObjId)
  deriving DecidableEq, Repr

/-- What a sweep did: the heap after it, the destroyed objects in order, and what stopped it. -/
structure Sweep where
  heap : Heap
  destroyed : List (ObjId × Obj)
  stop : Option Stop
  deriving DecidableEq, Repr

namespace Heap

/-- What a slot counts for in `weight`: its object and the claims that this holds. -/
def slotWeight : Option Obj → Nat
  | none => 0
  | some x => 1 + x.payload.claims.length

/-- What a list of slots counts for. -/
def slotsWeight : List (Option Obj) → Nat
  | [] => 0
  | s :: rest => slotWeight s + slotsWeight rest

/-- Live objects and the claims that they hold. -/
def weight (h : Heap) : Nat := slotsWeight h.slots

/-- Replacing one slot moves the total weight by the difference of the two slots. -/
theorem slotsWeight_set (slots : List (Option Obj)) (i : Nat) (old new : Option Obj)
    (h : slots[i]? = some old) :
    slotsWeight (slots.set i new) + slotWeight old = slotsWeight slots + slotWeight new := by
  induction slots generalizing i with
  | nil => simp at h
  | cons s rest ih =>
    cases i with
    | zero =>
      simp only [List.getElem?_cons_zero, Option.some.injEq] at h
      subst h
      simp only [List.set_cons_zero, slotsWeight]
      omega
    | succ i =>
      simp only [List.getElem?_cons_succ] at h
      have := ih i h
      simp only [List.set_cons_succ, slotsWeight]
      omega

/-- A live object stands in its slot. -/
theorem slots_of_get? {h : Heap} {o : ObjId} {x : Obj} (hx : h.get? o = some x) :
    h.slots[o.index]? = some (some x) := by
  simpa [get?, Option.join_eq_some_iff] using hx

/-- Taking an object off the heap takes away its weight. -/
theorem weight_erase {h : Heap} {o : ObjId} {x : Obj} (hx : h.get? o = some x) :
    (h.erase o).weight + 1 + x.payload.claims.length = h.weight := by
  have := slotsWeight_set h.slots o.index (some x) none (slots_of_get? hx)
  simp only [slotWeight] at this
  simp only [weight, erase]
  omega

/-- An object with the same payload has the same weight. -/
theorem weight_set {h : Heap} {o : ObjId} {x y : Obj} (hx : h.get? o = some x)
    (hp : y.payload = x.payload) :
    (h.set o y).weight = h.weight := by
  have := slotsWeight_set h.slots o.index (some x) (some y) (slots_of_get? hx)
  simp only [slotWeight, hp] at this
  simp only [weight, set]
  omega

set_option linter.unusedVariables false in
/-- Give back the claims of a list in turn. -/
def sweep (h : Heap) (work : List ObjId) : Sweep :=
  match work with
  | [] => ⟨h, [], none⟩
  | o :: rest =>
    match hx : h.get? o with
    | none => ⟨h, [], some (.dangling o)⟩
    | some x =>
      if x.cls.isImmortal then h.sweep rest
      else if x.count = 0 then ⟨h, [], some (.overdrawn o x.cls)⟩
      else if x.count = 1 then
        let s := (h.erase o).sweep (x.payload.claims ++ rest)
        { s with destroyed := (o, x) :: s.destroyed }
      else (h.set o { x with count := x.count - 1 }).sweep rest
termination_by h.weight + work.length
decreasing_by
  · simp
  · have := weight_erase hx
    simp only [List.length_append, List.length_cons]
    omega
  · have := weight_set (y := { x with count := x.count - 1 }) hx rfl
    simp only [List.length_cons]
    omega

/-- The claims on `o` that remain after giving one back. -/
def remaining (h : Heap) (o : ObjId) : UInt32 :=
  match h.get? o with
  | some x => if x.cls.isImmortal then 1 else x.count - 1
  | none => 0

end Heap

end ObjectBridge
