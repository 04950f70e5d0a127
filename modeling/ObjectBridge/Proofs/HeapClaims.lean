import ObjectBridge.Heap.Sweep
import Mathlib.Algebra.Order.Group.Multiset
import Mathlib.Tactic.Abel

set_option autoImplicit false

/-!
# The heap as a map, and the claims inside it (SPEC §11.1)

What each operation on the heap does to `get?`, and to the multiset of the claims that live objects
hold on others. Later modules reason about heaps through these lemmas and do not look at the slots.
-/

namespace ObjectBridge.Heap

variable {h : Heap} {o p q : ObjId} {x y : Obj}

/-- There is an object under the identity. -/
def Live (h : Heap) (o : ObjId) : Prop := ∃ x, h.get? o = some x

theorem not_live_iff : ¬ h.Live o ↔ h.get? o = none := by
  unfold Live
  cases h.get? o <;> simp

/-- An identity is used once an object has been put under it, whether that object lives or not. -/
def Used (h : Heap) (o : ObjId) : Prop := o.index < h.slots.length

instance (h : Heap) (o : ObjId) : Decidable (h.Used o) := inferInstanceAs (Decidable (_ < _))

theorem used_of_get? (hx : h.get? o = some x) : h.Used o := by
  obtain ⟨hlt, -⟩ := List.getElem?_eq_some_iff.mp (slots_of_get? hx)
  exact hlt

theorem Live.used (hl : h.Live o) : h.Used o := by
  obtain ⟨x, hx⟩ := hl
  exact used_of_get? hx

theorem get?_of_not_used (hu : ¬ h.Used o) : h.get? o = none := by
  unfold Used at hu
  have hnone : h.slots[o.index]? = none := List.getElem?_eq_none (by omega)
  simp [get?, hnone]

theorem not_used_next : ¬ h.Used h.next := by
  simp [Used, next]

theorem get?_next : h.get? h.next = none := get?_of_not_used not_used_next

theorem ne_next_of_get? (hx : h.get? o = some x) : o ≠ h.next := by
  rintro rfl
  rw [get?_next] at hx
  cases hx

/-! ## Objects after an update -/

theorem get?_add (h : Heap) (x : Obj) (o : ObjId) :
    (h.add x).get? o = if o = h.next then some x else h.get? o := by
  obtain ⟨i⟩ := o
  by_cases hi : i < h.slots.length
  · have hne : (⟨i⟩ : ObjId) ≠ h.next := fun e => by simp [next] at e; omega
    simp [get?, add, hne, List.getElem?_append_left hi]
  · by_cases he : i = h.slots.length
    · subst he
      simp [get?, add, next]
    · have hne : (⟨i⟩ : ObjId) ≠ h.next := fun e => by simp [next] at e; exact he e
      have hnone : h.slots[i]? = none := List.getElem?_eq_none (by omega)
      have hnone' : (h.slots ++ [some x])[i]? = none := List.getElem?_eq_none (by simp; omega)
      simp [get?, add, hne, hnone, hnone']

/-- Writing a used slot changes what stands under its identity only. -/
theorem get?_slots_set (hx : h.get? o = some x) (s : Option Obj) (p : ObjId) :
    get? ⟨h.slots.set o.index s⟩ p = if p = o then s else h.get? p := by
  obtain ⟨i⟩ := o
  obtain ⟨j⟩ := p
  have hlt : i < h.slots.length := used_of_get? hx
  by_cases hj : j = i
  · subst hj
    simp [get?, hlt]
  · have hij : ¬ i = j := fun e => hj e.symm
    simp [get?, hij, hj]

theorem get?_set (hx : h.get? o = some x) (y : Obj) (p : ObjId) :
    (h.set o y).get? p = if p = o then some y else h.get? p := get?_slots_set hx (some y) p

theorem get?_erase (hx : h.get? o = some x) (p : ObjId) :
    (h.erase o).get? p = if p = o then none else h.get? p := get?_slots_set hx none p

theorem used_add (h : Heap) (x : Obj) (o : ObjId) : (h.add x).Used o ↔ h.Used o ∨ o = h.next := by
  obtain ⟨i⟩ := o
  simp [Used, add, next]
  omega

@[simp]
theorem used_set (h : Heap) (x : Obj) (o p : ObjId) : (h.set o x).Used p ↔ h.Used p := by
  simp [Used, set]

@[simp]
theorem used_erase (h : Heap) (o p : ObjId) : (h.erase o).Used p ↔ h.Used p := by
  simp [Used, erase]

theorem setPayload_eq (hx : h.get? o = some x) (q : Payload) :
    h.setPayload o q = h.set o { x with payload := q } := by
  simp [setPayload, hx]

theorem retain_eq (hx : h.get? o = some x) (hm : x.cls.isImmortal = false) :
    h.retain o = h.set o { x with count := x.count + 1 } := by
  simp [retain, hx, hm]

theorem retain_of_immortal (hx : h.get? o = some x) (hm : x.cls.isImmortal = true) :
    h.retain o = h := by
  simp [retain, hx, hm]

/-! ## Claims inside the heap -/

/-- The live object `p` holds a claim on `q`: in a slot of a vector, or as a key or a value of a
hash. -/
def Holds (h : Heap) (p q : ObjId) : Prop := ∃ x, h.get? p = some x ∧ q ∈ x.payload.claims

/-- There is an object of an immortal class under the identity. -/
def Immortal (h : Heap) (o : ObjId) : Prop := ∃ x, h.get? o = some x ∧ x.cls.isImmortal = true

theorem Holds.live (hh : h.Holds p q) : h.Live p := by
  obtain ⟨x, hx, -⟩ := hh
  exact ⟨x, hx⟩

theorem Immortal.live (hi : h.Immortal o) : h.Live o := by
  obtain ⟨x, hx, -⟩ := hi
  exact ⟨x, hx⟩

theorem not_immortal_of_get? (hx : h.get? o = some x) (hm : x.cls.isImmortal = false) :
    ¬ h.Immortal o := by
  rintro ⟨y, hy, hym⟩
  obtain rfl : x = y := Option.some.inj (hx.symm.trans hy)
  rw [hm] at hym
  cases hym

theorem live_set (hx : h.get? o = some x) : (h.set o y).Live p ↔ h.Live p := by
  unfold Live
  rw [get?_set hx]
  split
  · rename_i hpo
    subst hpo
    simp [hx]
  · exact Iff.rfl

/-- An object with the same payload holds the same. -/
theorem holds_set (hx : h.get? o = some x) (hp : y.payload = x.payload) :
    (h.set o y).Holds p q ↔ h.Holds p q := by
  unfold Holds
  rw [get?_set hx]
  split
  · rename_i hpo
    subst hpo
    simp [hx, hp]
  · exact Iff.rfl

theorem immortal_set (hx : h.get? o = some x) (hcls : y.cls = x.cls) :
    (h.set o y).Immortal p ↔ h.Immortal p := by
  unfold Immortal
  rw [get?_set hx]
  split
  · rename_i hpo
    subst hpo
    simp [hx, hcls]
  · exact Iff.rfl

/-- The claims that the object of a slot holds. -/
def slotClaims : Option Obj → Multiset ObjId
  | none => 0
  | some x => x.payload.claims

/-- The claims that live objects hold, with multiplicity. -/
def claims (h : Heap) : Multiset ObjId := (h.slots.map slotClaims).sum

/-- Replacing one slot moves the sum by the difference of the two slots. -/
theorem claims_slots_set (slots : List (Option Obj)) (i : Nat) (old new : Option Obj)
    (hi : slots[i]? = some old) :
    ((slots.set i new).map slotClaims).sum + slotClaims old =
      (slots.map slotClaims).sum + slotClaims new := by
  induction slots generalizing i with
  | nil => simp at hi
  | cons s rest ih =>
    cases i with
    | zero =>
      simp only [List.getElem?_cons_zero, Option.some.injEq] at hi
      subst hi
      simp only [List.set_cons_zero, List.map_cons, List.sum_cons]
      abel
    | succ i =>
      simp only [List.getElem?_cons_succ] at hi
      have hrest := ih i hi
      simp only [List.set_cons_succ, List.map_cons, List.sum_cons]
      rw [add_assoc, hrest, add_assoc]

theorem claims_set (hx : h.get? o = some x) (y : Obj) :
    (h.set o y).claims + x.payload.claims = h.claims + y.payload.claims :=
  claims_slots_set h.slots o.index (some x) (some y) (slots_of_get? hx)

theorem claims_set_same (hx : h.get? o = some x) (hp : y.payload = x.payload) :
    (h.set o y).claims = h.claims := by
  have hs := claims_set hx y
  rw [hp] at hs
  exact add_right_cancel hs

theorem claims_erase (hx : h.get? o = some x) :
    (h.erase o).claims + x.payload.claims = h.claims := by
  have hs := claims_slots_set h.slots o.index (some x) none (slots_of_get? hx)
  rw [slotClaims, slotClaims, add_zero] at hs
  exact hs

theorem claims_add (h : Heap) (x : Obj) : (h.add x).claims = h.claims + x.payload.claims := by
  simp [claims, add, slotClaims]

theorem mem_sum_slotClaims_iff (slots : List (Option Obj)) (o : ObjId) :
    o ∈ (slots.map slotClaims).sum ↔ ∃ x, some x ∈ slots ∧ o ∈ x.payload.claims := by
  induction slots with
  | nil => simp
  | cons s rest ih =>
    rw [List.map_cons, List.sum_cons, Multiset.mem_add, ih]
    cases s with
    | none => simp [slotClaims]
    | some y => simp [slotClaims, or_and_right, exists_or]

theorem some_mem_slots_iff : some x ∈ h.slots ↔ ∃ o, h.get? o = some x := by
  constructor
  · intro hm
    obtain ⟨i, hi⟩ := List.mem_iff_getElem?.mp hm
    exact ⟨⟨i⟩, by simp [get?, hi]⟩
  · rintro ⟨o, ho⟩
    exact List.mem_of_getElem? (slots_of_get? ho)

/-- A claim inside the heap is one that some live object holds. -/
theorem mem_claims_iff : o ∈ h.claims ↔ ∃ p x, h.get? p = some x ∧ o ∈ x.payload.claims := by
  unfold claims
  rw [mem_sum_slotClaims_iff]
  constructor
  · rintro ⟨x, hx, ho⟩
    obtain ⟨p, hp⟩ := some_mem_slots_iff.mp hx
    exact ⟨p, x, hp, ho⟩
  · rintro ⟨p, x, hp, ho⟩
    exact ⟨x, some_mem_slots_iff.mpr ⟨p, hp⟩, ho⟩

end ObjectBridge.Heap
