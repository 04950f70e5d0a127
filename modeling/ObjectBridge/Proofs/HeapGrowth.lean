import ObjectBridge.Proofs.HeapClaims
import Mathlib.Logic.Function.Iterate

set_option autoImplicit false

/-!
# Heaps that grow (SPEC §4.3)

Calls that build something put new objects at the end of the heap, claim old objects and fill
containers.  What these operations do to single objects, and that they do not get in each other's
way.
-/

namespace ObjectBridge

/-- The object with one claim more. -/
def Obj.retained (x : Obj) : Obj := if x.cls.isImmortal then x else { x with count := x.count + 1 }

/-- The highest count so far, if the object is claimed once more. -/
def Obj.peakAfter (peak : Nat) (x : Obj) : Nat :=
  if x.cls.isImmortal then peak else max peak (x.count.toNat + 1)

namespace Heap

variable {h h' : Heap} {o p : ObjId} {x : Obj} {q q' : Payload} {xs : List Obj}
  {claims more : List ObjId}

/-- The heap with some objects put at its end. -/
def append (h : Heap) (xs : List Obj) : Heap := ⟨h.slots ++ xs.map some⟩

/-- The heap after claiming some objects in turn. -/
def retainAll (h : Heap) (claims : List ObjId) : Heap := claims.foldl retain h

theorem getElem?_slots {i : Nat} (hi : i < h.slots.length) : h.slots[i]? = some (h.get? ⟨i⟩) := by
  unfold get?
  rw [List.getElem?_eq_getElem hi]
  rfl

/-- A heap is known by its size and its objects. -/
theorem ext_get? (hlen : h.slots.length = h'.slots.length) (hget : ∀ o, h.get? o = h'.get? o) :
    h = h' := by
  obtain ⟨slots⟩ := h
  obtain ⟨slots'⟩ := h'
  congr 1
  refine List.ext_getElem? fun i => ?_
  by_cases hi : i < slots.length
  · have hold : slots[i]? = some (Heap.get? ⟨slots⟩ ⟨i⟩) := getElem?_slots (h := ⟨slots⟩) hi
    have hnew : slots'[i]? = some (Heap.get? ⟨slots'⟩ ⟨i⟩) :=
      getElem?_slots (h := ⟨slots'⟩) (hlen ▸ hi)
    rw [hold, hnew, hget]
  · have hi' : ¬ i < slots'.length := fun e => hi (hlen ▸ e)
    rw [List.getElem?_eq_none (not_lt.mp hi), List.getElem?_eq_none (not_lt.mp hi')]

/-! ## Sizes -/

@[simp]
theorem length_append (h : Heap) (xs : List Obj) :
    (h.append xs).slots.length = h.slots.length + xs.length := by
  simp [append]

@[simp]
theorem length_set (h : Heap) (o : ObjId) (x : Obj) : (h.set o x).slots.length = h.slots.length :=
  List.length_set

@[simp]
theorem length_setPayload (h : Heap) (o : ObjId) (q : Payload) :
    (h.setPayload o q).slots.length = h.slots.length := by
  unfold setPayload
  split <;> simp

@[simp]
theorem length_retain (h : Heap) (o : ObjId) : (h.retain o).slots.length = h.slots.length := by
  unfold retain
  split
  · split <;> simp
  · rfl

@[simp]
theorem length_retainAll (h : Heap) (claims : List ObjId) :
    (h.retainAll claims).slots.length = h.slots.length := by
  induction claims generalizing h with
  | nil => rfl
  | cons o rest ih => exact (ih (h.retain o)).trans (length_retain h o)

@[simp]
theorem used_retainAll (h : Heap) (claims : List ObjId) (o : ObjId) :
    (h.retainAll claims).Used o ↔ h.Used o := by
  unfold Used
  rw [length_retainAll]

/-! ## Objects -/

theorem get?_append (h : Heap) (xs : List Obj) (o : ObjId) :
    (h.append xs).get? o =
      if o.index < h.slots.length then h.get? o else xs[o.index - h.slots.length]? := by
  unfold get? append
  by_cases hu : o.index < h.slots.length
  · rw [if_pos hu, List.getElem?_append_left hu]
  · rw [if_neg hu, List.getElem?_append_right (not_lt.mp hu), List.getElem?_map]
    cases xs[o.index - h.slots.length]? <;> rfl

theorem get?_append_old (hu : h.Used o) (xs : List Obj) : (h.append xs).get? o = h.get? o := by
  rw [get?_append]
  exact if_pos hu

theorem get?_setPayload (h : Heap) (o : ObjId) (q : Payload) (p : ObjId) :
    (h.setPayload o q).get? p = if p = o then (h.get? o).map fun x => { x with payload := q }
        else h.get? p := by
  cases hx : h.get? o with
  | none =>
    have heq : h.setPayload o q = h := by simp [setPayload, hx]
    by_cases hp : p = o
    · rw [heq, if_pos hp, hp, hx, Option.map_none]
    · rw [heq, if_neg hp]
  | some x =>
    rw [setPayload_eq hx, get?_set hx]
    rfl

theorem get?_retain (h : Heap) (o p : ObjId) :
    (h.retain o).get? p = if p = o then (h.get? o).map Obj.retained else h.get? p := by
  cases hx : h.get? o with
  | none =>
    have heq : h.retain o = h := by simp [retain, hx]
    by_cases hp : p = o
    · rw [heq, if_pos hp, hp, hx, Option.map_none]
    · rw [heq, if_neg hp]
  | some x =>
    cases hm : x.cls.isImmortal with
    | true =>
      have hsame : x.retained = x := by simp [Obj.retained, hm]
      by_cases hp : p = o
      · rw [retain_of_immortal hx hm, if_pos hp, hp, hx, Option.map_some, hsame]
      · rw [retain_of_immortal hx hm, if_neg hp]
    | false =>
      rw [retain_eq hx hm, get?_set hx]
      simp [Obj.retained, hm]

/-- Each claim counts. -/
theorem get?_retainAll (h : Heap) (claims : List ObjId) (p : ObjId) :
    (h.retainAll claims).get? p = (h.get? p).map (Obj.retained^[claims.count p]) := by
  induction claims generalizing h with
  | nil => simp [retainAll]
  | cons o rest ih =>
    change ((h.retain o).retainAll rest).get? p = _
    rw [ih, get?_retain]
    by_cases hp : p = o
    · subst hp
      rw [if_pos rfl, Option.map_map, List.count_cons_self, Function.iterate_succ]
    · rw [if_neg hp, List.count_cons_of_ne (Ne.symm hp)]

/-! ## How the operations get along -/

@[simp]
theorem append_nil (h : Heap) : h.append [] = h := by
  simp [append]

@[simp]
theorem append_append (h : Heap) (xs ys : List Obj) :
    (h.append xs).append ys = h.append (xs ++ ys) := by
  simp [append]

theorem add_eq_append (h : Heap) (x : Obj) : h.add x = h.append [x] := rfl

/-- The order in which claims are taken does not matter. -/
theorem retainAll_of_perm {claims claims' : List ObjId} (h : Heap) (hp : claims.Perm claims') :
    h.retainAll claims = h.retainAll claims' := by
  refine ext_get? (by rw [length_retainAll, length_retainAll]) fun p => ?_
  rw [get?_retainAll, get?_retainAll, hp.count_eq]

theorem retainAll_append (h : Heap) (claims more : List ObjId) :
    h.retainAll (claims ++ more) = (h.retainAll claims).retainAll more := List.foldl_append

theorem setPayload_append (hu : h.Used o) (q : Payload) (xs : List Obj) :
    (h.append xs).setPayload o q = (h.setPayload o q).append xs := by
  have hu' : o.index < h.slots.length := hu
  refine ext_get? (by simp) fun p => ?_
  rw [get?_setPayload, get?_append, get?_append, get?_append, get?_setPayload, if_pos hu',
    length_setPayload]
  by_cases hp : p = o
  · subst hp
    rw [if_pos rfl, if_pos rfl, if_pos hu']
  · rw [if_neg hp, if_neg hp]

theorem retainAll_append_objs (hu : ∀ o ∈ claims, h.Used o) (xs : List Obj) :
    (h.append xs).retainAll claims = (h.retainAll claims).append xs := by
  refine ext_get? (by simp) fun p => ?_
  rw [get?_retainAll, get?_append, get?_append, get?_retainAll, length_retainAll]
  by_cases hp : p.index < h.slots.length
  · rw [if_pos hp, if_pos hp]
  · have hnone : claims.count p = 0 := List.count_eq_zero.mpr fun hmem => hp (hu p hmem)
    rw [if_neg hp, if_neg hp, hnone, Function.iterate_zero, Option.map_id_fun, id_eq]

/-- A payload that is put into the last object. -/
theorem setPayload_append_last (h : Heap) (x : Obj) (q : Payload) :
    (h.append [x]).setPayload h.next q = h.append [{ x with payload := q }] := by
  refine ext_get? (by simp) fun p => ?_
  rw [get?_setPayload, get?_append, get?_append, get?_append]
  by_cases hp : p = h.next
  · subst hp
    simp [next]
  · rw [if_neg hp]
    by_cases hu : p.index < h.slots.length
    · rw [if_pos hu, if_pos hu]
    · have hpast : 1 ≤ p.index - h.slots.length := by
        have hne : p.index ≠ h.slots.length := fun e => hp (by cases p; cases e; rfl)
        omega
      rw [if_neg hu, if_neg hu, List.getElem?_eq_none (by simpa using hpast),
        List.getElem?_eq_none (by simpa using hpast)]

theorem setPayload_setPayload (h : Heap) (o : ObjId) (q q' : Payload) :
    (h.setPayload o q).setPayload o q' = h.setPayload o q' := by
  refine ext_get? (by simp) fun p => ?_
  rw [get?_setPayload, get?_setPayload, get?_setPayload, get?_setPayload, if_pos rfl,
    Option.map_map]
  by_cases hp : p = o
  · rw [if_pos hp, if_pos hp]
    rfl
  · rw [if_neg hp, if_neg hp, if_neg hp]

/-- Claims and payloads do not get in each other's way. -/
theorem retainAll_setPayload (h : Heap) (claims : List ObjId) (p : ObjId) (q : Payload) :
    (h.retainAll claims).setPayload p q = (h.setPayload p q).retainAll claims := by
  refine ext_get? (by simp) fun r => ?_
  rw [get?_setPayload, get?_retainAll, get?_retainAll, get?_retainAll, get?_setPayload]
  by_cases hr : r = p
  · subst hr
    rw [if_pos rfl, if_pos rfl, Option.map_map, Option.map_map]
    congr 1
    have hsemi : Function.Semiconj
        (fun x : Obj => { x with payload := q }) Obj.retained Obj.retained := by
      intro x
      unfold Obj.retained
      split <;> rfl
    exact (hsemi.iterate_right _).comp_eq
  · rw [if_neg hr, if_neg hr]

theorem setPayload_self (hx : h.get? o = some x) (hq : x.payload = q) : h.setPayload o q = h := by
  refine ext_get? (by simp) fun p => ?_
  rw [get?_setPayload]
  by_cases hp : p = o
  · rw [if_pos hp, hp, hx, ← hq]
    rfl
  · rw [if_neg hp]

/-- What one more element does to the heap while a container is being filled: claims `claims` and
objects `xs` for the element, its place in the container, and then the claims `more` and the final
content of the container. -/
theorem fill_step (hu : h.Used o) (hmore : ∀ p ∈ more, h.Used p) :
    ((((h.retainAll claims).append xs).setPayload o q).setPayload o q').retainAll more =
      ((h.setPayload o q').retainAll (claims ++ more)).append xs := by
  have hu' : (h.retainAll claims).Used o := (used_retainAll h claims o).mpr hu
  have hmore' : ∀ p ∈ more, ((h.setPayload o q').retainAll claims).Used p := by
    intro p hp
    rw [used_retainAll]
    unfold Used
    rw [length_setPayload]
    exact hmore p hp
  rw [setPayload_setPayload, setPayload_append hu', retainAll_setPayload,
    retainAll_append_objs hmore', retainAll_append]

/-! ## What objects carry -/

theorem cls_iterate_retained (x : Obj) (n : Nat) : (Obj.retained^[n] x).cls = x.cls := by
  induction n with
  | zero => rfl
  | succ n ih =>
    rw [Function.iterate_succ_apply']
    unfold Obj.retained
    split <;> exact ih

theorem payload_iterate_retained (x : Obj) (n : Nat) :
    (Obj.retained^[n] x).payload = x.payload := by
  induction n with
  | zero => rfl
  | succ n ih =>
    rw [Function.iterate_succ_apply']
    unfold Obj.retained
    split <;> exact ih

theorem iterate_retained_of_immortal {x : Obj} (hm : x.cls.isImmortal = true) (n : Nat) :
    Obj.retained^[n] x = x := by
  induction n with
  | zero => rfl
  | succ n ih =>
    rw [Function.iterate_succ_apply', ih]
    exact if_pos hm

theorem hasText_retainAll (h : Heap) (claims : List ObjId) (key : String) (o : ObjId) :
    (h.retainAll claims).hasText key o = h.hasText key o := by
  unfold hasText
  rw [get?_retainAll]
  cases h.get? o with
  | none => rfl
  | some x => rw [Option.map_some, Option.bind_some, Option.bind_some, payload_iterate_retained]

theorem hasText_append (hu : h.Used o) (xs : List Obj) (key : String) :
    (h.append xs).hasText key o = h.hasText key o := by
  unfold hasText
  rw [get?_append_old hu]

/-- An object that is no string has no text. -/
theorem hasText_setPayload {key : String} (hq : q.string? = none) (hf : h.hasText key o = false)
    (p : ObjId) :
    (h.setPayload p q).hasText key o = false := by
  unfold hasText at hf ⊢
  rw [get?_setPayload]
  split
  · cases h.get? p with
    | none => rfl
    | some x => simp [hq]
  · exact hf

/-! ## The highest count -/

/-- The class and the count of an object. -/
def tally (h : Heap) (o : ObjId) : Option (Class × UInt32) :=
  (h.get? o).map fun x => (x.cls, x.count)

/-- The highest count so far, after claiming some objects in turn. -/
def claimPeak : Heap → Nat → List ObjId → Nat
  | _, peak, [] => peak
  | h, peak, o :: rest =>
    (h.retain o).claimPeak (((h.get? o).map (Obj.peakAfter peak)).getD peak) rest

theorem tally_retain (h : Heap) (o p : ObjId) :
    (h.retain o).tally p =
      if p = o then (h.tally o).map fun y => (y.1, if y.1.isImmortal then y.2 else y.2 + 1)
      else h.tally p := by
  unfold tally
  rw [get?_retain]
  split
  · rw [Option.map_map, Option.map_map]
    congr 1
    funext x
    unfold Obj.retained
    dsimp only [Function.comp_apply]
    split <;> simp_all
  · rfl

theorem tally_append (hu : h.Used o) (xs : List Obj) : (h.append xs).tally o = h.tally o := by
  unfold tally
  rw [get?_append_old hu]

theorem tally_setPayload (h : Heap) (o : ObjId) (q : Payload) (p : ObjId) :
    (h.setPayload o q).tally p = h.tally p := by
  unfold tally
  rw [get?_setPayload]
  split
  · rename_i hp
    rw [hp, Option.map_map]
    rfl
  · rfl

/-- Only classes and counts matter for the highest count. -/
theorem claimPeak_congr (hs : ∀ o ∈ claims, h'.tally o = h.tally o) (peak : Nat) :
    h'.claimPeak peak claims = h.claimPeak peak claims := by
  induction claims generalizing h h' peak with
  | nil => rfl
  | cons o rest ih =>
    have hpeak : ∀ h : Heap, (h.get? o).map (Obj.peakAfter peak) =
        (h.tally o).map fun y => if y.1.isImmortal then peak else max peak (y.2.toNat + 1) := by
      intro h
      unfold tally
      rw [Option.map_map]
      rfl
    unfold claimPeak
    rw [hpeak h', hpeak h, hs o List.mem_cons_self]
    refine ih (fun p hp => ?_) _
    rw [tally_retain, tally_retain, hs o List.mem_cons_self, hs p (List.mem_cons_of_mem o hp)]

theorem claimPeak_append (h : Heap) (peak : Nat) (claims more : List ObjId) :
    h.claimPeak peak (claims ++ more) = (h.retainAll claims).claimPeak
      (h.claimPeak peak claims) more := by
  induction claims generalizing h peak with
  | nil => rfl
  | cons o rest ih => exact ih (h.retain o) _

/-- The highest count stays low if every count has room for the claims. -/
theorem claimPeak_lt {peak n : Nat} (hpeak : peak < n) (hn : n ≤ 2 ^ 32)
    (hroom : ∀ o x, h.get? o = some x → x.cls.isImmortal = false →
      x.count.toNat + claims.count o < n) :
    h.claimPeak peak claims < n := by
  induction claims generalizing h peak with
  | nil => exact hpeak
  | cons o rest ih =>
    unfold claimPeak
    refine ih ?_ fun p y hy hm => ?_
    · cases hx : h.get? o with
      | none => exact hpeak
      | some x =>
        rw [Option.map_some, Option.getD_some]
        unfold Obj.peakAfter
        split
        · exact hpeak
        · rename_i hm
          have hlt := hroom o x hx (by simpa using hm)
          rw [List.count_cons_self] at hlt
          omega
    · rw [get?_retain] at hy
      split at hy
      · rename_i hp
        subst hp
        obtain ⟨x, hx, rfl⟩ := Option.map_eq_some_iff.mp hy
        have hmx : x.cls.isImmortal = false := by
          rwa [← cls_iterate_retained x 1]
        have hlt := hroom p x hx hmx
        rw [List.count_cons_self] at hlt
        have hcount : (x.count + 1).toNat = x.count.toNat + 1 := by
          rw [UInt32.toNat_add]
          exact Nat.mod_eq_of_lt (by simp; omega)
        have hretained : x.retained.count = x.count + 1 := by
          unfold Obj.retained
          rw [if_neg (by simp [hmx])]
        rw [hretained, hcount]
        omega
      · rename_i hp
        have hlt := hroom p y hy hm
        rwa [List.count_cons_of_ne (fun heq => hp heq.symm)] at hlt

end Heap

end ObjectBridge
