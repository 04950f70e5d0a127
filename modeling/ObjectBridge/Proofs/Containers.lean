import ObjectBridge.Builtin.Hash
import ObjectBridge.Builtin.Vector
import ObjectBridge.Proofs.Buckets
import ObjectBridge.Proofs.Calls

set_option autoImplicit false

/-!
# Claims in containers (SPEC §11.3)

What the functions of the built-in objects do with claims.  A vector or hash takes over the claim on
what is put into it, and gives a claim of its own to whoever takes something out.  The container
itself is borrowed; the claim that is put into it may be the only one on it, since a container may
be put into itself.
-/

namespace ObjectBridge

open Heap

section Scalars

variable {α : Type} {b : Bridge} {host : Multiset ObjId} {o : ObjId} {bad : Unwind → Bridge → Prop}

@[simp]
theorem ends_setPayload (q : Payload) {ok : Unit → Bridge → Prop} :
    Ends (setPayload o q) b ok bad ↔ ok () { b with heap := b.heap.setPayload o q } := Iff.rfl

theorem ends_makeObj {c : Class} {q : Payload} {ok : ObjId → Bridge → Prop}
    (hs : c.size = q.layout.size) :
    Ends (makeObj c q) b ok bad ↔ ok b.heap.next { b with heap := b.heap.add ⟨c, 1, q⟩ } := by
  unfold makeObj
  rw [if_pos hs]
  exact Iff.rfl

/-- Changing what an object without claims carries, other than a truth value. -/
theorem rewrite_transfers (o : ObjId) (c : Class) (view : Payload → Option α) (change : α → Payload)
    (hview : ∀ p a, view p = some a → p.claims = [] ∧ p.layout ≠ .boolean)
    (hchange : ∀ a, (change a).claims = []) :
    Transfers {o} 0 (do setPayload o (change (← certify o c view))) (fun _ => 0) := by
  intro b F hB hb
  rw [zero_add] at hb
  rw [ends_bind]
  refine ends_certify hb (hb.live (hB (Multiset.mem_singleton_self o))) (fun x a hx _ hv => ?_)
    (fun _ _ h => h)
  obtain ⟨hclaims, hlayout⟩ := hview x.payload a hv
  rw [ends_setPayload, zero_add]
  exact hb.setPayload hx hlayout (by rw [hchange, hclaims])

theorem byteBufAppend_transfers (o : ObjId) (more : List UInt8) :
    Transfers {o} 0 (ByteBufObj.append o more) (fun _ => 0) := by
  refine rewrite_transfers o .byteBuf Payload.byteBuf? (fun bytes => .byteBuf (bytes ++ more))
    (fun p a hv => ?_)
    (fun _ => rfl)
  cases p <;> simp_all [Payload.byteBuf?, Payload.claims, Payload.layout]

theorem errAppend_transfers (o : ObjId) (more : String) :
    Transfers {o} 0 (ErrObj.append o more) (fun _ => 0) := by
  refine rewrite_transfers o .err Payload.err? (fun message => .err (message ++ more))
    (fun p a hv => ?_)
    (fun _ => rfl)
  cases p <;> simp_all [Payload.err?, Payload.claims, Payload.layout]

end Scalars

/-! ## Vectors -/

theorem Payload.eq_vector {q : Payload} {elems : List (Option ObjId)}
    (hq : q.vector? = some elems) :
    q = .vector elems := by
  cases q <;> simp_all [Payload.vector?]

theorem Payload.eq_hash {q : Payload} {inside : Buckets} (hq : q.hash? = some inside) :
    q = .hash inside := by
  cases q <;> simp_all [Payload.hash?]

namespace VectorObj

variable {b : Bridge} {F host : Multiset ObjId} {vec : ObjId} {elem : Option ObjId}
  {bad : Unwind → Bridge → Prop}

/-- Looking into a live vector. -/
theorem ends_slots {ok : List (Option ObjId) → Bridge → Prop} (hb : b.Books host)
    (hl : b.Bounded → b.heap.Live vec)
    (hok : ∀ x elems, b.heap.get? vec = some x → x.payload = .vector elems → ok elems b)
    (hbad : ∀ u b', b'.Unwound u host → bad u b') : Ends (slots vec) b ok bad := by
  exact ends_certify hb hl (fun x elems hx _ hv => hok x elems hx (Payload.eq_vector hv)) hbad

theorem overflow_transfers {α : Type} (elem : Option ObjId) (g : α → Multiset ObjId) :
    Transfers 0 elem.toList (overflow elem : Run α) g :=
  (releaseAll_succeeds elem.toList).transfers.bind fun _ => raise_transfers 0 _ g

theorem new_transfers (capacity : Nat) : Transfers 0 0 (new capacity) (fun o => {o}) := by
  unfold new
  split
  · exact overflow_transfers none _
  · exact (makeObj_succeeds .vector (.vector []) rfl rfl rfl).transfers

theorem claims_append (elems : List (Option ObjId)) (elem : Option ObjId) :
    ((Payload.vector (elems ++ [elem])).claims : Multiset ObjId) =
      (Payload.vector elems).claims + elem.toList := by
  cases elem <;> simp [Payload.claims, ← Multiset.coe_add]

/-- Putting an element in the place of another exchanges their claims. -/
theorem claims_set (elems : List (Option ObjId)) (tick : Nat) (old elem : Option ObjId)
    (ho : elems[tick]? = some old) :
    ((Payload.vector (elems.set tick elem)).claims : Multiset ObjId) + old.toList =
      (Payload.vector elems).claims + elem.toList := by
  have hcons (e : Option ObjId) (rest : List (Option ObjId)) :
      ((Payload.vector (e :: rest)).claims : Multiset ObjId) =
      e.toList + (Payload.vector rest).claims := by
    cases e <;> simp [Payload.claims]
  induction elems generalizing tick with
  | nil => cases ho
  | cons e rest ih =>
    cases tick with
    | zero =>
      rw [List.getElem?_cons_zero, Option.some_inj] at ho
      rw [List.set_cons_zero, hcons, hcons, ho]
      abel
    | succ tick =>
      rw [List.getElem?_cons_succ] at ho
      rw [List.set_cons_succ, hcons, hcons, add_assoc, ih tick ho, add_assoc]

/-- Storing an element exchanges claims with the vector; padding holds none. -/
theorem claims_storeAt (elems : List (Option ObjId)) (tick : Nat) (elem : Option ObjId) :
    ((Payload.vector (storeAt elems tick elem)).claims : Multiset ObjId) +
      (elems[tick]?).join.toList =
      (Payload.vector elems).claims + elem.toList := by
  have hpad : (Payload.vector (elems ++ List.replicate (tick + 1 - elems.length) none)).claims =
      (Payload.vector elems).claims := by
    simp [Payload.claims]
  have hold : (elems ++ List.replicate (tick + 1 - elems.length) none)[tick]? =
      some (elems[tick]?).join := by
    by_cases ht : tick < elems.length
    · rw [List.getElem?_append_left ht, List.getElem?_eq_getElem ht]
      rfl
    · rw [List.getElem?_append_right (by omega), List.getElem?_replicate, if_pos (by omega),
        List.getElem?_eq_none (by omega)]
      rfl
  unfold storeAt
  rw [claims_set _ tick _ elem hold, hpad]

theorem layout_ne {x : Obj} {elems : List (Option ObjId)} (hp : x.payload = .vector elems) :
    x.payload.layout ≠ .boolean := by
  rw [hp]
  simp [Payload.layout]

/-- An element takes the place of another, and the claim on that one is the caller's. -/
theorem books_store {x : Obj} {elems : List (Option ObjId)} (tick : Nat)
    (hb : b.Books (elem.toList + F)) (hx : b.heap.get? vec = some x)
    (hp : x.payload = .vector elems) :
    { b with heap := b.heap.setPayload vec (.vector (storeAt elems tick elem)) }.Books
      ((elems[tick]?).join.toList + F) := by
  refine hb.setPayload hx (layout_ne hp) ?_
  rw [← add_assoc, claims_storeAt, hp, add_assoc]

/-- Appending an element hands its claim to the vector. -/
theorem ends_push (hb : b.Books (elem.toList + F)) (hl : b.Bounded → b.heap.Live vec) :
    Ends (push vec elem) b (fun _ b' => b'.Books F) (fun u b' => b'.Unwound u F) := by
  unfold push
  rw [ends_bind, ends_losing]
  refine ends_slots hb hl (fun x elems hx hp => ?_) (fun _ _ hw => hw.lose)
  refine hb.setPayload hx (layout_ne hp) ?_
  rw [claims_append, hp, add_assoc]

/-- Storing an element hands its claim to the vector, and the claim on the element that it replaces
is given back. -/
theorem ends_store (tick : Nat) (hb : b.Books (elem.toList + F))
    (hl : b.Bounded → b.heap.Live vec) :
    Ends (store vec tick elem) b (fun _ b' => b'.Books F) (fun u b' => b'.Unwound u F) := by
  have hover := overflow_transfers elem (fun _ : Unit => 0) b F (Multiset.zero_subset F) hb
  simp only [zero_add] at hover
  unfold store
  split
  · exact hover
  · rw [ends_bind, ends_losing]
    refine ends_slots hb hl (fun x elems hx hp => ?_) (fun _ _ hw => hw.lose)
    rw [ends_bind, ends_get]
    split
    · exact hover
    · rw [ends_bind, ends_setPayload]
      exact ends_releaseAll (books_store tick hb hx hp) (fun h => h) (fun _ _ h => h.unwound)

theorem push_transfers (vec : ObjId) (elem : Option ObjId) :
    Transfers {vec} elem.toList (push vec elem) (fun _ => 0) := by
  intro b F hB hb
  have hmem : vec ∈ (elem.toList : Multiset ObjId) + F := Multiset.mem_add.mpr (.inr (hB (by simp)))
  simpa using ends_push hb (hb.live hmem)

theorem store_transfers (vec : ObjId) (tick : Nat) (elem : Option ObjId) :
    Transfers {vec} elem.toList (store vec tick elem) (fun _ => 0) := by
  intro b F hB hb
  have hmem : vec ∈ (elem.toList : Multiset ObjId) + F := Multiset.mem_add.mpr (.inr (hB (by simp)))
  simpa using ends_store tick hb (hb.live hmem)

/-- Taking an element out answers a new claim. -/
theorem fetch_transfers (vec : ObjId) (tick : Nat) :
    Transfers {vec} 0 (fetch vec tick) (fun e => e.toList) := by
  intro b F hB hb
  rw [zero_add] at hb
  unfold fetch
  rw [ends_bind]
  refine ends_slots hb (hb.live (hB (Multiset.mem_singleton_self vec))) (fun x elems hx hp => ?_)
    (fun _ _ h => h)
  rw [ends_bind]
  have hinside : ∀ o ∈ (elems[tick]?).join.toList, b.Bounded → b.heap.Live o := by
    intro o ho
    refine hb.live_inside hx ?_
    rw [Option.mem_toList, Option.join_eq_some_iff] at ho
    rw [hp]
    exact List.mem_filterMap.mpr ⟨some o, List.mem_of_getElem? ho, rfl⟩
  exact (ends_forM_retain _ hb hinside).mono (fun _ _ h => h) (fun _ _ h => h.unwound)

/-- Listing the elements answers a new claim on each. -/
theorem elements_transfers (vec : ObjId) :
    Transfers {vec} 0 (elements vec) (fun es => es.filterMap id) := by
  intro b F hB hb
  rw [zero_add] at hb
  unfold elements
  rw [ends_bind]
  refine ends_slots hb (hb.live (hB (Multiset.mem_singleton_self vec))) (fun x elems hx hp => ?_)
    (fun _ _ h => h)
  rw [ends_bind]
  have hinside : ∀ o ∈ elems.filterMap id, b.Bounded → b.heap.Live o := by
    intro o ho
    refine hb.live_inside hx ?_
    rw [hp]
    exact ho
  exact (ends_forM_retain _ hb hinside).mono (fun _ _ h => h) (fun _ _ h => h.unwound)

theorem size_transfers (vec : ObjId) : Transfers {vec} 0 (size vec) (fun _ => 0) :=
  (certify_transfers vec .vector Payload.vector?).bind fun _ => .pure _ rfl

end VectorObj

/-! ## Hashes -/

namespace HashObj

variable {b : Bridge} {F host : Multiset ObjId} {hash : ObjId} {value : Option ObjId}
  {bad : Unwind → Bridge → Prop}

/-- Looking into a live hash. -/
theorem ends_buckets {ok : Buckets → Bridge → Prop} (hb : b.Books host)
    (hl : b.Bounded → b.heap.Live hash)
    (hok : ∀ x inside, b.heap.get? hash = some x → x.payload = .hash inside → ok inside b)
    (hbad : ∀ u b', b'.Unwound u host → bad u b') : Ends (buckets hash) b ok bad := by
  exact ends_certify hb hl (fun x inside hx _ hv => hok x inside hx (Payload.eq_hash hv)) hbad

theorem withCapacity_transfers (capacity : Nat) :
    Transfers 0 0 (withCapacity capacity) (fun o => {o}) := by
  unfold withCapacity
  split
  · exact (makeObj_succeeds .hash (.hash .empty) rfl rfl rfl).transfers
  · exact fault_transfers _ _

theorem layout_ne {x : Obj} {inside : Buckets} (hp : x.payload = .hash inside) :
    x.payload.layout ≠ .boolean := by
  rw [hp]
  simp [Payload.layout]

/-- A value takes the place of another, and the claim on that one is the caller's. -/
theorem books_replace {x : Obj} {inside : Buckets} {key : String} {e : HashEntry}
    (hb : b.Books (value.toList + F)) (hx : b.heap.get? hash = some x)
    (hp : x.payload = .hash inside) (hf : find? b inside key = some e) :
    { b with
      heap := b.heap.setPayload hash
        (.hash (inside.replace (b.keySum key) (b.heap.hasText key) value)) }.Books
      (e.value.toList + F) := by
  refine hb.setPayload hx (layout_ne hp) ?_
  rw [← add_assoc, ← add_assoc, hp]
  exact congrArg (· + F) (Buckets.claims_replace hf)

/-- A key and its value are added, the key as a string object of its own. -/
theorem books_add {x : Obj} {inside : Buckets} {key : String} (hb : b.Books (value.toList + F))
    (hx : b.heap.get? hash = some x) (hp : x.payload = .hash inside) :
    { b with
      heap := (b.heap.add ⟨.string, 1, .string key⟩).setPayload hash
        (.hash (inside.add (b.keySum key) ⟨b.heap.next, value⟩)) }.Books F := by
  have hnew : { b with heap := b.heap.add ⟨.string, 1, .string key⟩ }.Books
      (b.heap.next ::ₘ ((value.toList : Multiset ObjId) + F)) :=
    Bridge.Books.add (q := .string key) (by simpa [Payload.claims] using hb) rfl
  have hold : (b.heap.add ⟨.string, 1, .string key⟩).get? hash = some x := by
    rw [get?_add, if_neg (ne_next_of_get? hx), hx]
  refine hnew.setPayload hold (layout_ne hp) ?_
  have hclaims := Buckets.claims_add inside (b.keySum key) ⟨b.heap.next, value⟩
  rw [hp, Payload.claims, Payload.claims, hclaims, HashEntry.claims, ← Multiset.cons_coe]
  simp only [Multiset.add_cons, Multiset.cons_add, add_assoc]

/-- A key is taken out, and the claims on it and on its value are the caller's. -/
theorem books_erase {x : Obj} {inside : Buckets} {key : String} {e : HashEntry} (hb : b.Books F)
    (hx : b.heap.get? hash = some x) (hp : x.payload = .hash inside)
    (hf : find? b inside key = some e) :
    { b with heap := b.heap.setPayload hash (.hash (inside.erase (b.keySum key) (b.heap.hasText
        key))) }.Books (([e.key] : List ObjId) + (e.value.toList + F)) := by
  refine hb.setPayload hx (layout_ne hp) ?_
  have herase : ((inside.erase (b.keySum key) (b.heap.hasText key)).claims : Multiset ObjId) +
      e.claims =
      inside.claims := Buckets.claims_erase hf
  have hentry : (e.claims : Multiset ObjId) = ([e.key] : List ObjId) + e.value.toList := rfl
  rw [hp, Payload.claims, Payload.claims, ← herase, hentry]
  abel

/-- Binding a key hands the claim on the value to the hash, and the claim on a value that it
replaces is given back. A key that is not bound yet gets a string object of its own. -/
theorem ends_store (key : String) (hb : b.Books (value.toList + F))
    (hl : b.Bounded → b.heap.Live hash) :
    Ends (store hash key value) b (fun _ b' => b'.Books F) (fun u b' => b'.Unwound u F) := by
  unfold store
  rw [ends_bind, ends_losing]
  refine ends_buckets hb hl (fun x inside hx hp => ?_) (fun _ _ hw => hw.lose)
  rw [ends_bind, ends_get]
  cases hf : find? b inside key with
  | some e =>
    rw [ends_bind, ends_setPayload]
    exact ends_releaseAll (books_replace hb hx hp hf) (fun h => h) (fun _ _ h => h.unwound)
  | none =>
    unfold StringObj.new
    rw [ends_bind, ends_makeObj (by rfl), ends_setPayload]
    exact books_add hb hx hp

theorem store_transfers (hash : ObjId) (key : String) (value : Option ObjId) :
    Transfers {hash} value.toList (store hash key value) (fun _ => 0) := by
  intro b F hB hb
  have hmem : hash ∈ (value.toList : Multiset ObjId) + F :=
    Multiset.mem_add.mpr (.inr (hB (by simp)))
  simpa using ends_store key hb (hb.live hmem)

/-- The claims of an entry of a live hash are on live objects. -/
theorem live_of_mem_entries {x : Obj} {inside : Buckets} {e : HashEntry} {o : ObjId}
    (hb : b.Books host) (hx : b.heap.get? hash = some x) (hp : x.payload = .hash inside)
    (he : e ∈ inside.entries) (ho : o ∈ e.claims) (hu : b.Bounded) : b.heap.Live o := by
  refine hb.live_inside hx ?_ hu
  rw [hp]
  exact List.mem_flatMap.mpr ⟨e, he, ho⟩

/-- Looking a key up answers a new claim on its value. -/
theorem fetch_transfers (hash : ObjId) (key : String) :
    Transfers {hash} 0 (fetch hash key) (fun v => v.toList) := by
  intro b F hB hb
  rw [zero_add] at hb
  unfold fetch
  rw [ends_bind]
  refine ends_buckets hb (hb.live (hB (Multiset.mem_singleton_self hash)))
    (fun x inside hx hp => ?_) (fun _ _ h => h)
  rw [ends_bind, ends_get, ends_bind]
  have hinside : ∀ o ∈ ((find? b inside key).bind HashEntry.value).toList, b.Bounded →
      b.heap.Live o := by
    intro o ho
    rw [Option.mem_toList, Option.bind_eq_some_iff] at ho
    obtain ⟨e, he, hv⟩ := ho
    refine live_of_mem_entries hb hx hp (Buckets.mem_entries_of_find? he) ?_
    simp [HashEntry.claims, hv]
  exact (ends_forM_retain _ hb hinside).mono (fun _ _ h => h) (fun _ _ h => h.unwound)

/-- Unbinding a key gives back the claim on the key and answers the claim on the value. -/
theorem delete_transfers (hash : ObjId) (key : String) :
    Transfers {hash} 0 (delete hash key) (fun v => v.toList) := by
  intro b F hB hb
  rw [zero_add] at hb
  unfold delete
  rw [ends_bind]
  refine ends_buckets hb (hb.live (hB (Multiset.mem_singleton_self hash)))
    (fun x inside hx hp => ?_) (fun _ _ h => h)
  rw [ends_bind, ends_get]
  cases hf : find? b inside key with
  | none => simpa using hb
  | some e =>
    rw [ends_bind, ends_setPayload, ends_bind]
    exact ends_releaseAll (books_erase hb hx hp hf) (fun h => h) (fun _ _ h => h.unwound)

/-- Listing the entries answers a new claim on each key and on each value. -/
theorem entries_transfers (hash : ObjId) :
    Transfers {hash} 0 (entries hash) (fun es => (es.flatMap HashEntry.claims : List ObjId)) := by
  intro b F hB hb
  rw [zero_add] at hb
  unfold entries
  rw [ends_bind]
  refine ends_buckets hb (hb.live (hB (Multiset.mem_singleton_self hash)))
    (fun x inside hx hp => ?_) (fun _ _ h => h)
  rw [ends_bind, ends_get, ends_bind]
  have hinside : ∀ o ∈ (b.order.arrange inside.entries).flatMap HashEntry.claims, b.Bounded →
      b.heap.Live o := by
    intro o ho
    obtain ⟨e, he, ho⟩ := List.mem_flatMap.mp ho
    exact live_of_mem_entries hb hx hp (EntryOrder.mem_arrange.mp he) ho
  exact (ends_forM_retain _ hb hinside).mono (fun _ _ h => h) (fun _ _ h => h.unwound)

theorem contains_transfers (hash : ObjId) (key : String) :
    Transfers {hash} 0 (contains hash key) (fun _ => 0) :=
  (certify_transfers hash .hash Payload.hash?).bind fun _ _ _ _ hb => hb

theorem size_transfers (hash : ObjId) : Transfers {hash} 0 (size hash) (fun _ => 0) :=
  (certify_transfers hash .hash Payload.hash?).bind fun _ => .pure _ rfl

end HashObj

end ObjectBridge
