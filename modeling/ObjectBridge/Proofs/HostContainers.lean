import ObjectBridge.Proofs.HashMaps
import ObjectBridge.Proofs.OwnedTrees

set_option autoImplicit false

/-!
# Containers of host values (SPEC §11.3, §12.2)

A vector or hash of which the host has the only claim, and whose elements nobody else has a claim
on, stands for a list or a map of host values.  `Bridge.Mirrors` says so.  Calls with values that
have no objects in them keep it that way, do to the list or the map what their names say, and leave
every other such container as it is.
-/

namespace ObjectBridge

open Heap

/-- A finite map from keys to host values. -/
abbrev ValueMap := Finmap fun _ : String => Value

/-- A container of host values. -/
inductive Container where
  | list (items : List Value)
  | dict (entries : ValueMap)

namespace Container

/-- A list with the value at `tick` replaced, padded with nulls if it ends before. -/
def putAt (items : List Value) (tick : Nat) (v : Value) : List Value :=
  (items ++ List.replicate (tick + 1 - items.length) Value.null).set tick v

/-- What is at an index, or null. -/
def itemAt (items : List Value) (tick : Nat) : Value := items[tick]?.getD .null

/-- What a key is bound to, or null. -/
def entryOf (entries : ValueMap) (key : String) : Value := (entries.lookup key).getD .null

end Container

open Container

/-! ## Objects that stand for a container -/

namespace Bridge

variable {b b' : Bridge} {F : Multiset ObjId} {t : ObjId × ObjId} {claims : List ObjId}
  {o p : ObjId} {c : Container}

/-- The object stands for the container: there is a single claim on it and on everything under it,
and what it holds stands for the values. -/
def Mirrors (b : Bridge) (o : ObjId) : Container → Prop
  | .list items => ∃ elems, b.heap.get? o = some ⟨.vector, 1, .vector elems⟩ ∧
      List.Forall₂ b.heap.Carries elems items
  | .dict entries => ∃ inside m, b.heap.get? o = some ⟨.hash, 1, .hash inside⟩ ∧ inside.Shows b m ∧
      (∀ e ∈ inside.entries, b.heap.Single e.key) ∧
      ∀ key, Option.Rel b.heap.Carries (m.lookup key) (entries.lookup key)

theorem Mirrors.known (hm : b.Mirrors o c) :
    ∃ x, b.heap.get? o = some x ∧ x.cls.isImmortal = false ∧ x.count = 1 := by
  cases c with
  | list items =>
    obtain ⟨elems, hx, -⟩ := hm
    have hmortal : Class.vector.isImmortal = false := rfl
    exact ⟨_, hx, hmortal, rfl⟩
  | dict entries =>
    obtain ⟨inside, m, hx, -⟩ := hm
    have hmortal : Class.hash.isImmortal = false := rfl
    exact ⟨_, hx, hmortal, rfl⟩

end Bridge

theorem optionRel_of_mem {α β : Type} {R S : α → β → Prop} {x : Option α} {y : Option β}
    (hr : Option.Rel R x y) (himp : ∀ a ∈ x, ∀ b, R a b → S a b) : Option.Rel S x y := by
  cases hr with
  | none => exact .none
  | some hab => exact .some (himp _ rfl _ hab)

theorem isSome_eq_of_rel {α β : Type} {R : α → β → Prop} {x : Option α} {y : Option β}
    (hr : Option.Rel R x y) :
    x.isSome = y.isSome := by
  cases hr <;> rfl

namespace Buckets

variable {b : Bridge} {inside : Buckets} {m : KeyMap} {key : String} {value : Option ObjId}

/-- What the map binds is in an entry. -/
theorem Shows.mem_of_lookup (h : inside.Shows b m) (hm : m.lookup key = some value) :
    ∃ e ∈ inside.entries, e.value = value := by
  have hmem := KeyMap.mem_pairs.mpr hm
  rw [← h.pairs] at hmem
  obtain ⟨e, he, heq⟩ := Multiset.mem_map.mp hmem
  exact ⟨e, he, congrArg Prod.snd heq⟩

/-- What is in an entry is bound by the map. -/
theorem Shows.lookup_of_mem (h : inside.Shows b m) {e : HashEntry} (he : e ∈ inside.entries) :
    ∃ key, m.lookup key = some e.value := by
  obtain ⟨text, htext⟩ := h.content_key he
  refine ⟨text, KeyMap.mem_pairs.mp ?_⟩
  rw [← h.pairs, ← text_of_content htext]
  exact Multiset.mem_map.mpr ⟨e, he, rfl⟩

end Buckets

namespace Bridge

variable {b b' : Bridge} {F : Multiset ObjId} {t : ObjId × ObjId} {claims : List ObjId}
  {o p : ObjId} {c : Container}

/-- A value in a slot of the container has no claims on it but the slot's, and neither has what is
under it. -/
theorem Mirrors.exclusive (hm : b.Mirrors o c) : b.heap.Exclusive o := by
  obtain ⟨x, hx, himm, hone⟩ := hm.known
  have hself : b.heap.Single o := by
    intro y hy _
    rw [hx] at hy
    cases hy
    exact hone
  suffices hheld : ∀ q, b.heap.Holds o q → b.heap.Exclusive q by
    intro p hp
    rcases Relation.ReflTransGen.cases_head hp with rfl | ⟨q, hq, hqp⟩
    · exact hself
    · exact hheld q hq p hqp
  rintro q ⟨y, hy, hq⟩
  cases c with
  | list items =>
    obtain ⟨elems, hx, hall⟩ := hm
    rw [hx] at hy
    cases hy
    obtain ⟨v, -, hcarries⟩ := exists_of_mem_right hall.flip (Payload.mem_claims_vector.mp hq)
    exact hcarries.exclusive q rfl
  | dict entries =>
    obtain ⟨inside, m, hx, hshows, hkeys, hrel⟩ := hm
    rw [hx] at hy
    cases hy
    obtain ⟨e, he, hqe⟩ := Payload.mem_claims_hash.mp hq
    rcases hqe with rfl | hvalue
    · -- a key holds nothing
      obtain ⟨text, htext⟩ := hshows.content_key he
      intro p hp
      rcases Relation.ReflTransGen.cases_head hp with rfl | ⟨r, ⟨z, hz, hr⟩, -⟩
      · exact hkeys e he
      · rw [content_of_get? hz] at htext
        rw [(Prod.mk.inj (Option.some.inj htext)).2] at hr
        cases hr
    · obtain ⟨key, hkey⟩ := hshows.lookup_of_mem he
      have hcarries := hrel key
      rw [hkey, hvalue] at hcarries
      cases hentry : entries.lookup key with
      | none =>
        rw [hentry] at hcarries
        cases hcarries
      | some v =>
        rw [hentry] at hcarries
        cases hcarries with
        | some hcarries => exact hcarries.exclusive q rfl

/-- An intact object stands for the same container. -/
theorem Mirrors.intact (hm : b.Mirrors o c) (hi : b.heap.Intact b'.heap o)
    (hlen : b.heap.slots.length ≤ b'.heap.slots.length) (hsum : b'.keySum = b.keySum) :
    b'.Mirrors o c := by
  have hself := hi o .refl
  cases c with
  | list items =>
    obtain ⟨elems, hx, hall⟩ := hm
    refine ⟨elems, hself.trans hx, forall₂_of_mem hall fun e he v hv =>
      hv.intact hlen fun p hp => ?_⟩
    rw [Option.mem_def.mp hp] at he
    exact hi.of_holds ⟨_, hx, Payload.mem_claims_vector.mpr he⟩
  | dict entries =>
    obtain ⟨inside, m, hx, hshows, hkeys, hrel⟩ := hm
    have hkey : ∀ e ∈ inside.entries, b'.heap.get? e.key = b.heap.get? e.key := by
      intro e he
      exact hi _ (.single ⟨_, hx, Payload.mem_claims_hash.mpr ⟨e, he, .inl rfl⟩⟩)
    refine ⟨inside, m, hself.trans hx, hshows.congr hsum fun e he => content_of_get?_eq (hkey e he),
      ?_, fun key => ?_⟩
    · intro e he x hx' hm
      rw [hkey e he] at hx'
      exact hkeys e he x hx' hm
    · refine optionRel_of_mem (hrel key) fun value hvalue v hv => hv.intact hlen fun p hp => ?_
      obtain ⟨e, he, rfl⟩ := hshows.mem_of_lookup hvalue
      exact hi.of_holds ⟨_, hx, Payload.mem_claims_hash.mpr ⟨e, he, .inr hp⟩⟩

/-! ## Changes of the heap -/

theorem Mirrors.live (hm : b.Mirrors o c) : b.heap.Live o := by
  obtain ⟨x, hx, -⟩ := hm.known
  exact ⟨x, hx⟩

/-- The host's claim is the only one. -/
theorem Mirrors.alone (hm : b.Mirrors o c) (hs : b.Sound F) (ho : o ∈ F) :
    F.count o = 1 ∧ ∀ q, ¬ b.heap.Holds q o := by
  obtain ⟨x, hx, himm, hone⟩ := hm.known
  obtain ⟨hcount, hnot⟩ := hs.counted.not_held (Multiset.mem_add.mpr (.inl ho)) hx himm hone
  have hpos : 0 < F.count o := Multiset.count_pos.mpr ho
  rw [Multiset.count_add] at hcount
  exact ⟨by omega, hnot⟩

theorem Mirrors.built {v : Value} (hm : b.Mirrors o c) (hs : b.Sound F) (hfree : v.claims = []) :
    (b.built t v).Mirrors o c := by
  refine hm.intact (intact_built hs hfree hm.live) ?_ rfl
  rw [length_built]
  omega

theorem Mirrors.add (hm : b.Mirrors o c) (hs : b.Sound F) (x : Obj) :
    { b with heap := b.heap.add x }.Mirrors o c := by
  refine hm.intact (intact_add hs.counted hm.live x) ?_ rfl
  rw [Heap.add, List.length_append]
  omega

theorem Mirrors.swept (hm : b.Mirrors o c) (hs : b.Sound (claims + F)) (ho : o ∈ F) :
    (b.swept claims).Mirrors o c := by
  have hcounted := hs.counted
  rw [add_assoc] at hcounted
  refine hm.intact (intact_sweep hcounted hm.exclusive (Multiset.mem_add.mpr (.inl ho))) ?_ rfl
  exact (length_sweep b.heap claims).ge

/-- Another object is written to. -/
theorem Mirrors.setPayload (hm : b.Mirrors p c) (hn : ∀ q, ¬ b.heap.Holds q o) (hne : p ≠ o)
    (payload : Payload) :
    { b with heap := b.heap.setPayload o payload }.Mirrors p c := by
  refine hm.intact (intact_setPayload (not_reaches_of_not_held hn hne) payload) ?_ rfl
  exact (length_setPayload b.heap o payload).ge

theorem carries_setPayload {e : Option ObjId} {v : Value} (hv : b.heap.Carries e v)
    (hn : ∀ q, ¬ b.heap.Holds q o) (hne : e ≠ some o) (payload : Payload) :
    (b.heap.setPayload o payload).Carries e v := by
  refine hv.intact (length_setPayload b.heap o payload).ge fun p hp => ?_
  refine intact_setPayload (not_reaches_of_not_held hn ?_) payload
  rintro rfl
  exact hne hp

theorem carries_swept {e : Option ObjId} {v : Value} (hv : b.heap.Carries e v)
    (hs : b.Sound (claims + F)) (he : ∀ p ∈ e, p ∈ F) : (b.swept claims).heap.Carries e v := by
  have hcounted := hs.counted
  rw [add_assoc] at hcounted
  refine hv.intact (length_sweep b.heap claims).ge fun p hp => ?_
  exact intact_sweep hcounted (hv.exclusive p hp) (Multiset.mem_add.mpr (.inl (he p hp)))

/-- New elements are written to a vector. -/
theorem mirrors_list {elems elems' : List (Option ObjId)} {items : List Value}
    (hx : b.heap.get? o = some ⟨.vector, 1, .vector elems⟩) (hn : ∀ q, ¬ b.heap.Holds q o)
    (ho : some o ∉ elems') (hall : List.Forall₂ b.heap.Carries elems' items) :
    { b with heap := b.heap.setPayload o (.vector elems') }.Mirrors o (.list items) := by
  refine ⟨elems', ?_, forall₂_of_mem hall fun e he v hv =>
    carries_setPayload hv hn (fun heq => ho (heq ▸ he)) _⟩
  rw [get?_setPayload, if_pos rfl, hx]
  rfl

/-- New buckets are written to a hash. -/
theorem mirrors_dict {inside inside' : Buckets} {m : KeyMap} {entries : ValueMap}
    (hx : b.heap.get? o = some ⟨.hash, 1, .hash inside⟩) (hn : ∀ q, ¬ b.heap.Holds q o)
    (ho : ∀ key, m.lookup key ≠ some (some o)) (hshows : inside'.Shows b m)
    (hkeys : ∀ e ∈ inside'.entries, b.heap.Single e.key)
    (hrel : ∀ key, Option.Rel b.heap.Carries (m.lookup key) (entries.lookup key)) :
    { b with heap := b.heap.setPayload o (.hash inside') }.Mirrors o (.dict entries) := by
  -- the hash is none of the keys
  have hkey : ∀ e ∈ inside'.entries, (b.heap.setPayload o (.hash inside')).get? e.key =
      b.heap.get? e.key := by
    intro e he
    obtain ⟨text, htext⟩ := hshows.content_key he
    have hne : e.key ≠ o := by
      intro heq
      rw [heq, content_of_get? hx] at htext
      cases htext
    rw [get?_setPayload, if_neg hne]
  have hshows' : inside'.Shows { b with heap := b.heap.setPayload o (.hash inside') } m :=
    hshows.congr rfl fun e he => content_of_get?_eq (hkey e he)
  refine ⟨inside', m, ?_, hshows', fun e he x hx' => ?_, fun key => ?_⟩
  · rw [get?_setPayload, if_pos rfl, hx]
    rfl
  · exact hkeys e he x ((hkey e he).symm.trans hx')
  · refine optionRel_of_mem (hrel key) fun e he v hv =>
      carries_setPayload hv hn (fun heq => ho key ?_) _
    rw [← heq]
    exact he

/-! ## Calls on one container -/

/-- What a call on the container `o` has done: the host has the claims `given` besides those in `F`,
the object stands for `c`, and whatever else the host had in `F` stands for what it stood for. -/
structure Updated (F given : Multiset ObjId) (o : ObjId) (c : Container) (b b' : Bridge) :
    Prop where
  books : b'.Books (given + F)
  bounded : b'.Bounded
  mirrors : b'.Mirrors o c
  others : ∀ p ∈ F, p ≠ o → ∀ d, b.Mirrors p d → b'.Mirrors p d
  machine : b'.toMachine = b.toMachine

variable {given given' : Multiset ObjId} {b'' : Bridge} {d : Container}

theorem Updated.trans (h : Updated F given o c b b') (h' : Updated F given' o d b' b'') :
    Updated F given' o d b b'' :=
  ⟨h'.books, h'.bounded, h'.mirrors, fun p hp hne e he =>
    h'.others p hp hne e (h.others p hp hne e he), h'.machine.trans h.machine⟩

theorem Updated.sound (h : Updated F given o c b b') : b'.Sound (given + F) :=
  h.books.sound h.bounded

/-- Nothing has happened. -/
theorem updated_self (hb : b.Books F) (hu : b.Bounded) (hm : b.Mirrors o c) : Updated F 0 o c b b :=
  ⟨(zero_add F).symm ▸ hb, hu, hm, fun _ _ _ _ hd => hd, rfl⟩

/-- Nothing has happened but that the peak may have risen. -/
theorem updated_grown (hb : b.Books (given + F)) (hu : b.Bounded) (hm : b.Mirrors o c) {peak : Nat}
    (hpeak : peak < 2 ^ 32) : Updated F given o c b (b.grown b.heap peak) := by
  have hs := hb.sound hu
  have hkept : ∀ p d, b.Mirrors p d → (b.grown b.heap peak).Mirrors p d :=
    fun p d hd => hd.intact (fun _ _ => rfl) le_rfl rfl
  refine ⟨?_, hpeak, hkept o c hm, fun p _ _ d => hkept p d, rfl⟩
  exact ⟨⟨hb.started, hb.hooks, hb.truths, hb.classes⟩, fun _ =>
    ⟨hs.counted, hs.truths, hs.rooted, hs.buried⟩⟩

/-- The host has made a string. -/
theorem updated_add (hb : b.Books (given + F)) (hu : b.Bounded) (hm : b.Mirrors o c)
    (key : String) :
    Updated F (b.heap.next ::ₘ given) o c b
      { b with heap := b.heap.add ⟨.string, 1, .string key⟩ } := by
  have hs := hb.sound hu
  have hbooks : b.Books ((Payload.string key).claims + (given + F)) := by
    simpa [Payload.claims] using hb
  refine ⟨?_, hu, hm.add hs _, fun p _ _ d hd => hd.add hs _, rfl⟩
  rw [Multiset.cons_add]
  exact hbooks.add rfl

theorem updated_swept (hb : b.Books (claims + (given + F))) (hu : b.Bounded) (hm : b.Mirrors o c)
    (ho : o ∈ F) :
    Updated F given o c b (b.swept claims) := by
  have hs := hb.sound hu
  have hkept : ∀ p ∈ F, ∀ d, b.Mirrors p d → (b.swept claims).Mirrors p d :=
    fun p hp d hd => hd.swept hs (Multiset.mem_add.mpr (.inr hp))
  exact ⟨hb.sweep _, hu, hkept o ho c hm, fun p hp _ => hkept p hp, rfl⟩

/-- The host gives back what it has been given. -/
theorem Updated.released (h : Updated F claims o c b b') (ho : o ∈ F) :
    Updated F 0 o c b (b'.swept claims) := by
  have hbooks : b'.Books (claims + (0 + F)) := by
    rw [zero_add]
    exact h.books
  exact h.trans (updated_swept hbooks h.bounded h.mirrors ho)

/-- The host has no second claim on the container that it could put in. -/
theorem Mirrors.ne_given {e : Option ObjId} (hm : b.Mirrors o c) (hs : b.Sound (e.toList + F))
    (ho : o ∈ F) :
    e ≠ some o := by
  rintro rfl
  have hcount := (hm.alone hs (Multiset.mem_add.mpr (.inr ho))).1
  have hkept : 0 < F.count o := Multiset.count_pos.mpr ho
  rw [Option.toList_some, Multiset.count_add, Multiset.coe_count,
    List.count_singleton_self] at hcount
  omega

section Calls

variable {v : Value} {bad : Unwind → Bridge → Prop}

/-- A value without objects becomes an element that carries it. -/
theorem ends_converted {ok : Except ConversionError (Option ObjId) → Bridge → Prop} (hb : b.Books F)
    (hu : b.Bounded) (hm : b.Mirrors o c) (hv : v.WellFormed) (hfree : v.claims = [])
    (hok : ∀ e b₁, Updated F e.toList o c b b₁ → b₁.heap.Carries e v → ok (.ok e) b₁) :
    Ends (hostToForeign v none true) b ok bad := by
  obtain ⟨t, ht⟩ := Option.isSome_iff_exists.mp hb.truths
  have hs := hb.sound hu
  rw [ends_of_run_ok (run_hostToForeign hb hu ht hv (held_of_free hfree))]
  refine hok _ _ ⟨hb.built hu ht hv (held_of_free hfree), hu.built_free hfree, hm.built hs hfree,
    ?_, rfl⟩ ?_
  · exact fun p _ _ d hd => hd.built hs hfree
  · exact carries_built hs ht hv.distinct hfree

/-- What a container carries is claimed, converted and given back. -/
theorem ends_readClaimed {e : Option ObjId} (hb : b.Books F) (hu : b.Bounded) (hm : b.Mirrors o c)
    (hv : b.heap.Carries e v) :
    Ends (e.toList.forM retain) b (fun _ b₁ => Ends (withClaims e.toList (foreignToHost e)) b₁
      (fun w b' => (w.same v = true ∧ v.same w = true) ∧ Updated F 0 o c b b') bad) bad := by
  obtain ⟨w, hcopy, hsame⟩ := copies_claimed_of_carries (b := b) hv (hb.sound hu).counted
  have hends := hcopy b.ledger.peak hu
  rw [ends_bind] at hends
  refine hends.mono (fun _ b₁ hrest => ?_) (fun _ _ hbad => hbad.elim)
  refine hrest.mono (fun w' b' hend => ?_) (fun _ _ hbad => hbad.elim)
  obtain ⟨rfl, peak, hpeak, rfl⟩ := hend
  exact ⟨hsame, updated_grown ((zero_add F).symm ▸ hb) hu hm hpeak⟩

/-! ## Calls on a vector -/

section Vector

variable {items items' : List Value} {elems elems' : List (Option ObjId)}

theorem ends_slots_known (hx : b.heap.get? o = some ⟨.vector, 1, .vector elems⟩)
    {ok : List (Option ObjId) → Bridge → Prop} :
    Ends (VectorObj.slots o) b ok bad ↔ ok elems b := by
  have hcls : Class.vector.isSubclassOf .vector = true := rfl
  have hview : (Payload.vector elems).vector? = some elems := rfl
  exact ends_certify_known hx hcls hview

theorem not_mem_elems (hx : b.heap.get? o = some ⟨.vector, 1, .vector elems⟩)
    (hn : ∀ q, ¬ b.heap.Holds q o) :
    some o ∉ elems := fun hmem => hn o ⟨_, hx, Payload.mem_claims_vector.mpr hmem⟩

/-- Elements are exchanged: the host has the claims on those that were taken out. -/
theorem updated_list (hb : b.Books (given + F)) (hu : b.Bounded) (ho : o ∈ F)
    (hx : b.heap.get? o = some ⟨.vector, 1, .vector elems⟩) (hm : b.Mirrors o c)
    (hnew : ∀ e ∈ elems', e ∈ elems ∨ e ≠ some o) (hall : List.Forall₂ b.heap.Carries elems' items')
    (hclaims : ((Payload.vector elems').claims : Multiset ObjId) + given' =
      (Payload.vector elems).claims + given) :
    Updated F given' o (.list items') b
      { b with heap := b.heap.setPayload o (.vector elems') } := by
  obtain ⟨-, hnot⟩ := hm.alone (hb.sound hu) (Multiset.mem_add.mpr (.inr ho))
  have hself : some o ∉ elems' := fun hmem =>
    (hnew _ hmem).elim (not_mem_elems hx hnot) fun hne => hne rfl
  refine ⟨hb.setPayload hx (VectorObj.layout_ne rfl) ?_, hu, mirrors_list hx hnot hself hall,
    fun p _ hne d hd => ?_, rfl⟩
  · rw [← add_assoc, hclaims, add_assoc]
  · exact hd.setPayload hnot hne _

theorem ends_pushValue (hb : b.Books F) (hu : b.Bounded) (ho : o ∈ F)
    (hm : b.Mirrors o (.list items)) (hv : v.WellFormed) (hfree : v.claims = []) :
    Ends (VectorObj.pushValue o v) b
      (fun r b' => r = .ok () ∧ Updated F 0 o (.list (items ++ [v])) b b') bad := by
  unfold VectorObj.pushValue
  rw [ends_bind]
  refine ends_converted hb hu hm hv hfree fun e b₁ hup hcarries => ?_
  obtain ⟨elems, hx, hall⟩ := hup.mirrors
  have hne := hup.mirrors.ne_given hup.sound ho
  rw [ends_bind, ends_push_known hx (by rfl) rfl]
  refine ⟨rfl,
    hup.trans (updated_list hup.books hup.bounded ho hx hup.mirrors (fun d hd => ?_) ?_ ?_)⟩
  · refine (List.mem_append.mp hd).imp_right fun hd => ?_
    rw [List.mem_singleton.mp hd]
    exact hne
  · exact List.rel_append hall (.cons hcarries .nil)
  · rw [VectorObj.claims_append, add_zero]

theorem forall₂_storeAt {h : Heap} {e : Option ObjId} (hall : List.Forall₂ h.Carries elems items)
    (hv : h.Carries e v) (tick : Nat) :
    List.Forall₂ h.Carries (VectorObj.storeAt elems tick e) (putAt items tick v) := by
  have hpad : ∀ n, List.Forall₂ h.Carries (List.replicate n none) (List.replicate n .null) := by
    intro n
    induction n with
    | zero => exact .nil
    | succ n ih => exact .cons (carries_null h) ih
  have hset : ∀ {es : List (Option ObjId)} {vs : List Value} (tick : Nat),
      List.Forall₂ h.Carries es vs →
      List.Forall₂ h.Carries (es.set tick e) (vs.set tick v) := by
    intro es vs tick hes
    induction hes generalizing tick with
    | nil => exact .nil
    | cons hhead htail ih =>
      cases tick with
      | zero => exact .cons hv htail
      | succ tick => exact .cons hhead (ih tick)
  unfold VectorObj.storeAt putAt
  rw [hall.length_eq]
  exact hset tick (List.rel_append hall (hpad _))

theorem mem_storeAt {e d : Option ObjId} {tick : Nat} (hd : d ∈ VectorObj.storeAt elems tick e) :
    d ∈ elems ∨ d = none ∨ d = e := by
  rcases List.mem_or_eq_of_mem_set hd with hmem | heq
  · exact (List.mem_append.mp hmem).imp_right fun hpad => .inl (List.eq_of_mem_replicate hpad)
  · exact .inr (.inr heq)

/-- Storing at an index that the vector has or can grow to. -/
theorem ends_storeValue {tick : Nat} (hb : b.Books F) (hu : b.Bounded) (ho : o ∈ F)
    (hm : b.Mirrors o (.list items)) (hv : v.WellFormed) (hfree : v.claims = [])
    (hmax : tick + 1 ≤ VectorObj.maxSize)
    (hroom : tick < items.length ∨ b.allocates (tick + 1) = true) :
    Ends (VectorObj.storeValue o tick v) b
      (fun r b' => r = .ok () ∧ Updated F 0 o (.list (putAt items tick v)) b b') bad := by
  unfold VectorObj.storeValue
  rw [ends_bind]
  refine ends_converted hb hu hm hv hfree fun e b₁ hup hcarries => ?_
  obtain ⟨elems, hx, hall⟩ := hup.mirrors
  have hne := hup.mirrors.ne_given hup.sound ho
  have hfits : ¬ (elems.length < tick + 1 ∧ (!b₁.allocates (tick + 1)) = true) := by
    rintro ⟨hlt, hno⟩
    rw [hall.length_eq] at hlt
    rw [congrArg Machine.allocates hup.machine] at hno
    rcases hroom with hin | hyes
    · omega
    · rw [hyes] at hno
      cases hno
  -- the element is exchanged, and the claim on the old one given back
  have hexchange : Updated F (elems[tick]?).join.toList o (.list (putAt items tick v)) b₁
      { b₁ with heap := b₁.heap.setPayload o (.vector (VectorObj.storeAt elems tick e)) } := by
    refine updated_list hup.books hup.bounded ho hx hup.mirrors
      (fun d hd => ?_) (forall₂_storeAt hall hcarries tick)
      (VectorObj.claims_storeAt elems tick e)
    rcases mem_storeAt hd with hold | rfl | rfl
    · exact .inl hold
    · exact .inr nofun
    · exact .inr hne
  unfold VectorObj.store
  rw [ends_bind, if_neg (not_lt.mpr hmax), ends_bind, ends_losing, ends_slots_known hx, ends_bind,
    ends_get, if_neg hfits, ends_bind,
    ends_setPayload, ends_releaseAll_sound hexchange.sound]
  exact ⟨rfl, hup.trans (hexchange.released ho)⟩

theorem carries_itemAt {h : Heap} (hall : List.Forall₂ h.Carries elems items) (tick : Nat) :
    h.Carries (elems[tick]?).join (itemAt items tick) := by
  unfold itemAt
  by_cases ht : tick < elems.length
  · have ht' : tick < items.length := hall.length_eq ▸ ht
    rw [List.getElem?_eq_getElem ht, List.getElem?_eq_getElem ht']
    exact hall.get ht ht'
  · have ht' : ¬ tick < items.length := hall.length_eq ▸ ht
    rw [List.getElem?_eq_none (not_lt.mp ht), List.getElem?_eq_none (not_lt.mp ht')]
    exact carries_null h

theorem ends_getValue_list (hb : b.Books F) (hu : b.Bounded) (hm : b.Mirrors o (.list items))
    (tick : Nat) :
    Ends (VectorObj.getValue o tick) b
      (fun w b' => (w.same (itemAt items tick) = true ∧ (itemAt items tick).same w = true) ∧
        Updated F 0 o (.list items) b b') bad := by
  obtain ⟨elems, hx, hall⟩ := id hm
  unfold VectorObj.getValue VectorObj.fetch
  rw [ends_bind, ends_bind, ends_slots_known hx, ends_bind]
  exact ends_readClaimed hb hu hm (carries_itemAt hall tick)

theorem ends_size_list (hm : b.Mirrors o (.list items)) :
    Ends (VectorObj.size o) b (fun n b' => n = items.length ∧ b' = b) bad := by
  obtain ⟨elems, hx, hall⟩ := hm
  unfold VectorObj.size
  rw [ends_bind, ends_slots_known hx]
  exact ⟨hall.length_eq, rfl⟩

end Vector

/-! ## Calls on a hash -/

section Hash

variable {entries entries' : ValueMap} {inside inside' : Buckets} {m m' : KeyMap} {key : String}

theorem lookup_ne_self (hx : b.heap.get? o = some ⟨.hash, 1, .hash inside⟩)
    (hshows : inside.Shows b m) (hn : ∀ q, ¬ b.heap.Holds q o) (key : String) :
    m.lookup key ≠ some (some o) := by
  intro hlookup
  obtain ⟨e, he, hvalue⟩ := hshows.mem_of_lookup hlookup
  exact hn o ⟨_, hx, Payload.mem_claims_hash.mpr ⟨e, he, .inr hvalue⟩⟩

theorem insert_ne_self {value : Option ObjId} (hold : ∀ k, m.lookup k ≠ some (some o))
    (hne : value ≠ some o) (key k : String) : (m.insert key value).lookup k ≠ some (some o) := by
  by_cases hk : k = key
  · rw [hk, Finmap.lookup_insert]
    exact fun heq => hne (Option.some.inj heq)
  · rw [Finmap.lookup_insert_of_ne _ hk]
    exact hold k

theorem erase_ne_self (hold : ∀ k, m.lookup k ≠ some (some o)) (key k : String) :
    (m.erase key).lookup k ≠ some (some o) := by
  by_cases hk : k = key
  · rw [hk, Finmap.lookup_erase]
    exact nofun
  · rw [Finmap.lookup_erase_ne hk]
    exact hold k

theorem rel_insert {h : Heap} {e : Option ObjId}
    (hrel : ∀ k, Option.Rel h.Carries (m.lookup k) (entries.lookup k)) (hv : h.Carries e v)
    (key k : String) :
    Option.Rel h.Carries ((m.insert key e).lookup k) ((entries.insert key v).lookup k) := by
  by_cases hk : k = key
  · rw [hk, Finmap.lookup_insert, Finmap.lookup_insert]
    exact .some hv
  · rw [Finmap.lookup_insert_of_ne _ hk, Finmap.lookup_insert_of_ne _ hk]
    exact hrel k

theorem rel_erase {h : Heap} (hrel : ∀ k, Option.Rel h.Carries (m.lookup k) (entries.lookup k))
    (key k : String) :
    Option.Rel h.Carries ((m.erase key).lookup k) ((entries.erase key).lookup k) := by
  by_cases hk : k = key
  · rw [hk, Finmap.lookup_erase, Finmap.lookup_erase]
    exact .none
  · rw [Finmap.lookup_erase_ne hk, Finmap.lookup_erase_ne hk]
    exact hrel k

/-- A key that is not in the hash is not bound. -/
theorem lookup_of_not_found (hshows : inside.Shows b m)
    (hrel : ∀ key, Option.Rel b.heap.Carries (m.lookup key) (entries.lookup key))
    (hf : HashObj.find? b inside key = none) : entries.lookup key = none := by
  rw [← Option.not_isSome_iff_eq_none, ← isSome_eq_of_rel (hrel key), ← hshows.find? key, hf]
  exact Bool.false_ne_true

/-- Entries are exchanged. -/
theorem updated_dict (hb : b.Books (given + F)) (hu : b.Bounded) (ho : o ∈ F)
    (hx : b.heap.get? o = some ⟨.hash, 1, .hash inside⟩) (hm : b.Mirrors o c)
    (hshows : inside'.Shows b m) (hkeys : ∀ e ∈ inside'.entries, b.heap.Single e.key)
    (hnew : ∀ key, m.lookup key ≠ some (some o))
    (hrel : ∀ key, Option.Rel b.heap.Carries (m.lookup key) (entries.lookup key))
    (hbooks : { b with heap := b.heap.setPayload o (.hash inside') }.Books (given' + F)) :
    Updated F given' o (.dict entries) b
      { b with heap := b.heap.setPayload o (.hash inside') } := by
  obtain ⟨-, hnot⟩ := hm.alone (hb.sound hu) (Multiset.mem_add.mpr (.inr ho))
  exact ⟨hbooks, hu, mirrors_dict hx hnot hnew hshows hkeys hrel,
    fun p _ hne d hd => hd.setPayload hnot hne _, rfl⟩

/-- A key that was not bound is bound. -/
theorem updated_bound {value : Option ObjId} (hb : b.Books (value.toList + F)) (hu : b.Bounded)
    (ho : o ∈ F) (hm : b.Mirrors o (.dict entries))
    (hx : b.heap.get? o = some ⟨.hash, 1, .hash inside⟩) (hv : b.heap.Carries value v)
    (hfree : entries.lookup key = none) :
    Updated F 0 o (.dict (entries.insert key v)) b
      { b with heap := (b.heap.add ⟨.string, 1, .string key⟩).setPayload o
                 (.hash (inside.add (b.keySum key) ⟨b.heap.next, value⟩)) } := by
  have hadd := updated_add hb hu hm key
  obtain ⟨inside', m, hx', hshows, hkeys, hrel⟩ := id hadd.mirrors
  obtain rfl : inside' = inside := by
    change (b.heap.add ⟨.string, 1, .string key⟩).get? o = _ at hx'
    rw [get?_add, if_neg (ne_next_of_get? hx), hx] at hx'
    cases hx'
    rfl
  obtain ⟨-, hnot⟩ := hadd.mirrors.alone hadd.sound (Multiset.mem_add.mpr (.inr ho))
  have hunbound : m.lookup key = none := by
    rw [← Option.not_isSome_iff_eq_none, isSome_eq_of_rel (hrel key), hfree]
    simp
  have hv' : (b.heap.add ⟨.string, 1, .string key⟩).Carries value v := by
    refine hv.intact ?_ fun p hp => intact_add (hb.sound hu).counted ?_ _
    · rw [Heap.add, List.length_append]
      omega
    · rw [Option.mem_def.mp hp] at hv
      exact hv.live
  have hnext : (b.heap.add ⟨.string, 1, .string key⟩).get? b.heap.next =
      some ⟨.string, 1, .string key⟩ := by
    rw [get?_add, if_pos rfl]
  refine hadd.trans (updated_dict hadd.books hadd.bounded ho hx' hadd.mirrors
    (hshows.add (content_of_get? hnext) hunbound value) (fun d hd => ?_)
    (insert_ne_self (lookup_ne_self hx' hshows hnot) (hm.ne_given (hb.sound hu) ho) key)
    (rel_insert hrel hv' key) ?_)
  · rcases Buckets.mem_entries_add.mp hd with hold | rfl
    · exact hkeys d hold
    · intro x hx _
      rw [show x = _ from Option.some.inj (hx.symm.trans hnext)]
  · rw [zero_add]
    exact HashObj.books_add hb hx rfl

theorem ends_storeValue_dict (hb : b.Books F) (hu : b.Bounded) (ho : o ∈ F)
    (hm : b.Mirrors o (.dict entries)) (hv : v.WellFormed) (hfree : v.claims = []) (key : String) :
    Ends (HashObj.storeValue o key v) b
      (fun r b' => r = .ok () ∧ Updated F 0 o (.dict (entries.insert key v)) b b') bad := by
  unfold HashObj.storeValue
  rw [ends_bind]
  refine ends_converted hb hu hm hv hfree fun value b₁ hup hcarries => ?_
  obtain ⟨inside, m, hx, hshows, hkeys, hrel⟩ := id hup.mirrors
  obtain ⟨-, hnot⟩ := hup.mirrors.alone hup.sound (Multiset.mem_add.mpr (.inr ho))
  have hne := hup.mirrors.ne_given hup.sound ho
  unfold HashObj.store
  rw [ends_bind, ends_bind, ends_losing, HashObj.ends_buckets_known (content_of_get? hx) rfl,
    ends_bind, ends_get]
  cases hf : HashObj.find? b₁ inside key with
  | some e =>
    have hexchange : Updated F e.value.toList o (.dict (entries.insert key v)) b₁
        { b₁ with
          heap := b₁.heap.setPayload o
            (.hash (inside.replace (b₁.keySum key) (b₁.heap.hasText key) value)) } := by
      refine updated_dict hup.books hup.bounded ho hx hup.mirrors (hshows.replace hf value)
        (fun d hd => ?_)
        (insert_ne_self (lookup_ne_self hx hshows hnot) hne key) (rel_insert hrel hcarries key)
        (HashObj.books_replace hup.books hx rfl hf)
      obtain ⟨d', hd', hkey⟩ := Buckets.mem_entries_replace hf hd
      exact hkey ▸ hkeys d' hd'
    rw [ends_bind, ends_setPayload, ends_releaseAll_sound hexchange.sound]
    exact ⟨rfl, hup.trans (hexchange.released ho)⟩
  | none =>
    unfold StringObj.new
    rw [ends_bind, ends_makeObj (by rfl), ends_setPayload]
    have hunbound := lookup_of_not_found hshows hrel hf
    exact ⟨rfl, hup.trans (updated_bound hup.books hup.bounded ho hup.mirrors hx hcarries hunbound)⟩

theorem carries_entryOf {h : Heap}
    (hrel : ∀ key, Option.Rel h.Carries (m.lookup key) (entries.lookup key)) (key : String) :
    h.Carries (m.lookup key).join (entryOf entries key) := by
  have hkey := hrel key
  unfold entryOf
  generalize m.lookup key = x at hkey ⊢
  generalize entries.lookup key = y at hkey ⊢
  cases hkey with
  | none => exact carries_null h
  | some hv => exact hv

theorem ends_getValue_dict (hb : b.Books F) (hu : b.Bounded) (hm : b.Mirrors o (.dict entries))
    (key : String) :
    Ends (HashObj.getValue o key) b
      (fun w b' => (w.same (entryOf entries key) = true ∧ (entryOf entries key).same w = true) ∧
        Updated F 0 o (.dict entries) b b') bad := by
  obtain ⟨inside, m, hx, hshows, -, hrel⟩ := id hm
  have hvalue : (HashObj.find? b inside key).bind HashEntry.value = (m.lookup key).join := by
    rw [← hshows.find? key]
    cases HashObj.find? b inside key <;> rfl
  unfold HashObj.getValue HashObj.fetch
  rw [ends_bind, ends_bind, HashObj.ends_buckets_known (content_of_get? hx) rfl, ends_bind,
    ends_get, ends_bind, hvalue]
  exact ends_readClaimed hb hu hm (carries_entryOf hrel key)

theorem ends_contains_dict (hm : b.Mirrors o (.dict entries)) (key : String) :
    Ends (HashObj.contains o key) b (fun r b' => r = decide (key ∈ entries) ∧ b' = b) bad := by
  obtain ⟨inside, m, hx, hshows, -, hrel⟩ := hm
  unfold HashObj.contains
  rw [ends_bind, HashObj.ends_buckets_known (content_of_get? hx) rfl, ends_bind, ends_get]
  refine ⟨?_, rfl⟩
  rw [Bool.eq_iff_iff, decide_eq_true_iff, ← Finmap.lookup_isSome, ← isSome_eq_of_rel (hrel key),
    ← hshows.find? key, Option.isSome_map]

theorem ends_size_dict (hm : b.Mirrors o (.dict entries)) :
    Ends (HashObj.size o) b (fun n b' => n = entries.keys.card ∧ b' = b) bad := by
  obtain ⟨inside, m, hx, hshows, -, hrel⟩ := hm
  have hkeys : m.keys = entries.keys := by
    ext key
    rw [Finmap.mem_keys, Finmap.mem_keys, ← Finmap.lookup_isSome, ← Finmap.lookup_isSome,
      isSome_eq_of_rel (hrel key)]
  have hsize : inside.size = m.keys.card := by
    rw [← KeyMap.card_pairs, ← hshows.pairs, Buckets.pairs, Multiset.card_map]
    rfl
  unfold HashObj.size
  rw [ends_bind, HashObj.ends_buckets_known (content_of_get? hx) rfl]
  exact ⟨hsize.trans (congrArg Finset.card hkeys), rfl⟩

/-- The value of a key is handed to the host. -/
theorem ends_delete_dict (hb : b.Books F) (hu : b.Bounded) (ho : o ∈ F)
    (hm : b.Mirrors o (.dict entries)) (key : String) :
    Ends (HashObj.delete o key) b (fun value b' => b'.heap.Carries value (entryOf entries key) ∧
      Updated F value.toList o (.dict (entries.erase key)) b b') bad := by
  obtain ⟨inside, m, hx, hshows, hkeys, hrel⟩ := id hm
  obtain ⟨-, hnot⟩ := hm.alone (hb.sound hu) ho
  have hcarries := carries_entryOf hrel key
  rw [← hshows.find? key] at hcarries
  have hb₀ : b.Books (0 + F) := by rwa [zero_add]
  unfold HashObj.delete
  rw [ends_bind, HashObj.ends_buckets_known (content_of_get? hx) rfl, ends_bind, ends_get]
  cases hf : HashObj.find? b inside key with
  | none =>
    rw [hf] at hcarries
    rw [KeyMap.erase_of_lookup (lookup_of_not_found hshows hrel hf)]
    exact ⟨hcarries, updated_self hb hu hm⟩
  | some e =>
    rw [hf] at hcarries
    have hne : e.value ≠ some o := by
      intro heq
      refine lookup_ne_self hx hshows hnot key ?_
      rw [← hshows.find? key, hf, Option.map_some, heq]
    have herase :
        Updated F (([e.key] : List ObjId) + e.value.toList) o (.dict (entries.erase key)) b
        { b with
          heap := b.heap.setPayload o
            (.hash (inside.erase (b.keySum key) (b.heap.hasText key))) } := by
      refine updated_dict hb₀ hu ho hx hm (hshows.erase hf)
        (fun d hd => hkeys d (Buckets.mem_entries_erase hf hd)) ?_
        (rel_erase hrel key) ?_
      · exact erase_ne_self (lookup_ne_self hx hshows hnot) key
      · rw [add_assoc]
        exact HashObj.books_erase hb hx rfl hf
    have hvalue :=
      carries_setPayload hcarries hnot hne
      (.hash (inside.erase (b.keySum key) (b.heap.hasText key)))
    have hbooks := herase.books
    rw [add_assoc] at hbooks
    have hs := hbooks.sound hu
    rw [ends_bind, ends_setPayload, ends_bind, ends_releaseAll_sound hs]
    refine ⟨carries_swept hvalue hs fun p hp => ?_,
      herase.trans (updated_swept hbooks hu herase.mirrors ho)⟩
    exact Multiset.mem_add.mpr (.inl (Option.mem_toList.mpr hp))

theorem ends_removeValue (hb : b.Books F) (hu : b.Bounded) (ho : o ∈ F)
    (hm : b.Mirrors o (.dict entries)) (key : String) :
    Ends (HashObj.removeValue o key) b
      (fun w b' => (w.same (entryOf entries key) = true ∧ (entryOf entries key).same w = true) ∧
        Updated F 0 o (.dict (entries.erase key)) b b') bad := by
  unfold HashObj.removeValue
  rw [ends_bind]
  refine (ends_delete_dict hb hu ho hm key).mono (fun value b₁ hend => ?_) (fun _ _ hbad => hbad)
  obtain ⟨hcarries, hup⟩ := hend
  obtain ⟨w, hcopy, hsame⟩ := copies_of_carries (b := b₁) hcarries hup.sound.counted
  rw [ends_withClaims]
  refine (hcopy b₁.ledger.peak hup.bounded).mono (fun w' b₂ hread => ?_) (fun _ _ hbad => hbad.elim)
  obtain ⟨rfl, peak, hpeak, rfl⟩ := hread
  have hread := hup.trans (updated_grown hup.books hup.bounded hup.mirrors hpeak)
  rw [ends_releaseAll_sound hread.sound]
  exact ⟨hsame, hread.released ho⟩

end Hash

end Calls

end Bridge

end ObjectBridge
