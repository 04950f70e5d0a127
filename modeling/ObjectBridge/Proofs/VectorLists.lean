import ObjectBridge.Proofs.CrowdedStates
import ObjectBridge.Proofs.DestroyCascade
import ObjectBridge.Proofs.Histories

set_option autoImplicit false

/-!
# Vectors as lists (SPEC §3, §11.3)

Calls on a vector go as on a list of nullable objects.  The list for `store` is given place by
place: it is as long as before or just long enough for the new element, and every place but that of
the new element holds what it held, or null if there was no such place.

With the answers goes what every call does to the heap.  The only claims that calls give back are
the one on an element that is replaced and, if a vector cannot grow so far, the one on the element
that was to be stored; what follows from giving back one claim is a `Cascade`.  Everything else
stays as it is, so that a refused `store` leaves nothing behind but its exception.
-/

namespace ObjectBridge

open Heap

/-! ## One claim given back -/

namespace Heap

variable {h h' : Heap} {vec o : ObjId} {l : List (Option ObjId)} {out : Multiset ObjId}
  {e : Option ObjId}

/-- The claim on an element is given back, if there is one, while the claims `out` stay held
outside. -/
def GivesBack (h h' : Heap) (out : Multiset ObjId) : Option ObjId → Prop
  | none => h' = h
  | some o => (h.Immortal o → h' = h) ∧ (¬ h.Immortal o → ∃ gone, h.Cascade h' out o gone)

theorem givesBack_sweep (hc : h.Counted (e.toList + out)) :
    h.GivesBack (h.sweep e.toList).heap out e := by
  cases e with
  | none => simp [GivesBack, Heap.sweep]
  | some o =>
    have hcons : h.Counted (o ::ₘ out) := hc
    obtain ⟨x, hx⟩ := hcons.live_out (Multiset.mem_cons_self o out)
    refine ⟨?_, fun hmortal => ?_⟩
    · rintro ⟨y, hy, hm⟩
      rw [Option.toList_some, sweep_cons_immortal [] hy hm, Heap.sweep]
    · exact ⟨_, cascade_sweep hcons hx (Bool.eq_false_iff.mpr fun hm => hmortal ⟨x, hx, hm⟩)⟩

/-- The object is a vector with the elements `l`. -/
def Lists (h : Heap) (vec : ObjId) (l : List (Option ObjId)) : Prop :=
  ∃ x, h.get? vec = some x ∧ x.cls.isSubclassOf .vector = true ∧ x.payload = .vector l

theorem Lists.setPayload (hl : h.Lists vec l) (l' : List (Option ObjId)) :
    (h.setPayload vec (.vector l')).Lists vec l' := by
  obtain ⟨x, hx, hc, -⟩ := hl
  refine ⟨{ x with payload := .vector l' }, ?_, hc, rfl⟩
  rw [get?_setPayload, if_pos rfl, hx, Option.map_some]

theorem Lists.fades (hl : h.Lists vec l) (hf : h.Fades h') (hlive : h'.Live vec) :
    h'.Lists vec l := by
  obtain ⟨x, hx, hc, hp⟩ := hl
  obtain ⟨y, hy⟩ := hlive
  obtain ⟨z, hz, hcls, hpay⟩ := hf.from_old vec y hy
  obtain rfl := Option.some.inj (hx.symm.trans hz)
  exact ⟨y, hy, hcls ▸ hc, hpay.trans hp⟩

theorem Lists.add (hl : h.Lists vec l) (x : Obj) : (h.add x).Lists vec l := by
  obtain ⟨y, hy, hc, hp⟩ := hl
  exact ⟨y, by rw [get?_add, if_neg (ne_next_of_get? hy), hy], hc, hp⟩

theorem Lists.retainAll (hl : h.Lists vec l) (claims : List ObjId) :
    (h.retainAll claims).Lists vec l := by
  obtain ⟨x, hx, hc, hp⟩ := hl
  refine ⟨_, by rw [get?_retainAll, hx, Option.map_some], ?_, ?_⟩
  · rw [cls_iterate_retained, hc]
  · rw [payload_iterate_retained, hp]

end Heap

namespace VectorObj

/-! ## Calls and their meaning -/

/-- A call on a vector. -/
inductive Call where
  | push (elem : Option ObjId)
  | store (tick : Nat) (elem : Option ObjId)
  | fetch (tick : Nat)
  | size
  | elements
  deriving DecidableEq, Repr

/-- What a call answers. -/
inductive Answer where
  | done
  | element (e : Option ObjId)
  | count (n : Nat)
  | elements (es : List (Option ObjId))
  deriving DecidableEq, Repr

/-- The claims that the call takes over. -/
def Call.takes : Call → List ObjId
  | push elem => elem.toList
  | store _ elem => elem.toList
  | _ => []

/-- The call, with the claims that it gives. -/
def Call.run (vec : ObjId) : Call → Run (Answer × List ObjId)
  | push elem => do
    VectorObj.push vec elem
    return (.done, [])
  | store tick elem => do
    VectorObj.store vec tick elem
    return (.done, [])
  | fetch tick => do
    let e ← VectorObj.fetch vec tick
    return (.element e, e.toList)
  | size => return (.count (← VectorObj.size vec), [])
  | elements => do
    let es ← VectorObj.elements vec
    return (.elements es, es.filterMap id)

/-- The claims that the call adds, if the vector has the elements `l`. -/
def Call.claims (l : List (Option ObjId)) : Call → List ObjId
  | fetch tick => (l[tick]?).join.toList
  | elements => l.filterMap id
  | _ => []

/-- The calls on a vector. -/
def interface (vec : ObjId) : Interface Call Answer where
  takes := Call.takes
  run := Call.run vec
  adds c b := ((b.heap.content vec).bind fun x => x.2.vector?).elim [] c.claims

/-- The list with `elem` at `tick`. -/
def put (l : List (Option ObjId)) (tick : Nat) (elem : Option ObjId) : List (Option ObjId) :=
  (List.range (max l.length (tick + 1))).map fun i => if i = tick then elem else (l[i]?).join

/-- A vector with the elements `l` cannot have a place `tick`: no vector can be so long, or there is
no storage to make this one so long. -/
def Refused (allocates : Nat → Bool) (l : List (Option ObjId)) (tick : Nat) : Prop :=
  maxSize < tick + 1 ∨ (l.length < tick + 1 ∧ allocates (tick + 1) = false)

instance (allocates : Nat → Bool) (l : List (Option ObjId)) (tick : Nat) :
    Decidable (Refused allocates l tick) :=
  inferInstanceAs (Decidable (_ ∨ _))

/-- What the call answers and does, said of a list, where there is storage as `allocates` says. -/
def Call.meaning (allocates : Nat → Bool) (l : List (Option ObjId)) :
    Call → Except Complaint Answer × List (Option ObjId)
  | push elem => (.ok .done, l ++ [elem])
  | store tick elem =>
    if Refused allocates l tick then (.error (.raised (some "Vector index overflow")), l)
    else (.ok .done, put l tick elem)
  | fetch tick => (.ok (.element (l[tick]?).join), l)
  | size => (.ok (.count l.length), l)
  | elements => (.ok (.elements l), l)

/-- What the call does to the heap, if the vector has the elements `l` and the claims `out` are held
outside. -/
def Call.Effect (allocates : Nat → Bool) (vec : ObjId) (l : List (Option ObjId))
    (out : Multiset ObjId) (h h' : Heap) : Call → Prop
  | push elem => h' = h.setPayload vec (.vector (l ++ [elem]))
  | store tick elem =>
    if Refused allocates l tick then
      ∃ h₁, h.GivesBack h₁ out elem ∧ h' = h₁.add ⟨.err, 1, .err "Vector index overflow"⟩
    else (h.setPayload vec (.vector (put l tick elem))).GivesBack h' out (l[tick]?).join
  | fetch tick => h' = h.retainAll (l[tick]?).join.toList
  | size => h' = h
  | elements => h' = h.retainAll (l.filterMap id)

/-- What calls on a vector mean for the list of its elements, where there is storage as `allocates`
says. -/
def elementList (allocates : Nat → Bool) (vec : ObjId) :
    Meaning Call Answer (List (Option ObjId)) where
  step l c := c.meaning allocates l
  Shows b l := b.allocates = allocates ∧ b.heap.Lists vec l
  Effect l c host b b' := c.Effect allocates vec l (host + b.ledger.lost) b.heap b'.heap

/-- Padding a list and replacing an element gives the list place by place. -/
theorem storeAt_eq_put (l : List (Option ObjId)) (tick : Nat) (elem : Option ObjId) :
    storeAt l tick elem = put l tick elem := by
  have hlength : (l ++ List.replicate (tick + 1 - l.length) none).length =
      max l.length (tick + 1) := by
    rw [List.length_append, List.length_replicate]
    omega
  refine List.ext_getElem
    (by rw [storeAt, put, List.length_set, hlength, List.length_map, List.length_range])
    fun i hi _ => ?_
  rw [storeAt, List.length_set] at hi
  simp only [storeAt, put, List.getElem_set, List.getElem_map, List.getElem_range]
  by_cases ht : tick = i
  · rw [if_pos ht, if_pos ht.symm]
  · rw [if_neg ht, if_neg (Ne.symm ht), List.getElem_append]
    split
    · rename_i hl
      rw [List.getElem?_eq_getElem hl]
      rfl
    · rename_i hl
      rw [List.getElem_replicate, List.getElem?_eq_none (by omega)]
      rfl

theorem Call.run_transfers (vec : ObjId) (c : Call) :
    Transfers {vec} c.takes (c.run vec) (fun r => r.2) := by
  cases c with
  | push elem => exact (push_transfers vec elem).bind fun _ => .pure _ rfl
  | store tick elem => exact (store_transfers vec tick elem).bind fun _ => .pure _ rfl
  | fetch tick => exact (fetch_transfers vec tick).bind fun _ => .pure _ rfl
  | size => exact (size_transfers vec).bind fun _ => .pure _ rfl
  | elements => exact (elements_transfers vec).bind fun _ => .pure _ rfl

/-! ## One call -/

section Step

variable {b : Bridge} {vec : ObjId} {l : List (Option ObjId)} {F : Multiset ObjId}
  {elem : Option ObjId}
  {bad : Unwind → Bridge → Prop}

theorem ends_slots_lists (hl : b.heap.Lists vec l) {ok : List (Option ObjId) → Bridge → Prop} :
    Ends (slots vec) b ok bad ↔ ok l b := by
  obtain ⟨x, hx, hc, hp⟩ := hl
  exact ends_certify_known hx hc (by rw [hp]; rfl)

theorem live_of_lists {claims : List ObjId} (hb : b.Books F) (hu : b.Bounded)
    (hl : b.heap.Lists vec l) (hsub : ∀ o ∈ claims, some o ∈ l) : ∀ o ∈ claims, b.heap.Live o := by
  obtain ⟨x, hx, -, hp⟩ := hl
  intro o ho
  refine hb.live_inside hx ?_ hu
  rw [hp]
  exact Payload.mem_claims_vector.mpr (hsub o ho)

/-- The room for the claims that a call adds, said of the elements. -/
theorem hasRoom_claims {c : Call} (hl : b.heap.Lists vec l)
    (hroom : b.HasRoom ((interface vec).adds c b)) : b.HasRoom (c.claims l) := by
  obtain ⟨x, hx, -, hp⟩ := hl
  have hadds : (interface vec).adds c b = c.claims l := by
    dsimp only [interface]
    rw [content_of_get? hx, hp]
    rfl
  rwa [hadds] at hroom

theorem push_meets (hu : b.Bounded) (hl : b.heap.Lists vec l) :
    Ends ((Call.push elem).run vec) b
      (fun r b' => (elementList b.allocates vec).Meets l (.push elem) F b (.ok r.1) b') bad := by
  unfold Call.run VectorObj.push
  rw [ends_bind, ends_bind, ends_losing, ends_slots_lists hl, ends_setPayload]
  exact ⟨rfl, ⟨rfl, hl.setPayload _⟩, rfl, hu⟩

/-- A store that is refused gives back the claim on its element and raises. -/
theorem overflow_meets {tick : Nat} (hb : b.Books (elem.toList + F)) (hu : b.Bounded) (hv : vec ∈ F)
    (hl : b.heap.Lists vec l) (hr : Refused b.allocates l tick) {α : Type}
    {ok : α → Bridge → Prop} :
    Ends (overflow elem) b ok
      (fun u b' => (elementList b.allocates vec).Meets l (.store tick elem) F b
      (.error (u.complaint b'.heap)) b') := by
  have hlive : (b.swept elem.toList).heap.Live vec := (hb.sweep _).live hv hu
  have hcounted := (hb.sound hu).counted
  rw [add_assoc] at hcounted
  unfold overflow
  rw [ends_bind, ends_releaseAll_sound (hb.sound hu), ends_raise (by exact hb.hooks)]
  refine ⟨?_, ⟨rfl, ?_⟩, ?_, hu⟩
  · dsimp only [elementList]
    rw [Call.meaning, if_pos hr]
    exact congrArg Except.error (Unwind.complaint_new _ _ _)
  · dsimp only [elementList]
    rw [Call.meaning, if_pos hr]
    exact (hl.fades (fades_sweep _ _) hlive).add _
  · dsimp only [elementList]
    rw [Call.Effect, if_pos hr]
    exact ⟨_, givesBack_sweep hcounted, rfl⟩

theorem store_meets (tick : Nat) (hb : b.Books (elem.toList + F)) (hu : b.Bounded) (hv : vec ∈ F)
    (hl : b.heap.Lists vec l) :
    Ends ((Call.store tick elem).run vec) b
      (fun r b' => (elementList b.allocates vec).Meets l (.store tick elem) F b (.ok r.1) b')
      (fun u b' => (elementList b.allocates vec).Meets l (.store tick elem) F b
        (.error (u.complaint b'.heap)) b') := by
  unfold Call.run VectorObj.store
  rw [ends_bind]
  split
  · rename_i hmax
    exact overflow_meets hb hu hv hl (.inl hmax)
  rename_i hmax
  rw [ends_bind, ends_losing, ends_slots_lists hl, ends_bind, ends_get]
  split
  · rename_i hgrow
    exact overflow_meets hb hu hv hl (.inr ⟨hgrow.1, by simpa using hgrow.2⟩)
  rename_i hgrow
  have hr : ¬ Refused b.allocates l tick := by
    rintro (hlong | ⟨hshort, hstorage⟩)
    · exact hmax hlong
    · exact hgrow ⟨hshort, by simp [hstorage]⟩
  obtain ⟨x, hx, -, hp⟩ := id hl
  have hstored := books_store tick hb hx hp
  have hlive : ({ b with heap := b.heap.setPayload vec (.vector (storeAt l tick elem)) }.swept
      (l[tick]?).join.toList).heap.Live vec := (hstored.sweep _).live hv hu
  have hcounted := (hstored.sound hu).counted
  rw [add_assoc] at hcounted
  rw [ends_bind, ends_setPayload, ends_releaseAll_sound (hstored.sound hu)]
  refine ⟨?_, ⟨rfl, ?_⟩, ?_, hu⟩
  · dsimp only [elementList]
    rw [Call.meaning, if_neg hr]
  · dsimp only [elementList]
    rw [Call.meaning, if_neg hr, ← storeAt_eq_put]
    exact (hl.setPayload _).fades (fades_sweep _ _) hlive
  · dsimp only [elementList]
    rw [Call.Effect, if_neg hr, ← storeAt_eq_put]
    exact givesBack_sweep hcounted

theorem fetch_meets (tick : Nat) (hb : b.Books F) (hu : b.Bounded)
    (hroom : b.HasRoom ((interface vec).adds (.fetch tick) b)) (hl : b.heap.Lists vec l) :
    Ends ((Call.fetch tick).run vec) b
      (fun r b' => (elementList b.allocates vec).Meets l (.fetch tick) F b (.ok r.1) b') bad := by
  unfold Call.run VectorObj.fetch
  rw [ends_bind, ends_bind, ends_slots_lists hl, ends_bind, ends_forM_retain_known]
  · exact ⟨rfl, ⟨rfl, hl.retainAll _⟩, rfl, hu.retainAll (hasRoom_claims hl hroom)⟩
  · refine live_of_lists hb hu hl fun o ho => ?_
    rw [Option.mem_toList, Option.join_eq_some_iff] at ho
    exact List.mem_of_getElem? ho

theorem elements_meets (hb : b.Books F) (hu : b.Bounded)
    (hroom : b.HasRoom ((interface vec).adds .elements b)) (hl : b.heap.Lists vec l) :
    Ends (Call.elements.run vec) b
      (fun r b' => (elementList b.allocates vec).Meets l .elements F b (.ok r.1) b') bad := by
  unfold Call.run VectorObj.elements
  rw [ends_bind, ends_bind, ends_slots_lists hl, ends_bind, ends_forM_retain_known]
  · exact ⟨rfl, ⟨rfl, hl.retainAll _⟩, rfl, hu.retainAll (hasRoom_claims hl hroom)⟩
  · refine live_of_lists hb hu hl fun o ho => ?_
    obtain ⟨e, he, rfl⟩ := List.mem_filterMap.mp ho
    exact he

/-- A call on a vector with the elements `l`. -/
theorem Call.meets (c : Call) (hb : b.Books (c.takes + F)) (hu : b.Bounded) (hv : vec ∈ F)
    (hroom : b.HasRoom ((interface vec).adds c b)) (hl : b.heap.Lists vec l) :
    Ends (c.run vec) b (fun r b' => (elementList b.allocates vec).Meets l c F b (.ok r.1) b')
      (fun u b' => (elementList b.allocates vec).Meets l c F b
        (.error (u.complaint b'.heap)) b') := by
  cases c with
  | push elem => exact push_meets hu hl
  | store tick elem => exact store_meets tick hb hu hv hl
  | fetch tick => exact fetch_meets tick (by simpa [takes] using hb) hu hroom hl
  | size =>
    unfold Call.run VectorObj.size
    rw [ends_bind, ends_bind, ends_slots_lists hl]
    exact ⟨rfl, ⟨rfl, hl⟩, rfl, hu⟩
  | elements => exact elements_meets (by simpa [takes] using hb) hu hroom hl

end Step

theorem implements (allocates : Nat → Bool) (vec : ObjId) :
    (interface vec).Implements vec (elementList allocates vec) where
  transfers := Call.run_transfers vec
  meets c hb hu hv hroom hl := by
    obtain ⟨rfl, hlists⟩ := hl
    exact c.meets hb hu hv hroom hlists

end VectorObj

/-! ## Histories -/

/-- A vector answers a history of calls as a list does, an index that it cannot have is refused and
leaves nothing behind but the exception, and a call gives back no claim but the one on the element
that is replaced or refused.  The counts have room for the claims that the calls add. -/
theorem vector_refines_list {s : Keeper} {vec : ObjId} {l : List (Option ObjId)}
    {calls : List VectorObj.Call} (hb : s.bridge.Books s.host) (hu : s.bridge.Bounded)
    (hl : s.bridge.heap.Lists vec l) (hc : s.AffordsAll (VectorObj.interface vec) vec calls) :
    s.Follows (VectorObj.interface vec) (VectorObj.elementList s.bridge.allocates vec) l calls :=
  (VectorObj.implements s.bridge.allocates vec).follows hb hu ⟨rfl, hl⟩ hc

/-- A script that makes a string, claims it three times more and makes a vector. -/
def makeSharedString : List Instruction :=
  [.act (.onObject (.new (.str "x"))) (some "a") none,
    .act (.onObject (.clone "a")) (some "b") none, .act (.onObject (.clone "a")) (some "c") none,
    .act (.onObject (.clone "a")) (some "d") none,
    .act (.onObject (.new (.vector 0))) (some "v") none]

/-- The state after that script. -/
def stringKeeper : Keeper :=
  ⟨(Session.after makeSharedString).bridge, (Session.after makeSharedString).claims⟩

/-- The string is put in the place of itself, and at the last index of 64 bits. -/
def stringCalls : List VectorObj.Call :=
  [.push (some ⟨2⟩), .store 0 (some ⟨2⟩), .store 2 none,
    .store 18446744073709551615 (some ⟨2⟩), .size, .fetch 0, .elements, .store 0 none]

/-- Of the four claims on the string two are given back when it takes the place of itself and when
it is refused, two are new, and the last call gives back the one in the vector. -/
theorem vector_refines_list_of_shared_string :
    stringKeeper.Follows (VectorObj.interface ⟨3⟩)
        (VectorObj.elementList stringKeeper.bridge.allocates ⟨3⟩) [] stringCalls ∧
      (stringKeeper.run (VectorObj.interface ⟨3⟩) stringCalls).1 =
        [.ok .done, .ok .done, .ok .done, .error (.raised (some "Vector index overflow")),
          .ok (.count 3), .ok (.element (some ⟨2⟩)), .ok (.elements [some ⟨2⟩, none, none]),
          .ok .done] ∧
      stringKeeper.bridge.heap.get? ⟨2⟩ = some ⟨.string, 4, .string "x"⟩ ∧
      (stringKeeper.run (VectorObj.interface ⟨3⟩) stringCalls).2.bridge.heap.get? ⟨2⟩ =
        some ⟨.string, 3, .string "x"⟩ := by
  have hlawful : LawfulRoutine makeSharedString :=
    ⟨trivial, trivial, trivial, trivial, trivial, trivial⟩
  have hb : stringKeeper.bridge.Books stringKeeper.host := by
    dsimp only [stringKeeper]
    exact (Session.after_reached hlawful).books
  have hl : stringKeeper.bridge.heap.get? ⟨3⟩ = some ⟨.vector, 1, .vector []⟩ := by decide +kernel
  exact ⟨vector_refines_list hb (by decide +kernel) ⟨_, hl, rfl, rfl⟩ (by decide +kernel),
    by decide +kernel, by decide +kernel, by decide +kernel⟩

/-- A script that makes a string, a vector that holds it too, and another vector. -/
def makeVectors : List Instruction :=
  [.act (.onObject (.new (.str "x"))) (some "s") none,
    .act (.onObject (.new (.vector 0))) (some "w") none,
    .act (.primitive "w" false (.vectorPush (some "s"))) none none,
    .act (.onObject (.new (.vector 0))) (some "v") none]

/-- The state after that script. -/
def vectorsKeeper : Keeper :=
  ⟨(Session.after makeVectors).bridge, (Session.after makeVectors).claims⟩

/-- When the one vector is refused as an element of the other, its last claim goes, and with it the
claim on the string that is in it. -/
theorem vector_refines_list_of_refused_vector :
    vectorsKeeper.bridge.Reached vectorsKeeper.host ∧ vectorsKeeper.bridge.Bounded ∧
      vectorsKeeper.bridge.heap.Lists ⟨4⟩ [] ∧
      vectorsKeeper.AffordsAll (VectorObj.interface ⟨4⟩) ⟨4⟩
        [.store 18446744073709551615 (some ⟨3⟩)] ∧
      (vectorsKeeper.run (VectorObj.interface ⟨4⟩) [.store 18446744073709551615 (some ⟨3⟩)]).1 =
        [.error (.raised (some "Vector index overflow"))] ∧
      vectorsKeeper.bridge.heap.get? ⟨2⟩ = some ⟨.string, 2, .string "x"⟩ ∧
      (vectorsKeeper.run (VectorObj.interface ⟨4⟩)
        [.store 18446744073709551615 (some ⟨3⟩)]).2.bridge.heap.get? ⟨2⟩ =
          some ⟨.string, 1, .string "x"⟩ := by
  have hlawful : LawfulRoutine makeVectors := ⟨trivial, trivial, trivial, trivial, trivial⟩
  have hl : vectorsKeeper.bridge.heap.get? ⟨4⟩ = some ⟨.vector, 1, .vector []⟩ := by decide +kernel
  refine ⟨?_, by decide +kernel, ⟨_, hl, rfl, rfl⟩, by decide +kernel, by decide +kernel,
    by decide +kernel, by decide +kernel⟩
  dsimp only [vectorsKeeper]
  exact Session.after_reached hlawful

/-- Where an element of a vector has as many claims as can be counted, fetching it leaves none, and
then replacing it raises an exception. -/
theorem vector_raises_of_full_count :
    ∃ host, fullBridge.Reached host ∧ fullBridge.Bounded ∧ ⟨3⟩ ∈ host ∧
      fullBridge.heap.Lists ⟨3⟩ [some ⟨2⟩] ∧
      ∃ b', (VectorObj.fetch ⟨3⟩ 0).run fullBridge = (.ok (some ⟨2⟩), b') ∧
        ∃ b'', (VectorObj.store ⟨3⟩ 0 none).run b' = (.error (.raised .bridge ⟨4⟩), b'') ∧
          b''.heap.content ⟨4⟩ = some (.err, .err (overdrawnMessage .string)) := by
  obtain ⟨host, hreached, -, hheld⟩ := fullBridge_reached
  refine ⟨host, hreached, fullBridge_bounded, hheld, ⟨_, get?_fullBridge_vector, rfl, rfl⟩, ?_⟩
  exact exists_state (by decide +kernel) (exists_state (by decide +kernel) (by decide +kernel))

end ObjectBridge
