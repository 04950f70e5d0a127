import ObjectBridge.Proofs.CrowdedStates
import ObjectBridge.Proofs.Forms
import ObjectBridge.Proofs.Reachability

set_option autoImplicit false

/-!
# What converting a value does to the heap (SPEC §4.3)

A conversion to an object adds new objects, each of which has one owner, and claims the objects in
the value; nothing else changes, and giving back the result undoes it.  A conversion that fails has
undone it itself.

Who owns the new objects follows from the accounts: each has a count of one, so there is one claim
on it.
-/

namespace ObjectBridge

/-! ## Claims and holders -/

namespace Heap

variable {h h' : Heap} {p : ObjId} {x : Obj}

theorem claims_append (h : Heap) (xs : List Obj) :
    (h.append xs).claims = h.claims + Value.heldBy xs := by
  induction xs generalizing h with
  | nil => simp [Value.heldBy]
  | cons x rest ih =>
    have hstep : (h.append [x]).append rest = h.append (x :: rest) := append_append h [x] rest
    rw [← hstep, ih, ← add_eq_append, claims_add, add_assoc, Multiset.coe_add]
    rfl

/-- The claims inside a heap, from any range of identities that takes in all objects. -/
theorem claims_eq_sum {n : Nat} (hn : h.slots.length ≤ n) :
    h.claims = ((List.range n).map fun i => slotClaims (h.get? ⟨i⟩)).sum := by
  obtain ⟨m, rfl⟩ := Nat.exists_eq_add_of_le hn
  induction m with
  | zero =>
    have hslots : h.slots = (List.range h.slots.length).map fun i => h.get? ⟨i⟩ := by
      refine List.ext_getElem? fun i => ?_
      by_cases hi : i < h.slots.length
      · rw [getElem?_slots hi, List.getElem?_map, List.getElem?_range hi, Option.map_some]
      · rw [List.getElem?_eq_none (by omega), List.getElem?_eq_none (by simp; omega)]
    unfold claims
    conv_lhs => rw [hslots]
    rw [List.map_map, Nat.add_zero]
    rfl
  | succ m ih =>
    have hnone : h.get? ⟨h.slots.length + m⟩ = none := get?_of_not_used (by simp [Used])
    rw [← Nat.add_assoc, List.range_succ, List.map_append, List.sum_append, ← ih (by omega)]
    simp [hnone, slotClaims]

theorem slotClaims_of_content (he : h'.content p = h.content p) :
    slotClaims (h'.get? p) = slotClaims (h.get? p) := by
  unfold content at he
  cases hx : h.get? p with
  | none =>
    rw [hx, Option.map_none, Option.map_eq_none_iff] at he
    rw [he]
  | some x =>
    rw [hx, Option.map_some] at he
    obtain ⟨y, hy, heq⟩ := Option.map_eq_some_iff.mp he
    rw [hy, slotClaims, slotClaims, (Prod.mk.inj heq).2]

/-- Heaps whose objects carry the same hold the same claims. -/
theorem claims_of_content (he : h'.content = h.content) : h'.claims = h.claims := by
  rw [claims_eq_sum (le_max_left h'.slots.length h.slots.length),
    claims_eq_sum (le_max_right h'.slots.length _)]
  congr 2
  funext i
  exact slotClaims_of_content (congrFun he ⟨i⟩)

theorem claims_retainAll (h : Heap) (claims : List ObjId) :
    (h.retainAll claims).claims = h.claims :=
  claims_of_content (content_retainAll h claims)

theorem exists_holder_slot {slots : List (Option Obj)}
    (hp : (slots.map slotClaims).sum.count p = 1) :
    ∃ (i : Nat) (x : Obj), slots[i]? = some (some x) ∧ x.payload.claims.count p = 1 ∧
      ∀ (j : Nat) (y : Obj), slots[j]? = some (some y) → p ∈ y.payload.claims → j = i := by
  induction slots with
  | nil => cases hp
  | cons s rest ih =>
    rw [List.map_cons, List.sum_cons, Multiset.count_add] at hp
    by_cases hrest : (rest.map slotClaims).sum.count p = 0
    · rw [hrest, Nat.add_zero] at hp
      cases s with
      | none => cases hp
      | some x =>
        rw [slotClaims, Multiset.coe_count] at hp
        refine ⟨0, x, rfl, hp, fun j y hy hmem => ?_⟩
        cases j with
        | zero => rfl
        | succ j =>
          refine absurd ((mem_sum_slotClaims_iff rest p).mpr ⟨y, ?_, hmem⟩)
            (Multiset.count_eq_zero.mp hrest)
          exact List.mem_of_getElem? hy
    · obtain ⟨i, x, hx, hcount, huniq⟩ := ih (by omega)
      refine ⟨i + 1, x, hx, hcount, fun j y hy hmem => ?_⟩
      cases j with
      | zero =>
        cases hy
        have hpos : 0 < Multiset.count p (slotClaims (some y)) := Multiset.count_pos.mpr hmem
        omega
      | succ j => rw [huniq j y hy hmem]

/-- What is claimed once inside a heap has one holder. -/
theorem exists_holder (hp : h.claims.count p = 1) :
    ∃ q x, h.get? q = some x ∧ x.payload.claims.count p = 1 ∧ ∀ r, h.Holds r p → r = q := by
  obtain ⟨i, x, hx, hcount, huniq⟩ := exists_holder_slot hp
  refine ⟨⟨i⟩, x, by simp [get?, hx], hcount, ?_⟩
  rintro ⟨j⟩ ⟨y, hy, hmem⟩
  rw [huniq j y (slots_of_get? hy) hmem]

/-- In two heaps whose counts are right, an object that carries the same and on which there are as
many claims is the same, down to its count. -/
theorem Counted.get?_eq {out out' : Multiset ObjId} (hc : h.Counted out) (hc' : h'.Counted out')
    (hclaims : (out' + h'.claims).count p = (out + h.claims).count p)
    (hcontent : h'.content p = h.content p)
    (himm : ∀ x, h.get? p = some x → x.cls.isImmortal = true → h'.get? p = some x) :
    h'.get? p = h.get? p := by
  cases hx : h.get? p with
  | none => exact content_eq_none_iff.mp (hcontent.trans (content_eq_none_iff.mpr hx))
  | some x =>
    cases hm : x.cls.isImmortal with
    | true => exact himm x hx hm
    | false =>
      obtain ⟨y, hy, heq⟩ := Option.map_eq_some_iff.mp (hcontent.trans (content_of_get? hx))
      obtain ⟨hcls, hpay⟩ := Prod.mk.inj heq
      have hcount := (hc.exact hx hm).1
      have hcount' := (hc'.exact hy (hcls ▸ hm)).1
      rw [hclaims, ← hcount, UInt32.toNat_inj] at hcount'
      rw [hy]
      congr 1
      obtain ⟨cls, count, payload⟩ := x
      obtain ⟨cls', count', payload'⟩ := y
      cases hcls
      cases hpay
      cases hcount'
      rfl

/-- Two heaps whose objects carry the same and whose counts are right for the same claims are the
same. -/
theorem Counted.eq_of_content {out : Multiset ObjId} (hc : h.Counted out) (hc' : h'.Counted out)
    (hlen : h'.slots.length = h.slots.length) (hcontent : h'.content = h.content)
    (himm : ∀ p x, h.get? p = some x → x.cls.isImmortal = true → h'.get? p = some x) : h' = h :=
  ext_get? hlen fun p =>
    hc.get?_eq hc' (by rw [claims_of_content hcontent]) (congrFun hcontent p) (himm p)

end Heap

namespace Bridge

section Restored

variable {b b' : Bridge} {host : Multiset ObjId}

/-- In two accounted states, an object that carries the same and on which there are as many claims
is the same, down to its count. -/
theorem Sound.restored_at {host' : Multiset ObjId} {p : ObjId} (hs : b.Sound host)
    (hs' : b'.Sound host')
    (hclaims : (host' + b'.ledger.lost + b'.heap.claims).count p =
      (host + b.ledger.lost + b.heap.claims).count p)
    (hcontent : b'.heap.content p = b.heap.content p)
    (himm : ∀ x, b.heap.get? p = some x → x.cls.isImmortal = true → b'.heap.get? p = some x) :
    b'.heap.get? p = b.heap.get? p :=
  hs.counted.get?_eq hs'.counted hclaims hcontent himm

/-- Two accounted states whose objects carry the same have the same objects, down to their counts.
-/
theorem Sound.restored (hs : b.Sound host) (hs' : b'.Sound host)
    (hlost : b'.ledger.lost = b.ledger.lost) (hcontent : b'.heap.content = b.heap.content)
    (himm : ∀ p x, b.heap.get? p = some x → x.cls.isImmortal = true → b'.heap.get? p = some x)
    (p : ObjId) :
    b'.heap.get? p = b.heap.get? p :=
  hs.restored_at hs' (by rw [hlost, Heap.claims_of_content hcontent]) (congrFun hcontent p) (himm p)

end Restored

/-! ## After a value has been built -/

/-- One state is another with a foreign form of `v` added, for which `o` stands, and nothing else
changed. -/
structure Extends (b' b : Bridge) (v : Value) (o : ObjId) : Prop where
  /-- objects carry what they carried, and none is gone or back -/
  kept : ∀ p, b.heap.Used p → b'.heap.content p = b.heap.content p
  /-- a count has risen by the number of times that the value holds the object -/
  raised : ∀ p x y, b.heap.get? p = some x → b'.heap.get? p = some y → x.cls.isImmortal = false →
    y.count.toNat = x.count.toNat + v.claims.count p
  immortal : ∀ p x, b.heap.get? p = some x → x.cls.isImmortal = true → b'.heap.get? p = some x
  new : ∀ p x, ¬ b.heap.Used p → b'.heap.get? p = some x → x.New
  /-- a new object is the result, which no object holds, or one new container holds it in one place
  -/
  owned : ∀ p, ¬ b.heap.Used p → b'.heap.Live p →
    (p = o ∧ ∀ q, ¬ b'.heap.Holds q p) ∨
    (p ≠ o ∧ ∃ q x, ¬ b.heap.Used q ∧ b'.heap.get? q = some x ∧ x.payload.claims.count p = 1 ∧
      ∀ r, b'.heap.Holds r p → r = q)
  rings : ∀ p, Relation.TransGen b'.heap.Holds p p → Relation.TransGen b.heap.Holds p p

section Built

variable {b : Bridge} {t : ObjId × ObjId} {v : Value} {host : Multiset ObjId} {o p q : ObjId}
  {x y : Obj}

theorem sameAt_built (p : ObjId) : b.heap.SameAt (b.built t v).heap p := by
  intro x hx
  refine ⟨Obj.retained^[v.claims.count p] x, ?_, Heap.cls_iterate_retained x _,
    Heap.payload_iterate_retained x _⟩
  rw [get?_built (Heap.used_of_get? hx), hx, Option.map_some]

/-- An object under a new identity is one of those that were made. -/
theorem mem_forms_of_get? (hp : ¬ b.heap.Used p) (hx : (b.built t v).heap.get? p = some x) :
    ∃ i, p.index = b.heap.slots.length + i ∧
    (v.forms t b.keySum b.heap.slots.length)[i]? = some x := by
  obtain ⟨n⟩ := p
  unfold Heap.Used at hp
  obtain ⟨i, rfl⟩ := Nat.exists_eq_add_of_le (not_lt.mp hp)
  exact ⟨i, rfl, (get?_built_new v i).symm.trans hx⟩

theorem new_of_get?_built (hp : ¬ b.heap.Used p) (hx : (b.built t v).heap.get? p = some x) :
    x.New := by
  obtain ⟨i, -, hi⟩ := mem_forms_of_get? hp hx
  exact Value.new_forms v _ x (List.mem_of_getElem? hi)

variable (hs : b.Sound host) (ht : b.truths = some t) (hheld : ∀ o ∈ v.claims, o ∈ host)

include hs in
theorem Sound.used_of_claimed (hp : p ∈ host + b.ledger.lost) : b.heap.Used p :=
  (hs.counted.live_out hp).used

include hs in
theorem Sound.used_of_holds (hh : b.heap.Holds q p) : b.heap.Used p := by
  obtain ⟨x, hx, hmem⟩ := hh
  exact (hs.counted.live_inside hx hmem).used

theorem holds_of_built (hq : b.heap.Used q) (hh : (b.built t v).heap.Holds q p) :
    b.heap.Holds q p := by
  obtain ⟨y, hy, hmem⟩ := hh
  rw [get?_built hq] at hy
  obtain ⟨x, hx, rfl⟩ := Option.map_eq_some_iff.mp hy
  rw [Heap.payload_iterate_retained] at hmem
  exact ⟨x, hx, hmem⟩

include hs ht hheld in
/-- A new object holds objects that were there before and later new ones. -/
theorem used_or_lt_of_holds (hq : ¬ b.heap.Used q) (hh : (b.built t v).heap.Holds q p) :
    b.heap.Used p ∨ q.index < p.index := by
  obtain ⟨x, hx, hmem⟩ := hh
  obtain ⟨i, hi, hform⟩ := mem_forms_of_get? hq hx
  obtain ⟨no, yes, heq, ⟨y, hy, -⟩, ⟨z, hz, -⟩⟩ := hs.truths
  rw [ht] at heq
  cases heq
  rcases Value.pointsOn_forms v _ i x hform p hmem with hleaf | (rfl | rfl) | hlt
  · exact .inl (hs.used_of_claimed (Multiset.mem_add.mpr (.inl (hheld p hleaf))))
  · exact .inl (Heap.used_of_get? hy)
  · exact .inl (Heap.used_of_get? hz)
  · exact .inr (by omega)

include hs ht hheld in
/-- Following claims never leads back from what was there before to a new object, and among new
objects it leads on. -/
theorem transGen_built (hh : Relation.TransGen (b.built t v).heap.Holds p q) :
    (b.heap.Used p → Relation.TransGen b.heap.Holds p q ∧ b.heap.Used q) ∧
      (¬ b.heap.Used p → b.heap.Used q ∨ p.index < q.index) := by
  induction hh with
  | single hstep =>
    refine ⟨fun hp => ?_, fun hp => used_or_lt_of_holds hs ht hheld hp hstep⟩
    have hold := holds_of_built hp hstep
    exact ⟨.single hold, hs.used_of_holds hold⟩
  | @tail q r _ hstep ih =>
    have hnext : b.heap.Used q → b.heap.Holds q r ∧ b.heap.Used r := fun hq =>
      have hold := holds_of_built hq hstep
      ⟨hold, hs.used_of_holds hold⟩
    refine ⟨fun hp => ?_, fun hp => ?_⟩
    · obtain ⟨hpath, hq⟩ := ih.1 hp
      exact ⟨hpath.tail (hnext hq).1, (hnext hq).2⟩
    · by_cases hq : b.heap.Used q
      · exact .inl (hnext hq).2
      · have hlt := (ih.2 hp).resolve_left hq
        exact (used_or_lt_of_holds hs ht hheld hq hstep).imp_right hlt.trans

include hs ht hheld in
theorem ring_of_built (hh : Relation.TransGen (b.built t v).heap.Holds p p) :
    Relation.TransGen b.heap.Holds p p := by
  obtain ⟨hold, hnew⟩ := transGen_built hs ht hheld hh
  by_cases hp : b.heap.Used p
  · exact (hold hp).1
  · exact absurd ((hnew hp).resolve_left hp) (Nat.lt_irrefl _)

variable (hs' : (b.built t v).Sound (([o] : List ObjId) + host))

include hs' in
theorem sound_swept_built : ((b.built t v).swept [o]).Sound host := (hs'.sweep _).2

theorem claims_built :
    (b.built t v).heap.claims = b.heap.claims + Value.heldBy
      (v.forms t b.keySum b.heap.slots.length) := by
  unfold built grown
  rw [Heap.claims_append, Heap.claims_retainAll]

include hs ht hs' in
theorem count_built (ho : v.root t b.heap.slots.length = some o) (hx : b.heap.get? p = some x)
    (hy : (b.built t v).heap.get? p = some y) (hm : x.cls.isImmortal = false) :
    y.count.toNat = x.count.toNat + v.claims.count p := by
  have hused : p.index < b.heap.slots.length := Heap.used_of_get? hx
  have hsame : b.heap.SameAt (b.built t v).heap p := sameAt_built p
  obtain ⟨z, hz, hcls, -⟩ := hsame x hx
  rw [hy] at hz
  cases hz
  -- truth values are immortal
  obtain ⟨no, yes, heq, hno, hyes⟩ := hs.truths
  rw [ht] at heq
  cases heq
  have hne : ∀ {r value}, b.heap.IsTruth r value → p ≠ r := by
    rintro r value ⟨z, hz, hcls, -⟩ rfl
    rw [hx] at hz
    cases hz
    rw [hcls] at hm
    cases hm
  have hforms : (v.root (no, yes) b.heap.slots.length).toList.count p +
      (Value.heldBy (v.forms (no, yes) b.keySum b.heap.slots.length)).count p = v.claims.count p :=
    Value.count_forms (hne hno) (hne hyes) v hused
  have hlost : (b.built (no, yes) v).ledger.lost = b.ledger.lost := rfl
  rw [ho, Option.toList_some] at hforms
  rw [(hs'.counted.exact hy (hcls ▸ hm)).1, (hs.counted.exact hx hm).1, claims_built, hlost]
  simp only [Multiset.count_add, Multiset.coe_count]
  omega

include hs hs' in
theorem owned_built (hp : ¬ b.heap.Used p) (hl : (b.built t v).heap.Live p) :
    (p = o ∧ ∀ q, ¬ (b.built t v).heap.Holds q p) ∨
    (p ≠ o ∧ ∃ q x, ¬ b.heap.Used q ∧ (b.built t v).heap.get? q = some x ∧
      x.payload.claims.count p = 1 ∧
      ∀ r, (b.built t v).heap.Holds r p → r = q) := by
  obtain ⟨y, hy⟩ := hl
  have hnew := new_of_get?_built hp hy
  have hcount := (hs'.counted.exact hy hnew.mortal).1
  have hout : (host + b.ledger.lost).count p = 0 :=
    Multiset.count_eq_zero.mpr fun h => hp (hs.used_of_claimed h)
  have hlost : (b.built t v).ledger.lost = b.ledger.lost := rfl
  have hone : ([o] : List ObjId).count p + (b.built t v).heap.claims.count p = 1 := by
    rw [hnew.count, hlost, add_assoc, add_assoc, ← add_assoc host, Multiset.count_add,
      Multiset.count_add, hout, Multiset.coe_count, Nat.zero_add] at hcount
    exact hcount.symm
  by_cases hpo : p = o
  · refine .inl ⟨hpo, fun q hq => ?_⟩
    have hmem : p ∈ (b.built t v).heap.claims := Heap.mem_claims_iff.mpr ⟨q, hq⟩
    have hpos := Multiset.count_pos.mpr hmem
    rw [hpo, List.count_singleton_self] at hone
    rw [hpo] at hpos
    omega
  · rw [List.count_eq_zero.mpr fun hmem => hpo (List.mem_singleton.mp hmem), Nat.zero_add] at hone
    obtain ⟨q, x, hx, hq, huniq⟩ := Heap.exists_holder hone
    refine .inr ⟨hpo, q, x, fun hused => ?_, hx, hq, huniq⟩
    have hmem : p ∈ x.payload.claims := List.count_pos_iff.mp (by omega)
    exact hp (hs.used_of_holds (holds_of_built hused ⟨x, hx, hmem⟩))

include hs ht hheld hs' in
theorem extends_built (ho : v.root t b.heap.slots.length = some o) :
    (b.built t v).Extends b v o where
  kept p hp := Heap.content_of_sameAt (sameAt_built p) fun hnone => by
    rw [get?_built hp, hnone, Option.map_none]
  raised p x y hx hy hm := count_built hs ht hs' ho hx hy hm
  immortal p x hx hm := by
    rw [get?_built (Heap.used_of_get? hx), hx, Option.map_some,
      Heap.iterate_retained_of_immortal hm]
  new p x hp hx := new_of_get?_built hp hx
  owned p hp hl := owned_built hs hs' hp hl
  rings p hp := ring_of_built hs ht hheld hp

include hs ht hheld hs' in
/-- Giving back the object that stands for a value destroys all objects that were made for it. -/
theorem get?_swept_built_of_new (hp : ¬ b.heap.Used p) :
    ((b.built t v).swept [o]).heap.get? p = none := by
  -- whoever holds a new object came before it, so the first one that were left would have no holder
  induction hn : p.index using Nat.strong_induction_on generalizing p with
  | _ n ih =>
    by_contra hne
    obtain ⟨y, hy⟩ := Option.ne_none_iff_exists'.mp hne
    obtain ⟨x, hx, hcls, -⟩ := Heap.sweep_get? _ [o] hy
    have hmortal : ¬ ((b.built t v).swept [o]).heap.Immortal p := by
      rintro ⟨z, hz, hm⟩
      rw [hy] at hz
      cases hz
      rw [hcls, (new_of_get?_built hp hx).mortal] at hm
      cases hm
    rcases (sound_swept_built hs').counted.claimed ⟨y, hy⟩ hmortal with hclaim | ⟨q, z, hz, hmem⟩
    · exact hp (hs.used_of_claimed hclaim)
    · obtain ⟨w, hw, -, hpay, -⟩ := Heap.sweep_get? _ [o] hz
      have hholds : (b.built t v).heap.Holds q p := ⟨w, hw, hpay ▸ hmem⟩
      by_cases hq : b.heap.Used q
      · exact hp (hs.used_of_holds (holds_of_built hq hholds))
      · have hlt := (used_or_lt_of_holds hs ht hheld hq hholds).resolve_left hp
        have hgone := ih q.index (hn ▸ hlt) hq rfl
        rw [hgone] at hz
        cases hz

include hs ht hheld hs' in
theorem content_swept_built : ((b.built t v).swept [o]).heap.content = b.heap.content := by
  have hcounted := hs'.counted
  rw [add_assoc] at hcounted
  funext p
  refine Heap.content_of_sameAt ?_ fun hnone => ?_
  · exact Heap.sameAt_sweep_of_counted hs.counted hcounted sameAt_built (Multiset.Subset.refl _) p
  · by_cases hp : b.heap.Used p
    · refine Heap.get?_sweep_of_none ?_
      rw [get?_built hp, hnone, Option.map_none]
    · exact get?_swept_built_of_new hs ht hheld hs' hp

include hs ht hheld hs' in
/-- Giving back the object that stands for a value restores all objects with their counts. -/
theorem get?_swept_built (p : ObjId) : ((b.built t v).swept [o]).heap.get? p = b.heap.get? p := by
  refine hs.restored (sound_swept_built hs') rfl (content_swept_built hs ht hheld hs')
    (fun r x hx hm => ?_) p
  refine Heap.sweep_get?_of_immortal _ [o] ?_ hm
  rw [get?_built (Heap.used_of_get? hx), hx, Option.map_some, Heap.iterate_retained_of_immortal hm]

end Built

/-! ## Whole conversions -/

section Conversion

variable {b : Bridge} {t : ObjId × ObjId} {v : Value} {host : Multiset ObjId}

/-- How a conversion leaves the state: with the foreign form of the value built, or with all objects
as they were. -/
def Leaves (b : Bridge) (t : ObjId × ObjId) (v : Value) (b' : Bridge) :
    Except ConversionError (Option ObjId) → Prop
  | .ok (some o) => v.root t b.heap.slots.length = some o ∧ b' = b.built t v
  | _ => ∀ p, b'.heap.get? p = b.heap.get? p

theorem leaves_object (h : HostRef) (hb : b.Prepared t [h.obj]) (required : Option Class)
    (nullable : Bool) :
    Ends (hostToForeign (.object h) required nullable) b (fun r b' => b.Leaves t (.object h) b' r)
      (fun _ _ => False) := by
  obtain ⟨x, hx, -⟩ := hb.claims h.obj List.mem_cons_self
  rw [ends_hostToForeign_object (t := t) hb.started hx]
  split
  · exact ⟨rfl, rfl⟩
  · exact fun _ => rfl

/-- A value that is built is delivered, or taken down again if it is of the wrong class. -/
theorem leaves_created (hb : b.Books host) (hu : b.Bounded) (ht : b.truths = some t)
    (hv : v.WellFormed) (hheld : ∀ o ∈ v.claims, o ∈ host) (hroom : b.HasRoom v.claims)
    (hnull : v ≠ .null) (hobj : ∀ h, v ≠ .object h) (required : Option Class) (nullable : Bool) :
    Ends (hostToForeign v required nullable) b (fun r b' => b.Leaves t v b' r)
      (fun _ _ => False) := by
  have hprepared := hb.prepared hu ht hheld
  obtain ⟨o, ho⟩ := Value.exists_root hnull t b.heap.slots.length
  obtain ⟨x, hx, -⟩ := rootedAt_root hprepared ho
  refine creates hv hnull hobj b t hprepared required nullable _ _ o ho ?_
  cases hclass : x.cls.isSubclassOf (required.getD .obj) with
  | true => exact (ends_deliver_known hx hclass).mpr ⟨ho, rfl⟩
  | false =>
    have hs' := (hb.built hu ht hv hheld).sound (hu.built hroom)
    rw [ho] at hs'
    rw [ends_deliver_other hx hclass, ends_releaseAll_sound (by exact hs')]
    exact get?_swept_built (hb.sound hu) ht hheld hs'

theorem hostToForeign_leaves (hb : b.Books host) (hu : b.Bounded) (ht : b.truths = some t)
    (hv : v.WellFormed) (hheld : ∀ o ∈ v.claims, o ∈ host) (hroom : b.HasRoom v.claims)
    (required : Option Class) (nullable : Bool) :
    Ends (hostToForeign v required nullable) b (fun r b' => b.Leaves t v b' r)
      (fun _ _ => False) := by
  by_cases hnull : v = .null
  · subst hnull
    unfold hostToForeign
    rw [ends_bind, ends_start hb.started]
    split <;> exact fun _ => rfl
  by_cases hobj : ∃ h, v = .object h
  · obtain ⟨h, rfl⟩ := hobj
    exact leaves_object h (hb.prepared hu ht hheld) required nullable
  · exact leaves_created hb hu ht hv hheld hroom hnull
      (fun h heq => hobj ⟨h, heq⟩) required nullable

end Conversion

end Bridge

/-- A conversion to an object adds the foreign form of the value to the heap and changes nothing
else, and giving back its result undoes that; a conversion that answers an error or no object leaves
all objects as they were.  In an accounted state whose counts have room for the claims of the value
it always ends in one of these ways. -/
theorem conversion_effect {b : Bridge} {host : Multiset ObjId} (hb : b.Books host) (hu : b.Bounded)
    {v : Value} (hwf : v.WellFormed) (hheld : ∀ o ∈ v.claims, o ∈ host) (hroom : b.HasRoom v.claims)
    (required : Option Class) (nullable : Bool) :
    ∃ r b', (hostToForeign v required nullable).run b = (.ok r, b') ∧
      (∀ o, r = .ok (some o) → b'.Extends b v o ∧
        ∃ b'', (releaseAll [o]).run b' = (.ok (), b'') ∧ ∀ p, b''.heap.get? p = b.heap.get? p) ∧
      ((∀ o, r ≠ .ok (some o)) → ∀ p, b'.heap.get? p = b.heap.get? p) := by
  obtain ⟨t, ht⟩ := Option.isSome_iff_exists.mp hb.truths
  have hs := hb.sound hu
  obtain ⟨r, b', hrun, hleaves⟩ :=
    (Bridge.hostToForeign_leaves hb hu ht hwf hheld hroom required nullable).returns
  refine ⟨r, b', hrun, ?_, ?_⟩
  · rintro o rfl
    obtain ⟨hroot, rfl⟩ := hleaves
    have hs' := (hb.built hu ht hwf hheld).sound (hu.built hroom)
    rw [hroot] at hs'
    refine ⟨Bridge.extends_built hs ht hheld hs' hroot, ?_⟩
    have hends : Ends (releaseAll [o]) (b.built t v)
        (fun _ b'' => ∀ p, b''.heap.get? p = b.heap.get? p)
        (fun _ _ => False) :=
      (ends_releaseAll_sound (by exact hs')).mpr (Bridge.get?_swept_built hs ht hheld hs')
    obtain ⟨_, b'', hback, hget⟩ := hends.returns
    exact ⟨b'', hback, hget⟩
  · intro hnone
    match r, hleaves with
    | .ok (some o), _ => exact absurd rfl (hnone o)
    | .ok none, hsame => exact hsame
    | .error e, hsame => exact hsame

/-- A bridge with an error object that the host holds. -/
def sharingBridge : Bridge :=
  { Bridge.ready .usual with heap := (Bridge.ready .usual).heap.add ⟨.err, 1, .err "boom"⟩ }

theorem sharingBridge_books : sharingBridge.Books (⟨2⟩ ::ₘ 0) :=
  Bridge.Books.add (q := .err "boom")
    (by simpa [Payload.claims] using Bridge.ready_books .usual) rooted_err

/-- A sequence that holds the error object twice, once in a map. -/
def sharedValue : Value :=
  .seq [.object ⟨.errObj, ⟨2⟩⟩, .map [("k", .object ⟨.errObj, ⟨2⟩⟩), ("n", .int 1)],
    .bool true, .null]

theorem sharedValue_wellFormed : sharedValue.WellFormed := by
  refine ⟨.seq ?_, .seq (by decide) ?_⟩
  · simp only [List.forall_mem_cons]
    refine ⟨.object _, .map (by decide) ?_, .bool _, .null, nofun⟩
    simp only [List.forall_mem_cons]
    exact ⟨.object _, .int _, nofun⟩
  · simp only [List.forall_mem_cons]
    refine ⟨.object _, .map ?_, .bool _, .null, nofun⟩
    simp only [List.forall_mem_cons]
    exact ⟨.object _, .int _, nofun⟩

theorem sharedValue_hasRoom : sharingBridge.HasRoom sharedValue.claims := by decide +kernel

/-- Asked for a hash, the conversion of that sequence fails and leaves no trace.  Otherwise it
claims the error object twice, and giving back the result gives back these claims. -/
theorem conversion_effect_of_shared_object :
    (∃ b', (hostToForeign sharedValue (some .hash) true).run sharingBridge =
        (.ok (.error (.classMismatch "Clownfish::Vector" "Clownfish::Hash")), b') ∧
      ∀ p, b'.heap.get? p = sharingBridge.heap.get? p) ∧
    ∃ b', (hostToForeign sharedValue none false).run sharingBridge = (.ok (.ok (some ⟨3⟩)), b') ∧
      b'.Extends sharingBridge sharedValue ⟨3⟩ ∧ b'.heap.get? ⟨2⟩ = some ⟨.err, 3, .err "boom"⟩ ∧
      ∃ b'', (releaseAll [⟨3⟩]).run b' = (.ok (), b'') ∧
      b''.heap.get? ⟨2⟩ = some ⟨.err, 1, .err "boom"⟩ := by
  have hheld : ∀ o ∈ sharedValue.claims, o ∈ (⟨2⟩ ::ₘ 0 : Multiset ObjId) := by decide +kernel
  have heffect :=
    conversion_effect sharingBridge_books
    (by decide) sharedValue_wellFormed hheld sharedValue_hasRoom
  constructor
  · obtain ⟨r, b', hrun, -, hsame⟩ := heffect (some .hash) true
    have hr : ((hostToForeign sharedValue (some .hash) true).run sharingBridge).1 =
        .ok (.error (.classMismatch "Clownfish::Vector" "Clownfish::Hash")) := by decide +kernel
    rw [hrun] at hr
    cases hr
    exact ⟨b', hrun, hsame nofun⟩
  · obtain ⟨r, b', hrun, hextends, -⟩ := heffect none false
    have hr : ((hostToForeign sharedValue none false).run sharingBridge).1 =
        .ok (.ok (some ⟨3⟩)) := by decide +kernel
    have hcount : ((hostToForeign sharedValue none false).run sharingBridge).2.heap.get? ⟨2⟩ =
        some ⟨.err, 3, .err "boom"⟩ := by decide +kernel
    rw [hrun] at hr hcount
    cases hr
    obtain ⟨hb', b'', hback, hget⟩ := hextends ⟨3⟩ rfl
    exact ⟨b', hrun, hb', hcount, b'', hback, hget ⟨2⟩⟩

/-- Where an object has as many claims as can be counted, converting a sequence that holds it sets
its count to zero, and the conversion to an object of another class raises an exception in place of
answering an error. -/
theorem conversion_effect_of_full_count :
    ∃ host, fullBridge.Reached host ∧ fullBridge.Bounded ∧ stringRef.obj ∈ host ∧
      fullBridge.heap.get? stringRef.obj = some ⟨.string, .ofNat (2 ^ 32 - 1), .string "x"⟩ ∧
      (∃ b', (hostToForeign (.seq [.object stringRef]) none true).run fullBridge =
          (.ok (.ok (some ⟨4⟩)), b') ∧
        b'.heap.get? stringRef.obj = some ⟨.string, 0, .string "x"⟩ ∧
        ¬ b'.Extends fullBridge (.seq [.object stringRef]) ⟨4⟩) ∧
      ∃ b', (hostToForeign (.seq [.object stringRef]) (some .hash) true).run fullBridge =
          (.error (.raised .bridge ⟨5⟩), b') ∧
        b'.heap.get? stringRef.obj = some ⟨.string, 0, .string "x"⟩ := by
  obtain ⟨host, hreached, hheld, -⟩ := fullBridge_reached
  refine ⟨host, hreached, fullBridge_bounded, hheld, get?_fullBridge, ?_, ?_⟩
  · have hrun : ((hostToForeign (.seq [.object stringRef]) none true).run fullBridge).1 =
        .ok (.ok (some ⟨4⟩)) := by decide +kernel
    have hcount : ((hostToForeign (.seq [.object stringRef]) none true).run
        fullBridge).2.heap.get? stringRef.obj = some ⟨.string, 0, .string "x"⟩ := by decide +kernel
    refine exists_state hrun ⟨hcount, fun hextends => ?_⟩
    have hraised := hextends.raised _ _ _ get?_fullBridge hcount rfl
    exact absurd hraised (by decide +kernel)
  · exact exists_state (by decide +kernel) (by decide +kernel)

end ObjectBridge
