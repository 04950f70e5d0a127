import ObjectBridge.Proofs.ConversionEffect
import Mathlib.Algebra.BigOperators.Group.Finset.Basic
import Mathlib.Order.Bounds.Basic

set_option autoImplicit false

/-!
# The destroy cascade (SPEC §4.1, §11.1)

Giving back the last claim on an object destroys it, and with it everything that only destroyed
objects still held.  What goes is the least set that is closed under this rule: what survives is
claimed by something that survives, and whatever supports itself in this way survives.  The heap
that is left has right counts, so it is known once it is known what survives, and nothing depends on
the order in which claims are given back.
-/

namespace ObjectBridge

namespace Heap

variable {h : Heap} {out : Multiset ObjId} {o p q : ObjId} {x y : Obj} {work : List ObjId}

/-! ## Sweeps in another order -/

/-- What survives a sweep is not immortal unless it was so before. -/
theorem immortal_of_sweep (hi : (h.sweep work).heap.Immortal p) : h.Immortal p := by
  obtain ⟨y, hy, hm⟩ := hi
  obtain ⟨x, hx, hcls, -⟩ := sweep_get? h work hy
  exact ⟨x, hx, hcls ▸ hm⟩

/-- What survives a sweep holds what it held before. -/
theorem holds_of_sweep (hh : (h.sweep work).heap.Holds q p) : h.Holds q p := by
  obtain ⟨y, hy, hp⟩ := hh
  obtain ⟨x, hx, -, hpay, -⟩ := sweep_get? h work hy
  exact ⟨x, hx, hpay ▸ hp⟩

/-- What survives a sweep supports itself: it is immortal, or claimed from outside or by something
that survives. -/
theorem supported_sweep (hc : h.Counted (work + out)) :
    h.Supported out (h.sweep work).heap.Live := by
  obtain ⟨-, hafter⟩ := sweep_counted h work out hc
  constructor
  · rintro p ⟨y, hy⟩
    obtain ⟨x, hx, -⟩ := sweep_get? h work hy
    exact ⟨x, hx⟩
  · intro p hl hm
    rcases hafter.claimed hl (fun hi => hm (immortal_of_sweep hi)) with hout | ⟨q, hq⟩
    · exact .inl hout
    · exact .inr ⟨q, hq.live, holds_of_sweep hq⟩

/-- What survives one sweep survives every other one after which the same claims are left. -/
theorem live_sweep_of_live_sweep {work' : List ObjId} (hc : h.Counted (work + out))
    (hc' : h.Counted (work' + out)) (hl : (h.sweep work).heap.Live p) :
    (h.sweep work').heap.Live p :=
  (supported_sweep hc).live_sweep hc' p hl

/-- The heap that a sweep leaves does not depend on the order of the claims. -/
theorem heap_sweep_perm {work' : List ObjId} (hperm : work'.Perm work)
    (hc : h.Counted (work + out)) :
    (h.sweep work').heap = (h.sweep work).heap := by
  have hc' : h.Counted (work' + out) := by rwa [Multiset.coe_eq_coe.mpr hperm]
  obtain ⟨-, hafter⟩ := sweep_counted h work out hc
  obtain ⟨-, hafter'⟩ := sweep_counted h work' out hc'
  refine hafter.eq_of_content hafter' (by rw [length_sweep, length_sweep]) ?_ ?_
  · funext p
    by_cases hl : (h.sweep work).heap.Live p
    · rw [content_sweep_of_live hl, content_sweep_of_live (live_sweep_of_live_sweep hc hc' hl)]
    · have hl' : ¬ (h.sweep work').heap.Live p := fun e => hl (live_sweep_of_live_sweep hc' hc e)
      rw [content_eq_none_iff.mpr (not_live_iff.mp hl),
        content_eq_none_iff.mpr (not_live_iff.mp hl')]
  · intro p y hy hm
    obtain ⟨x, hx, hcls, -, himm⟩ := sweep_get? h work hy
    rw [hcls] at hm
    rw [himm hm]
    exact sweep_get?_of_immortal h work' hx hm

/-- Nor do the objects that it destroys. -/
theorem destroyed_sweep_perm {work' : List ObjId} (hperm : work'.Perm work)
    (hc : h.Counted (work + out)) :
    ((h.sweep work').destroyed.map Prod.fst).Perm ((h.sweep work).destroyed.map Prod.fst) := by
  rw [List.perm_iff_count]
  intro p
  rw [sweep_destroyed, sweep_destroyed, heap_sweep_perm hperm hc]

/-! ## Claims drained in any order -/

/-- A sweep in which each destroyed object gives back its claims in some order, not necessarily that
of its payload. -/
inductive Drains : Heap → List ObjId → Sweep → Prop
  | done (h : Heap) : Drains h [] ⟨h, [], none⟩
  | dangling {h : Heap} {o : ObjId} {rest : List ObjId} (hx : h.get? o = none) :
    Drains h (o :: rest) ⟨h, [], some (.dangling o)⟩
  | immortal {h : Heap} {o : ObjId} {rest : List ObjId} {x : Obj} {s : Sweep}
    (hx : h.get? o = some x) (hm : x.cls.isImmortal = true) (hs : Drains h rest s) :
    Drains h (o :: rest) s
  | overdrawn {h : Heap} {o : ObjId} {rest : List ObjId} {x : Obj} (hx : h.get? o = some x)
    (hm : x.cls.isImmortal = false) (h0 : x.count = 0) :
    Drains h (o :: rest) ⟨h, [], some (.overdrawn o x.cls)⟩
  | destroyed {h : Heap} {o : ObjId} {rest order : List ObjId} {x : Obj} {s : Sweep}
    (hx : h.get? o = some x) (hm : x.cls.isImmortal = false) (h1 : x.count = 1)
    (horder : order.Perm x.payload.claims) (hs : Drains (h.erase o) (order ++ rest) s) :
    Drains h (o :: rest) { s with destroyed := (o, x) :: s.destroyed }
  | lowered {h : Heap} {o : ObjId} {rest : List ObjId} {x : Obj} {s : Sweep}
    (hx : h.get? o = some x) (hm : x.cls.isImmortal = false) (h0 : x.count ≠ 0) (h1 : x.count ≠ 1)
    (hs : Drains (h.set o { x with count := x.count - 1 }) rest s) : Drains h (o :: rest) s

/-- The sweep that is made is one of these. -/
theorem drains_sweep (h : Heap) (work : List ObjId) : h.Drains work (h.sweep work) := by
  fun_induction Heap.sweep h work with
  | case1 h => exact .done h
  | case2 h o rest hx => exact .dangling hx
  | case3 h o rest x hx hm ih => exact .immortal hx hm ih
  | case4 h o rest x hx hm h0 => exact .overdrawn hx (by simpa using hm) h0
  | case5 h o rest x hx hm h0 h1 s ih => exact .destroyed hx (by simpa using hm) h1 (.refl _) ih
  | case6 h o rest x hx hm h0 h1 ih => exact .lowered hx (by simpa using hm) h0 h1 ih

/-- Claims on accounted objects can be given back in any order, and the heap and the objects
destroyed are those of the sweep that is made. -/
theorem Drains.agrees {s : Sweep} (hd : h.Drains work s) (hc : h.Counted (work + out)) :
    s.stop = none ∧ s.heap = (h.sweep work).heap ∧
      (s.destroyed.map Prod.fst).Perm ((h.sweep work).destroyed.map Prod.fst) := by
  induction hd with
  | done h => exact ⟨rfl, by simp [sweep], by simp [sweep]⟩
  | @dangling h o rest hx =>
    rw [← Multiset.cons_coe, Multiset.cons_add] at hc
    exact absurd hx (Option.ne_none_iff_exists'.mpr (hc.live_out (Multiset.mem_cons_self o _)))
  | immortal hx hm hs ih =>
    rw [← Multiset.cons_coe, Multiset.cons_add] at hc
    rw [sweep_cons_immortal _ hx hm]
    exact ih ((Counted.cons_immortal_iff hx hm).mp hc)
  | overdrawn hx hm h0 =>
    rw [← Multiset.cons_coe, Multiset.cons_add] at hc
    obtain ⟨-, hpos⟩ := hc.exact hx hm
    simp [h0] at hpos
  | @destroyed h o rest order x s hx hm h1 horder hs ih =>
    rw [← Multiset.cons_coe, Multiset.cons_add] at hc
    have hafter : (h.erase o).Counted ((x.payload.claims ++ rest : List ObjId) + out) := by
      rw [← Multiset.coe_add, add_assoc]
      exact hc.destroy hx hm h1
    have hperm : (order ++ rest).Perm (x.payload.claims ++ rest) := horder.append_right rest
    obtain ⟨hstop, hheap, hgone⟩ := ih (by rwa [Multiset.coe_eq_coe.mpr hperm])
    rw [sweep_cons_last rest hx hm h1]
    refine ⟨hstop, hheap.trans (heap_sweep_perm hperm hafter), ?_⟩
    exact (hgone.trans (destroyed_sweep_perm hperm hafter)).cons o
  | lowered hx hm h0 h1 hs ih =>
    rw [← Multiset.cons_coe, Multiset.cons_add] at hc
    rw [sweep_cons_lowered _ hx hm h0 h1]
    exact ih (hc.lower hx hm h1)

/-! ## What is destroyed -/

/-- A set with the objects that go when one claim on `o` is given back and the claims `out` stay
held outside: `o` has to be in it if this was the last claim on it, and any other counted object if
all claims on it come from the set. -/
structure Doomed (h : Heap) (out : Multiset ObjId) (o : ObjId) (D : Set ObjId) : Prop where
  last : o ∉ out → (∀ q, ¬ h.Holds q o) → o ∈ D
  orphan : ∀ p, p ≠ o → h.Live p → ¬ h.Immortal p → p ∉ out → (∀ q, h.Holds q p → q ∈ D) → p ∈ D

/-- Nothing goes that is claimed once more. -/
theorem destroyed_of_lowered (hx : h.get? o = some x) (hm : x.cls.isImmortal = false)
    (h0 : x.count ≠ 0) (h1 : x.count ≠ 1) : (h.sweep [o]).destroyed = [] := by
  rw [sweep_cons_lowered [] hx hm h0 h1, sweep]

/-- An object whose claims all come from objects that go, goes. -/
theorem doomed_destroyed (hc : h.Counted (o ::ₘ out)) (hx : h.get? o = some x)
    (hm : x.cls.isImmortal = false) :
    h.Doomed out o {p | p ∈ (h.sweep [o]).destroyed.map Prod.fst} := by
  have hwork : h.Counted (([o] : List ObjId) + out) := hc
  have horphan : ∀ p, h.Live p → ¬ h.Immortal p → p ∉ out →
      (∀ q, h.Holds q p → q ∈ (h.sweep [o]).destroyed.map Prod.fst) →
      p ∈ (h.sweep [o]).destroyed.map Prod.fst := by
    intro p hl himm hout hheld
    refine mem_destroyed_iff.mpr ⟨hl, fun hafter => ?_⟩
    rcases (supported_sweep hwork).claimed p hafter himm with hin | ⟨q, hq, hqp⟩
    · exact hout hin
    · exact (mem_destroyed_iff.mp (hheld q hqp)).2 hq
  refine ⟨fun hout hfree => ?_, fun p _ => horphan p⟩
  exact horphan o ⟨x, hx⟩ (not_immortal_of_get? hx hm) hout fun q hq => absurd hq (hfree q)

/-- What is not in a doomed set keeps itself claimed. -/
theorem Doomed.supported {D : Set ObjId} (hD : h.Doomed out o D) (ho : o ∈ D) :
    h.Supported out fun p => h.Live p ∧ p ∉ D := by
  refine ⟨fun p hp => hp.1, ?_⟩
  rintro p ⟨hl, hp⟩ hm
  by_contra hfree
  rw [not_or] at hfree
  obtain ⟨hout, hheld⟩ := hfree
  have hne : p ≠ o := fun heq => hp (heq ▸ ho)
  refine hp (hD.orphan p hne hl hm hout fun q hq => ?_)
  by_contra hqD
  exact hheld ⟨q, ⟨hq.live, hqD⟩, hq⟩

/-- Every doomed set has in it what goes. -/
theorem destroyed_subset {D : Set ObjId} (hc : h.Counted (o ::ₘ out)) (hx : h.get? o = some x)
    (hm : x.cls.isImmortal = false) (hD : h.Doomed out o D)
    (hp : p ∈ (h.sweep [o]).destroyed.map Prod.fst) :
    p ∈ D := by
  have hwork : h.Counted (([o] : List ObjId) + out) := hc
  obtain ⟨hcount, hpos⟩ := hc.exact hx hm
  by_cases h1 : x.count = 1
  · -- this was the last claim, so `o` is in the set
    have hlast : o ∈ D := by
      rw [h1, UInt32.toNat_one, Multiset.cons_add, Multiset.count_cons_self] at hcount
      have hzero : o ∉ out + h.claims := Multiset.count_eq_zero.mp (by omega)
      rw [Multiset.mem_add, not_or] at hzero
      refine hD.last hzero.1 fun q hq => hzero.2 ?_
      obtain ⟨y, hy, hmem⟩ := hq
      exact mem_claims_iff.mpr ⟨q, y, hy, hmem⟩
    obtain ⟨hl, hgone⟩ := mem_destroyed_iff.mp hp
    by_contra hnot
    exact hgone ((hD.supported hlast).live_sweep hwork p ⟨hl, hnot⟩)
  · have h0 : x.count ≠ 0 := by
      intro e
      rw [e] at hpos
      cases hpos
    rw [destroyed_of_lowered hx hm h0 h1] at hp
    cases hp

theorem isLeast_destroyed (hc : h.Counted (o ::ₘ out)) (hx : h.get? o = some x)
    (hm : x.cls.isImmortal = false) :
    IsLeast {D | h.Doomed out o D} {p | p ∈ (h.sweep [o]).destroyed.map Prod.fst} :=
  ⟨doomed_destroyed hc hx hm, fun _ hD _ hp => destroyed_subset hc hx hm hD hp⟩

/-! ## What survives -/

/-- The claims that the objects of a set hold on `p`. -/
def heldFrom (h : Heap) (D : Finset ObjId) (p : ObjId) : Nat :=
  ∑ q ∈ D, (slotClaims (h.get? q)).count p

/-- An object is destroyed with what it carried at first. -/
theorem payload_of_destroyed {d : ObjId × Obj} (hd : d ∈ (h.sweep work).destroyed) :
    slotClaims (h.get? d.1) = d.2.payload.claims := by
  fun_induction Heap.sweep h work with
  | case1 h | case2 h o rest hx | case4 h o rest x hx hm h0 => cases hd
  | case3 h o rest x hx hm ih => exact ih hd
  | case5 h o rest x hx hm h0 h1 s ih =>
    rcases List.mem_cons.mp hd with rfl | hrest
    · rw [hx, slotClaims]
    · have hsame := ih hrest
      rw [get?_erase hx] at hsame
      split at hsame
      · rename_i heq
        have hgone := (mem_destroyed_iff.mp (List.mem_map_of_mem (f := Prod.fst) hrest)).1
        rw [heq] at hgone
        obtain ⟨y, hy⟩ := hgone
        rw [get?_erase hx, if_pos rfl] at hy
        cases hy
      · exact hsame
  | case6 h o rest x hx hm h0 h1 ih =>
    have hsame := ih hd
    rw [get?_set hx] at hsame
    split at hsame
    · rename_i heq
      rw [heq, hx]
      exact hsame
    · exact hsame

theorem heldFrom_destroyed (h : Heap) (work : List ObjId) (p : ObjId) :
    h.heldFrom ((h.sweep work).destroyed.map Prod.fst).toFinset p =
      ((h.sweep work).destroyed.flatMap fun d => d.2.payload.claims).count p := by
  unfold heldFrom
  rw [List.sum_toFinset _ (nodup_destroyed h work), List.map_map, List.count_flatMap]
  congr 1
  refine List.map_congr_left fun d hd => ?_
  simp only [Function.comp_apply, payload_of_destroyed hd, Multiset.coe_count]

end Heap

/-! ## Giving back one claim -/

/-- What giving back one claim on `o` does to a heap while the claims `out` stay held outside: the
objects `gone` are destroyed, in this order. -/
structure Heap.Cascade (h h' : Heap) (out : Multiset ObjId) (o : ObjId) (gone : List ObjId) :
    Prop where
  /-- the objects that go are those that have to -/
  least : IsLeast {D | h.Doomed out o D} {p | p ∈ gone}
  /-- none is destroyed twice -/
  once : gone.Nodup
  destroyed : ∀ p ∈ gone, h.Live p ∧ h'.get? p = none
  /-- an object that does not go loses a count for each claim that was given back on it -/
  kept : ∀ p x, h.get? p = some x → p ∉ gone →
    ∃ y, h'.get? p = some y ∧ y.cls = x.cls ∧ y.payload = x.payload ∧
    (x.cls.isImmortal = true → y = x) ∧
      (x.cls.isImmortal = false →
        x.count.toNat = y.count.toNat + h.heldFrom gone.toFinset p + if p = o then 1 else 0)
  /-- nothing is made -/
  unused : ∀ p, h.get? p = none → h'.get? p = none
  /-- whatever the order in which destroyed objects give back their claims, the same heap is left -/
  anyOrder : ∀ s, h.Drains [o] s → s.stop = none ∧ s.heap = h' ∧
    (s.destroyed.map Prod.fst).Perm gone

namespace Heap

variable {h : Heap} {out : Multiset ObjId} {o : ObjId} {x : Obj}

theorem cascade_sweep (hc : h.Counted (o ::ₘ out)) (hx : h.get? o = some x)
    (hm : x.cls.isImmortal = false) :
    h.Cascade (h.sweep [o]).heap out o ((h.sweep [o]).destroyed.map Prod.fst) where
  least := isLeast_destroyed hc hx hm
  once := nodup_destroyed h [o]
  destroyed p hp := by
    obtain ⟨hl, hgone⟩ := mem_destroyed_iff.mp hp
    exact ⟨hl, not_live_iff.mp hgone⟩
  kept p y hy hp := by
    have hl : (h.sweep [o]).heap.Live p := by
      by_contra hgone
      exact hp (mem_destroyed_iff.mpr ⟨⟨y, hy⟩, hgone⟩)
    obtain ⟨z, hz⟩ := hl
    obtain ⟨w, hw, hcls, hpay, himm⟩ := sweep_get? h [o] hz
    obtain rfl : y = w := Option.some.inj (hy.symm.trans hw)
    refine ⟨z, hz, hcls, hpay, himm, fun hmortal => ?_⟩
    have hwork : h.Counted (([o] : List ObjId) + out) := hc
    rw [heldFrom_destroyed, count_sweep hwork hy hmortal hz, List.count_singleton]
    by_cases hpo : p = o
    · simp only [hpo, beq_self_eq_true, if_true]
      omega
    · have hop : ¬ o = p := fun e => hpo e.symm
      simp only [hpo, hop, beq_iff_eq, if_false]
      omega
  unused _ hp := get?_sweep_of_none hp
  anyOrder _ hd := by
    have hwork : h.Counted (([o] : List ObjId) + out) := hc
    exact hd.agrees hwork

end Heap

/-- Giving back a claim on a counted object, on a heap whose counts are right, returns how many
claims remain on it and does not raise.  It destroys exactly what only destroyed objects still held,
each object once; the other objects keep what they carry, and the result is the same whatever the
order of the entries of the destroyed hashes. -/
theorem destroy_cascade {b : Bridge} {out : Multiset ObjId} {o : ObjId} {x : Obj}
    (hc : b.heap.Counted (o ::ₘ out)) (hx : b.heap.get? o = some x)
    (hm : x.cls.isImmortal = false) :
    ∃ b' gone, (release o).run b = (.ok (x.count - 1), b') ∧
      b'.ledger.destroyed = b.ledger.destroyed ++ gone ∧ b.heap.Cascade b'.heap out o gone := by
  have hstop : (b.heap.sweep [o]).stop = none := (Heap.sweep_counted b.heap [o] out hc).1
  have hleft : b.heap.remaining o = x.count - 1 := by simp [Heap.remaining, hx, hm]
  have hends : Ends (release o) b (fun left b' => left = x.count - 1 ∧ b' = b.swept [o])
      (fun _ _ => False) := by
    unfold release releaseAll
    rw [ends_bind, ends_get, ends_bind, ends_bind, ends_sweepClaims, hstop]
    exact ⟨hleft, rfl⟩
  exact ⟨b.swept [o], _, hends.run_ok, rfl, Heap.cascade_sweep hc hx hm⟩

/-- A vector with a hash and a string in it; the string is also a value of the hash and in another
vector, which holds itself. -/
def tangledHeap : Heap :=
  ⟨[some ⟨.vector, 1, .vector [some ⟨1⟩, some ⟨2⟩]⟩,
    some ⟨.hash, 1, .hash ⟨[(7, [⟨⟨3⟩, some ⟨2⟩⟩])]⟩⟩, some ⟨.string, 3, .string "x"⟩,
    some ⟨.string, 1, .string "k"⟩, some ⟨.vector, 1, .vector [some ⟨4⟩, some ⟨2⟩]⟩]⟩

theorem tangledHeap_counted : tangledHeap.Counted (⟨0⟩ ::ₘ 0) := by decide +kernel

/-- The vector goes with its hash and the key of the hash; the string stays with one claim on it, in
the vector that holds itself. -/
theorem destroy_cascade_of_tangled_heap :
    ∃ b' gone, (release ⟨0⟩).run { Bridge.ready .usual with heap := tangledHeap } = (.ok 0, b') ∧
      tangledHeap.Cascade b'.heap 0 ⟨0⟩ gone ∧ gone = [⟨0⟩, ⟨1⟩, ⟨3⟩] ∧
      (∃ y, b'.heap.get? ⟨2⟩ = some y ∧ y.count.toNat = 1) ∧ ∃ s, tangledHeap.Drains
        [⟨0⟩] s ∧ s.heap = b'.heap := by
  obtain ⟨b', gone, hrun, hledger, hcascade⟩ :=
    destroy_cascade (b := { Bridge.ready .usual with heap := tangledHeap })
      (o := ⟨0⟩) tangledHeap_counted rfl rfl
  have hgone :
      ((release ⟨0⟩).run { Bridge.ready .usual with heap := tangledHeap }).2.ledger.destroyed =
      [⟨0⟩, ⟨1⟩, ⟨3⟩] := by
    decide +kernel
  have hempty : (Bridge.ready .usual).ledger.destroyed = [] := by decide +kernel
  rw [hrun, hledger, hempty, List.nil_append] at hgone
  subst hgone
  obtain ⟨y, hy, -, -, -, hcount⟩ := hcascade.kept ⟨2⟩ _ rfl (by decide)
  have hheld : tangledHeap.heldFrom ([⟨0⟩, ⟨1⟩, ⟨3⟩] : List ObjId).toFinset ⟨2⟩ = 2 := by
    decide +kernel
  have hlost : 3 = y.count.toNat + 2 + 0 := hheld ▸ hcount rfl
  have hdrains := tangledHeap.drains_sweep [⟨0⟩]
  exact ⟨b', _, hrun, hcascade, rfl, ⟨y, hy, by omega⟩, _, hdrains,
    (hcascade.anyOrder _ hdrains).2.1⟩

end ObjectBridge
