import ObjectBridge.Proofs.UnsharedObjects

set_option autoImplicit false

/-!
# Trees with one owner (SPEC §3, §11.3)

A handle carries a value if what it is on is copied to that value and there is a single claim on
each part of it.  Then nobody but the owner of the handle can change the value: `Heap.Intact` says
that everything that can be reached from an object is as it was, down to its count, and there is one
lemma for each change of the heap, namely building a value, adding an object, writing to an object
that cannot be reached, and giving back claims.
-/

namespace ObjectBridge

open Relation (ReflTransGen)

namespace Heap

variable {h h' : Heap} {out : Multiset ObjId} {claims : List ObjId} {o p q : ObjId}
  {x : Obj} {d : Nat}
  {order : EntryOrder} {e : Option ObjId} {v w : Value}

/-! ## Intact objects -/

/-- Everything that can be reached from the object is as it was, down to its count. -/
def Intact (h h' : Heap) (o : ObjId) : Prop := ∀ p, ReflTransGen h.Holds o p → h'.get? p = h.get? p

theorem Intact.of_holds (hi : h.Intact h' o) (ho : h.Holds o p) :
    h.Intact h' p := fun q hq => hi q (.head ho hq)

theorem Intact.reaches (hi : h.Intact h' o) (hp : ReflTransGen h'.Holds o p) :
    ReflTransGen h.Holds o p := by
  induction hp with
  | refl => exact .refl
  | @tail q p _ hstep ih =>
    obtain ⟨x, hx, hmem⟩ := hstep
    rw [hi q ih] at hx
    exact ih.tail ⟨x, hx, hmem⟩

theorem Intact.exclusive (hi : h.Intact h' o) (he : h.Exclusive o) : h'.Exclusive o := by
  intro p hp x hx hm
  have hreach := hi.reaches hp
  rw [hi p hreach] at hx
  exact he p hreach x hx hm

theorem content_of_get?_eq (hg : h'.get? o = h.get? o) : h'.content o = h.content o := by
  unfold content
  rw [hg]

/-- An intact object is copied to the same value. -/
theorem copy_of_intact (hi : ∀ o ∈ e, h.Intact h' o) (hr : h.copy order d e = some w) :
    h'.copy order d e = some w := by
  induction d generalizing e w with
  | zero =>
    cases e with
    | none => exact hr
    | some o => cases hr
  | succ d ih =>
    cases e with
    | none => exact hr
    | some o =>
      obtain ⟨-, x, -, hx⟩ := live_of_copy hr
      have hio := hi o rfl
      have hx' : h'.get? o = some x := (hio o .refl).trans hx
      rw [copy_known hx] at hr
      rw [copy_known hx']
      refine readContent_mono (fun p hp c hc => ?_) (fun el hel u => ih fun p hp => ?_) hr
      · rwa [content_of_get?_eq (hio p (.single ⟨x, hx, hp⟩))]
      · exact hio.of_holds ⟨x, hx, hel p hp⟩

/-! ## Changes elsewhere -/

theorem intact_add (hc : h.Counted out) (hl : h.Live o) (x : Obj) : h.Intact (h.add x) o := by
  intro p hp
  obtain ⟨y, hy⟩ := hc.live_of_reaches hl hp
  rw [get?_add, if_neg (ne_next_of_get? hy)]

theorem intact_setPayload (hn : ¬ ReflTransGen h.Holds o q) (payload : Payload) :
    h.Intact (h.setPayload q payload) o := by
  intro p hp
  have hne : p ≠ q := by
    rintro rfl
    exact hn hp
  rw [get?_setPayload, if_neg hne]

/-- Claims may be given back as long as the one on the object is kept. -/
theorem intact_sweep (hc : h.Counted (claims + out)) (he : h.Exclusive o) (ho : o ∈ out) :
    h.Intact (h.sweep claims).heap o := by
  obtain ⟨-, hafter⟩ := sweep_counted h claims out hc
  have hlive : ∀ p, ReflTransGen h.Holds o p → (h.sweep claims).heap.Live p := by
    intro p hp
    induction hp with
    | refl => exact hafter.live_out ho
    | tail _ hstep ih =>
      obtain ⟨x, hx, hmem⟩ := hstep
      obtain ⟨y, hy, -, hpay⟩ := sameAt_sweep claims ih x hx
      exact hafter.live_inside hy (hpay ▸ hmem)
  intro p hp
  obtain ⟨y, hy⟩ := hlive p hp
  obtain ⟨x, hx, hcls, hpay, himm⟩ := sweep_get? h claims hy
  rw [hy, hx]
  cases hm : x.cls.isImmortal with
  | true => rw [himm hm]
  | false =>
    -- the count was one, has not risen, and is not zero
    have hone := he p hp x hx hm
    have hle := count_sweep hc hx hm hy
    have hpos := (hafter.exact hy (hcls ▸ hm)).2
    rw [hone, UInt32.toNat_one] at hle
    have hcount : y.count = x.count := by
      rw [hone, ← UInt32.toNat_inj, UInt32.toNat_one]
      omega
    obtain ⟨cls, count, payload⟩ := x
    obtain ⟨cls', count', payload'⟩ := y
    cases hcls
    cases hpay
    cases hcount
    rfl

/-- If the only claim on an object is the host's, no object holds it. -/
theorem Counted.not_held (hc : h.Counted out) (ho : o ∈ out) (hx : h.get? o = some x)
    (hm : x.cls.isImmortal = false) (hone : x.count = 1) :
    out.count o = 1 ∧ ∀ p, ¬ h.Holds p o := by
  have hcount := (hc.exact hx hm).1
  rw [hone, UInt32.toNat_one, Multiset.count_add] at hcount
  have hpos : 0 < out.count o := Multiset.count_pos.mpr ho
  refine ⟨by omega, fun p hp => ?_⟩
  have hheld : 0 < h.claims.count o := Multiset.count_pos.mpr (mem_claims_iff.mpr ⟨p, hp⟩)
  omega

theorem not_reaches_of_not_held (hn : ∀ p, ¬ h.Holds p o) (hne : p ≠ o) :
    ¬ ReflTransGen h.Holds p o := by
  intro hp
  rcases Relation.ReflTransGen.cases_tail hp with heq | ⟨q, -, hq⟩
  · exact hne heq.symm
  · exact hn q hq

/-! ## Handles that carry a value -/

/-- In whatever order entries are met, what the handle is on is copied to a value equal to this one,
and there is a single claim on each part of it. -/
structure Carries (h : Heap) (e : Option ObjId) (v : Value) : Prop where
  reads : ∀ order, ∃ w, h.copy order h.slots.length e = some w ∧ w.same v = true
  exclusive : ∀ o ∈ e, h.Exclusive o

theorem carries_null (h : Heap) : h.Carries none .null :=
  ⟨fun _ => ⟨.null, copy_none h _, Value.same_refl .null⟩, nofun⟩

theorem Carries.intact (hv : h.Carries e v) (hlen : h.slots.length ≤ h'.slots.length)
    (hi : ∀ o ∈ e, h.Intact h' o) :
    h'.Carries e v := by
  refine ⟨fun order => ?_, fun o ho => (hi o ho).exclusive (hv.exclusive o ho)⟩
  obtain ⟨w, hw, hsame⟩ := hv.reads order
  exact ⟨w, copy_depth (copy_of_intact hi hw) hlen, hsame⟩

theorem Carries.live (hv : h.Carries (some o) v) : h.Live o := by
  obtain ⟨w, hw, -⟩ := hv.reads .stored
  obtain ⟨-, x, -, hx⟩ := live_of_copy hw
  exact ⟨x, hx⟩

end Heap

section Calls

open Heap

variable {b : Bridge} {h : Heap} {host out : Multiset ObjId} {t : ObjId × ObjId} {o : ObjId}
  {e : Option ObjId}
  {v : Value}

/-- What is carried is converted to a value equal to it both ways. -/
theorem copies_of_carries (hv : h.Carries e v) (hc : h.Counted out) :
    ∃ w, Copies b h (foreignToHost e) w ∧ w.same v = true ∧ v.same w = true := by
  obtain ⟨w, hw, hsame⟩ := hv.reads b.order
  refine ⟨w, copies_foreignToHost hc hw fun o ho => (hv.exclusive o ho).unshared, hsame, ?_⟩
  exact Value.same_symm (readWithin_distinct hw) hsame

/-- What is carried can be claimed while it is converted. -/
theorem copies_claimed_of_carries (hv : h.Carries e v) (hc : h.Counted out) :
    ∃ w, Copies b h (do e.toList.forM retain; withClaims e.toList (foreignToHost e)) w ∧
      w.same v = true ∧ v.same w = true := by
  obtain ⟨w, hw, hsame⟩ := hv.reads b.order
  refine ⟨w, ?_, hsame, Value.same_symm (readWithin_distinct hw) hsame⟩
  have hlive : ∀ p ∈ e.toList, h.Live p := by
    intro p hp
    rw [Option.mem_toList.mp hp] at hv
    exact hv.live
  have hroom : ∀ p x, h.get? p = some x → x.cls.isImmortal = false →
      x.count.toNat + e.toList.count p < 2 ^ 32 := by
    intro p x hx hm
    by_cases hp : p ∈ e
    · have hone := hv.exclusive p hp p .refl x hx hm
      rw [Option.mem_def.mp hp, hone, Option.toList_some, List.count_singleton_self,
        UInt32.toNat_one]
      decide
    · rw [List.count_eq_zero.mpr fun hmem => hp (Option.mem_toList.mp hmem), Nat.add_zero]
      exact x.count.toNat_lt
  refine .borrow hc hlive hroom (copies_foreignToHost (hc.retainAll hlive hroom) ?_
    fun o ho p hp x hx hm => ?_)
  · rwa [length_retainAll, copy_congr (content_retainAll h e.toList)]
  · -- what is under the object has not been claimed again, since the object is not under itself
    rw [Option.mem_def.mp ho] at hw hv hx
    rw [holds_eq_of_content (content_retainAll h e.toList)] at hp
    have hne : p ∉ (some o).toList := by
      intro hmem
      rw [Option.toList_some, List.mem_singleton] at hmem
      exact no_ring_of_copy hw (hmem ▸ hp)
    rw [get?_retainAll, List.count_eq_zero.mpr hne, Function.iterate_zero, Option.map_id] at hx
    exact hv.exclusive o rfl p hp.to_reflTransGen x hx hm

namespace Bridge

theorem intact_built (hs : b.Sound host) (hfree : v.claims = []) (hl : b.heap.Live o) :
    b.heap.Intact (b.built t v).heap o := by
  intro p hp
  have hlive := hs.counted.live_of_reaches hl hp
  rw [get?_built hlive.used, hfree, List.count_nil, Function.iterate_zero, Option.map_id]
  rfl

theorem carries_built (hs : b.Sound host) (ht : b.truths = some t) (hv : v.Distinct)
    (hfree : v.claims = []) :
    (b.built t v).heap.Carries (v.root t b.heap.slots.length) v :=
  ⟨copy_built hs ht hv hfree, fun _ ho => exclusive_built hs ht hfree ho⟩

end Bridge

end Calls

end ObjectBridge
