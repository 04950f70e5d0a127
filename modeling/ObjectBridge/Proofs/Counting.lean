import ObjectBridge.Proofs.HeapClaims

set_option autoImplicit false

/-!
# Counts that match the claims (SPEC §11.1)

`Counted h out` says that the counts of a heap are exactly right when, besides the claims that live
objects hold on each other, the claims `out` are held outside the heap.  Each change of the heap
moves claims between the two sides, and a sweep of claims that are held outside never fails: it
gives them back, and what is left is counted again.
-/

namespace ObjectBridge.Heap

variable {h : Heap} {out : Multiset ObjId} {o p : ObjId} {x y : Obj}

/-- What a slot must look like when `n` claims on its identity are out: without an object there are
none, and an object that is counted has them all in its count, at least one. -/
def Tallied : Option Obj → Nat → Prop
  | none, n => n = 0
  | some x, n => x.cls.isImmortal = false → x.count.toNat = n ∧ 0 < n

/-- The counts are right if the claims `out` are held outside the heap. -/
def Counted (h : Heap) (out : Multiset ObjId) : Prop :=
  ∀ o, Tallied (h.get? o) ((out + h.claims).count o)

namespace Counted

/-- Every claim is on a live object. -/
theorem live (hc : h.Counted out) (ho : o ∈ out + h.claims) : h.Live o := by
  have ht := hc o
  cases hx : h.get? o with
  | some x => exact ⟨x, hx⟩
  | none =>
    rw [hx] at ht
    exact absurd ho (Multiset.count_eq_zero.mp ht)

theorem live_out (hc : h.Counted out) (ho : o ∈ out) : h.Live o :=
  hc.live (Multiset.mem_add.mpr (.inl ho))

theorem live_inside (hc : h.Counted out) (hx : h.get? p = some x) (ho : o ∈ x.payload.claims) :
    h.Live o :=
  hc.live (Multiset.mem_add.mpr (.inr (mem_claims_iff.mpr ⟨p, x, hx, ho⟩)))

/-- A counted object has as many claims as its count says. -/
theorem exact (hc : h.Counted out) (hx : h.get? o = some x) (hm : x.cls.isImmortal = false) :
    x.count.toNat = (out + h.claims).count o ∧ 0 < x.count.toNat := by
  have ht := hc o
  rw [hx] at ht
  obtain ⟨heq, hpos⟩ := ht hm
  exact ⟨heq, heq ▸ hpos⟩

/-- A live object of a class that is counted has a claim from outside or a holder. -/
theorem claimed (hc : h.Counted out) (hl : h.Live o) (hm : ¬ h.Immortal o) :
    o ∈ out ∨ ∃ p, h.Holds p o := by
  obtain ⟨x, hx⟩ := hl
  have hmortal : x.cls.isImmortal = false := by
    cases hi : x.cls.isImmortal with
    | false => rfl
    | true => exact absurd ⟨x, hx, hi⟩ hm
  obtain ⟨hcount, hpos⟩ := hc.exact hx hmortal
  rw [hcount] at hpos
  rcases Multiset.mem_add.mp (Multiset.count_pos.mp hpos) with hout | hin
  · exact .inl hout
  · obtain ⟨p, y, hy, ho⟩ := mem_claims_iff.mp hin
    exact .inr ⟨p, y, hy, ho⟩

/-! ## What single changes do -/

/-- Whether a claim on an object that is not counted is held outside makes no difference. -/
theorem cons_immortal_iff (hx : h.get? o = some x) (hm : x.cls.isImmortal = true) :
    h.Counted (o ::ₘ out) ↔ h.Counted out := by
  refine forall_congr' fun p => ?_
  by_cases hp : p = o
  · subst hp
    rw [hx]
    simp [Tallied, hm]
  · rw [Multiset.cons_add, Multiset.count_cons_of_ne hp]

/-- Giving up a claim that is not the last one lowers the count. -/
theorem lower (hc : h.Counted (o ::ₘ out)) (hx : h.get? o = some x) (hm : x.cls.isImmortal = false)
    (h1 : x.count ≠ 1) : (h.set o { x with count := x.count - 1 }).Counted out := by
  obtain ⟨hcount, hpos⟩ := hc.exact hx hm
  have hone : x.count.toNat ≠ 1 := fun e => h1 (UInt32.toNat_inj.mp e)
  have hsub : (x.count - 1).toNat = x.count.toNat - 1 :=
    UInt32.toNat_sub_of_le _ _ (UInt32.le_iff_toNat_le.mpr hpos)
  intro p
  have ht := hc p
  rw [get?_set hx, claims_set_same (y := { x with count := x.count - 1 }) hx rfl]
  by_cases hp : p = o
  · subst hp
    rw [Multiset.cons_add, Multiset.count_cons_self] at hcount
    rw [if_pos rfl]
    intro _
    simp only [hsub]
    omega
  · rw [if_neg hp]
    rwa [Multiset.cons_add, Multiset.count_cons_of_ne hp] at ht

/-- Giving up the last claim takes the object off the heap, and what it claimed is claimed from
outside now. -/
theorem destroy (hc : h.Counted (o ::ₘ out)) (hx : h.get? o = some x)
    (hm : x.cls.isImmortal = false) (h1 : x.count = 1) :
    (h.erase o).Counted (x.payload.claims + out) := by
  obtain ⟨hcount, -⟩ := hc.exact hx hm
  have htotal : (x.payload.claims : Multiset ObjId) + out + (h.erase o).claims =
      out + h.claims := by
    rw [← claims_erase hx]
    abel
  intro p
  have ht := hc p
  rw [get?_erase hx, htotal]
  by_cases hp : p = o
  · subst hp
    rw [h1, Multiset.cons_add, Multiset.count_cons_self, UInt32.toNat_one] at hcount
    rw [if_pos rfl]
    change (out + h.claims).count p = 0
    omega
  · rw [if_neg hp]
    rwa [Multiset.cons_add, Multiset.count_cons_of_ne hp] at ht

/-- A new object starts with one claim, and takes over the claims of its payload. -/
theorem add {q : Payload} (hc : h.Counted (q.claims + out)) (c : Class) :
    (h.add ⟨c, 1, q⟩).Counted (h.next ::ₘ out) := by
  intro p
  have ht := hc p
  have htotal : (h.next ::ₘ out) + (h.add ⟨c, 1, q⟩).claims =
      h.next ::ₘ (q.claims + out + h.claims) := by
    rw [claims_add, Multiset.cons_add]
    congr 1
    abel
  rw [get?_add, htotal]
  by_cases hp : p = h.next
  · subst hp
    rw [get?_next] at ht
    have hzero : (q.claims + out + h.claims).count h.next = 0 := ht
    rw [if_pos rfl, Multiset.count_cons_self, hzero]
    intro _
    simp
  · rw [if_neg hp, Multiset.count_cons_of_ne hp]
    exact ht

/-- One claim more on a live object, as long as the count has room for it. -/
theorem retain (hc : h.Counted out) (hx : h.get? o = some x)
    (hroom : x.cls.isImmortal = false → x.count.toNat + 1 < 2 ^ 32) :
    (h.retain o).Counted (o ::ₘ out) := by
  intro p
  have ht := hc p
  cases hm : x.cls.isImmortal with
  | true =>
    rw [retain_of_immortal hx hm]
    exact (cons_immortal_iff hx hm).mpr hc p
  | false =>
    rw [retain_eq hx hm, get?_set hx, claims_set_same (y := { x with count := x.count + 1 }) hx rfl,
      Multiset.cons_add]
    by_cases hp : p = o
    · subst hp
      obtain ⟨hcount, -⟩ := hc.exact hx hm
      have hadd : (x.count + 1).toNat = x.count.toNat + 1 := by
        rw [UInt32.toNat_add, UInt32.toNat_one, Nat.mod_eq_of_lt (hroom hm)]
      rw [if_pos rfl, Multiset.count_cons_self]
      intro _
      simp only [hadd]
      omega
    · rwa [if_neg hp, Multiset.count_cons_of_ne hp]

/-- A new payload exchanges claims with the outside: it takes over its own, and those of the old one
are left there. -/
theorem setPayload {q : Payload} {out' : Multiset ObjId} (hc : h.Counted out)
    (hx : h.get? o = some x) (hq : (q.claims : Multiset ObjId) + out' = x.payload.claims + out) :
    (h.setPayload o q).Counted out' := by
  have htotal : out' + (h.set o { x with payload := q }).claims = out + h.claims := by
    apply add_left_cancel (a := (x.payload.claims : Multiset ObjId))
    have hs : (h.set o { x with payload := q }).claims + x.payload.claims = h.claims + q.claims :=
      claims_set hx { x with payload := q }
    calc (x.payload.claims : Multiset ObjId) + (out' + (h.set o { x with payload := q }).claims)
        = out' + ((h.set o { x with payload := q }).claims + x.payload.claims) := by abel
      _ = q.claims + out' + h.claims := by rw [hs]; abel
      _ = x.payload.claims + (out + h.claims) := by rw [hq, add_assoc]
  intro p
  have ht := hc p
  rw [setPayload_eq hx, get?_set hx, htotal]
  by_cases hp : p = o
  · subst hp
    rw [hx] at ht
    rw [if_pos rfl]
    exact ht
  · rwa [if_neg hp]

end Counted

/-! ## Counts that can be checked -/

instance : (slot : Option Obj) → (n : Nat) → Decidable (Tallied slot n)
  | none, n => inferInstanceAs (Decidable (n = 0))
  | some x, n => inferInstanceAs (Decidable (x.cls.isImmortal = false → x.count.toNat = n ∧ 0 < n))

/-- Only the identities that are used and those that are claimed need a look. -/
theorem counted_iff : h.Counted out ↔ (∀ o ∈ out + h.claims, h.Used o) ∧
    ∀ i < h.slots.length, Tallied (h.get? ⟨i⟩) ((out + h.claims).count ⟨i⟩) := by
  constructor
  · exact fun hc => ⟨fun o ho => (hc.live ho).used, fun i _ => hc ⟨i⟩⟩
  · rintro ⟨hused, htallied⟩ o
    by_cases ho : h.Used o
    · exact htallied o.index ho
    · rw [get?_of_not_used ho]
      exact Multiset.count_eq_zero.mpr fun hmem => ho (hused o hmem)

instance (h : Heap) (out : Multiset ObjId) : Decidable (h.Counted out) :=
  decidable_of_iff _ counted_iff.symm

/-! ## Sweeps -/

-- every proof about sweeps follows the recursion of `sweep`
attribute [elab_as_elim] sweep.induct_unfolding

/-- Claims that are held outside can be given back, and afterwards the rest is counted. -/
theorem sweep_counted (h : Heap) (work : List ObjId) (out : Multiset ObjId)
    (hc : h.Counted (work + out)) :
    (h.sweep work).stop = none ∧ (h.sweep work).heap.Counted out := by
  fun_induction Heap.sweep h work with
  | case1 h => exact ⟨rfl, by simpa using hc⟩
  | case2 h o rest hx =>
    rw [← Multiset.cons_coe, Multiset.cons_add] at hc
    obtain ⟨x, hx'⟩ := hc.live_out (Multiset.mem_cons_self o _)
    rw [hx] at hx'
    cases hx'
  | case3 h o rest x hx hm ih =>
    rw [← Multiset.cons_coe, Multiset.cons_add] at hc
    exact ih ((Counted.cons_immortal_iff hx hm).mp hc)
  | case4 h o rest x hx hm h0 =>
    rw [← Multiset.cons_coe, Multiset.cons_add] at hc
    obtain ⟨-, hpos⟩ := hc.exact hx (by simpa using hm)
    simp [h0] at hpos
  | case5 h o rest x hx hm h0 h1 s ih =>
    rw [← Multiset.cons_coe, Multiset.cons_add] at hc
    refine ih ?_
    rw [← Multiset.coe_add, add_assoc]
    exact hc.destroy hx (by simpa using hm) h1
  | case6 h o rest x hx hm h0 h1 ih =>
    rw [← Multiset.cons_coe, Multiset.cons_add] at hc
    exact ih (hc.lower hx (by simpa using hm) h1)

/-- What a sweep leaves of an object is the object with a lower count, and objects that are not
counted are as before. -/
theorem sweep_get? (h : Heap) (work : List ObjId) {y : Obj}
    (hy : (h.sweep work).heap.get? o = some y) :
    ∃ x, h.get? o = some x ∧ y.cls = x.cls ∧ y.payload = x.payload ∧
    (x.cls.isImmortal = true → y = x) := by
  fun_induction Heap.sweep h work with
  | case1 h => exact ⟨y, hy, rfl, rfl, fun _ => rfl⟩
  | case2 h q rest hx => exact ⟨y, hy, rfl, rfl, fun _ => rfl⟩
  | case3 h q rest x hx hm ih => exact ih hy
  | case4 h q rest x hx hm h0 => exact ⟨y, hy, rfl, rfl, fun _ => rfl⟩
  | case5 h q rest x hx hm h0 h1 s ih =>
    obtain ⟨z, hz, hrest⟩ := ih hy
    rw [get?_erase hx] at hz
    split at hz
    · cases hz
    · exact ⟨z, hz, hrest⟩
  | case6 h q rest x hx hm h0 h1 ih =>
    obtain ⟨z, hz, hcls, hpay, him⟩ := ih hy
    rw [get?_set hx] at hz
    split at hz
    · rename_i hoq
      subst hoq
      cases hz
      exact ⟨x, hx, hcls, hpay, fun e => absurd e hm⟩
    · exact ⟨z, hz, hcls, hpay, him⟩

theorem get?_sweep_of_none {work : List ObjId} (hx : h.get? o = none) :
    (h.sweep work).heap.get? o = none := by
  by_contra hne
  obtain ⟨y, hy⟩ := Option.ne_none_iff_exists'.mp hne
  obtain ⟨z, hz, -⟩ := sweep_get? h work hy
  rw [hx] at hz
  cases hz

/-- Objects that are not counted are not swept. -/
theorem sweep_get?_of_immortal (h : Heap) (work : List ObjId) (hx : h.get? o = some x)
    (hm : x.cls.isImmortal = true) :
    (h.sweep work).heap.get? o = some x := by
  have hne : ∀ {h : Heap} {q : ObjId} {z : Obj}, h.get? o = some x → h.get? q = some z →
      ¬ z.cls.isImmortal = true → o ≠ q := by
    rintro h q z ho hq hz rfl
    rw [ho] at hq
    cases hq
    exact hz hm
  fun_induction Heap.sweep h work with
  | case1 h => exact hx
  | case2 h q rest hq => exact hx
  | case3 h q rest z hq hz ih => exact ih hx
  | case4 h q rest z hq hz h0 => exact hx
  | case5 h q rest z hq hz h0 h1 s ih => exact ih (by rw [get?_erase hq, if_neg (hne hx hq hz), hx])
  | case6 h q rest z hq hz h0 h1 ih => exact ih (by rw [get?_set hq, if_neg (hne hx hq hz), hx])

/-- A sweep uses no new identities. -/
theorem used_sweep (h : Heap) (work : List ObjId) : (h.sweep work).heap.Used o ↔ h.Used o := by
  fun_induction Heap.sweep h work with
  | case1 h => rfl
  | case2 h q rest hx => rfl
  | case3 h q rest x hx hm ih => exact ih
  | case4 h q rest x hx hm h0 => rfl
  | case5 h q rest x hx hm h0 h1 s ih => exact ih.trans (used_erase h q o)
  | case6 h q rest x hx hm h0 h1 ih => exact ih.trans (used_set h _ q o)

theorem length_sweep (h : Heap) (work : List ObjId) :
    (h.sweep work).heap.slots.length = h.slots.length := by
  have hiff : ∀ n, n < (h.sweep work).heap.slots.length ↔ n < h.slots.length :=
    fun n => used_sweep (o := ⟨n⟩) h work
  refine le_antisymm (not_lt.mp fun hlt => ?_) (not_lt.mp fun hlt => ?_)
  · exact absurd ((hiff _).mp hlt) (lt_irrefl _)
  · exact absurd ((hiff _).mpr hlt) (lt_irrefl _)

/-- A sweep destroys each object at most once, and it destroys those that live before it and not
after it. -/
theorem sweep_destroyed (h : Heap) (work : List ObjId) (o : ObjId) :
    ((h.sweep work).destroyed.map Prod.fst).count o =
      if (h.get? o).isSome ∧ ((h.sweep work).heap.get? o).isNone then 1 else 0 := by
  fun_induction Heap.sweep h work with
  | case1 h => cases h.get? o <;> simp
  | case2 h q rest hx => cases h.get? o <;> simp
  | case3 h q rest x hx hm ih => exact ih
  | case4 h q rest x hx hm h0 => cases h.get? o <;> simp
  | case5 h q rest x hx hm h0 h1 s ih =>
    change (q :: s.destroyed.map Prod.fst).count o = if _ ∧ (s.heap.get? o).isNone then 1 else 0
    rw [List.count_cons, ih, get?_erase hx]
    by_cases ho : o = q
    · subst ho
      have hgone : s.heap.get? o = none := by
        cases hs : s.heap.get? o with
        | none => rfl
        | some y =>
          obtain ⟨z, hz, -⟩ := sweep_get? (h.erase o) _ hs
          rw [get?_erase hx, if_pos rfl] at hz
          cases hz
      simp [hx, hgone]
    · have hqo : ¬ q = o := fun e => ho e.symm
      simp [ho, hqo, s]
  | case6 h q rest x hx hm h0 h1 ih =>
    rw [ih, get?_set hx]
    by_cases ho : o = q
    · subst ho
      simp [hx]
    · simp [ho]

theorem mem_destroyed_iff {work : List ObjId} :
    p ∈ (h.sweep work).destroyed.map Prod.fst ↔ h.Live p ∧ ¬ (h.sweep work).heap.Live p := by
  rw [← List.count_pos_iff, sweep_destroyed, not_live_iff]
  unfold Live
  cases h.get? p <;> cases (h.sweep work).heap.get? p <;> simp

theorem nodup_destroyed (h : Heap) (work : List ObjId) :
    ((h.sweep work).destroyed.map Prod.fst).Nodup := by
  rw [List.nodup_iff_count_le_one]
  intro p
  rw [sweep_destroyed]
  split <;> omega

/-- The objects of a set live, and each of them that is counted is claimed from outside or by one of
them. -/
structure Supported (h : Heap) (out : Multiset ObjId) (S : ObjId → Prop) : Prop where
  live : ∀ p, S p → h.Live p
  claimed : ∀ p, S p → ¬ h.Immortal p → p ∈ out ∨ ∃ q, S q ∧ h.Holds q p

namespace Supported

variable {S : ObjId → Prop} {work rest : List ObjId}

/-- A supported object has a claim besides one that is given back, so that this is not its last one.
-/
theorem not_last (hs : h.Supported out S) (hc : h.Counted (o ::ₘ (rest + out)))
    (hx : h.get? o = some x) (hm : x.cls.isImmortal = false) (h1 : x.count = 1) : ¬ S o := by
  intro ho
  have hmem : o ∈ out + h.claims := by
    rcases hs.claimed o ho (not_immortal_of_get? hx hm) with hout | ⟨p, -, y, hy, hin⟩
    · exact Multiset.mem_add.mpr (.inl hout)
    · exact Multiset.mem_add.mpr (.inr (mem_claims_iff.mpr ⟨p, y, hy, hin⟩))
  have hcount := (hc.exact hx hm).1
  have hpos := Multiset.count_pos.mpr hmem
  rw [h1, Multiset.cons_add, Multiset.count_cons_self, add_assoc, Multiset.count_add,
    UInt32.toNat_one] at hcount
  omega

/-- The support does not need an object outside the set. -/
theorem erase (hs : h.Supported out S) (hx : h.get? o = some x) (ho : ¬ S o) :
    (h.erase o).Supported out S := by
  have hget : ∀ p, S p → (h.erase o).get? p = h.get? p := by
    intro p hp
    have hne : p ≠ o := fun heq => ho (heq ▸ hp)
    rw [get?_erase hx, if_neg hne]
  constructor
  · intro p hp
    obtain ⟨y, hy⟩ := hs.live p hp
    exact ⟨y, by rw [hget p hp, hy]⟩
  · intro p hp hm
    have hmortal : ¬ h.Immortal p := by
      rintro ⟨y, hy, hi⟩
      exact hm ⟨y, by rw [hget p hp, hy], hi⟩
    rcases hs.claimed p hp hmortal with hout | ⟨q, hq, y, hy, hin⟩
    · exact .inl hout
    · exact .inr ⟨q, hq, y, by rw [hget q hq, hy], hin⟩

/-- The support does not depend on counts. -/
theorem set (hs : h.Supported out S) (hx : h.get? o = some x) (hcls : y.cls = x.cls)
    (hp : y.payload = x.payload) :
    (h.set o y).Supported out S := by
  constructor
  · exact fun p hp => (live_set hx).mpr (hs.live p hp)
  · intro p hS hm
    rw [immortal_set hx hcls] at hm
    rcases hs.claimed p hS hm with hout | ⟨q, hq, hholds⟩
    · exact .inl hout
    · exact .inr ⟨q, hq, (holds_set hx hp).mpr hholds⟩

/-- Objects that keep each other claimed, or that are claimed from outside, survive a sweep. -/
theorem live_sweep (hs : h.Supported out S) (hc : h.Counted (work + out)) :
    ∀ p, S p → (h.sweep work).heap.Live p := by
  fun_induction Heap.sweep h work with
  | case1 h => exact hs.live
  | case2 h o rest hx => exact hs.live
  | case3 h o rest x hx hm ih =>
    rw [← Multiset.cons_coe, Multiset.cons_add] at hc
    exact ih hs ((Counted.cons_immortal_iff hx hm).mp hc)
  | case4 h o rest x hx hm h0 => exact hs.live
  | case5 h o rest x hx hm h0 h1 s ih =>
    rw [← Multiset.cons_coe, Multiset.cons_add] at hc
    have hmf : x.cls.isImmortal = false := by simpa using hm
    apply ih (hs.erase hx (hs.not_last hc hx hmf h1))
    rw [← Multiset.coe_add, add_assoc]
    exact hc.destroy hx hmf h1
  | case6 h o rest x hx hm h0 h1 ih =>
    rw [← Multiset.cons_coe, Multiset.cons_add] at hc
    exact ih (hs.set hx rfl rfl) (hc.lower hx (by simpa using hm) h1)

end Supported

theorem sweep_cons_immortal (rest : List ObjId) (hx : h.get? o = some x)
    (hm : x.cls.isImmortal = true) :
    h.sweep (o :: rest) = h.sweep rest := by
  rw [sweep]
  split <;> simp_all

theorem sweep_cons_last (rest : List ObjId) (hx : h.get? o = some x) (hm : x.cls.isImmortal = false)
    (h1 : x.count = 1) :
    h.sweep (o :: rest) =
      { (h.erase o).sweep (x.payload.claims ++ rest) with
        destroyed := (o, x) :: ((h.erase o).sweep (x.payload.claims ++ rest)).destroyed } := by
  rw [sweep]
  split <;> simp_all

theorem sweep_cons_lowered (rest : List ObjId) (hx : h.get? o = some x)
    (hm : x.cls.isImmortal = false) (h0 : x.count ≠ 0) (h1 : x.count ≠ 1) :
    h.sweep (o :: rest) = (h.set o { x with count := x.count - 1 }).sweep rest := by
  rw [sweep]
  split <;> simp_all

theorem sweep_cons_overdrawn (rest : List ObjId) (hx : h.get? o = some x)
    (hm : x.cls.isImmortal = false) (h0 : x.count = 0) :
    h.sweep (o :: rest) = ⟨h, [], some (.overdrawn o x.cls)⟩ := by
  rw [sweep]
  split <;> simp_all

/-- Giving back two lists of claims in turn is giving back both at once. -/
theorem sweep_append (h : Heap) (work more : List ObjId) (hstop : (h.sweep work).stop = none) :
    h.sweep (work ++ more) =
      { (h.sweep work).heap.sweep more with
        destroyed := (h.sweep work).destroyed ++ ((h.sweep work).heap.sweep more).destroyed } := by
  fun_induction Heap.sweep h work with
  | case1 h => simp
  | case2 h o rest hx => cases hstop
  | case3 h o rest x hx hm ih => rw [← ih hstop, List.cons_append, sweep_cons_immortal _ hx hm]
  | case4 h o rest x hx hm h0 => cases hstop
  | case5 h o rest x hx hm h0 h1 s ih =>
    have hrest := ih hstop
    rw [List.append_assoc] at hrest
    rw [List.cons_append, sweep_cons_last _ hx (by simpa using hm) h1, hrest]
    rfl
  | case6 h o rest x hx hm h0 h1 ih =>
    rw [← ih hstop, List.cons_append, sweep_cons_lowered _ hx (by simpa using hm) h0 h1]

/-- The claims that live objects hold are those that are left after a sweep and those of the
destroyed objects. -/
theorem claims_sweep (h : Heap) (work : List ObjId) :
    h.claims = (h.sweep work).heap.claims +
      ((h.sweep work).destroyed.flatMap fun d => d.2.payload.claims : List ObjId) := by
  fun_induction Heap.sweep h work with
  | case1 h => simp
  | case2 h o rest hx => simp
  | case3 h o rest x hx hm ih => exact ih
  | case4 h o rest x hx hm h0 => simp
  | case5 h o rest x hx hm h0 h1 s ih =>
    rw [List.flatMap_cons, ← Multiset.coe_add, ← claims_erase hx, ih]
    abel
  | case6 h o rest x hx hm h0 h1 ih =>
    rw [← ih]
    exact (claims_set_same (y := { x with count := x.count - 1 }) hx rfl).symm

/-- What a sweep leaves of a counted object has lost the claims given back on it, and those that
destroyed objects held on it. -/
theorem count_sweep {work : List ObjId} (hc : h.Counted (work + out)) (hx : h.get? o = some x)
    (hm : x.cls.isImmortal = false) (hy : (h.sweep work).heap.get? o = some y) :
    x.count.toNat =
      y.count.toNat + work.count o +
        ((h.sweep work).destroyed.flatMap fun d => d.2.payload.claims).count o := by
  obtain ⟨-, hafter⟩ := sweep_counted h work out hc
  obtain ⟨z, hz, hcls, -⟩ := sweep_get? h work hy
  obtain rfl : x = z := Option.some.inj (hx.symm.trans hz)
  rw [(hc.exact hx hm).1, (hafter.exact hy (hcls ▸ hm)).1, claims_sweep h work]
  simp only [Multiset.count_add, Multiset.coe_count]
  omega

end ObjectBridge.Heap
