import ObjectBridge.Proofs.ConversionEffect
import ObjectBridge.Proofs.ReadingBack

set_option autoImplicit false

/-!
# Objects that nobody shares (SPEC §4.3)

An object is unshared if there is a single claim on each counted object under it.  Converting it to
a host value claims everything under it for a while: each count goes from one to two and back, so
that no count can overrun and the heap is the same afterwards.  This is said of objects that are
copied through and through; an object that has to be wrapped somewhere inside would leave a claim
with the host.
-/

namespace ObjectBridge

open Relation (TransGen ReflTransGen)

/-! ## Copies -/

/-- What an object that is copied gives: nothing in it has to be wrapped, and what it holds is a
matter of containers only. -/
theorem readContent_cases {look : ObjId → Option Content} {order : EntryOrder}
    {inner : Option ObjId → Option Value} {o : ObjId} {x : Content} {w : Value}
    (hr : readContent look order (fun _ => none) inner o x = some w) :
    (x.2.claims = [] ∧ w.claims = []) ∨
    (∃ elems vs, x.2 = .vector elems ∧ elems.mapM inner = some vs ∧ w = .seq vs) ∨
    ∃ inside pairs, x.2 = .hash inside ∧
      (order.arrange inside.entries).mapM (readEntry look inner) = some pairs ∧ w = .map
        (Assoc.insertAll pairs []) := by
  have hscalar : ∀ {α : Type} (view : Payload → Option α) (φ : α → Value),
      (∀ elems, view (.vector elems) = none) →
      (∀ inside, view (.hash inside) = none) → (∀ a, (φ a).claims = []) →
      (view x.2).map φ = some w →
      x.2.claims = [] ∧ w.claims = [] := by
    intro α view φ hvector hhash hφ hview
    obtain ⟨a, ha, rfl⟩ := Option.map_eq_some_iff.mp hview
    refine ⟨?_, hφ a⟩
    cases hq : x.2 with
    | vector elems => rw [hq, hvector] at ha; cases ha
    | hash inside => rw [hq, hhash] at ha; cases ha
    | _ => rfl
  unfold readContent at hr
  split at hr
  · exact .inl (hscalar _ _ (fun _ => rfl) (fun _ => rfl) (fun _ => rfl) hr)
  split at hr
  · exact .inl (hscalar _ _ (fun _ => rfl) (fun _ => rfl) (fun _ => rfl) hr)
  split at hr
  · exact .inl (hscalar _ _ (fun _ => rfl) (fun _ => rfl) (fun _ => rfl) hr)
  split at hr
  · obtain ⟨elems, helems, hv⟩ := Option.bind_eq_some_iff.mp hr
    obtain ⟨vs, hvs, rfl⟩ := Option.map_eq_some_iff.mp hv
    exact .inr (.inl ⟨elems, vs, Payload.eq_vector helems, hvs, rfl⟩)
  split at hr
  · obtain ⟨inside, hinside, hv⟩ := Option.bind_eq_some_iff.mp hr
    obtain ⟨pairs, hpairs, rfl⟩ := Option.map_eq_some_iff.mp hv
    exact .inr (.inr ⟨inside, pairs, Payload.eq_hash hinside, hpairs, rfl⟩)
  split at hr
  · exact .inl (hscalar _ _ (fun _ => rfl) (fun _ => rfl) (fun _ => rfl) hr)
  split at hr
  · exact .inl (hscalar _ _ (fun _ => rfl) (fun _ => rfl) (fun _ => rfl) hr)
  split at hr
  · exact .inl (hscalar _ _ (fun _ => rfl) (fun _ => rfl) (fun _ => rfl) hr)
  · cases hr

namespace Heap

variable {h h' : Heap} {order : EntryOrder} {out : Multiset ObjId} {o p q : ObjId} {x : Obj}
  {d d' : Nat}
  {e : Option ObjId} {v w : Value}

/-- The host form of an object, or of a null handle, in which nothing is wrapped, through at most
`depth` levels of containers. -/
def copy (h : Heap) (order : EntryOrder) (depth : Nat) (e : Option ObjId) : Option Value :=
  readWithin h.content order (fun _ => none) depth e

@[simp]
theorem copy_none (h : Heap) (d : Nat) : h.copy order d none = some .null := readWithin_none d

theorem copy_known (hx : h.get? o = some x) :
    h.copy order (d + 1) (some o) = readContent h.content order (fun _ => none) (h.copy order d) o
      (x.cls, x.payload) :=
  readWithin_known (content_of_get? hx)

theorem copy_depth (hr : h.copy order d e = some w) (hd : d ≤ d') : h.copy order d' e = some w :=
  readWithin_mono (fun _ _ hx => hx) hd hr

theorem copy_congr (he : h'.content = h.content) : h'.copy order = h.copy order := by
  unfold copy
  rw [he]

/-- An object that is copied lives, and has been read through at least one level. -/
theorem live_of_copy (hr : h.copy order d (some o) = some w) :
    ∃ n x, d = n + 1 ∧ h.get? o = some x := by
  cases d with
  | zero => cases hr
  | succ n =>
    obtain ⟨c, hc, -⟩ := Option.bind_eq_some_iff.mp hr
    obtain ⟨x, hx, -⟩ := Option.map_eq_some_iff.mp hc
    exact ⟨n, x, rfl, hx⟩

/-- A copy holds no claims. -/
theorem copy_claims (hr : h.copy order d e = some w) : w.claims = [] := by
  induction d generalizing e w with
  | zero =>
    cases e with
    | none =>
      cases hr
      rfl
    | some o => cases hr
  | succ d ih =>
    cases e with
    | none =>
      cases hr
      rfl
    | some o =>
      obtain ⟨n, x, -, hx⟩ := live_of_copy hr
      rw [copy_known hx] at hr
      rcases readContent_cases hr with
        ⟨-, hw⟩ | ⟨elems, vs, -, hvs, rfl⟩ | ⟨inside, pairs, -, hpairs, rfl⟩
      · exact hw
      · rw [Value.claims, Value.claimsOfItems_eq, List.flatMap_eq_nil_iff]
        intro u hu
        obtain ⟨el, -, hel⟩ := exists_of_mem_mapM hvs hu
        exact ih hel
      · rw [Value.claims, Value.claimsOfEntries_eq, List.flatMap_eq_nil_iff]
        intro y hy
        obtain ⟨d, -, hd⟩ :=
          exists_of_mem_mapM hpairs ((Assoc.mem_insertAll hy).resolve_right List.not_mem_nil)
        obtain ⟨key, -, hmap⟩ := Option.bind_eq_some_iff.mp hd
        obtain ⟨u, hu, rfl⟩ := Option.map_eq_some_iff.mp hmap
        exact ih hu

/-! ## What is under an object that is copied -/

theorem no_holds_of_text {s : String} (hs : readText h.content p = some s) : ¬ h.Holds p q := by
  rintro ⟨x, hx, hq⟩
  unfold readText at hs
  rw [content_of_get? hx, Option.bind_some] at hs
  have hview : x.payload.string? = some s := Content.of_certified hs
  cases hp : x.payload with
  | string text => rw [hp] at hq; cases hq
  | _ => rw [hp] at hview; cases hview

/-- What an object holds is copied with it, unless it is a key, which holds nothing. -/
theorem copy_of_holds (hr : h.copy order (d + 1) (some o) = some w) (hh : h.Holds o p) :
    (∃ u, h.copy order d (some p) = some u) ∨ ∀ q, ¬ h.Holds p q := by
  obtain ⟨x, hx, hp⟩ := hh
  rw [copy_known hx] at hr
  rcases readContent_cases hr with ⟨hnone, -⟩ | ⟨elems, vs, hq, hvs, -⟩ | ⟨inside, pairs, hq,
    hpairs, -⟩
  · rw [hnone] at hp
    cases hp
  · rw [show x.payload = _ from hq, Payload.mem_claims_vector] at hp
    exact .inl (Option.isSome_iff_exists.mp (isSome_of_mapM hvs hp))
  · rw [show x.payload = _ from hq, Payload.mem_claims_hash] at hp
    obtain ⟨f, hf, hpf⟩ := hp
    obtain ⟨y, hy⟩ :=
      Option.isSome_iff_exists.mp (isSome_of_mapM hpairs (EntryOrder.mem_arrange.mpr hf))
    obtain ⟨key, hkey, hmap⟩ := Option.bind_eq_some_iff.mp hy
    obtain ⟨u, hu, -⟩ := Option.map_eq_some_iff.mp hmap
    rcases hpf with rfl | hvalue
    · exact .inr fun q => no_holds_of_text hkey
    · rw [hvalue] at hu
      exact .inl ⟨u, hu⟩

/-- What is under an object is copied to a smaller depth. -/
theorem copy_of_transGen (hr : h.copy order d (some o) = some w) (hh : TransGen h.Holds o p) :
    (∃ n < d, ∃ u, h.copy order n (some p) = some u) ∨ ∀ q, ¬ h.Holds p q := by
  induction hh with
  | single hstep =>
    obtain ⟨n, x, rfl, -⟩ := live_of_copy hr
    exact (copy_of_holds hr hstep).imp_left fun hu => ⟨n, Nat.lt_succ_self n, hu⟩
  | @tail q p _ hstep ih =>
    rcases ih with ⟨n, hn, u, hu⟩ | hleaf
    · obtain ⟨m, x, rfl, -⟩ := live_of_copy hu
      exact (copy_of_holds hu hstep).imp_left fun hu' => ⟨m, by omega, hu'⟩
    · exact absurd hstep (hleaf p)

/-- An object that is copied does not hold itself, not even through others. -/
theorem no_ring_of_copy (hr : h.copy order d (some o) = some w) : ¬ TransGen h.Holds o o := by
  induction d using Nat.strong_induction_on generalizing w with
  | _ d ih =>
    intro hring
    rcases copy_of_transGen hr hring with ⟨n, hn, u, hu⟩ | hleaf
    · exact ih n hn hu hring
    · obtain ⟨q, hq, -⟩ := Relation.TransGen.head'_iff.mp hring
      exact hleaf q hq

/-! ## Single claims -/

/-- There is a single claim on the object, unless claims on it are not counted. -/
def Single (h : Heap) (p : ObjId) : Prop :=
  ∀ x, h.get? p = some x → x.cls.isImmortal = false → x.count = 1

/-- There is a single claim on everything under the object. -/
def Unshared (h : Heap) (o : ObjId) : Prop := ∀ p, TransGen h.Holds o p → h.Single p

theorem holds_eq_of_content (he : h'.content = h.content) : h'.Holds = h.Holds := by
  have himp : ∀ {h h' : Heap}, h'.content = h.content → ∀ p q, h.Holds p q → h'.Holds p q := by
    rintro h h' he p q ⟨x, hx, hq⟩
    exact holds_of_content (x := (x.cls, x.payload)) ((congrFun he p).trans (content_of_get? hx)) hq
  funext p q
  exact propext ⟨himp he.symm p q, himp he p q⟩

theorem count_payload_le (hx : h.get? o = some x) (p : ObjId) :
    x.payload.claims.count p ≤ h.claims.count p := by
  rw [← claims_erase hx, Multiset.count_add, Multiset.coe_count]
  omega

/-- The only claim on an object has one holder. -/
theorem Counted.holder_eq (hc : h.Counted out) (hs : h.Single p) (hx : h.get? p = some x)
    (hm : x.cls.isImmortal = false) (ho : h.Holds o p) (hq : h.Holds q p) : o = q := by
  have hcount := (hc.exact hx hm).1
  rw [hs x hx hm, Multiset.count_add] at hcount
  have hpos : 0 < h.claims.count p := Multiset.count_pos.mpr (mem_claims_iff.mpr ⟨o, ho⟩)
  have hone : h.claims.count p = 1 := by
    rw [UInt32.toNat_one] at hcount
    omega
  obtain ⟨r, y, -, -, huniq⟩ := exists_holder hone
  rw [huniq o ho, huniq q hq]

/-- The counts of what an unshared object holds have room for the claims that the object has. -/
theorem Unshared.room (hs : h.Unshared o) (hc : h.Counted out) (hx : h.get? o = some x) {y : Obj}
    (hy : h.get? p = some y) (hm : y.cls.isImmortal = false) :
    y.count.toNat + x.payload.claims.count p < 2 ^ 32 := by
  by_cases hp : p ∈ x.payload.claims
  · have hone := hs p (.single ⟨x, hx, hp⟩) y hy hm
    have hcount := (hc.exact hy hm).1
    have hle := count_payload_le hx p
    rw [hone, UInt32.toNat_one, Multiset.count_add] at hcount
    rw [hone, UInt32.toNat_one]
    omega
  · rw [List.count_eq_zero.mpr hp, Nat.add_zero]
    exact y.count.toNat_lt

/-- What an unshared object holds is unshared, also while it is claimed once more. -/
theorem Unshared.claimed (hs : h.Unshared o) (hc : h.Counted out) (hring : ¬ TransGen h.Holds o o)
    (hx : h.get? o = some x) (hq : q ∈ x.payload.claims) :
    (h.retainAll x.payload.claims).Unshared q := by
  have hstep : h.Holds o q := ⟨x, hx, hq⟩
  intro p hp y hy hm
  rw [holds_eq_of_content (content_retainAll h x.payload.claims)] at hp
  rw [get?_retainAll] at hy
  obtain ⟨z, hz, rfl⟩ := Option.map_eq_some_iff.mp hy
  rw [cls_iterate_retained] at hm
  have hsingle := hs p (.head hstep hp)
  -- `p` has one holder, which is under `o` and so is not `o`
  have hnot : p ∉ x.payload.claims := by
    intro hmem
    obtain ⟨r, hr, hrp⟩ := Relation.TransGen.tail'_iff.mp hp
    obtain rfl : o = r := hc.holder_eq hsingle hz hm ⟨x, hx, hmem⟩ hrp
    exact hring (.head' hstep hr)
  rw [List.count_eq_zero.mpr hnot, Function.iterate_zero, id_eq]
  exact hsingle z hz hm

/-! ## Claims for a while -/

theorem Counted.retainAll {claims : List ObjId} (hc : h.Counted out) (hl : ∀ p ∈ claims, h.Live p)
    (hroom : ∀ p x, h.get? p = some x → x.cls.isImmortal = false →
      x.count.toNat + claims.count p < 2 ^ 32) :
    (h.retainAll claims).Counted (claims + out) := by
  induction claims generalizing h out with
  | nil => simpa [Heap.retainAll] using hc
  | cons o rest ih =>
    obtain ⟨x, hx⟩ := hl o List.mem_cons_self
    have hroom₁ : x.cls.isImmortal = false → x.count.toNat + 1 < 2 ^ 32 := by
      intro hm
      have hlt := hroom o x hx hm
      rw [List.count_cons_self] at hlt
      omega
    have hrest := ih (hc.retain hx hroom₁) (fun p hp => ?_) (fun p y hy hm => ?_)
    · rw [← Multiset.cons_coe, Multiset.cons_add, ← Multiset.add_cons]
      exact hrest
    · obtain ⟨y, hy⟩ := hl p (List.mem_cons_of_mem o hp)
      obtain ⟨z, hz, -⟩ := sameAt_retain o y hy
      exact ⟨z, hz⟩
    · rw [get?_retain] at hy
      split at hy
      · rename_i hpo
        subst hpo
        rw [hx, Option.map_some, Option.some_inj] at hy
        subst hy
        have hmx : x.cls.isImmortal = false := by rwa [← cls_iterate_retained x 1]
        have hlt := hroom p x hx hmx
        rw [List.count_cons_self] at hlt
        have hadd : (x.count + 1).toNat = x.count.toNat + 1 := by
          rw [UInt32.toNat_add, UInt32.toNat_one, Nat.mod_eq_of_lt (hroom₁ hmx)]
        have hcount : x.retained.count = x.count + 1 := by simp [Obj.retained, hmx]
        rw [hcount, hadd]
        omega
      · rename_i hpo
        have hlt := hroom p y hy hm
        rwa [List.count_cons_of_ne (Ne.symm hpo)] at hlt

/-- Claims that are taken and given back leave the heap as it was. -/
theorem sweep_retainAll {claims : List ObjId} (hc : h.Counted out) (hl : ∀ p ∈ claims, h.Live p)
    (hroom : ∀ p x, h.get? p = some x → x.cls.isImmortal = false →
      x.count.toNat + claims.count p < 2 ^ 32) :
    (h.retainAll claims).sweep claims = ⟨h, [], none⟩ := by
  have hclaimed := hc.retainAll hl hroom
  obtain ⟨hstop, hafter⟩ := sweep_counted _ claims out hclaimed
  have hcontent : ((h.retainAll claims).sweep claims).heap.content = h.content :=
    content_sweep hc hclaimed (content_retainAll h claims) (Multiset.Subset.refl out)
  have hheap : ((h.retainAll claims).sweep claims).heap = h := by
    refine hc.eq_of_content hafter (by rw [length_sweep, length_retainAll]) hcontent
      fun p x hx hm => ?_
    refine sweep_get?_of_immortal _ claims ?_ hm
    rw [get?_retainAll, hx, Option.map_some, iterate_retained_of_immortal hm]
  have hgone : ((h.retainAll claims).sweep claims).destroyed = [] := by
    rw [← List.map_eq_nil_iff (f := Prod.fst), List.eq_nil_iff_forall_not_mem]
    intro p hp
    obtain ⟨⟨y, hy⟩, hdead⟩ := mem_destroyed_iff.mp hp
    rw [hheap, not_live_iff] at hdead
    rw [get?_retainAll, hdead] at hy
    cases hy
  cases hs : (h.retainAll claims).sweep claims with
  | mk heap destroyed stop =>
    rw [hs] at hheap hgone hstop
    rw [← hheap, ← hgone, ← hstop]

end Heap

/-! ## Calls that leave the heap as it is -/

section Calls

open Heap

variable {α β : Type} {b : Bridge} {h : Heap} {out : Multiset ObjId} {r : Run α} {f : α → Run β}
  {a : α} {c : β}
  {o : ObjId}

/-- The call returns `a` in every state and changes nothing. -/
def Yields (r : Run α) (a : α) : Prop := ∀ b, r.run b = (.ok a, b)

namespace Yields

theorem pure (a : α) : Yields (pure a) a := fun _ => rfl

theorem bind (hr : Yields r a) (hf : Yields (f a) c) : Yields (r >>= f) c :=
  fun b => (run_bind_of_ok (hr b)).trans (hf b)

theorem onUnwind (hr : Yields r a) (cleanup : Run Unit) : Yields (onUnwind cleanup r) a :=
  fun b => run_onUnwind_of_ok cleanup (hr b)

end Yields

theorem yields_releaseAll_nil : Yields (releaseAll []) () := by
  intro b
  apply Ends.run_ok
  unfold releaseAll
  rw [ends_bind, ends_sweepClaims, Bridge.swept_nil, Heap.sweep]
  exact ⟨rfl, rfl⟩

/-- A value without objects asks for nothing of the host. -/
theorem held_of_free {v : Value} {host : Multiset ObjId} (hfree : v.claims = []) :
    ∀ p ∈ v.claims, p ∈ host := by
  rw [hfree]
  exact nofun

theorem yields_drop {v : Value} (hfree : v.claims = []) : Yields v.drop () := by
  unfold Value.drop
  rw [hfree]
  exact yields_releaseAll_nil

/-- With the heap `h`, the call returns `a` and leaves everything as it was, except for a peak that
may have risen. -/
def Copies (b : Bridge) (h : Heap) (r : Run α) (a : α) : Prop :=
  ∀ peak < 2 ^ 32, Ends r (b.grown h peak)
    (fun a' b' => a' = a ∧ ∃ peak' < 2 ^ 32, b' = b.grown h peak')
    (fun _ _ => False)

theorem Yields.copies (hr : Yields r a) : Copies b h r a := by
  intro peak hpeak
  rw [ends_of_run_ok (hr _)]
  exact ⟨rfl, peak, hpeak, rfl⟩

namespace Copies

theorem pure (a : α) : Copies b h (pure a) a := fun peak hpeak => ⟨rfl, peak, hpeak, rfl⟩

theorem bind (hr : Copies b h r a) (hf : Copies b h (f a) c) : Copies b h (r >>= f) c := by
  intro peak hpeak
  rw [ends_bind]
  refine (hr peak hpeak).mono (fun a' b' hend => ?_) (fun _ _ hbad => hbad)
  obtain ⟨rfl, peak', hpeak', rfl⟩ := hend
  exact hf peak' hpeak'

theorem map (hr : Copies b h r a) (φ : α → β) : Copies b h (do return φ (← r)) (φ a) :=
  hr.bind (.pure _)

theorem onUnwind (hr : Copies b h r a) (cleanup : Run Unit) :
    Copies b h (onUnwind cleanup r) a := by
  intro peak hpeak
  rw [ends_onUnwind]
  exact (hr peak hpeak).mono (fun _ _ hend => hend) (fun _ _ hbad => hbad.elim)

theorem certify {cls : Class} {view : Payload → Option α} {x : Obj} (hx : h.get? o = some x)
    (hcls : x.cls.isSubclassOf cls = true) (hview : view x.payload = some a) :
    Copies b h (certify o cls view) a := by
  intro peak hpeak
  rw [ends_certify_known (b := b.grown h peak) hx hcls hview]
  exact ⟨rfl, peak, hpeak, rfl⟩

theorem classOf {x : Obj} (hx : h.get? o = some x) : Copies b h (classOf o) x.cls := by
  intro peak hpeak
  unfold ObjectBridge.classOf
  rw [ends_bind, ends_readObj_known (b := b.grown h peak) hx]
  exact ⟨rfl, peak, hpeak, rfl⟩

/-- Whatever the case, the call for it returns what is expected in it. -/
theorem ite {p : Prop} [Decidable p] {r' : Run α} {e e' : Option α}
    (he : (if p then e else e') = some a) (hr : p → e = some a → Copies b h r a)
    (hr' : ¬ p → e' = some a → Copies b h r' a) :
    Copies b h (if p then r else r') a := by
  by_cases hp : p
  · rw [if_pos hp] at he ⊢
    exact hr hp he
  · rw [if_neg hp] at he ⊢
    exact hr' hp he

/-- A call is made with claims that are taken before it and given back after it. -/
theorem borrow {claims : List ObjId} (hc : h.Counted out) (hl : ∀ p ∈ claims, h.Live p)
    (hroom : ∀ p x, h.get? p = some x → x.cls.isImmortal = false →
      x.count.toNat + claims.count p < 2 ^ 32)
    (hr : Copies b (h.retainAll claims) r a) :
    Copies b h (do claims.forM retain; withClaims claims r) a := by
  intro peak hpeak
  have hpeak' : h.claimPeak peak claims < 2 ^ 32 := claimPeak_lt hpeak le_rfl hroom
  rw [ends_bind, ends_forM_retain_known (b := b.grown h peak) hl, ends_withClaims]
  refine (hr _ hpeak').mono (fun a' b' hend => ?_) (fun _ _ hbad => hbad.elim)
  obtain ⟨rfl, peak'', hpeak'', rfl⟩ := hend
  have hback : (b.grown (h.retainAll claims) peak'').swept claims = b.grown h peak'' := by
    simp [Bridge.swept, Bridge.grown, sweep_retainAll hc hl hroom, Ledger.noteDestroyed]
  have hstop : ((b.grown (h.retainAll claims) peak'').heap.sweep claims).stop = none :=
    congrArg Sweep.stop (sweep_retainAll hc hl hroom)
  unfold releaseAll
  rw [ends_bind, ends_sweepClaims, hstop, hback]
  exact ⟨rfl, peak'', hpeak'', rfl⟩

/-- Members of a list are copied in turn. -/
theorem convertAll {f : α → Run Value} {e : α → Option Value} {xs : List α} {vs : List Value}
    (hf : ∀ x ∈ xs, ∀ v, e x = some v → Copies b h (f x) v) (hvs : xs.mapM e = some vs) :
    Copies b h (convertAll f xs) vs := by
  rw [mapM_eq_some_iff] at hvs
  induction hvs with
  | nil => exact .pure []
  | @cons x v xs vs hxv _ ih =>
    have hrest := ih fun y hy => hf y (List.mem_cons_of_mem x hy)
    exact (hf x List.mem_cons_self v hxv).bind ((hrest.onUnwind v.drop).bind (.pure _))

/-- Entries are copied in turn; as copies hold no claims, none are given back for a value that is
replaced. -/
theorem convertEntries {f : α → Run (String × Value)} {e : α → Option (String × Value)}
    {xs : List α} {pairs done : List (String × Value)}
    (hf : ∀ x ∈ xs, ∀ y, e x = some y → Copies b h (f x) y ∧ y.2.claims = [])
    (hdone : ∀ y ∈ done, y.2.claims = []) (hpairs : xs.mapM e = some pairs) :
    Copies b h (convertEntries f xs done) (Assoc.insertAll pairs done) := by
  rw [mapM_eq_some_iff] at hpairs
  induction hpairs generalizing done with
  | nil => exact .pure done
  | @cons x y xs pairs hxy _ ih =>
    obtain ⟨key, v⟩ := y
    obtain ⟨hcopy, hv⟩ := hf x List.mem_cons_self (key, v) hxy
    have hfree : ((Assoc.find? key done).map Value.claims).getD [] = [] := by
      cases hfind : Assoc.find? key done with
      | none => rfl
      | some u => exact hdone (key, u) (Assoc.mem_of_find? hfind)
    have hdone' : ∀ z ∈ Assoc.insert key v done, z.2.claims = [] := by
      intro z hz
      rcases Assoc.mem_insert hz with rfl | hmem
      · exact hv
      · exact hdone z hmem
    have hrest := ih (fun z hz => hf z (List.mem_cons_of_mem x hz)) hdone'
    refine (hcopy.onUnwind _).bind ?_
    dsimp only
    rw [hfree]
    exact yields_releaseAll_nil.copies.bind hrest

end Copies

/-! ## Copying objects -/

variable {x : Obj} {w : Value} {d : Nat}

/-- An object that is no container is copied. -/
theorem copies_scalar {cls : Class} {view : Payload → Option α} {φ : α → Value}
    (hx : h.get? o = some x) (hcls : x.cls.isSubclassOf cls = true)
    (hw : (view x.payload).map φ = some w) :
    Copies b h (do return φ (← certify o cls view)) w := by
  obtain ⟨a, ha, rfl⟩ := Option.map_eq_some_iff.mp hw
  exact (Copies.certify hx hcls ha).map φ

/-- Everything that an unshared object holds is claimed, in some order, while it is copied. -/
theorem copies_borrow {claims : List ObjId} (hc : h.Counted out) (hs : h.Unshared o)
    (hx : h.get? o = some x) (hp : claims.Perm x.payload.claims)
    (hr : Copies b (h.retainAll x.payload.claims) r a) :
    Copies b h (do claims.forM retain; withClaims claims r) a := by
  refine .borrow hc (fun _ hmem => hc.live_inside hx (hp.mem_iff.mp hmem)) (fun _ _ hy hm => ?_) ?_
  · rw [hp.count_eq]
    exact hs.room hc hx hy hm
  · rwa [h.retainAll_of_perm hp]

theorem copies_vector {elems : List (Option ObjId)} {inner : Option ObjId → Run Value}
    {e : Option ObjId → Option Value} {vs : List Value} (hc : h.Counted out) (hs : h.Unshared o)
    (hx : h.get? o = some x) (hcls : x.cls.isSubclassOf .vector = true)
    (hp : x.payload = .vector elems)
    (hi : ∀ el ∈ elems, ∀ v, e el = some v → Copies b (h.retainAll x.payload.claims) (inner el) v)
    (hvs : elems.mapM e = some vs) :
    Copies b h (do
      let elems ← VectorObj.elements o
      withClaims (elems.filterMap id) do return Value.seq (← ObjectBridge.convertAll inner elems))
        (.seq vs) := by
  have hall := copies_borrow hc hs hx (.refl _) ((Copies.convertAll hi hvs).map Value.seq)
  have hview : x.payload.vector? = some elems := by rw [hp]; rfl
  have hclaims : x.payload.claims = elems.filterMap id := by rw [hp]; rfl
  rw [hclaims] at hall
  intro peak hpeak
  have hends := hall peak hpeak
  unfold VectorObj.elements VectorObj.slots
  rw [ends_bind] at hends
  rw [ends_bind, ends_bind, ends_certify_known (b := b.grown h peak) hx hcls hview, ends_bind]
  exact hends

theorem copies_hash {inside : Buckets} {inner : Option ObjId → Run Value}
    {e : Option ObjId → Option Value} {pairs : List (String × Value)} (hc : h.Counted out)
    (hs : h.Unshared o) (hx : h.get? o = some x) (hcls : x.cls.isSubclassOf .hash = true)
    (hp : x.payload = .hash inside) (hi : ∀ d ∈ inside.entries, ∀ v, e d.value = some v →
      Copies b (h.retainAll x.payload.claims) (inner d.value) v ∧ v.claims = [])
    (hpairs : (b.order.arrange inside.entries).mapM (readEntry h.content e) = some pairs) :
    Copies b h (do
      let entries ← HashObj.entries o
      withClaims (entries.flatMap HashEntry.claims) do
        let convert (d : HashEntry) : Run (String × Value) := do
          let key ← StringObj.text d.key
          return (key, ← inner d.value)
        return Value.map (← ObjectBridge.convertEntries convert entries []))
          (.map (Assoc.insertAll pairs [])) := by
  have hone : ∀ d ∈ b.order.arrange inside.entries, ∀ y, readEntry h.content e d = some y →
      Copies b (h.retainAll x.payload.claims) (do
        let key ← StringObj.text d.key
        return (key, ← inner d.value)) y ∧ y.2.claims = [] := by
    intro d hd y hy
    obtain ⟨key, hkey, hmap⟩ := Option.bind_eq_some_iff.mp hy
    obtain ⟨v, hv, rfl⟩ := Option.map_eq_some_iff.mp hmap
    obtain ⟨hinner, hfree⟩ := hi d (EntryOrder.mem_arrange.mp hd) v hv
    obtain ⟨c, hcontent, hcertified⟩ := Option.bind_eq_some_iff.mp hkey
    rw [← content_retainAll h x.payload.claims] at hcontent
    obtain ⟨z, hz, rfl⟩ := Option.map_eq_some_iff.mp hcontent
    have hstring : z.cls.isSubclassOf .string = true := by
      unfold Content.certified at hcertified
      split at hcertified
      · assumption
      · cases hcertified
    exact ⟨(Copies.certify hz hstring (Content.of_certified hcertified)).bind (hinner.map _), hfree⟩
  have hclaims :
      ((b.order.arrange inside.entries).flatMap HashEntry.claims).Perm x.payload.claims := by
    rw [hp]
    exact (b.order.perm inside.entries).flatMap_right HashEntry.claims
  have hall := copies_borrow hc hs hx hclaims
    ((Copies.convertEntries hone (fun _ hy => absurd hy List.not_mem_nil) hpairs).map Value.map)
  have hview : x.payload.hash? = some inside := by rw [hp]; rfl
  intro peak hpeak
  have hends := hall peak hpeak
  unfold HashObj.entries HashObj.buckets
  rw [ends_bind] at hends
  rw [ends_bind, ends_bind, ends_certify_known (b := b.grown h peak) hx hcls hview, ends_bind,
    ends_get, ends_bind]
  exact hends

/-- An unshared object is converted to its copy. -/
theorem copies_toHostWithin {e : Option ObjId} (hc : h.Counted out)
    (hr : h.copy b.order d e = some w) (hs : ∀ o ∈ e, h.Unshared o) :
    Copies b h (toHostWithin d e) w := by
  induction d generalizing h out e w with
  | zero =>
    cases e with
    | none =>
      cases hr
      exact .pure _
    | some o => cases hr
  | succ d ih =>
    cases e with
    | none =>
      cases hr
      exact .pure _
    | some o =>
      obtain ⟨n, x, -, hx⟩ := live_of_copy hr
      have hring := no_ring_of_copy hr
      have hso := hs o rfl
      have hclaimed : (h.retainAll x.payload.claims).Counted (x.payload.claims + out) :=
        hc.retainAll (fun _ hp => hc.live_inside hx hp) fun _ _ hy hm => hso.room hc hx hy hm
      have hinner : ∀ el : Option ObjId, (∀ p ∈ el, p ∈ x.payload.claims) →
          ∀ v, h.copy b.order d el = some v →
          Copies b (h.retainAll x.payload.claims) (toHostWithin d el) v := by
        intro el hel v hv
        refine ih hclaimed ?_ fun p hp => hso.claimed hc hring hx (hel p hp)
        rwa [copy_congr (content_retainAll h x.payload.claims)]
      rw [copy_known hx] at hr
      unfold toHostWithin
      refine (Copies.classOf hx).bind ?_
      -- one case for each by-copy class, in the order in which they are asked for
      refine .ite hr (fun hcls hw => copies_scalar hx hcls hw) fun _ hr => ?_
      refine .ite hr (fun hcls hw => copies_scalar hx hcls hw) fun _ hr => ?_
      refine .ite hr (fun hcls hw => copies_scalar hx hcls hw) fun _ hr => ?_
      refine .ite hr (fun hcls hw => ?_) fun _ hr => ?_
      · obtain ⟨elems, helems, hmap⟩ := Option.bind_eq_some_iff.mp hw
        obtain ⟨vs, hvs, rfl⟩ := Option.map_eq_some_iff.mp hmap
        have hp : x.payload = .vector elems := Payload.eq_vector helems
        refine copies_vector hc hso hx hcls hp (fun el hel => hinner el fun p hpel => ?_) hvs
        rw [hp, Payload.mem_claims_vector, ← Option.mem_def.mp hpel]
        exact hel
      refine .ite hr (fun hcls hw => ?_) fun _ hr => ?_
      · obtain ⟨inside, hinside, hmap⟩ := Option.bind_eq_some_iff.mp hw
        obtain ⟨pairs, hpairs, rfl⟩ := Option.map_eq_some_iff.mp hmap
        have hp : x.payload = .hash inside := Payload.eq_hash hinside
        refine copies_hash hc hso hx hcls hp
          (fun f hf v hv => ⟨hinner f.value (fun p hpf => ?_) v hv, copy_claims hv⟩) hpairs
        rw [hp, Payload.mem_claims_hash]
        exact ⟨f, hf, .inr hpf⟩
      refine .ite hr (fun hcls hw => copies_scalar hx hcls hw) fun _ hr => ?_
      refine .ite hr (fun hcls hw => copies_scalar hx hcls hw) fun _ hr => ?_
      refine .ite hr (fun hcls hw => copies_scalar hx hcls hw) fun _ hr => ?_
      cases hr

theorem copies_foreignToHost {e : Option ObjId} (hc : h.Counted out)
    (hr : h.copy b.order h.slots.length e = some w) (hs : ∀ o ∈ e, h.Unshared o) :
    Copies b h (foreignToHost e) w := by
  intro peak hpeak
  unfold foreignToHost
  rw [ends_bind, ends_get]
  exact copies_toHostWithin hc hr hs peak hpeak

end Calls

/-! ## What has been built -/

/-- There is a single claim on the object and on everything under it. -/
def Heap.Exclusive (h : Heap) (o : ObjId) : Prop := ∀ p, ReflTransGen h.Holds o p → h.Single p

theorem Heap.Exclusive.unshared {h : Heap} {o : ObjId} (he : h.Exclusive o) : h.Unshared o :=
  fun p hp => he p hp.to_reflTransGen

namespace Bridge

variable {b : Bridge} {host : Multiset ObjId} {t : ObjId × ObjId} {v : Value} {o p : ObjId}

/-- A value without objects is copied back. -/
theorem copy_built (hs : b.Sound host) (ht : b.truths = some t) (hv : v.Distinct)
    (hfree : v.claims = []) (order : EntryOrder) :
    ∃ w, (b.built t v).heap.copy order (b.built t v).heap.slots.length
      (v.root t b.heap.slots.length) = some w ∧
      w.same v = true := by
  have hnone : ∀ o ∈ v.claims, b.heap.copy order b.heap.slots.length (some o) = some .null := by
    rw [hfree]
    exact nofun
  obtain ⟨w, hw, hsame⟩ := readWithin_built hs ht hv hnone
  refine ⟨w, hw, Value.same_trans hsame (Value.substitute_same hv fun h hh => ?_)⟩
  rw [hfree] at hh
  cases hh

/-- New objects and truth values are all that can be reached from the form of a value without
objects. -/
theorem reaches_built (hs : b.Sound host) (ht : b.truths = some t) (hfree : v.claims = [])
    (ho : o ∈ v.root t b.heap.slots.length) (hp : ReflTransGen (b.built t v).heap.Holds o p) :
    ¬ b.heap.Used p ∨ p = t.1 ∨ p = t.2 := by
  have hpoints : ∀ {n : Nat} {q : ObjId}, b.heap.slots.length ≤ n → Value.Points t v.claims n q →
      ¬ b.heap.Used q ∨ q = t.1 ∨ q = t.2 := by
    rintro n q hn (hleaf | htruth | hle)
    · rw [hfree] at hleaf
      cases hleaf
    · exact .inr htruth
    · exact .inl (not_lt.mpr (hn.trans hle))
  induction hp with
  | refl => exact hpoints le_rfl (Value.points_root ho)
  | @tail q r _ hstep ih =>
    obtain ⟨x, hx, hr⟩ := hstep
    rcases ih with hnew | htruth
    · obtain ⟨i, -, hform⟩ := mem_forms_of_get? hnew hx
      exact hpoints (by omega) (Value.pointsOn_forms v _ i x hform r hr)
    · -- truth values hold nothing
      obtain ⟨no, yes, heq, hno, hyes⟩ := hs.truths
      rw [ht] at heq
      cases heq
      have hboolean : ∀ {s : ObjId} {value : Bool}, b.heap.IsTruth s value → q ≠ s := by
        rintro s value ⟨y, hy, -, hpay⟩ rfl
        have hcontent := content_built (t := (no, yes)) hy v
        rw [Heap.content_of_get? hx] at hcontent
        obtain ⟨-, hsame⟩ := Prod.mk.inj (Option.some.inj hcontent)
        rw [hsame, hpay] at hr
        cases hr
      rcases htruth with hq | hq
      · exact absurd hq (hboolean hno)
      · exact absurd hq (hboolean hyes)

theorem exclusive_built (hs : b.Sound host) (ht : b.truths = some t) (hfree : v.claims = [])
    (ho : o ∈ v.root t b.heap.slots.length) : (b.built t v).heap.Exclusive o := by
  intro p hp x hx hm
  rcases reaches_built hs ht hfree ho hp with hnew | htruth
  · exact (new_of_get?_built hnew hx).count
  · obtain ⟨no, yes, heq, hno, hyes⟩ := hs.truths
    rw [ht] at heq
    cases heq
    have himmortal : ∀ {s : ObjId} {value : Bool}, b.heap.IsTruth s value → p ≠ s := by
      rintro s value ⟨y, hy, hcls, -⟩ rfl
      have hcontent := content_built (t := (no, yes)) hy v
      rw [Heap.content_of_get? hx] at hcontent
      obtain ⟨hsame, -⟩ := Prod.mk.inj (Option.some.inj hcontent)
      rw [hsame, hcls] at hm
      cases hm
    rcases htruth with hq | hq
    · exact absurd hq (himmortal hno)
    · exact absurd hq (himmortal hyes)

theorem Bounded.built_free (hu : b.Bounded) (hfree : v.claims = []) : (b.built t v).Bounded := by
  refine hu.built fun o x _ _ => ?_
  rw [hfree, List.count_nil, Nat.add_zero]
  exact x.count.toNat_lt

/-- A value without objects is converted back whatever the counts are. -/
theorem copies_built (hb : b.Books host) (hu : b.Bounded) (ht : b.truths = some t)
    (hv : v.WellFormed) (hfree : v.claims = []) :
    ∃ w, Copies (b.built t v) (b.built t v).heap (foreignToHost (v.root t b.heap.slots.length)) w ∧
      w.Distinct ∧ w.claims = [] ∧ w.same v = true := by
  have hs := hb.sound hu
  have hafter := (hb.built hu ht hv (held_of_free hfree)).sound (hu.built_free hfree)
  obtain ⟨w, hw, hsame⟩ := copy_built hs ht hv.distinct hfree b.order
  refine ⟨w, copies_foreignToHost hafter.counted hw fun o ho => ?_, readWithin_distinct hw,
    Heap.copy_claims hw, hsame⟩
  exact (exclusive_built hs ht hfree ho).unshared

end Bridge

end ObjectBridge
