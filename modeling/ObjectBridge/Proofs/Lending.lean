import ObjectBridge.Proofs.DataClaims
import ObjectBridge.Proofs.ExactDispatch
import ObjectBridge.Proofs.UnsharedObjects

set_option autoImplicit false

/-!
# Claims that are lent (SPEC §12.3)

A copy of a value and the data that is read out of it have claims of their own on the objects of the
value.  Such a call either ends with all these claims taken, or has given back those that it took
before it failed.  `Settles` says so for one call, and `settles_decodeAll` for calls in turn.
Giving back is safe as long as no count runs over.
-/

namespace ObjectBridge

namespace Heap

theorem count_iterate_retained {x : Obj} {n : Nat} (hm : x.cls.isImmortal = false)
    (hn : x.count.toNat + n < 2 ^ 32) :
    (Obj.retained^[n] x).count.toNat = x.count.toNat + n := by
  induction n with
  | zero => rfl
  | succ n ih =>
    have hlast := ih (by omega)
    have hm' : (Obj.retained^[n] x).cls.isImmortal = false := by rwa [cls_iterate_retained]
    have hcount : (Obj.retained^[n] x).retained.count = (Obj.retained^[n] x).count + 1 := by
      simp [Obj.retained, hm']
    rw [Function.iterate_succ_apply', hcount, UInt32.toNat_add, UInt32.toNat_one, hlast,
      Nat.mod_eq_of_lt (by omega)]
    omega

end Heap

namespace Bridge

variable {b : Bridge} {o : ObjId} {w : Wrapper} {claims more : List ObjId}

/-! ## Objects that can be wrapped -/

/-- The object is of a class for which the wrapper `w` is registered. -/
def WrapsWith (b : Bridge) (o : ObjId) (w : Wrapper) : Prop :=
  b.started = true ∧ ∃ x, b.heap.get? o = some x ∧ b.wrapperOf x.cls = some w

/-- The objects are of classes that have a wrapper. -/
def Wrappable (b : Bridge) (claims : List ObjId) : Prop := ∀ o ∈ claims, ∃ w, b.WrapsWith o w

/-- The bridge with more claims on some objects. -/
def lent (b : Bridge) (claims : List ObjId) : Bridge :=
  b.grown (b.heap.retainAll claims) (b.heap.claimPeak b.ledger.peak claims)

theorem WrapsWith.run_dispatch (hw : b.WrapsWith o w) : (dispatch o).run b = (.ok ⟨w, o⟩, b) := by
  obtain ⟨hs, x, hx, hw⟩ := hw
  exact ObjectBridge.run_dispatch hs hx hw

/-- Each claim counts. -/
theorem get?_lent (b : Bridge) (claims : List ObjId) (o : ObjId) :
    (b.lent claims).heap.get? o = (b.heap.get? o).map Obj.retained^[claims.count o] :=
  Heap.get?_retainAll b.heap claims o

theorem get?_lent_of_some {x : Obj} (hx : b.heap.get? o = some x) (claims : List ObjId) :
    (b.lent claims).heap.get? o = some (Obj.retained^[claims.count o] x) := by
  rw [get?_lent, hx, Option.map_some]

theorem WrapsWith.lent (hw : b.WrapsWith o w) (claims : List ObjId) :
    (b.lent claims).WrapsWith o w := by
  obtain ⟨hs, x, hx, hw⟩ := hw
  refine ⟨hs, Obj.retained^[claims.count o] x, get?_lent_of_some hx claims, ?_⟩
  rw [Heap.cls_iterate_retained]
  exact hw

theorem Wrappable.lent (hw : b.Wrappable more) (claims : List ObjId) :
    (b.lent claims).Wrappable more := by
  intro o ho
  obtain ⟨w, hw⟩ := hw o ho
  exact ⟨w, hw.lent claims⟩

theorem Wrappable.live (hw : b.Wrappable claims) : ∀ o ∈ claims, b.heap.Live o := by
  intro o ho
  obtain ⟨w, -, x, hx, -⟩ := hw o ho
  exact ⟨x, hx⟩

theorem lent_append (b : Bridge) (claims more : List ObjId) :
    (b.lent claims).lent more = b.lent (claims ++ more) := by
  unfold lent
  rw [Heap.retainAll_append, Heap.claimPeak_append]
  rfl

theorem run_share_live (hs : b.started = true) (hl : b.heap.Live o) :
    (share o).run b = (.ok o, b.lent [o]) := by
  obtain ⟨x, hx⟩ := hl
  apply Ends.run_ok
  rw [ends_share_known hs hx]
  refine ⟨rfl, ?_⟩
  simp [Bridge.lent, Heap.retainAll, Heap.claimPeak, hx]

theorem WrapsWith.run_share (hw : b.WrapsWith o w) : (share o).run b = (.ok o, b.lent [o]) := by
  obtain ⟨hs, x, hx, -⟩ := hw
  exact run_share_live hs ⟨x, hx⟩

theorem WrapsWith.run_shareRef {h : HostRef} (hw : b.WrapsWith h.obj w) :
    h.share.run b = (.ok ⟨w, h.obj⟩, b.lent [h.obj]) :=
  (run_bind_of_ok hw.run_share).trans (hw.lent _).run_dispatch

/-! ## Room for claims -/

/-- The counts are right, and none runs over if the claims are added. -/
def Spare (b : Bridge) (claims : List ObjId) : Prop :=
  (∃ out, b.heap.Counted out) ∧ b.HasRoom claims

theorem Spare.left (hs : b.Spare (claims ++ more)) : b.Spare claims := by
  refine ⟨hs.1, fun o x hx hm => ?_⟩
  have hroom := hs.2 o x hx hm
  rw [List.count_append] at hroom
  omega

theorem Spare.right (hs : b.Spare (claims ++ more)) (hl : ∀ o ∈ claims, b.heap.Live o) :
    (b.lent claims).Spare more := by
  obtain ⟨⟨out, hcounted⟩, hroom⟩ := hs
  refine ⟨⟨_, hcounted.retainAll hl (Spare.left ⟨⟨out, hcounted⟩, hroom⟩).2⟩, fun o y hy hm => ?_⟩
  obtain ⟨x, hx, rfl⟩ := Option.map_eq_some_iff.mp ((b.get?_lent claims o).symm.trans hy)
  have hm' : x.cls.isImmortal = false := by rwa [Heap.cls_iterate_retained] at hm
  have hlt := hroom o x hx hm'
  rw [List.count_append] at hlt
  rw [Heap.count_iterate_retained hm' (by omega)]
  omega

/-- Claims that were lent are given back in any order, and only the ledger remembers. -/
theorem Spare.run_releaseAll (hs : b.Spare claims) (hl : ∀ o ∈ claims, b.heap.Live o)
    (hperm : more.Perm claims) (peak : Nat) :
    (releaseAll more).run ((b.lent claims).grown (b.lent claims).heap peak) =
      (.ok (), b.grown b.heap peak) := by
  obtain ⟨⟨out, hcounted⟩, hroom⟩ := hs
  have hsweep : (b.heap.retainAll claims).sweep more = ⟨b.heap, [], none⟩ := by
    rw [← Heap.retainAll_of_perm b.heap hperm]
    refine Heap.sweep_retainAll hcounted (fun o ho => hl o (hperm.mem_iff.mp ho))
      fun o x hx hm => ?_
    rw [hperm.count_eq]
    exact hroom o x hx hm
  apply Ends.run_ok
  unfold releaseAll
  rw [ends_bind, ends_sweepClaims]
  simp [Bridge.lent, Bridge.swept, Bridge.grown, hsweep, Ledger.noteDestroyed]

end Bridge

/-! ## Copies of values -/

namespace Value

variable {b : Bridge} {f : ObjId → Wrapper} {v : Value}

/-- The value with other wrappers around its objects. -/
def rewrap (f : ObjId → Wrapper) (v : Value) : Value := v.substitute fun o => .object ⟨f o, o⟩

theorem rewrap_seq (items : List Value) : (seq items).rewrap f = .seq (items.map (rewrap f)) :=
  congrArg Value.seq (substituteItems_eq items)

theorem rewrap_map (entries : List (String × Value)) :
    (map entries).rewrap f = .map (entries.map fun e => (e.1, e.2.rewrap f)) :=
  congrArg Value.map (substituteEntries_eq entries)

theorem rewrap_same (hv : v.Distinct) (f : ObjId → Wrapper) : (v.rewrap f).same v = true :=
  substitute_same hv fun h _ => same_object_iff.mpr ⟨h, rfl, rfl⟩

theorem Distinct.rewrap (hv : v.Distinct) (f : ObjId → Wrapper) : (v.rewrap f).Distinct := by
  induction hv with
  | seq _ ih =>
    rw [rewrap_seq]
    exact .seq (List.forall_mem_map.mpr ih)
  | map hkeys _ ih =>
    rw [rewrap_map]
    refine .map ?_ (List.forall_mem_map.mpr ih)
    rwa [Assoc.keys, List.map_map]
  | object h => exact .object _
  | _ => constructor

theorem claims_rewrap (f : ObjId → Wrapper) (v : Value) : (v.rewrap f).claims = v.claims := by
  induction v using Value.induction with
  | seq items ih =>
    rw [rewrap_seq, claims, claims, claimsOfItems_eq, claimsOfItems_eq, List.flatMap_map]
    exact List.flatMap_congr ih
  | map entries ih =>
    rw [rewrap_map, claims, claims, claimsOfEntries_eq, claimsOfEntries_eq, List.flatMap_map]
    exact List.flatMap_congr ih
  | object h => rfl
  | _ => rfl

theorem run_cloneItems {items : List Value}
    (hitems : ∀ v ∈ items, ∀ b : Bridge, (∀ o ∈ v.claims, b.WrapsWith o (f o)) →
      v.clone.run b = (.ok (v.rewrap f), b.lent v.claims))
      (hf : ∀ o ∈ claimsOfItems items, b.WrapsWith o (f o)) :
    (cloneItems items).run b = (.ok (items.map (rewrap f)), b.lent (claimsOfItems items)) := by
  induction items generalizing b with
  | nil => rfl
  | cons v rest ih =>
    rw [List.forall_mem_cons] at hitems
    rw [claimsOfItems, List.forall_mem_append] at hf
    have hrest := ih hitems.2 fun o ho => (hf.2 o ho).lent v.claims
    unfold cloneItems
    rw [run_bind_of_ok (hitems.1 b hf.1), run_bind_of_ok (run_onUnwind_of_ok _ hrest),
      Bridge.lent_append]
    rfl

theorem run_cloneEntries {entries : List (String × Value)}
    (hentries : ∀ e ∈ entries, ∀ b : Bridge, (∀ o ∈ e.2.claims, b.WrapsWith o (f o)) →
      e.2.clone.run b = (.ok (e.2.rewrap f), b.lent e.2.claims))
    (hf : ∀ o ∈ claimsOfEntries entries, b.WrapsWith o (f o)) :
    (cloneEntries entries).run b =
      (.ok (entries.map fun e => (e.1, e.2.rewrap f)), b.lent (claimsOfEntries entries)) := by
  induction entries generalizing b with
  | nil => rfl
  | cons e rest ih =>
    rw [List.forall_mem_cons] at hentries
    rw [claimsOfEntries, List.forall_mem_append] at hf
    have hrest := ih hentries.2 fun o ho => (hf.2 o ho).lent e.2.claims
    unfold cloneEntries
    rw [run_bind_of_ok (hentries.1 b hf.1), run_bind_of_ok (run_onUnwind_of_ok _ hrest),
      Bridge.lent_append]
    rfl

/-- A copy claims every object in the value, and wraps it with what is registered for its class. -/
theorem run_clone (hf : ∀ o ∈ v.claims, b.WrapsWith o (f o)) :
    v.clone.run b = (.ok (v.rewrap f), b.lent v.claims) := by
  induction v using Value.induction generalizing b with
  | seq items ih =>
    rw [rewrap_seq]
    exact run_bind_of_ok (run_cloneItems (fun v hv b hb => ih v hv hb) hf)
  | map entries ih =>
    rw [rewrap_map]
    exact run_bind_of_ok (run_cloneEntries (fun e he b hb => ih e he hb) hf)
  | object h => exact run_bind_of_ok (hf h.obj List.mem_cons_self).run_shareRef
  | _ => rfl

end Value

/-! ## Calls that lend -/

/-- How a call ends that lends some claims: with a result that is `P` and all claims lent, or with
an error that is `Q` and, if there was room for the claims, with the heap as it was. -/
def Settled {α : Type} (b : Bridge) (claims : List ObjId) (P : α → Prop) (Q : BridgeError → Prop) :
    Except BridgeError α → Bridge → Prop
  | .ok x, b' => P x ∧ b' = b.lent claims
  | .error e, b' => Q e ∧ (b.Spare claims → ∃ peak, b' = b.grown b.heap peak)

/-- The call ends so, and it fails to return only where it would report an error and has no room for
the claims. -/
def Settles {α : Type} (b : Bridge) (claims : List ObjId) (r : Run (Except BridgeError α))
    (P : α → Prop) (Q : BridgeError → Prop) : Prop :=
  Ends r b (Settled b claims P Q) fun _ _ => (∃ e, Q e) ∧ ¬ b.Spare claims

section Settling

variable {α β : Type} {b : Bridge} {claims : List ObjId} {r : Run (Except BridgeError α)}
  {P : α → Prop}
  {Q Q' : BridgeError → Prop}

theorem settles_of_run {x : α} (hr : r.run b = (.ok (.ok x), b.lent claims)) (hx : P x) :
    Settles b claims r P Q :=
  (ends_of_run_ok hr).mpr ⟨hx, rfl⟩

theorem settles_error {e : BridgeError} (he : Q e) : Settles b claims (pure (.error e)) P Q :=
  ⟨he, fun _ => ⟨b.ledger.peak, rfl⟩⟩

theorem Settles.mono {P' : α → Prop} (hr : Settles b claims r P Q) (hP : ∀ x, P x → P' x)
    (hQ : ∀ e, Q e → Q' e) :
    Settles b claims r P' Q' := by
  refine Ends.mono hr (fun result b' hend => ?_) fun _ _ hbad => ?_
  · cases result with
    | ok x => exact ⟨hP x hend.1, hend.2⟩
    | error e => exact ⟨hQ e hend.1, hend.2⟩
  · obtain ⟨⟨e, he⟩, hnone⟩ := hbad
    exact ⟨⟨e, hQ e he⟩, hnone⟩

/-- Something is done with the result, and nothing with the error. -/
theorem Settles.map {P : β → Prop} {f : Except BridgeError α → Run (Except BridgeError β)}
    {g : α → β} (hr : Settles b claims r (fun x => P (g x)) Q)
    (hok : ∀ x, f (.ok x) = pure (.ok (g x))) (herror : ∀ e, f (.error e) = pure (.error e)) :
    Settles b claims (r >>= f) P Q := by
  unfold Settles
  rw [ends_bind]
  refine Ends.mono hr (fun result b' hend => ?_) fun _ _ hbad => hbad
  cases result with
  | ok x =>
    rw [hok]
    exact hend
  | error e =>
    rw [herror]
    exact hend

end Settling

section Lists

variable {α β : Type} {P : α → β → Prop} {Q : α → BridgeError → Prop}

/-- The error of a first member that has one: for all members before it there is a result. -/
def FirstError (P : α → β → Prop) (Q : α → BridgeError → Prop) (xs : List α)
    (e : BridgeError) : Prop :=
  ∃ before x after, xs = before ++ x :: after ∧ (∀ y ∈ before, ∃ z, P y z) ∧ Q x e

theorem FirstError.cons {x : α} {y : β} {xs : List α} {e : BridgeError} (hxy : P x y)
    (he : FirstError P Q xs e) :
    FirstError P Q (x :: xs) e := by
  obtain ⟨before, z, after, rfl, hbefore, hz⟩ := he
  exact ⟨x :: before, z, after, rfl, List.forall_mem_cons.mpr ⟨⟨y, hxy⟩, hbefore⟩, hz⟩

/-- Members are decoded in turn.  The first error ends it, and what was lent before is given back.
-/
theorem settles_decodeAll {dec : α → Run (Except BridgeError β)} {dropItem : β → Run Unit}
    {claims : α → List ObjId}
    (hdrop : ∀ x y, P x y → ∃ more, dropItem y = releaseAll more ∧ more.Perm (claims x))
    {xs : List α} (hdec : ∀ x ∈ xs, ∀ b : Bridge, b.Wrappable (claims x) →
      Settles b (claims x) (dec x) (P x) (Q x)) {b : Bridge}
    (hw : b.Wrappable (xs.flatMap claims)) :
    Settles b (xs.flatMap claims) (Ty.decodeAll dec dropItem xs) (List.Forall₂ P xs)
      (FirstError P Q xs) := by
  induction xs generalizing b with
  | nil => exact settles_of_run rfl .nil
  | cons x rest ih =>
    rw [List.forall_mem_cons] at hdec
    obtain ⟨hdec, hrest⟩ := hdec
    rw [List.flatMap_cons] at hw ⊢
    obtain ⟨hwx, hwrest⟩ := List.forall_mem_append.mp hw
    have hlive := Bridge.Wrappable.live hwx
    unfold Ty.decodeAll Settles
    rw [ends_bind]
    refine Ends.mono (hdec b hwx) (fun result b' hend => ?_) fun _ _ hbad => ?_
    · cases result with
      | error e =>
        exact ⟨⟨[], x, rest, rfl, List.forall_mem_nil _, hend.1⟩, fun hspare => hend.2 hspare.left⟩
      | ok y =>
        obtain ⟨hxy, rfl⟩ := hend
        obtain ⟨more, hmore, hperm⟩ := hdrop x y hxy
        rw [ends_bind, ends_onUnwind]
        refine Ends.mono (ih hrest (Bridge.Wrappable.lent hwrest (claims x)))
          (fun result b' hend => ?_)
          fun _ b' hbad => ?_
        · cases result with
          | ok ys => exact ⟨.cons hxy hend.1, hend.2.trans (b.lent_append _ _)⟩
          | error e =>
            obtain ⟨hfirst, hback⟩ := hend
            rw [ends_bind, hmore]
            by_cases hspare : b.Spare (claims x ++ rest.flatMap claims)
            · obtain ⟨peak, rfl⟩ := hback (hspare.right hlive)
              rw [ends_of_run_ok (hspare.left.run_releaseAll hlive hperm peak)]
              exact ⟨hfirst.cons hxy, fun _ => ⟨peak, rfl⟩⟩
            · -- without room, giving back the claims of `y` may end in any way
              refine (ends_trivial _ b').mono (fun _ _ _ => ?_) fun _ _ _ =>
                ⟨⟨e, hfirst.cons hxy⟩, hspare⟩
              exact ⟨hfirst.cons hxy, fun hroom => absurd hroom hspare⟩
        · obtain ⟨⟨e, hfirst⟩, hnone⟩ := hbad
          have hnone' : ¬ b.Spare (claims x ++ rest.flatMap claims) := fun hspare =>
            hnone (hspare.right hlive)
          exact (ends_trivial _ b').mono (fun _ _ _ => ⟨⟨e, hfirst.cons hxy⟩, hnone'⟩)
            fun _ _ _ => ⟨⟨e, hfirst.cons hxy⟩, hnone'⟩
    · obtain ⟨⟨e, he⟩, hnone⟩ := hbad
      exact ⟨⟨e, [], x, rest, rfl, List.forall_mem_nil _, he⟩, fun hspare => hnone hspare.left⟩

end Lists

end ObjectBridge
