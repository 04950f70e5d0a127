import ObjectBridge.Typed.Decode
import ObjectBridge.Proofs.Conversions

set_option autoImplicit false

/-!
# Claims of host data (SPEC §12.3)

Encoding data consumes its claims, which the value then holds or which are given back if there is no
value.  Decoding borrows the value, and the data has claims of its own.
-/

namespace ObjectBridge.Ty

open ObjectBridge (okClaims)

/-- The claims of the result of a call that may report any error of the bridge. -/
abbrev bridgeClaims {α : Type} (g : α → Multiset ObjId) : Except BridgeError α → Multiset ObjId :=
  resultClaims (fun e => e.claims) g

section Lists

variable {α β ε : Type} {B : Multiset ObjId} {claims : α → List ObjId} {results : β → List ObjId}

/-- A key that is kept carries no claims. -/
theorem withKey_transfers {t : Multiset ObjId} {failures : ε → Multiset ObjId}
    {f : α → Run (Except ε β)} (e : String × α)
    (hf : Transfers B t (f e.2) (resultClaims failures fun y => results y)) :
    Transfers B t (withKey f e) (resultClaims failures fun p => results p.2) := by
  unfold withKey
  refine hf.bind fun result => ?_
  cases result with
  | error e => exact .pure _ rfl
  | ok y => exact .pure _ rfl

/-- Members that are encoded in turn hand over their claims; the first failure gives back all that
is left. -/
theorem encodeAll_transfers {encode : α → Run (Except RangeError β)} (xs : List α)
    (hencode : ∀ x ∈ xs, Transfers 0 (claims x) (encode x) (okClaims fun y => results y)) :
    Transfers 0 (xs.flatMap claims : List ObjId)
      (encodeAll encode (fun x => releaseAll (claims x)) (fun y => releaseAll (results y)) xs)
      (okClaims fun ys => (ys.flatMap results : List ObjId)) := by
  induction xs with
  | nil => exact .pure _ rfl
  | cons x rest ih =>
    have hrest := ih fun y hy => hencode y (List.mem_cons_of_mem x hy)
    have hfirst : Transfers 0 ((rest.flatMap claims : List ObjId) + claims x)
        (onUnwind (rest.forM fun x => releaseAll (claims x)) (encode x))
        (fun r => (rest.flatMap claims : List ObjId) + okClaims (fun y => results y) r) :=
      Transfers.onUnwind (forM_cleans (fun y => releaseAll_cleans (claims y)) rest)
        ((hencode x List.mem_cons_self).weaken (Multiset.zero_subset _))
    unfold encodeAll
    refine (hfirst.cast ?_ fun _ => rfl).bind fun result => ?_
    · rw [List.flatMap_cons, ← Multiset.coe_add, add_comm]
    cases result with
    | error e =>
      refine ((forM_succeeds (fun y => releaseAll_succeeds (claims y)) rest).transfers.cast ?_
        fun _ => rfl).bind
        fun _ => .pure _ rfl
      exact add_zero _
    | ok y =>
      have hguard :
          Transfers 0 (results y + (rest.flatMap claims : List ObjId))
          (onUnwind (releaseAll (results y))
          (encodeAll encode (fun x => releaseAll (claims x))
            (fun y => releaseAll (results y)) rest))
          (fun r => results y + okClaims (fun ys => (ys.flatMap results : List ObjId)) r) :=
        Transfers.onUnwind (releaseAll_cleans (results y)) (hrest.weaken (Multiset.zero_subset _))
      refine (hguard.cast (add_comm _ _) fun _ => rfl).bind fun result => ?_
      cases result with
      | error e =>
        refine ((releaseAll_succeeds (results y)).transfers.cast (add_zero _) fun _ => rfl).bind
          fun _ => .pure _ rfl
      | ok ys => exact .pure _ (Multiset.coe_add _ _)

/-- Members that are decoded in turn have claims of their own; the first failure gives back those so
far. -/
theorem decodeAll_transfers {decode : α → Run (Except BridgeError β)} (xs : List α)
    (hdecode : ∀ x ∈ xs, Transfers B 0 (decode x) (bridgeClaims fun y => results y)) :
    Transfers B 0 (decodeAll decode (fun y => releaseAll (results y)) xs)
      (bridgeClaims fun ys => (ys.flatMap results : List ObjId)) := by
  induction xs with
  | nil => exact .pure _ rfl
  | cons x rest ih =>
    have hrest := ih fun y hy => hdecode y (List.mem_cons_of_mem x hy)
    unfold decodeAll
    refine (hdecode x List.mem_cons_self).bind fun result => ?_
    cases result with
    | error e => exact .pure _ rfl
    | ok y =>
      refine (hrest.guard (results y)).bind fun result => ?_
      cases result with
      | error e =>
        have hdrop : Succeeds B (e.claims + (results y : Multiset ObjId)) (releaseAll (results y))
            (fun _ => e.claims + 0) :=
          ((releaseAll_succeeds (results y)).weaken (Multiset.zero_subset B)).frame _
            (subset_add_right _ _)
        exact (hdrop.transfers.cast (add_comm _ _) fun _ => add_zero _).bind fun _ => .pure _ rfl
      | ok ys => exact .pure _ (Multiset.coe_add _ _)

end Lists

/-! ## Encoding -/

theorem encodeEntries_transfers {α : Type} {claims : α → List ObjId}
    {encode : α → Run (Except RangeError Value)} (entries : List (String × α))
    (hencode : ∀ x, Transfers 0 (claims x) (encode x) (okClaims fun v => v.claims)) :
    Transfers 0 (entries.flatMap fun e => claims e.2 : List ObjId)
      (encodeEntries encode (fun x => releaseAll (claims x)) entries)
        (okClaims fun v => v.claims) := by
  have hall := encodeAll_transfers entries fun e _ => withKey_transfers e (hencode e.2)
  refine hall.bind fun result => ?_
  cases result with
  | error e => exact .pure _ rfl
  | ok es => exact .pure _ (congrArg Multiset.ofList (Value.claimsOfEntries_eq es).symm)

/-- Encoding consumes the claims of the data. -/
theorem encode_transfers (t : Ty) (x : t.Carrier) :
    Transfers 0 (t.claims x) (t.encode x) (okClaims fun v => v.claims) := by
  induction t with
  | int t =>
    refine .pure _ ?_
    rw [encodeInt_eq_checkInt x.2]
    unfold checkInt
    split <;> rfl
  | float32 => exact .pure _ rfl
  | float64 => exact .pure _ rfl
  | bool => exact .pure _ rfl
  | text => exact .pure _ rfl
  | bytes => exact .pure _ rfl
  | value => exact .pure _ rfl
  | host => exact .pure _ rfl
  | claim => exact (Value.ofObject_transfers x).bind fun _ => .pure _ rfl
  | option t ih =>
    cases x with
    | none => exact .pure _ rfl
    | some y =>
      have hclaims : (Ty.option t).claims (some y) = t.claims y := by simp [claims]
      rw [hclaims]
      exact ih y
  | list t ih =>
    refine (encodeAll_transfers x fun y _ => ih y).bind fun result => ?_
    cases result with
    | error e => exact .pure _ rfl
    | ok vs => exact .pure _ (congrArg Multiset.ofList (Value.claimsOfItems_eq vs).symm)
  | dict t ih => exact encodeEntries_transfers x ih
  | sortedDict t ih => exact encodeEntries_transfers x ih

/-- Giving data over as an object consumes the claims of the data and answers a claim on the object.
-/
theorem toForeign_transfers (t : Ty) (x : t.Carrier) (required : Option Class) (nullable : Bool) :
    Transfers 0 (t.claims x) (t.toForeign x required nullable)
      (bridgeClaims fun o => o.toList) := by
  unfold toForeign
  refine (encode_transfers t x).bind fun result => ?_
  cases result with
  | error e => exact .pure _ rfl
  | ok v =>
    have hconvert : Transfers (v.claims + 0) 0 (hostToForeign v required nullable) foundClaims :=
      (hostToForeign_transfers v required nullable).weaken (by simp)
    refine ((Transfers.onUnwind (releaseAll_cleans v.claims) hconvert).cast (add_zero _).symm
      fun _ => rfl).bind
      fun found => ?_
    have hdrop : Succeeds 0 (foundClaims found + v.claims) v.drop
        (fun _ => foundClaims found + 0) :=
      (Value.drop_succeeds v).frame _ (Multiset.zero_subset _)
    refine (hdrop.transfers.cast (add_comm _ _) fun _ => add_zero _).bind fun _ => ?_
    cases found with
    | ok o => exact .pure _ rfl
    | error e => exact .pure _ rfl

/-! ## Decoding -/

theorem bridgeClaims_decodeInt (t : IntType) (v : Value) :
    bridgeClaims (fun _ => 0) (decodeInt t v) = 0 := by
  unfold decodeInt
  split
  · split <;> rfl
  · rfl

theorem bridgeClaims_decodeScalar {α : Type} (expected : String) (view : Value → Option α)
    (v : Value) :
    bridgeClaims (fun _ => 0) (decodeScalar expected view v) = 0 := by
  unfold decodeScalar
  split <;> rfl

theorem decodeEntries_transfers {β : Type} {results : β → List ObjId}
    {decode : Value → Run (Except BridgeError β)} (v : Value)
    (hdecode : ∀ w, Transfers w.claims 0 (decode w) (bridgeClaims fun y => results y)) :
    Transfers v.claims 0 (decodeEntries decode (fun y => releaseAll (results y)) v)
      (bridgeClaims fun es => (es.flatMap fun e => results e.2 : List ObjId)) := by
  unfold decodeEntries
  split
  · rename_i entries
    refine decodeAll_transfers entries fun e he => withKey_transfers e ?_
    exact (hdecode e.2).weaken (Value.claims_subset_entries he)
  · exact .pure _ rfl

theorem sortByKey_perm {α : Type} (entries : List (String × α)) :
    (sortByKey entries).Perm entries :=
  List.mergeSort_perm entries _

/-- Decoding borrows the value, and the data has claims of its own. -/
theorem decode_transfers (t : Ty) (v : Value) :
    Transfers v.claims 0 (t.decode v) (bridgeClaims fun x => t.claims x) := by
  induction t generalizing v with
  | int t => exact .pure _ (bridgeClaims_decodeInt t v).symm
  | float32 =>
    refine .pure _ ?_
    have hscalar := bridgeClaims_decodeScalar "float" Value.float? v
    cases hd : decodeScalar "float" Value.float? v with
    | ok _ => rfl
    | error e =>
      rw [hd] at hscalar
      exact hscalar.symm
  | float64 => exact .pure _ (bridgeClaims_decodeScalar "float" Value.float? v).symm
  | bool => exact .pure _ (bridgeClaims_decodeScalar "bool" Value.bool? v).symm
  | text => exact .pure _ (bridgeClaims_decodeScalar "text" Value.text? v).symm
  | bytes => exact .pure _ (bridgeClaims_decodeScalar "bytes" Value.bytes? v).symm
  | value => exact (Value.clone_transfers v).bind fun _ => .pure _ rfl
  | claim =>
    cases v with
    | object h => exact (share_succeeds h.obj).transfers.bind fun _ => .pure _ rfl
    | _ => exact .pure _ rfl
  | host =>
    cases v with
    | object h => exact (hostShare_transfers h).bind fun _ => .pure _ rfl
    | _ => exact .pure _ rfl
  | option t ih =>
    unfold decode
    split
    · exact .pure _ rfl
    · refine (ih _).bind fun result => ?_
      cases result with
      | ok x => exact .pure _ (congrArg Multiset.ofList (List.append_nil (t.claims x)).symm)
      | error e => exact .pure _ rfl
  | list t ih =>
    cases v with
    | seq items =>
      exact decodeAll_transfers items fun w hw => (ih w).weaken (Value.claims_subset_items hw)
    | _ => exact .pure _ rfl
  | dict t ih => exact decodeEntries_transfers v ih
  | sortedDict t ih =>
    refine (decodeEntries_transfers v ih).bind fun result => ?_
    cases result with
    | ok es =>
      refine .pure _ ?_
      exact Multiset.coe_eq_coe.mpr ((sortByKey_perm es).flatMap_right _).symm
    | error e => exact .pure _ rfl

/-- Reading data out of an object borrows the object. -/
theorem fromForeign_transfers (t : Ty) (o : Option ObjId) :
    Transfers o.toList 0 (t.fromForeign o) (bridgeClaims fun x => t.claims x) := by
  unfold fromForeign
  refine (foreignToHost_transfers o).bind fun v => ?_
  have hdecode :
      Transfers (v.claims + o.toList) 0 (t.decode v) (bridgeClaims fun x => t.claims x) :=
    (decode_transfers t v).weaken (Multiset.subset_of_le (Multiset.le_add_right _ _))
  refine ((Transfers.onUnwind (releaseAll_cleans v.claims) hdecode).cast (add_zero _).symm
    fun _ => rfl).bind
    fun result => ?_
  have hdrop : Succeeds o.toList (bridgeClaims (fun x => t.claims x) result + v.claims) v.drop
      (fun _ => bridgeClaims (fun x => t.claims x) result + 0) :=
    ((Value.drop_succeeds v).weaken (Multiset.zero_subset _)).frame _ (subset_add_right _ _)
  exact (hdrop.transfers.cast (add_comm _ _) fun _ => add_zero _).bind fun _ => .pure _ rfl

end ObjectBridge.Ty
