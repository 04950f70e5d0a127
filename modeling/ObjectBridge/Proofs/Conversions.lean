import ObjectBridge.Conversion
import ObjectBridge.Proofs.Containers

set_option autoImplicit false

/-!
# Claims of values (SPEC §4.3)

What copying, dropping and converting values does with claims.  Converting a value to an object
borrows the value and answers a claim of its own, and converting an object to a value borrows the
object and answers a value with claims of its own.
-/

namespace ObjectBridge

namespace Value

/-- Induction on a value, with a hypothesis for each member of a sequence or map. -/
theorem induction {P : Value → Prop} (null : P .null) (bool : ∀ b, P (.bool b))
    (int : ∀ n, P (.int n)) (float : ∀ bits, P (.float bits)) (text : ∀ s, P (.text s))
    (bytes : ∀ b, P (.bytes b)) (seq : ∀ items, (∀ v ∈ items, P v) → P (.seq items))
    (map : ∀ entries, (∀ e ∈ entries, P e.2) → P (.map entries))
    (object : ∀ h, P (.object h)) : ∀ v, P v
  | .null => null
  | .bool b => bool b
  | .int n => int n
  | .float bits => float bits
  | .text s => text s
  | .bytes b => bytes b
  | .seq items => seq items fun v _ => induction null bool int float text bytes seq map object v
  | .map entries =>
    map entries fun e _ => induction null bool int float text bytes seq map object e.2
  | .object h => object h
termination_by v => sizeOf v
decreasing_by
  · rename_i hv
    have := List.sizeOf_lt_of_mem hv
    simp
    omega
  · rename_i he
    have := List.sizeOf_lt_of_mem he
    obtain ⟨k, v⟩ := e
    simp at this ⊢
    omega

theorem claimsOfItems_eq (items : List Value) : claimsOfItems items = items.flatMap claims := by
  induction items with
  | nil => rfl
  | cons v rest ih => simp [claimsOfItems, ih]

theorem claimsOfEntries_eq (entries : List (String × Value)) :
    claimsOfEntries entries = entries.flatMap fun e => e.2.claims := by
  induction entries with
  | nil => rfl
  | cons e rest ih => simp [claimsOfEntries, ih]

end Value

/-- Binding a key takes the claims of the new value and leaves those of the old one. -/
theorem Assoc.claims_insert {β : Type} (claims : β → List ObjId) (key : String) (x : β)
    (done : List (String × β)) :
    (((Assoc.insert key x done).flatMap fun e => claims e.2 : List ObjId) : Multiset ObjId) +
        (((Assoc.find? key done).map claims).getD [] : List ObjId) =
      (done.flatMap fun e => claims e.2 : List ObjId) + claims x := by
  induction done with
  | nil => simp [Assoc.insert, Assoc.find?]
  | cons e rest ih =>
    obtain ⟨k, y⟩ := e
    by_cases hk : k = key
    · simp only [Assoc.insert, Assoc.find?, hk, if_true, Option.map_some, Option.getD_some,
        List.flatMap_cons, ← Multiset.coe_add]
      abel
    · simp only [Assoc.insert, Assoc.find?, hk, if_false, List.flatMap_cons,
        ← Multiset.coe_add] at ih ⊢
      rw [add_assoc, ih, add_assoc]

section Lists

variable {α : Type} {B : Multiset ObjId}

/-- Values that are made in turn are all there at the end. -/
theorem convertAll_transfers {f : α → Run Value} (xs : List α)
    (hf : ∀ x ∈ xs, Transfers B 0 (f x) (fun v => v.claims)) :
    Transfers B 0 (convertAll f xs) (fun vs => Value.claimsOfItems vs) := by
  induction xs with
  | nil => exact .pure [] rfl
  | cons x rest ih =>
    have hrest := ih fun y hy => hf y (List.mem_cons_of_mem x hy)
    unfold convertAll
    refine (hf x List.mem_cons_self).bind fun v => ?_
    refine (hrest.guard v.claims).bind fun vs => .pure _ ?_
    exact Multiset.coe_add _ _

theorem convertEntries_transfers {f : α → Run (String × Value)} (xs : List α)
    (done : List (String × Value)) (hf : ∀ x ∈ xs, Transfers B 0 (f x) (fun e => e.2.claims)) :
    Transfers B (Value.claimsOfEntries done)
      (convertEntries f xs done) (fun es => Value.claimsOfEntries es) := by
  induction xs generalizing done with
  | nil => exact .pure done rfl
  | cons x rest ih =>
    have hrest := fun done => ih done fun y hy => hf y (List.mem_cons_of_mem x hy)
    unfold convertEntries
    refine ((hf x List.mem_cons_self).guard (Value.claimsOfEntries done)).bind fun e => ?_
    obtain ⟨key, v⟩ := e
    have hrelease :=
      (releaseAll_succeeds (((Assoc.find? key done).map Value.claims).getD [])).weaken
      (Multiset.zero_subset B)
    have hframe :=
      hrelease.frame (Value.claimsOfEntries (Assoc.insert key v done)) (subset_add_right _ _)
    refine (hframe.transfers.cast ?_ fun _ => add_zero _).bind fun _ => hrest _
    rw [Value.claimsOfEntries_eq, Value.claimsOfEntries_eq]
    exact (Assoc.claims_insert Value.claims key v done).symm

end Lists

/-! ## Copies -/

namespace Value

theorem cloneItems_eq (items : List Value) : cloneItems items = convertAll clone items := by
  induction items with
  | nil => rfl
  | cons v rest ih =>
    unfold cloneItems convertAll
    rw [ih]

theorem cloneEntries_transfers {B : Multiset ObjId} (entries : List (String × Value))
    (hc : ∀ e ∈ entries, Transfers B 0 (clone e.2) (fun v => v.claims)) :
    Transfers B 0 (cloneEntries entries) (fun es => claimsOfEntries es) := by
  induction entries with
  | nil => exact .pure [] rfl
  | cons e rest ih =>
    obtain ⟨k, v⟩ := e
    have hrest := ih fun y hy => hc y (List.mem_cons_of_mem _ hy)
    unfold cloneEntries
    refine (hc (k, v) List.mem_cons_self).bind fun w => ?_
    refine (hrest.guard w.claims).bind fun es => .pure _ ?_
    exact Multiset.coe_add _ _

/-- The claims of a member are among the claims of the whole. -/
theorem claims_subset_items {items : List Value} {v : Value} (hv : v ∈ items) :
    (v.claims : Multiset ObjId) ⊆ claimsOfItems items := by
  rw [claimsOfItems_eq]
  exact fun o ho => List.mem_flatMap.mpr ⟨v, hv, ho⟩

theorem claims_subset_entries {entries : List (String × Value)} {e : String × Value}
    (he : e ∈ entries) :
    (e.2.claims : Multiset ObjId) ⊆ claimsOfEntries entries := by
  rw [claimsOfEntries_eq]
  exact fun o ho => List.mem_flatMap.mpr ⟨e, he, ho⟩

/-- A copy borrows the value and has claims of its own. -/
theorem clone_transfers (v : Value) : Transfers v.claims 0 v.clone (fun w => w.claims) := by
  induction v using Value.induction with
  | seq items ih =>
    unfold clone
    rw [cloneItems_eq]
    refine (convertAll_transfers items fun v hv => ?_).bind fun vs => .pure _ rfl
    exact (ih v hv).weaken (claims_subset_items hv)
  | map entries ih =>
    unfold clone
    refine (cloneEntries_transfers entries fun e he => ?_).bind fun es => .pure _ rfl
    exact (ih e he).weaken (claims_subset_entries he)
  | object h =>
    unfold clone
    exact (hostShare_transfers h).bind fun _ => .pure _ rfl
  | null => exact .pure _ rfl
  | bool b => exact .pure _ rfl
  | int n => exact .pure _ rfl
  | float bits => exact .pure _ rfl
  | text s => exact .pure _ rfl
  | bytes b => exact .pure _ rfl

theorem drop_succeeds (v : Value) : Succeeds 0 v.claims v.drop (fun _ => 0) :=
  releaseAll_succeeds v.claims

theorem ofObject_transfers (o : ObjId) : Transfers 0 {o} (ofObject o) (fun v => v.claims) :=
  (dispatch_transfers o).bind fun _ => .pure _ rfl

end Value

/-! ## From values to objects -/

section ToForeign

variable {B : Multiset ObjId}

/-- The claim that a conversion to an object answers, if it answers an object. -/
abbrev foundClaims {ε : Type} : Except ε (Option ObjId) → Multiset ObjId :=
  okClaims fun o => o.toList

theorem checkClass_succeeds (o : ObjId) (required : Class) :
    Succeeds {o} 0 (checkClass o required) (fun _ => 0) := by
  refine (classOf_succeeds o).bind fun c => ?_
  split <;> exact .pure _ rfl

/-- An object of the wrong class is given up. -/
theorem deliver_succeeds (o : ObjId) (required : Class) :
    Succeeds 0 {o} (deliver o required) foundClaims := by
  have hcheck : Succeeds 0 ({o} + 0) (checkClass o required) (fun _ => {o} + 0) :=
    (checkClass_succeeds o required).frame {o} (by simp)
  refine (hcheck.cast (add_zero _).symm fun _ => add_zero _).bind fun result => ?_
  cases result with
  | ok _ => exact .pure _ rfl
  | error e => exact (releaseAll_succeeds [o]).bind fun _ => .pure _ rfl

/-- A new object is checked and delivered. -/
theorem deliver_new {make : Run ObjId} (hmake : Succeeds 0 0 make (fun o => {o}))
    (required : Class) :
    Succeeds B 0 (do start; deliver (← adopt (← make)) required) foundClaims := by
  refine start_succeeds.bind fun _ => Succeeds.weaken ?_ (Multiset.zero_subset B)
  exact hmake.bind fun o => (adopt_succeeds o).bind fun o => deliver_succeeds o required

/-- A vector is filled from claims that the conversions of its elements answer. -/
theorem fillVector_transfers (vec : ObjId) (items : List Value) (hvec : {vec} ⊆ B)
    (hitems : ∀ v ∈ items, Transfers B 0 (hostToForeign v none true) foundClaims) :
    Transfers B 0 (fillVector vec items) (fun _ => 0) := by
  induction items with
  | nil =>
    unfold fillVector
    exact .pure _ rfl
  | cons v rest ih =>
    have hrest := ih fun w hw => hitems w (List.mem_cons_of_mem v hw)
    unfold fillVector
    refine (hitems v List.mem_cons_self).bind fun result => ?_
    cases result with
    | ok elem => exact ((VectorObj.push_transfers vec elem).weaken hvec).bind fun _ => hrest
    | error e => exact .pure _ rfl

/-- A hash is filled from claims that the conversions of its values answer. -/
theorem fillHash_transfers (hash : ObjId) (entries : List (String × Value)) (hhash : {hash} ⊆ B)
    (hentries : ∀ e ∈ entries, Transfers B 0 (hostToForeign e.2 none true) foundClaims) :
    Transfers B 0 (fillHash hash entries) (fun _ => 0) := by
  induction entries with
  | nil =>
    unfold fillHash
    exact .pure _ rfl
  | cons e rest ih =>
    obtain ⟨k, v⟩ := e
    have hrest := ih fun w hw => hentries w (List.mem_cons_of_mem _ hw)
    unfold fillHash
    refine (hentries (k, v) List.mem_cons_self).bind fun result => ?_
    cases result with
    | ok value => exact ((HashObj.store_transfers hash k value).weaken hhash).bind fun _ => hrest
    | error e => exact .pure _ rfl

/-- A container that was filled is delivered, and one that could not be filled is given up. -/
theorem deliver_filled {fill : Run (Except ConversionError Unit)} (o : ObjId) (required : Class)
    (hfill : Transfers ({o} + B) 0 fill (fun _ => 0)) :
    Transfers B {o} (do
      match ← onUnwind (releaseAll [o]) fill with
      | .ok () => deliver o required
      | .error e => do
        releaseAll [o]
        return .error e) foundClaims := by
  have hguard :=
    (Transfers.onUnwind (releaseAll_cleans [o]) hfill).cast (add_zero _).symm fun _ => add_zero _
  refine hguard.bind fun result => Transfers.weaken ?_ (Multiset.zero_subset B)
  cases result with
  | ok _ => exact (deliver_succeeds o required).transfers
  | error e => exact (releaseAll_succeeds [o]).transfers.bind fun _ => .pure _ rfl

/-- Converting a value borrows the value and answers a claim of its own. -/
theorem hostToForeign_transfers (v : Value) (required : Option Class) (nullable : Bool) :
    Transfers v.claims 0 (hostToForeign v required nullable) foundClaims := by
  induction v using Value.induction generalizing required nullable with
  | null =>
    unfold hostToForeign
    refine start_succeeds.transfers.bind fun _ => ?_
    split <;> exact .pure _ rfl
  | object h =>
    unfold hostToForeign
    refine (start_succeeds.bind fun _ => ?_).transfers
    refine (checkClass_succeeds h.obj _).bind fun result => ?_
    cases result with
    | ok _ => exact (share_succeeds h.obj).bind fun _ => .pure _ rfl
    | error e => exact .pure _ rfl
  | bool b =>
    unfold hostToForeign
    exact (deliver_new (truth_succeeds b) _).transfers
  | int n =>
    unfold hostToForeign
    exact (deliver_new (makeObj_succeeds .integer (.integer n) rfl rfl rfl) _).transfers
  | float bits =>
    unfold hostToForeign
    exact (deliver_new (makeObj_succeeds .float (.float bits) rfl rfl rfl) _).transfers
  | text s =>
    unfold hostToForeign
    exact (deliver_new (makeObj_succeeds .string (.string s) rfl rfl rfl) _).transfers
  | bytes b =>
    unfold hostToForeign
    exact (deliver_new (makeObj_succeeds .blob (.blob b) rfl rfl rfl) _).transfers
  | seq items ih =>
    unfold hostToForeign
    refine start_succeeds.transfers.bind fun _ => ?_
    refine ((VectorObj.new_transfers items.length).weaken (Multiset.zero_subset _)).bind fun o => ?_
    refine ((adopt_succeeds o).transfers.weaken (Multiset.zero_subset _)).bind fun vec =>
      deliver_filled vec _ ?_
    refine fillVector_transfers vec items (Multiset.subset_of_le (Multiset.le_add_right _ _))
      fun v hv => ?_
    exact (ih v hv none true).weaken
      (Multiset.Subset.trans (Value.claims_subset_items hv) (subset_add_right _ _))
  | map entries ih =>
    unfold hostToForeign
    refine start_succeeds.transfers.bind fun _ => ?_
    have hnew := (makeObj_succeeds .hash (.hash .empty) rfl rfl rfl).transfers
    refine (hnew.weaken (Multiset.zero_subset _)).bind fun o => ?_
    refine ((adopt_succeeds o).transfers.weaken (Multiset.zero_subset _)).bind fun hash =>
      deliver_filled hash _ ?_
    refine fillHash_transfers hash entries (Multiset.subset_of_le (Multiset.le_add_right _ _))
      fun e he => ?_
    exact (ih e he none true).weaken
      (Multiset.Subset.trans (Value.claims_subset_entries he) (subset_add_right _ _))

end ToForeign

/-! ## From objects to values -/

theorem toList_subset_filterMap {elems : List (Option ObjId)} {e : Option ObjId} (he : e ∈ elems)
    {B : Multiset ObjId} : (e.toList : Multiset ObjId) ⊆ (elems.filterMap id : List ObjId) + B := by
  intro o ho
  rw [Multiset.mem_coe, Option.mem_toList] at ho
  exact Multiset.mem_add.mpr (.inl (List.mem_filterMap.mpr ⟨e, he, ho⟩))

/-- The elements of a vector are converted under claims of their own. -/
theorem elementsToHost_transfers {B : Multiset ObjId} {inner : Option ObjId → Run Value}
    (hi : ∀ e, Transfers e.toList 0 (inner e) (fun v => v.claims)) (elems : List (Option ObjId)) :
    Transfers B (elems.filterMap id : List ObjId)
      (withClaims (elems.filterMap id) (do return Value.seq (← convertAll inner elems)))
        (fun v => v.claims) := by
  refine Transfers.lend _ ?_
  refine (convertAll_transfers elems fun e he => ?_).bind fun vs => .pure (Value.seq vs) rfl
  exact (hi e).weaken (toList_subset_filterMap he)

/-- One entry of a hash is converted. -/
theorem entryToHost_transfers {B : Multiset ObjId} {inner : Option ObjId → Run Value}
    (hi : ∀ e, Transfers e.toList 0 (inner e) (fun v => v.claims)) (e : HashEntry)
    (he : (e.claims : Multiset ObjId) ⊆ B) :
    Transfers B 0 (do
      let key ← StringObj.text e.key
      return (key, ← inner e.value)) (fun y : String × Value => y.2.claims) := by
  refine ((certify_transfers e.key .string Payload.string?).weaken ?_).bind fun key => ?_
  · exact Multiset.singleton_subset.mpr (he List.mem_cons_self)
  · exact ((hi e.value).weaken fun p hp => he (List.mem_cons_of_mem _ hp)).bind fun _ => .pure _ rfl

theorem claims_subset_flatMap {entries : List HashEntry} {e : HashEntry} (he : e ∈ entries)
    {B : Multiset ObjId} :
    (e.claims : Multiset ObjId) ⊆ (entries.flatMap HashEntry.claims : List ObjId) + B :=
  fun _ hp => Multiset.mem_add.mpr (.inl (List.mem_flatMap.mpr ⟨e, he, hp⟩))

/-- The entries of a hash are converted under claims of their own. -/
theorem entriesToHost_transfers {B : Multiset ObjId} {inner : Option ObjId → Run Value}
    (hi : ∀ e, Transfers e.toList 0 (inner e) (fun v => v.claims)) (entries : List HashEntry) :
    Transfers B (entries.flatMap HashEntry.claims : List ObjId)
      (withClaims (entries.flatMap HashEntry.claims) (do
        let convert (e : HashEntry) : Run (String × Value) := do
          let key ← StringObj.text e.key
          return (key, ← inner e.value)
        return Value.map (← convertEntries convert entries []))) (fun v => v.claims) := by
  refine Transfers.lend _ ?_
  refine (convertEntries_transfers entries [] fun e he => ?_).bind fun es =>
    .pure (Value.map es) rfl
  exact entryToHost_transfers hi e (claims_subset_flatMap he)

/-- Reading an object borrows it and answers a value with claims of its own, whatever the depth. -/
theorem toHostWithin_transfers (depth : Nat) (o : Option ObjId) :
    Transfers o.toList 0 (toHostWithin depth o) (fun v => v.claims) := by
  induction depth generalizing o with
  | zero =>
    cases o with
    | none => exact .pure _ rfl
    | some o => exact fun b F _ hb => ⟨hb, fun _ => trivial⟩
  | succ depth ih =>
    cases o with
    | none => exact .pure _ rfl
    | some o =>
      unfold toHostWithin
      have hborrow : Transfers {o} 0 (classOf o) (fun _ => 0) := (classOf_succeeds o).transfers
      refine hborrow.bind fun c => ?_
      -- one case for each by-copy class, in the order in which they are asked for
      split
      · exact (certify_transfers o .string Payload.string?).bind fun _ => .pure _ rfl
      split
      · exact (certify_transfers o .blob Payload.blob?).bind fun _ => .pure _ rfl
      split
      · exact (certify_transfers o .byteBuf Payload.byteBuf?).bind fun _ => .pure _ rfl
      split
      · exact (VectorObj.elements_transfers o).bind fun elems => elementsToHost_transfers ih elems
      split
      · exact (HashObj.entries_transfers o).bind fun entries => entriesToHost_transfers ih entries
      split
      · exact (certify_transfers o .float Payload.float?).bind fun _ => .pure _ rfl
      split
      · exact (certify_transfers o .boolean Payload.boolean?).bind fun _ => .pure _ rfl
      split
      · exact (certify_transfers o .integer Payload.integer?).bind fun _ => .pure _ rfl
      · refine (share_succeeds o).transfers.bind fun p => ?_
        exact ((dispatch_transfers p).weaken (Multiset.zero_subset _)).bind fun _ => .pure _ rfl

theorem foreignToHost_transfers (o : Option ObjId) :
    Transfers o.toList 0 (foreignToHost o) (fun v => v.claims) :=
  fun b F hB hb => toHostWithin_transfers b.heap.slots.length o b F hB hb

/-! ## Containers with host values as elements -/

/-- An element is converted and handed over to a container. -/
theorem putValue_transfers {o : ObjId} {put : Option ObjId → Run Unit} (v : Value)
    (hput : ∀ elem : Option ObjId, Transfers {o} elem.toList (put elem) (fun _ => 0)) :
    Transfers ({o} + v.claims) 0 (do
      match ← hostToForeign v none true with
      | .ok elem => return .ok (← put elem)
      | .error e => return .error e) (fun _ : Except ConversionError Unit => 0) := by
  refine ((hostToForeign_transfers v none true).weaken (subset_add_right _ _)).bind fun result => ?_
  cases result with
  | ok elem =>
    refine ((hput elem).weaken (Multiset.subset_of_le (Multiset.le_add_right _ _))).bind fun _ =>
      .pure _ rfl
  | error e => exact .pure _ rfl

/-- An element that was taken out is converted and given up. -/
theorem takeValue_transfers {o : ObjId} {take : Run (Option ObjId)}
    (htake : Transfers {o} 0 take (fun e => e.toList)) :
    Transfers {o} 0 (do
      let elem ← take
      withClaims elem.toList (foreignToHost elem)) (fun v => v.claims) := by
  refine htake.bind fun elem => Transfers.lend _ ?_
  exact (foreignToHost_transfers elem).weaken (Multiset.subset_of_le (Multiset.le_add_right _ _))

end ObjectBridge
