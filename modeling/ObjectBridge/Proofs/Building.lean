import ObjectBridge.Proofs.HeapGrowth
import ObjectBridge.Proofs.ValueEquality

set_option autoImplicit false

/-!
# Building the foreign form of a value (SPEC §4.3)

Converting a value to an object puts new objects at the end of the heap and takes one claim more on
each object in the value; nothing else on the heap changes.  `Value.forms` lists the new objects,
and the theorems say that a conversion builds just these.
-/

namespace ObjectBridge

/-! ## The objects that a value needs -/

namespace Value

mutual

/-- The number of objects that the foreign form of a value needs. -/
def size : Value → Nat
  | null => 0
  | bool _ => 0
  | object _ => 0
  | seq items => 1 + sizeOfItems items
  | map entries => 1 + sizeOfEntries entries
  | _ => 1

/-- The number of objects for some values. -/
def sizeOfItems : List Value → Nat
  | [] => 0
  | v :: rest => size v + sizeOfItems rest

/-- The number of objects for some entries, each with an object for its key. -/
def sizeOfEntries : List (String × Value) → Nat
  | [] => 0
  | (_, v) :: rest => size v + 1 + sizeOfEntries rest

end

/-- The object that stands for a value, if the objects that it needs start at the identity `k`.  The
objects for false and true are given. -/
def root (truths : ObjId × ObjId) (k : Nat) : Value → Option ObjId
  | null => none
  | bool b => some (if b then truths.2 else truths.1)
  | object h => some h.obj
  | _ => some ⟨k⟩

/-- The objects that stand for some values. -/
def itemRoots (truths : ObjId × ObjId) : Nat → List Value → List (Option ObjId)
  | _, [] => []
  | k, v :: rest => v.root truths k :: itemRoots truths (k + v.size) rest

/-- The keys of some entries with the objects that stand for them; the object of a key comes after
those of its value. -/
def entryRoots (truths : ObjId × ObjId) : Nat → List (String × Value) → List (String × HashEntry)
  | _, [] => []
  | k, (key, v) :: rest =>
    (key, ⟨⟨k + v.size⟩, v.root truths k⟩) :: entryRoots truths (k + v.size + 1) rest

end Value

/-- The buckets after adding some entries, each under the checksum of its key. -/
def Buckets.addAll (sum : String → UInt64) (b : Buckets) (es : List (String × HashEntry)) :
    Buckets :=
  es.foldl (fun b e => b.add (sum e.1) e.2) b

/-- The entries of a hash that was filled, in whatever order it lists them. -/
theorem Buckets.coe_entries_addAll (sum : String → UInt64) (b : Buckets)
    (es : List (String × HashEntry)) :
    ((b.addAll sum es).entries : Multiset HashEntry) =
      b.entries + (es.map Prod.snd : List HashEntry) := by
  induction es generalizing b with
  | nil => simp [addAll]
  | cons e rest ih =>
    have hstep : ((b.add (sum e.1) e.2).entries : Multiset HashEntry) = b.entries + {e.2} :=
      members_add b _ _
    change (((b.add (sum e.1) e.2).addAll sum rest).entries : Multiset HashEntry) = _
    rw [ih, hstep, add_assoc, Multiset.singleton_add, List.map_cons, Multiset.cons_coe]

theorem Buckets.perm_entries_addAll (sum : String → UInt64) (es : List (String × HashEntry)) :
    ((empty.addAll sum es).entries).Perm (es.map Prod.snd) := by
  have hentries := coe_entries_addAll sum empty es
  change _ = (0 : Multiset HashEntry) + _ at hentries
  rw [zero_add] at hentries
  exact Multiset.coe_eq_coe.mp hentries

theorem Buckets.perm_claims_addAll (sum : String → UInt64) (es : List (String × HashEntry)) :
    ((empty.addAll sum es).claims).Perm (es.flatMap fun e => e.2.claims) := by
  have hperm := (perm_entries_addAll sum es).flatMap_right HashEntry.claims
  rwa [List.flatMap_map] at hperm

namespace Value

variable (truths : ObjId × ObjId) (sum : String → UInt64)

mutual

/-- The objects that the foreign form of a value needs, in the order of their identities from `k`
on. -/
def forms : Nat → Value → List Obj
  | _, null => []
  | _, bool _ => []
  | _, object _ => []
  | _, int n => [⟨.integer, 1, .integer n⟩]
  | _, float bits => [⟨.float, 1, .float bits⟩]
  | _, text s => [⟨.string, 1, .string s⟩]
  | _, bytes b => [⟨.blob, 1, .blob b⟩]
  | k, seq items =>
    ⟨.vector, 1, .vector (itemRoots truths (k + 1) items)⟩ :: formsOfItems (k + 1) items
  | k, map entries =>
    ⟨.hash, 1, .hash (Buckets.empty.addAll sum (entryRoots truths (k + 1) entries))⟩ ::
      formsOfEntries (k + 1) entries

/-- The objects for some values. -/
def formsOfItems : Nat → List Value → List Obj
  | _, [] => []
  | k, v :: rest => forms k v ++ formsOfItems (k + v.size) rest

/-- The objects for some entries. -/
def formsOfEntries : Nat → List (String × Value) → List Obj
  | _, [] => []
  | k, (key, v) :: rest =>
    forms k v ++ ⟨.string, 1, .string key⟩ :: formsOfEntries (k + v.size + 1) rest

end

variable {truths sum}

theorem length_formsOfItems {items : List Value}
    (hi : ∀ v ∈ items, ∀ k, (forms truths sum k v).length = v.size) (k : Nat) :
    (formsOfItems truths sum k items).length = sizeOfItems items := by
  induction items generalizing k with
  | nil => rfl
  | cons v rest ih =>
    rw [formsOfItems, List.length_append, hi v List.mem_cons_self, ih fun w hw =>
      hi w (List.mem_cons_of_mem v hw)]
    rfl

theorem length_formsOfEntries {entries : List (String × Value)}
    (he : ∀ e ∈ entries, ∀ k, (forms truths sum k e.2).length = e.2.size) (k : Nat) :
    (formsOfEntries truths sum k entries).length = sizeOfEntries entries := by
  induction entries generalizing k with
  | nil => rfl
  | cons e rest ih =>
    obtain ⟨key, v⟩ := e
    rw [formsOfEntries, List.length_append, he (key, v) List.mem_cons_self, List.length_cons,
      ih fun w hw => he w (List.mem_cons_of_mem _ hw), sizeOfEntries]
    dsimp only
    omega

@[simp]
theorem length_forms (v : Value) (k : Nat) : (forms truths sum k v).length = v.size := by
  induction v using Value.induction generalizing k with
  | seq items ih =>
    rw [forms, List.length_cons, length_formsOfItems ih, size, add_comm]
  | map entries ih =>
    rw [forms, List.length_cons, length_formsOfEntries ih, size, add_comm]
  | null => rfl
  | bool b => rfl
  | int n => rfl
  | float bits => rfl
  | text s => rfl
  | bytes b => rfl
  | object h => rfl

/-- Sequences in the value have lengths that storage can have. -/
inductive Fits : Value → Prop
  | null : Fits .null
  | bool (b : Bool) : Fits (.bool b)
  | int (n : Int64) : Fits (.int n)
  | float (bits : UInt64) : Fits (.float bits)
  | text (s : String) : Fits (.text s)
  | bytes (b : List UInt8) : Fits (.bytes b)
  | seq {items : List Value} (hlen : items.length ≤ VectorObj.maxSize)
    (hitems : ∀ v ∈ items, Fits v) :
    Fits (.seq items)
  | map {entries : List (String × Value)} (hentries : ∀ e ∈ entries, Fits e.2) : Fits (.map entries)
  | object (h : HostRef) : Fits (.object h)

/-- What every value of the host is like: maps have distinct keys, and sequences fit into storage.
-/
structure WellFormed (v : Value) : Prop where
  distinct : v.Distinct
  fits : v.Fits

theorem WellFormed.item {items : List Value} (hv : (seq items).WellFormed) {v : Value}
    (hm : v ∈ items) :
    v.WellFormed := by
  obtain ⟨hd, hf⟩ := hv
  cases hd with
  | seq hdistinct =>
    cases hf with
    | seq _ hfits => exact ⟨hdistinct v hm, hfits v hm⟩

theorem WellFormed.entry {entries : List (String × Value)} (hv : (map entries).WellFormed)
    {e : String × Value} (hm : e ∈ entries) : e.2.WellFormed := by
  obtain ⟨hd, hf⟩ := hv
  cases hd with
  | map _ hdistinct =>
    cases hf with
    | map hfits => exact ⟨hdistinct e hm, hfits e hm⟩

theorem WellFormed.length_le {items : List Value} (hv : (seq items).WellFormed) :
    items.length ≤ VectorObj.maxSize := by
  cases hv.fits with
  | seq hlen _ => exact hlen

theorem WellFormed.nodup {entries : List (String × Value)} (hv : (map entries).WellFormed) :
    (Assoc.keys entries).Nodup := by
  cases hv.distinct with
  | map hkeys _ => exact hkeys

end Value

/-! ## States in which a value can be built -/

/-- There is an object under the identity whose class descends from the base class. -/
def Heap.RootedAt (h : Heap) (o : ObjId) : Prop := ∃ x, h.get? o = some x ∧ x.cls.Rooted

namespace Heap

variable {h : Heap} {o : ObjId}

theorem RootedAt.used (hr : h.RootedAt o) : h.Used o := by
  obtain ⟨x, hx, -⟩ := hr
  exact used_of_get? hx

theorem RootedAt.append (hr : h.RootedAt o) (xs : List Obj) : (h.append xs).RootedAt o := by
  obtain ⟨x, hx, hc⟩ := hr
  exact ⟨x, by rw [get?_append_old (used_of_get? hx), hx], hc⟩

theorem RootedAt.setPayload (hr : h.RootedAt o) (p : ObjId) (q : Payload) :
    (h.setPayload p q).RootedAt o := by
  obtain ⟨x, hx, hc⟩ := hr
  unfold RootedAt
  rw [get?_setPayload]
  split
  · rename_i hop
    subst hop
    rw [hx]
    exact ⟨_, rfl, hc⟩
  · exact ⟨x, hx, hc⟩

theorem RootedAt.retainAll (hr : h.RootedAt o) (claims : List ObjId) :
    (h.retainAll claims).RootedAt o := by
  obtain ⟨x, hx, hc⟩ := hr
  refine ⟨Obj.retained^[claims.count o] x, by rw [get?_retainAll, hx, Option.map_some], ?_⟩
  rw [cls_iterate_retained]
  exact hc

end Heap

namespace Bridge

variable {b : Bridge} {t : ObjId × ObjId} {claims : List ObjId}

/-- The bridge with another heap and another peak in its ledger. -/
def grown (b : Bridge) (h : Heap) (peak : Nat) : Bridge :=
  { b with heap := h, ledger := { b.ledger with peak := peak } }

/-- The bridge has been started, and the objects for truth values and those to be claimed are there.
-/
structure Prepared (b : Bridge) (t : ObjId × ObjId) (claims : List ObjId) : Prop where
  started : b.started = true
  truths : b.truths = some t
  no : b.heap.RootedAt t.1
  yes : b.heap.RootedAt t.2
  claims : ∀ o ∈ claims, b.heap.RootedAt o

/-- The objects that the host holds may be claimed in an accounted state. -/
theorem Books.prepared {host : Multiset ObjId} (hb : b.Books host) (hu : b.Bounded)
    (ht : b.truths = some t) (hheld : ∀ o ∈ claims, o ∈ host) : b.Prepared t claims := by
  have hs := hb.sound hu
  obtain ⟨no, yes, heq, ⟨x, hx, -⟩, ⟨y, hy, -⟩⟩ := hs.truths
  rw [ht] at heq
  cases heq
  refine ⟨hb.started, ht, ⟨x, hx, hs.rooted no x hx⟩, ⟨y, hy, hs.rooted yes y hy⟩, fun o ho => ?_⟩
  obtain ⟨z, hz⟩ := hb.live (hheld o ho) hu
  exact ⟨z, hz, hs.rooted o z hz⟩

theorem Prepared.subset {more : List ObjId} (hb : b.Prepared t more) (hs : ∀ o ∈ claims, o ∈ more) :
    b.Prepared t claims :=
  ⟨hb.started, hb.truths, hb.no, hb.yes, fun o ho => hb.claims o (hs o ho)⟩

theorem Prepared.append (hb : b.Prepared t claims) (xs : List Obj) :
    { b with heap := b.heap.append xs }.Prepared t claims :=
  ⟨hb.started, hb.truths, hb.no.append xs, hb.yes.append xs, fun p hp => (hb.claims p hp).append xs⟩

/-- Building one value and putting it into a container leaves what is needed for the next one. -/
theorem Prepared.next (hb : b.Prepared t claims) (more : List ObjId) (xs : List Obj) (o : ObjId)
    (q : Payload) (peak : Nat) :
    (b.grown (((b.heap.retainAll more).append xs).setPayload o q) peak).Prepared t claims :=
  have hnext : ∀ {p}, b.heap.RootedAt p →
      (((b.heap.retainAll more).append xs).setPayload o q).RootedAt p :=
    fun hp => ((hp.retainAll more).append xs).setPayload o q
  ⟨hb.started, hb.truths, hnext hb.no, hnext hb.yes, fun p hp => hnext (hb.claims p hp)⟩

end Bridge

/-! ## Calls on objects that are known -/

section Known

variable {α : Type} {b : Bridge} {o : ObjId} {x : Obj} {c : Class} {bad : Unwind → Bridge → Prop}

theorem ends_readObj_known (hx : b.heap.get? o = some x) {ok : Obj → Bridge → Prop} :
    Ends (readObj o) b ok bad ↔ ok x b := by
  unfold readObj
  rw [ends_bind, ends_get, hx]
  exact Iff.rfl

theorem ends_certify_known (hx : b.heap.get? o = some x) (hc : x.cls.isSubclassOf c = true)
    {view : Payload → Option α} {a : α} (hv : view x.payload = some a) {ok : α → Bridge → Prop} :
    Ends (certify o c view) b ok bad ↔ ok a b := by
  unfold certify
  rw [ends_bind, ends_readObj_known hx, if_pos hc, hv]
  exact Iff.rfl

theorem ends_checkClass_known (hx : b.heap.get? o = some x) (hc : x.cls.isSubclassOf c = true)
    {ok : Except ConversionError Unit → Bridge → Prop} :
    Ends (checkClass o c) b ok bad ↔ ok (.ok ()) b := by
  unfold checkClass classOf
  rw [ends_bind, ends_bind, ends_readObj_known hx, ends_pure, if_pos hc]
  exact Iff.rfl

theorem ends_deliver_known (hx : b.heap.get? o = some x) (hc : x.cls.isSubclassOf c = true)
    {ok : Except ConversionError (Option ObjId) → Bridge → Prop} :
    Ends (deliver o c) b ok bad ↔ ok (.ok (some o)) b := by
  unfold deliver
  rw [ends_bind, ends_checkClass_known hx hc]
  exact Iff.rfl

theorem ends_checkClass_other (hx : b.heap.get? o = some x) (hc : x.cls.isSubclassOf c = false)
    {ok : Except ConversionError Unit → Bridge → Prop} :
    Ends (checkClass o c) b ok bad ↔ ok (.error (.classMismatch x.cls.name c.name)) b := by
  unfold checkClass classOf
  rw [ends_bind, ends_bind, ends_readObj_known hx, ends_pure, hc]
  exact Iff.rfl

/-- An object of the wrong class is given up. -/
theorem ends_deliver_other (hx : b.heap.get? o = some x) (hc : x.cls.isSubclassOf c = false)
    {ok : Except ConversionError (Option ObjId) → Bridge → Prop} :
    Ends (deliver o c) b ok bad ↔
      Ends (releaseAll [o]) b
        (fun _ b' => ok (.error (.classMismatch x.cls.name c.name)) b') bad := by
  unfold deliver
  rw [ends_bind, ends_checkClass_other hx hc, ends_bind]
  exact Iff.rfl

theorem ends_adopt (hs : b.started = true) {ok : ObjId → Bridge → Prop} :
    Ends (adopt o) b ok bad ↔ ok o b := by
  unfold adopt
  rw [ends_bind, ends_start hs]
  exact Iff.rfl

/-- Claiming a known object raises its count, and perhaps the peak. -/
theorem ends_retain_known (hx : b.heap.get? o = some x) {ok : Unit → Bridge → Prop} :
    Ends (retain o) b ok bad ↔ ok () (b.grown (b.heap.retain o) (x.peakAfter b.ledger.peak)) := by
  have hledger : b.ledger.noteClaim x = { b.ledger with peak := x.peakAfter b.ledger.peak } := by
    unfold Ledger.noteClaim Obj.peakAfter
    split <;> rfl
  unfold retain
  rw [ends_bind, ends_readObj_known hx, ends_modify, hledger]
  exact Iff.rfl

theorem ends_share_known (hs : b.started = true) (hx : b.heap.get? o = some x)
    {ok : ObjId → Bridge → Prop} :
    Ends (share o) b ok bad ↔ ok o (b.grown (b.heap.retain o) (x.peakAfter b.ledger.peak)) := by
  unfold share
  rw [ends_bind, ends_retain_known hx]
  exact ends_adopt (by exact hs)

theorem ends_push_known (hx : b.heap.get? o = some x) (hc : x.cls.isSubclassOf .vector = true)
    {es : List (Option ObjId)} (hp : x.payload = .vector es) (elem : Option ObjId)
    {ok : Unit → Bridge → Prop} :
    Ends (VectorObj.push o elem) b ok bad ↔
      ok () { b with heap := b.heap.setPayload o (.vector (es ++ [elem])) } := by
  have hv : x.payload.vector? = some es := by rw [hp]; rfl
  unfold VectorObj.push VectorObj.slots
  rw [ends_bind, ends_losing, ends_certify_known hx hc hv]
  exact Iff.rfl

/-- Storing under a key that is not bound. -/
theorem ends_store_known (hx : b.heap.get? o = some x) (hc : x.cls.isSubclassOf .hash = true)
    {inside : Buckets} (hp : x.payload = .hash inside) {key : String}
    (hf : HashObj.find? b inside key = none) (value : Option ObjId) {ok : Unit → Bridge → Prop} :
    Ends (HashObj.store o key value) b ok bad ↔
      ok () { b with
        heap := (b.heap.append [⟨.string, 1, .string key⟩]).setPayload o
          (.hash (inside.add (b.keySum key) ⟨b.heap.next, value⟩)) } := by
  have hv : x.payload.hash? = some inside := by rw [hp]; rfl
  unfold HashObj.store HashObj.buckets StringObj.new
  rw [ends_bind, ends_losing, ends_certify_known hx hc hv, ends_bind, ends_get, hf, ends_bind,
    ends_makeObj (by rfl)]
  exact Iff.rfl

end Known

/-! ## Building -/

section Build

variable {b : Bridge} {t : ObjId × ObjId} {bad : Unwind → Bridge → Prop}

/-- The bridge after the foreign form of a value has been built. -/
def Bridge.built (b : Bridge) (t : ObjId × ObjId) (v : Value) : Bridge :=
  b.grown ((b.heap.retainAll v.claims).append (v.forms t b.keySum b.heap.slots.length))
    (b.heap.claimPeak b.ledger.peak v.claims)

/-- Converted without conditions, the value becomes the object that stands for it, and the heap
grows by its objects. -/
def Builds (v : Value) : Prop :=
  ∀ (b : Bridge) (t : ObjId × ObjId), b.Prepared t v.claims →
    ∀ (ok : Except ConversionError (Option ObjId) → Bridge → Prop) (bad : Unwind → Bridge → Prop),
      ok (.ok (v.root t b.heap.slots.length)) (b.built t v) →
      Ends (hostToForeign v none true) b ok bad

theorem length_built (v : Value) :
    (b.built t v).heap.slots.length = b.heap.slots.length + v.size := by
  unfold Bridge.built Bridge.grown
  rw [Heap.length_append, Heap.length_retainAll, Value.length_forms]

theorem get?_built {v : Value} {o : ObjId} (hu : b.heap.Used o) :
    (b.built t v).heap.get? o = (b.heap.get? o).map (Obj.retained^[v.claims.count o]) := by
  unfold Bridge.built Bridge.grown
  rw [Heap.get?_append_old ((Heap.used_retainAll _ _ _).mpr hu), Heap.get?_retainAll]

theorem get?_built_new (v : Value) (i : Nat) :
    (b.built t v).heap.get? ⟨b.heap.slots.length + i⟩ =
      (v.forms t b.keySum b.heap.slots.length)[i]? := by
  unfold Bridge.built Bridge.grown
  rw [Heap.get?_append, Heap.length_retainAll, if_neg (by simp), Nat.add_sub_cancel_left]

theorem hasText_built {v : Value} {o : ObjId} (hu : b.heap.Used o) (key : String) :
    (b.built t v).heap.hasText key o = b.heap.hasText key o := by
  unfold Bridge.built Bridge.grown
  rw [Heap.hasText_append ((Heap.used_retainAll _ _ _).mpr hu), Heap.hasText_retainAll]

/-- Objects that are put at the end and containers that are filled do not change the counts of
others. -/
theorem claimPeak_next {h : Heap} {claims more : List ObjId} {xs : List Obj} {o : ObjId}
    {q : Payload} {peak : Nat} (hmore : ∀ p ∈ more, h.Used p) :
    (((h.retainAll claims).append xs).setPayload o q).claimPeak peak more =
      (h.retainAll claims).claimPeak peak more := by
  refine Heap.claimPeak_congr (fun p hp => ?_) peak
  rw [Heap.tally_setPayload, Heap.tally_append ((Heap.used_retainAll _ _ _).mpr (hmore p hp))]

/-- A vector is filled with the objects that stand for some values. -/
theorem ends_fillVector {items : List Value} (hitems : ∀ v ∈ items, Builds v)
    {vec : ObjId} {x : Obj} {es : List (Option ObjId)}
    (hb : b.Prepared t (Value.claimsOfItems items)) (hx : b.heap.get? vec = some x)
    (hc : x.cls.isSubclassOf .vector = true) (hp : x.payload = .vector es)
    {ok : Except ConversionError Unit → Bridge → Prop} (hok : ok (.ok ()) (b.grown
      (((b.heap.setPayload vec
        (.vector (es ++ Value.itemRoots t b.heap.slots.length items))).retainAll
        (Value.claimsOfItems items)).append
        (Value.formsOfItems t b.keySum b.heap.slots.length items))
      (b.heap.claimPeak b.ledger.peak (Value.claimsOfItems items)))) :
    Ends (fillVector vec items) b ok bad := by
  induction items generalizing b x es with
  | nil =>
    unfold fillVector
    rw [Value.itemRoots, List.append_nil, Heap.setPayload_self hx hp, Value.claimsOfItems,
      Value.formsOfItems, Heap.append_nil] at hok
    exact hok
  | cons v rest ih =>
    have hvec : b.heap.Used vec := Heap.used_of_get? hx
    have hmore : ∀ p ∈ Value.claimsOfItems rest, b.heap.Used p :=
      fun p hp => (hb.claims p (List.mem_append_right _ hp)).used
    unfold fillVector
    rw [ends_bind]
    refine hitems v List.mem_cons_self b t (hb.subset fun o ho => List.mem_append_left _ ho) _ _ ?_
    have hx' : (b.built t v).heap.get? vec = some (Obj.retained^[v.claims.count vec] x) := by
      rw [get?_built hvec, hx, Option.map_some]
    rw [ends_bind, ends_push_known hx' (by rw [Heap.cls_iterate_retained, hc])
      (by rw [Heap.payload_iterate_retained, hp])]
    have hlen :
        ((b.built t v).heap.setPayload vec
          (.vector (es ++ [v.root t b.heap.slots.length]))).slots.length =
        b.heap.slots.length + v.size := by
      rw [Heap.length_setPayload, length_built]
    have hpeak :
        ((b.built t v).heap.setPayload vec
          (.vector (es ++ [v.root t b.heap.slots.length]))).claimPeak
        (b.heap.claimPeak b.ledger.peak v.claims) (Value.claimsOfItems rest) =
          b.heap.claimPeak b.ledger.peak (v.claims ++ Value.claimsOfItems rest) := by
      rw [Heap.claimPeak_append]
      exact claimPeak_next hmore
    refine ih (fun w hw => hitems w (List.mem_cons_of_mem v hw))
      ((hb.next _ _ _ _ _).subset fun o ho => List.mem_append_right _ ho)
      (by rw [Heap.get?_setPayload, if_pos rfl, hx']; rfl)
      (by exact (Heap.cls_iterate_retained x _).symm ▸ hc) rfl ?_
    rw [Value.itemRoots, Value.claimsOfItems, Value.formsOfItems, ← Heap.append_append,
      List.append_cons, ← Heap.fill_step
      (q := .vector (es ++ [v.root t b.heap.slots.length])) hvec hmore, ← hlen, ← hpeak] at hok
    exact hok

/-- None of the keys in the buckets has one of the texts. -/
def Heap.Lacks (h : Heap) (inside : Buckets) (keys : List String) : Prop :=
  ∀ d ∈ inside.entries, h.Used d.key ∧ ∀ key ∈ keys, h.hasText key d.key = false

/-- A key that is put into a hash, after the objects for its value, has none of the texts that are
still to come. -/
theorem Heap.Lacks.next {h : Heap} {inside : Buckets} {key : String} {keys : List String}
    (hl : h.Lacks inside (key :: keys)) (hfresh : key ∉ keys) (claims : List ObjId) (xs : List Obj)
    (hash : ObjId) (sum : UInt64) (value : Option ObjId) (inside' : Buckets) :
    (((h.retainAll claims).append (xs ++ [⟨.string, 1, .string key⟩])).setPayload hash
      (.hash inside')).Lacks
      (inside.add sum ⟨⟨h.slots.length + xs.length⟩, value⟩) keys := by
  have hlen : (((h.retainAll claims).append (xs ++ [⟨.string, 1, .string key⟩])).setPayload hash
      (.hash inside')).slots.length = h.slots.length + xs.length + 1 := by
    rw [length_setPayload, length_append, length_retainAll, List.length_append,
      List.length_singleton, add_assoc]
  have hnew : ((h.retainAll claims).append (xs ++ [⟨.string, 1, .string key⟩])).get?
      ⟨h.slots.length + xs.length⟩ =
      some ⟨.string, 1, .string key⟩ := by
    rw [get?_append, length_retainAll, if_neg (by simp)]
    simp
  intro d hd
  unfold Used
  rw [hlen]
  rcases Buckets.mem_entries_add.mp hd with hin | rfl
  · obtain ⟨hused, htext⟩ := hl d hin
    refine ⟨Nat.lt_add_right 1 (Nat.lt_add_right xs.length hused), fun k hk =>
      hasText_setPayload rfl ?_ hash⟩
    rw [hasText_append ((used_retainAll _ _ _).mpr hused), hasText_retainAll]
    exact htext k (List.mem_cons_of_mem key hk)
  · refine ⟨Nat.lt_succ_self _, fun k hk => hasText_setPayload rfl ?_ hash⟩
    have hne : key ≠ k := fun heq => hfresh (heq ▸ hk)
    unfold hasText
    rw [hnew]
    simpa [Payload.string?] using hne

/-- A hash is filled with the objects that stand for some entries.  As the keys are distinct, none
of them is found in the hash before it is stored, whatever the checksums. -/
theorem ends_fillHash {entries : List (String × Value)} (hentries : ∀ e ∈ entries, Builds e.2)
    (hnodup : (Assoc.keys entries).Nodup) {hash : ObjId} {x : Obj} {inside : Buckets}
    (hb : b.Prepared t (Value.claimsOfEntries entries)) (hx : b.heap.get? hash = some x)
    (hc : x.cls.isSubclassOf .hash = true) (hp : x.payload = .hash inside)
    (hkeys : b.heap.Lacks inside (Assoc.keys entries))
    {ok : Except ConversionError Unit → Bridge → Prop} (hok : ok (.ok ()) (b.grown
      (((b.heap.setPayload hash (.hash (inside.addAll b.keySum
        (Value.entryRoots t b.heap.slots.length entries)))).retainAll
        (Value.claimsOfEntries entries)).append
          (Value.formsOfEntries t b.keySum b.heap.slots.length entries))
      (b.heap.claimPeak b.ledger.peak (Value.claimsOfEntries entries)))) :
    Ends (fillHash hash entries) b ok bad := by
  induction entries generalizing b x inside with
  | nil =>
    unfold fillHash
    rw [Value.entryRoots, Buckets.addAll, List.foldl_nil, Heap.setPayload_self hx hp,
      Value.claimsOfEntries, Value.formsOfEntries, Heap.append_nil] at hok
    exact hok
  | cons e rest ih =>
    obtain ⟨key, v⟩ := e
    obtain ⟨hfresh, hrest⟩ := List.nodup_cons.mp hnodup
    have hhash : b.heap.Used hash := Heap.used_of_get? hx
    have hmore : ∀ p ∈ Value.claimsOfEntries rest, b.heap.Used p :=
      fun p hp => (hb.claims p (List.mem_append_right _ hp)).used
    unfold fillHash
    rw [ends_bind]
    refine hentries (key, v) List.mem_cons_self b t
      (hb.subset fun o ho => List.mem_append_left _ ho) _ _ ?_
    have hx' : (b.built t v).heap.get? hash = some (Obj.retained^[v.claims.count hash] x) := by
      rw [get?_built hhash, hx, Option.map_some]
    have hfind : HashObj.find? (b.built t v) inside key = none := by
      refine Buckets.find?_eq_none fun d hd => ?_
      obtain ⟨hused, htext⟩ := hkeys d hd
      rw [hasText_built hused]
      exact htext key List.mem_cons_self
    rw [ends_bind, ends_store_known hx' (by rw [Heap.cls_iterate_retained, hc])
      (by rw [Heap.payload_iterate_retained, hp]) hfind]
    -- the heap as it is now: the objects for the value, and then the one for the key
    have hheap : (b.built t v).heap.append [⟨.string, 1, .string key⟩] =
        (b.heap.retainAll v.claims).append
        (v.forms t b.keySum b.heap.slots.length ++ [⟨.string, 1, .string key⟩]) :=
      Heap.append_append _ _ _
    have hnext : (b.built t v).heap.next = ⟨b.heap.slots.length + v.size⟩ := by
      unfold Heap.next
      rw [length_built]
    have hlacks :=
      hkeys.next hfresh v.claims (v.forms t b.keySum b.heap.slots.length) hash (b.keySum key)
      (v.root t b.heap.slots.length)
      (inside.add (b.keySum key) ⟨⟨b.heap.slots.length + v.size⟩, v.root t b.heap.slots.length⟩)
    rw [Value.length_forms] at hlacks
    rw [hheap, hnext]
    generalize hxs : v.forms t b.keySum b.heap.slots.length ++ [⟨.string, 1, .string key⟩] =
      xs at hlacks ⊢
    have hlen : ∀ q, (((b.heap.retainAll v.claims).append xs).setPayload hash q).slots.length =
        b.heap.slots.length + v.size + 1 := by
      intro q
      rw [Heap.length_setPayload, Heap.length_append, Heap.length_retainAll, ← hxs,
        List.length_append, Value.length_forms, List.length_singleton, add_assoc]
    have hx'' : ((b.heap.retainAll v.claims).append xs).get? hash =
        some (Obj.retained^[v.claims.count hash] x) := by
      rw [Heap.get?_append_old ((Heap.used_retainAll _ _ _).mpr hhash), Heap.get?_retainAll, hx,
        Option.map_some]
    refine ih (fun w hw => hentries w (List.mem_cons_of_mem _ hw)) hrest
      ((hb.next _ _ _ _ _).subset fun o ho => List.mem_append_right _ ho)
      (by rw [Heap.get?_setPayload, if_pos rfl, hx'']; rfl)
      (by exact (Heap.cls_iterate_retained x _).symm ▸ hc) rfl
      hlacks ?_
    rw [Value.entryRoots, Value.claimsOfEntries, Value.formsOfEntries, List.append_cons, hxs,
      ← Heap.append_append, ← Heap.fill_step hhash hmore, ← hlen, Heap.claimPeak_append,
      ← claimPeak_next hmore] at hok
    exact hok

/-- Converting the value builds its foreign form and then delivers the object that stands for it. -/
def Creates (v : Value) : Prop :=
  ∀ (b : Bridge) (t : ObjId × ObjId), b.Prepared t v.claims →
    ∀ (required : Option Class) (nullable : Bool) (ok : Except ConversionError (Option ObjId) →
      Bridge → Prop)
      (bad : Unwind → Bridge → Prop) (o : ObjId), v.root t b.heap.slots.length = some o →
        Ends (deliver o (required.getD .obj)) (b.built t v) ok bad →
        Ends (hostToForeign v required nullable) b ok bad

/-- A single new object is made, adopted and delivered. -/
theorem ends_deliver_made (hs : b.started = true) {c : Class} {q : Payload}
    (hsize : c.size = q.layout.size) {required : Class}
    {ok : Except ConversionError (Option ObjId) → Bridge → Prop} :
    Ends (do start; deliver (← adopt (← makeObj c q)) required) b ok bad ↔
      Ends (deliver b.heap.next required) { b with heap := b.heap.append [⟨c, 1, q⟩] } ok bad := by
  rw [ends_bind, ends_start hs, ends_bind, ends_makeObj hsize, ends_bind, ends_adopt (by exact hs)]
  exact Iff.rfl

theorem creates_bool (x : Bool) : Creates (.bool x) := by
  intro b t hb required nullable ok bad o ho hd
  unfold hostToForeign truth
  rw [ends_bind, ends_start hb.started, ends_bind, ends_bind, ends_get, hb.truths]
  rw [ends_pure, ends_bind, ends_adopt hb.started]
  rw [Value.root, Option.some_inj] at ho
  rw [← ho] at hd
  unfold Bridge.built at hd
  rw [Value.forms, Heap.append_nil] at hd
  exact hd

theorem creates_int (n : Int64) : Creates (.int n) := by
  intro b t hb required nullable ok bad o ho hd
  unfold hostToForeign IntegerObj.new
  cases ho
  exact (ends_deliver_made hb.started rfl).mpr hd

theorem creates_float (bits : UInt64) : Creates (.float bits) := by
  intro b t hb required nullable ok bad o ho hd
  unfold hostToForeign FloatObj.new
  cases ho
  exact (ends_deliver_made hb.started rfl).mpr hd

theorem creates_text (s : String) : Creates (.text s) := by
  intro b t hb required nullable ok bad o ho hd
  unfold hostToForeign StringObj.new
  cases ho
  exact (ends_deliver_made hb.started rfl).mpr hd

theorem creates_bytes (bytes : List UInt8) : Creates (.bytes bytes) := by
  intro b t hb required nullable ok bad o ho hd
  unfold hostToForeign BlobObj.new
  cases ho
  exact (ends_deliver_made hb.started rfl).mpr hd

/-- The heap after a container has been made, filled with claims `claims` and objects `xs`, and
given the content `q`. -/
theorem filled_heap {h : Heap} {claims : List ObjId} (hused : ∀ p ∈ claims, h.Used p) (c : Class)
    (q q' : Payload) (xs : List Obj) :
    (((h.append [⟨c, 1, q⟩]).setPayload h.next q').retainAll claims).append xs =
      (h.retainAll claims).append (⟨c, 1, q'⟩ :: xs) := by
  have hset : (h.append [⟨c, 1, q⟩]).setPayload h.next q' = h.append [⟨c, 1, q'⟩] :=
    Heap.setPayload_append_last h ⟨c, 1, q⟩ q'
  rw [hset, Heap.retainAll_append_objs hused, Heap.append_append, List.singleton_append]

theorem get?_append_next (h : Heap) (x : Obj) : (h.append [x]).get? h.next = some x := by
  simp [Heap.get?_append, Heap.next]

/-- A new container is filled with the objects that stand for its members. -/
theorem built_of_filled {v : Value} {c : Class} {q q' : Payload} {xs : List Obj}
    (hforms : v.forms t b.keySum b.heap.slots.length = ⟨c, 1, q'⟩ :: xs)
    (hused : ∀ p ∈ v.claims, b.heap.Used p) :
    { b with heap := b.heap.append [⟨c, 1, q⟩] }.grown
        ((((b.heap.append [⟨c, 1, q⟩]).setPayload b.heap.next q').retainAll v.claims).append xs)
        ((b.heap.append [⟨c, 1, q⟩]).claimPeak b.ledger.peak v.claims) =
      b.built t v := by
  have hpeak : (b.heap.append [⟨c, 1, q⟩]).claimPeak b.ledger.peak v.claims =
      b.heap.claimPeak b.ledger.peak v.claims :=
    Heap.claimPeak_congr (fun p hp => Heap.tally_append (hused p hp) _) _
  unfold Bridge.built
  rw [hforms, filled_heap hused, hpeak]
  rfl

theorem creates_seq {items : List Value} (hlen : items.length ≤ VectorObj.maxSize)
    (hitems : ∀ v ∈ items, Builds v) : Creates (.seq items) := by
  intro b t hb required nullable ok bad o ho hd
  cases ho
  unfold hostToForeign VectorObj.new
  rw [ends_bind, ends_start hb.started, if_neg (not_lt.mpr hlen), ends_bind, ends_makeObj (by rfl),
    ends_bind]
  refine (ends_adopt (by exact hb.started)).mpr ?_
  rw [ends_bind, ends_onUnwind]
  refine ends_fillVector hitems (hb.append [⟨.vector, 1, .vector []⟩])
    (get?_append_next b.heap _) rfl rfl ?_
  rw [← built_of_filled (q := .vector []) rfl fun p hp => (hb.claims p hp).used] at hd
  rw [Heap.length_append]
  exact hd

theorem creates_map {entries : List (String × Value)} (hnodup : (Assoc.keys entries).Nodup)
    (hentries : ∀ e ∈ entries, Builds e.2) : Creates (.map entries) := by
  intro b t hb required nullable ok bad o ho hd
  cases ho
  unfold hostToForeign HashObj.new
  rw [ends_bind, ends_start hb.started, ends_bind, ends_makeObj (by rfl), ends_bind]
  refine (ends_adopt (by exact hb.started)).mpr ?_
  rw [ends_bind, ends_onUnwind]
  refine ends_fillHash hentries hnodup (hb.append [⟨.hash, 1, .hash .empty⟩])
    (get?_append_next b.heap _) rfl rfl
    (fun _ hd => absurd hd List.not_mem_nil) ?_
  rw [← built_of_filled (q := .hash .empty) rfl fun p hp => (hb.claims p hp).used] at hd
  rw [Heap.length_append]
  exact hd

/-- The object that stands for a value is there once it has been built. -/
theorem rootedAt_root {v : Value} {o : ObjId} (hb : b.Prepared t v.claims)
    (ho : v.root t b.heap.slots.length = some o) : (b.built t v).heap.RootedAt o := by
  have hold : ∀ {p}, b.heap.RootedAt p → (b.built t v).heap.RootedAt p :=
    fun hp => (hp.retainAll v.claims).append _
  have hnew : ∀ {x}, (v.forms t b.keySum b.heap.slots.length)[0]? = some x → x.cls.Rooted →
      (b.built t v).heap.RootedAt ⟨b.heap.slots.length⟩ :=
    fun hx hc => ⟨_, (get?_built_new v 0).trans hx, hc⟩
  cases v with
  | null => cases ho
  | bool x =>
    cases x with
    | false =>
      cases ho
      exact hold hb.no
    | true =>
      cases ho
      exact hold hb.yes
  | object h =>
    cases ho
    exact hold (hb.claims h.obj List.mem_cons_self)
  | int n | float bits | text s | bytes bytes | seq items | map entries =>
    cases ho
    exact hnew rfl rfl

theorem Value.exists_root {v : Value} (hnull : v ≠ .null) (t : ObjId × ObjId) (k : Nat) :
    ∃ o, v.root t k = some o := by
  cases v with
  | null => exact absurd rfl hnull
  | bool x => exact ⟨_, rfl⟩
  | object h => exact ⟨_, rfl⟩
  | int n | float bits | text s | bytes bytes | seq items | map entries => exact ⟨_, rfl⟩

theorem Creates.builds {v : Value} (hc : Creates v) (hnull : v ≠ .null) : Builds v := by
  intro b t hb ok bad hok
  obtain ⟨o, ho⟩ := Value.exists_root hnull t b.heap.slots.length
  refine hc b t hb none true ok bad o ho ?_
  obtain ⟨x, hx, hrooted⟩ := rootedAt_root hb ho
  rw [Option.getD_none, ends_deliver_known hx hrooted, ← ho]
  exact hok

theorem builds_null : Builds .null := by
  intro b t hb ok bad hok
  unfold hostToForeign
  rw [ends_bind, ends_start hb.started]
  unfold Bridge.built at hok
  rw [Value.forms, Heap.append_nil] at hok
  exact hok

theorem built_object {h : HostRef} {x : Obj} (hx : b.heap.get? h.obj = some x) :
    b.built t (.object h) = b.grown (b.heap.retain h.obj) (x.peakAfter b.ledger.peak) := by
  unfold Bridge.built
  rw [Value.forms, Heap.append_nil, Value.claims, Heap.claimPeak, Heap.claimPeak, hx]
  rfl

/-- An object is shared if it is of the class that is asked for, and refused otherwise. -/
theorem ends_hostToForeign_object {h : HostRef} {x : Obj} (hs : b.started = true)
    (hx : b.heap.get? h.obj = some x) (required : Option Class) (nullable : Bool)
    {ok : Except ConversionError (Option ObjId) → Bridge → Prop} :
    Ends (hostToForeign (.object h) required nullable) b ok bad ↔
      if x.cls.isSubclassOf (required.getD .obj) then ok (.ok (some h.obj)) (b.built t (.object h))
      else ok (.error (.classMismatch x.cls.name (required.getD .obj).name)) b := by
  unfold hostToForeign
  rw [ends_bind, ends_start hs, ends_bind]
  cases hc : x.cls.isSubclassOf (required.getD .obj) with
  | true =>
    rw [ends_checkClass_known hx hc, ends_bind, ends_share_known hs hx, ← built_object hx]
    exact Iff.rfl
  | false =>
    rw [ends_checkClass_other hx hc]
    exact Iff.rfl

theorem builds_object (h : HostRef) : Builds (.object h) := by
  intro b t hb ok bad hok
  obtain ⟨x, hx, hrooted⟩ := hb.claims h.obj List.mem_cons_self
  have hsub : x.cls.isSubclassOf .obj = true := hrooted
  rw [ends_hostToForeign_object (t := t) hb.started hx, Option.getD_none, if_pos hsub]
  exact hok

/-- Every value is built when it is converted without conditions. -/
theorem builds {v : Value} (hv : v.WellFormed) : Builds v := by
  induction v using Value.induction with
  | null => exact builds_null
  | object h => exact builds_object h
  | bool x => exact (creates_bool x).builds nofun
  | int n => exact (creates_int n).builds nofun
  | float bits => exact (creates_float bits).builds nofun
  | text s => exact (creates_text s).builds nofun
  | bytes bytes => exact (creates_bytes bytes).builds nofun
  | seq items ih => exact (creates_seq hv.length_le fun v hm => ih v hm (hv.item hm)).builds nofun
  | map entries ih => exact (creates_map hv.nodup fun e hm => ih e hm (hv.entry hm)).builds nofun

/-- Whatever class is asked for, every value but null and objects is built and then delivered. -/
theorem creates {v : Value} (hv : v.WellFormed) (hnull : v ≠ .null) (hobj : ∀ h, v ≠ .object h) :
    Creates v := by
  cases v with
  | null => exact absurd rfl hnull
  | object h => exact absurd rfl (hobj h)
  | bool x => exact creates_bool x
  | int n => exact creates_int n
  | float bits => exact creates_float bits
  | text s => exact creates_text s
  | bytes bytes => exact creates_bytes bytes
  | seq items => exact creates_seq hv.length_le fun v hm => builds (hv.item hm)
  | map entries => exact creates_map hv.nodup fun e hm => builds (hv.entry hm)

end Build

/-! ## Building in accounted states -/

namespace Bridge

variable {b : Bridge} {t : ObjId × ObjId} {v : Value} {host : Multiset ObjId}

/-- Converted without conditions, a value becomes the object that stands for it. -/
theorem run_hostToForeign (hb : b.Books host) (hu : b.Bounded) (ht : b.truths = some t)
    (hv : v.WellFormed) (hheld : ∀ o ∈ v.claims, o ∈ host) :
    (hostToForeign v none true).run b =
      (.ok (.ok (v.root t b.heap.slots.length)), b.built t v) := by
  have hends : Ends (hostToForeign v none true) b
      (fun r b' => r = .ok (v.root t b.heap.slots.length) ∧ b' = b.built t v) (fun _ _ => False) :=
    builds hv b t (hb.prepared hu ht hheld) _ _ ⟨rfl, rfl⟩
  obtain ⟨_, _, hrun, rfl, rfl⟩ := hends.returns
  exact hrun

/-- The object that stands for a value is the host's once it has been built. -/
theorem Books.built (hb : b.Books host) (hu : b.Bounded) (ht : b.truths = some t)
    (hv : v.WellFormed) (hheld : ∀ o ∈ v.claims, o ∈ host) :
    (b.built t v).Books ((v.root t b.heap.slots.length).toList + host) := by
  have hends := hostToForeign_transfers v none true b host hheld (by rwa [zero_add])
  exact hends.of_ok (run_hostToForeign hb hu ht hv hheld)

/-- All counts have room for so many claims more. -/
def HasRoomFor (b : Bridge) (more : ObjId → Nat) : Prop :=
  ∀ o x, b.heap.get? o = some x → x.cls.isImmortal = false → x.count.toNat + more o < 2 ^ 32

instance (b : Bridge) (more : ObjId → Nat) : Decidable (b.HasRoomFor more) :=
  decidable_of_iff
    (∀ i < b.heap.slots.length, ∀ x ∈ b.heap.get? ⟨i⟩,
      x.cls.isImmortal = false → x.count.toNat + more ⟨i⟩ < 2 ^ 32)
    ⟨fun h o x hx => h o.index (Heap.used_of_get? hx) x hx, fun h i _ x hx => h ⟨i⟩ x hx⟩

/-- All counts have room for some claims more. -/
def HasRoom (b : Bridge) (claims : List ObjId) : Prop :=
  ∀ o x, b.heap.get? o = some x → x.cls.isImmortal = false → x.count.toNat + claims.count o < 2 ^ 32

instance (b : Bridge) (claims : List ObjId) : Decidable (b.HasRoom claims) :=
  inferInstanceAs (Decidable (b.HasRoomFor claims.count))

theorem Bounded.built (hu : b.Bounded) (hroom : b.HasRoom v.claims) : (b.built t v).Bounded :=
  Heap.claimPeak_lt hu le_rfl hroom

end Bridge

end ObjectBridge
