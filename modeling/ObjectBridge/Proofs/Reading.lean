import ObjectBridge.Proofs.Building

set_option autoImplicit false

/-!
# What can be read of the heap (SPEC §4.3)

`readWithin` is the host form of an object as a function of what objects carry and of the registered
wrappers; counts play no part in it.  Converting an object gives what can be read, or fails if
nothing can, and changes nothing that could be read.
-/

namespace ObjectBridge

/-- The class and the payload of an object. -/
abbrev Content := Class × Payload

/-- What the object under an identity carries. -/
def Heap.content (h : Heap) (o : ObjId) : Option Content :=
  (h.get? o).map fun x => (x.cls, x.payload)

/-- What `view` shows of an object of class `c`. -/
def Content.certified {α : Type} (c : Class) (view : Payload → Option α) (x : Content) : Option α :=
  if x.1.isSubclassOf c then view x.2 else none

theorem Content.of_certified {α : Type} {c : Class} {view : Payload → Option α}
    {x : Content} {a : α} (ha : x.certified c view = some a) : view x.2 = some a := by
  unfold Content.certified at ha
  split at ha
  · exact ha
  · cases ha

section Reader

variable (look : ObjId → Option Content) (order : EntryOrder) (wrap : Class → Option Wrapper)

/-- The text of a string object. -/
def readText (o : ObjId) : Option String :=
  (look o).bind (Content.certified .string Payload.string?)

/-- The key and the value of an entry of a hash, if `inner` reads values. -/
def readEntry (inner : Option ObjId → Option Value) (e : HashEntry) : Option (String × Value) :=
  (readText look e.key).bind fun key => (inner e.value).map fun v => (key, v)

/-- The host form of an object with the given content, if `inner` reads what it holds. -/
def readContent (inner : Option ObjId → Option Value) (o : ObjId) (x : Content) : Option Value :=
  if x.1.isSubclassOf .string then x.2.string?.map .text
  else if x.1.isSubclassOf .blob then x.2.blob?.map .bytes
  else if x.1.isSubclassOf .byteBuf then x.2.byteBuf?.map .bytes
  else if x.1.isSubclassOf .vector then x.2.vector?.bind fun elems => (elems.mapM inner).map .seq
  else if x.1.isSubclassOf .hash then
    x.2.hash?.bind fun inside =>
      ((order.arrange inside.entries).mapM (readEntry look inner)).map fun pairs =>
        .map (Assoc.insertAll pairs [])
  else if x.1.isSubclassOf .float then x.2.float?.map .float
  else if x.1.isSubclassOf .boolean then x.2.boolean?.map .bool
  else if x.1.isSubclassOf .integer then x.2.integer?.map .int
  else (wrap x.1).map fun w => .object ⟨w, o⟩

/-- The host form of an object, or of a null handle, through at most `depth` levels of containers.
-/
def readWithin : Nat → Option ObjId → Option Value
  | _, none => some .null
  | 0, some _ => none
  | depth + 1, some o => (look o).bind (readContent look order wrap (readWithin depth) o)

end Reader

/-! ## Lists that are read -/

section Lists

variable {α β : Type} {f g : α → Option β} {xs : List α} {ys : List β}

theorem forall₂_of_mem {R S : α → β → Prop} (hall : List.Forall₂ R xs ys)
    (himp : ∀ x ∈ xs, ∀ y, R x y → S x y) :
    List.Forall₂ S xs ys :=
  ((List.forall₂_and_left xs ys).mpr ⟨fun _ hx => hx, hall⟩).imp fun x y hxy => himp x hxy.1 y hxy.2

theorem exists_of_mem_right {R : α → β → Prop} (hall : List.Forall₂ R xs ys) {y : β} (hy : y ∈ ys) :
    ∃ x ∈ xs, R x y := by
  induction hall with
  | nil => cases hy
  | cons hxy _ ih =>
    rcases List.mem_cons.mp hy with rfl | hmem
    · exact ⟨_, List.mem_cons_self, hxy⟩
    · obtain ⟨x, hx, hrel⟩ := ih hmem
      exact ⟨x, List.mem_cons_of_mem _ hx, hrel⟩

theorem mapM_eq_some_iff : xs.mapM f = some ys ↔ List.Forall₂ (fun x y => f x = some y) xs ys := by
  induction xs generalizing ys with
  | nil => cases ys <;> simp
  | cons x xs ih =>
    rw [List.mapM_cons]
    cases hx : f x with
    | none =>
      refine iff_of_false (by simp) fun hall => ?_
      cases hall with
      | cons hxy _ => cases hx.symm.trans hxy
    | some y =>
      cases hr : xs.mapM f with
      | none =>
        refine iff_of_false (by simp) fun hall => ?_
        cases hall with
        | cons _ hrest => cases hr.symm.trans (ih.mpr hrest)
      | some zs =>
        cases ys with
        | nil => simp
        | cons y' ys =>
          rw [hr] at ih
          simp [hx, ← ih]

theorem mapM_congr (hfg : ∀ x ∈ xs, ∀ y, f x = some y → g x = some y) (hf : xs.mapM f = some ys) :
    xs.mapM g = some ys := by
  rw [mapM_eq_some_iff] at hf ⊢
  exact forall₂_of_mem hf hfg

theorem exists_of_mem_mapM (hf : xs.mapM f = some ys) {y : β} (hy : y ∈ ys) :
    ∃ x ∈ xs, f x = some y := by
  rw [mapM_eq_some_iff] at hf
  exact exists_of_mem_right hf hy

theorem isSome_of_mapM (hf : xs.mapM f = some ys) {x : α} (hx : x ∈ xs) : (f x).isSome := by
  rw [mapM_eq_some_iff] at hf
  obtain ⟨y, -, hxy⟩ := exists_of_mem_right hf.flip hx
  rw [hxy]
  rfl

theorem mapM_eq_filterMap (hf : ∀ x ∈ xs, (f x).isSome) : xs.mapM f = some (xs.filterMap f) := by
  induction xs with
  | nil => rfl
  | cons x xs ih =>
    obtain ⟨y, hy⟩ := Option.isSome_iff_exists.mp (hf x List.mem_cons_self)
    rw [List.mapM_cons, ih fun z hz => hf z (List.mem_cons_of_mem x hz), hy,
      List.filterMap_cons_some hy]
    rfl

theorem mapM_of_perm {xs' : List α} (hp : xs'.Perm xs) (hf : xs.mapM f = some ys) :
    ∃ ys', xs'.mapM f = some ys' ∧ ys'.Perm ys := by
  have hsome : ∀ x ∈ xs, (f x).isSome := fun _ => isSome_of_mapM hf
  rw [mapM_eq_filterMap hsome, Option.some_inj] at hf
  refine ⟨xs'.filterMap f, mapM_eq_filterMap fun x hx => hsome x (hp.mem_iff.mp hx), ?_⟩
  rw [← hf]
  exact hp.filterMap f

end Lists

/-! ## What reading depends on -/

section Reader

variable {look look' : ObjId → Option Content} {order : EntryOrder} {wrap : Class → Option Wrapper}
  {d d' : Nat} {o : Option ObjId} {v : Value}

@[simp]
theorem readWithin_none (d : Nat) : readWithin look order wrap d none = some .null := by
  cases d <;> rfl

/-- Reading an object of which is known what it carries. -/
theorem readWithin_known {o : ObjId} {x : Content} (ho : look o = some x) :
    readWithin look order wrap (d + 1) (some o) = readContent look order wrap
      (readWithin look order wrap d) o x := by
  unfold readWithin
  rw [ho, Option.bind_some]

theorem readContent_vector (inner : Option ObjId → Option Value) (o : ObjId)
    (elems : List (Option ObjId)) :
    readContent look order wrap inner o
      (.vector, .vector elems) = (elems.mapM inner).map .seq := rfl

theorem readContent_hash (inner : Option ObjId → Option Value) (o : ObjId) (inside : Buckets) :
    readContent look order wrap inner o (.hash, .hash inside) =
      ((order.arrange inside.entries).mapM (readEntry look inner)).map fun pairs =>
        .map (Assoc.insertAll pairs []) := rfl

theorem readText_mono {o : ObjId} {s : String} (hl : ∀ x, look o = some x → look' o = some x)
    (hr : readText look o = some s) : readText look' o = some s := by
  obtain ⟨x, hx, hs⟩ := Option.bind_eq_some_iff.mp hr
  exact Option.bind_eq_some_iff.mpr ⟨x, hl x hx, hs⟩

theorem readEntry_mono {inner inner' : Option ObjId → Option Value} {e : HashEntry}
    {y : String × Value} (hl : ∀ x, look e.key = some x → look' e.key = some x)
    (hi : ∀ w, inner e.value = some w → inner' e.value = some w)
    (hr : readEntry look inner e = some y) : readEntry look' inner' e = some y := by
  obtain ⟨key, hkey, hmap⟩ := Option.bind_eq_some_iff.mp hr
  obtain ⟨v, hv, rfl⟩ := Option.map_eq_some_iff.mp hmap
  exact Option.bind_eq_some_iff.mpr ⟨key, readText_mono hl hkey,
    Option.map_eq_some_iff.mpr ⟨v, hi v hv, rfl⟩⟩

theorem Payload.mem_claims_vector {elems : List (Option ObjId)} {p : ObjId} :
    p ∈ (Payload.vector elems).claims ↔ some p ∈ elems := by
  simp [Payload.claims]

theorem Payload.mem_claims_hash {inside : Buckets} {p : ObjId} :
    p ∈ (Payload.hash inside).claims ↔ ∃ e ∈ inside.entries, p = e.key ∨ e.value = some p := by
  simp [Payload.claims, Buckets.claims, HashEntry.claims]

/-- Only what the object holds is looked at. -/
theorem readContent_mono {inner inner' : Option ObjId → Option Value} {o : ObjId} {x : Content}
    (hl : ∀ p ∈ x.2.claims, ∀ c, look p = some c → look' p = some c)
    (hi : ∀ e : Option ObjId, (∀ p ∈ e, p ∈ x.2.claims) → ∀ w, inner e = some w → inner' e = some w)
    (hr : readContent look order wrap inner o x = some v) :
    readContent look' order wrap inner' o x = some v := by
  unfold readContent at hr ⊢
  split at hr
  · rwa [if_pos ‹_›]
  rw [if_neg ‹_›]
  split at hr
  · rwa [if_pos ‹_›]
  rw [if_neg ‹_›]
  split at hr
  · rwa [if_pos ‹_›]
  rw [if_neg ‹_›]
  split at hr
  · rw [if_pos ‹_›]
    obtain ⟨elems, helems, hv⟩ := Option.bind_eq_some_iff.mp hr
    obtain ⟨vs, hvs, rfl⟩ := Option.map_eq_some_iff.mp hv
    have hvs' : elems.mapM inner' = some vs := by
      refine mapM_congr (fun e he w => hi e (fun p hp => ?_) w) hvs
      rw [Payload.eq_vector helems, Payload.mem_claims_vector, ← Option.mem_def.mp hp]
      exact he
    rw [helems, Option.bind_some, hvs', Option.map_some]
  rw [if_neg ‹_›]
  split at hr
  · rw [if_pos ‹_›]
    obtain ⟨inside, hinside, hv⟩ := Option.bind_eq_some_iff.mp hr
    obtain ⟨pairs, hpairs, rfl⟩ := Option.map_eq_some_iff.mp hv
    have hpairs' : (order.arrange inside.entries).mapM (readEntry look' inner') = some pairs := by
      have hmem : ∀ e ∈ order.arrange inside.entries, ∀ p, p = e.key ∨ e.value = some p →
          p ∈ x.2.claims := by
        intro e he p hp
        rw [Payload.eq_hash hinside, Payload.mem_claims_hash]
        exact ⟨e, EntryOrder.mem_arrange.mp he, hp⟩
      refine mapM_congr (fun e he y => readEntry_mono (hl e.key (hmem e he _ (.inl rfl))) ?_) hpairs
      exact hi e.value fun p hp => hmem e he p (.inr hp)
    rw [hinside, Option.bind_some, hpairs', Option.map_some]
  rw [if_neg ‹_›]
  exact hr

/-- What has been read once is read again on a larger heap and with more depth. -/
theorem readWithin_mono (hl : ∀ o x, look o = some x → look' o = some x) (hd : d ≤ d')
    (hr : readWithin look order wrap d o = some v) : readWithin look' order wrap d' o = some v := by
  induction d generalizing d' o v with
  | zero =>
    cases o with
    | none => simpa using hr
    | some o => cases hr
  | succ d ih =>
    cases o with
    | none => simpa using hr
    | some o =>
      obtain ⟨d', rfl⟩ : ∃ n, d' = n + 1 := ⟨d' - 1, by omega⟩
      obtain ⟨x, hx, hr⟩ := Option.bind_eq_some_iff.mp hr
      rw [readWithin_known (hl o x hx)]
      exact readContent_mono (fun p _ => hl p) (fun e _ w => ih (by omega)) hr

theorem readContent_distinct {inner : Option ObjId → Option Value}
    (hi : ∀ e w, inner e = some w → w.Distinct) {o : ObjId} {x : Content}
    (hr : readContent look order wrap inner o x = some v) : v.Distinct := by
  unfold readContent at hr
  split at hr
  · obtain ⟨s, -, rfl⟩ := Option.map_eq_some_iff.mp hr
    exact .text s
  split at hr
  · obtain ⟨bytes, -, rfl⟩ := Option.map_eq_some_iff.mp hr
    exact .bytes bytes
  split at hr
  · obtain ⟨bytes, -, rfl⟩ := Option.map_eq_some_iff.mp hr
    exact .bytes bytes
  split at hr
  · obtain ⟨elems, -, hv⟩ := Option.bind_eq_some_iff.mp hr
    obtain ⟨vs, hvs, rfl⟩ := Option.map_eq_some_iff.mp hv
    refine .seq fun w hw => ?_
    obtain ⟨e, -, hew⟩ := exists_of_mem_mapM hvs hw
    exact hi e w hew
  split at hr
  · obtain ⟨inside, -, hv⟩ := Option.bind_eq_some_iff.mp hr
    obtain ⟨pairs, hpairs, rfl⟩ := Option.map_eq_some_iff.mp hv
    refine .map (Assoc.nodup_keys_insertAll pairs [] List.nodup_nil) fun y hy => ?_
    rcases Assoc.mem_insertAll hy with hmem | hnil
    · obtain ⟨e, -, hey⟩ := exists_of_mem_mapM hpairs hmem
      obtain ⟨key, -, hmap⟩ := Option.bind_eq_some_iff.mp hey
      obtain ⟨w, hw, rfl⟩ := Option.map_eq_some_iff.mp hmap
      exact hi e.value w hw
    · cases hnil
  split at hr
  · obtain ⟨bits, -, rfl⟩ := Option.map_eq_some_iff.mp hr
    exact .float bits
  split at hr
  · obtain ⟨b, -, rfl⟩ := Option.map_eq_some_iff.mp hr
    exact .bool b
  split at hr
  · obtain ⟨n, -, rfl⟩ := Option.map_eq_some_iff.mp hr
    exact .int n
  · obtain ⟨w, -, rfl⟩ := Option.map_eq_some_iff.mp hr
    exact .object _

/-- What is read has distinct keys in all its maps. -/
theorem readWithin_distinct (hr : readWithin look order wrap d o = some v) : v.Distinct := by
  induction d generalizing o v with
  | zero =>
    cases o with
    | none =>
      cases hr
      exact .null
    | some o => cases hr
  | succ d ih =>
    cases o with
    | none =>
      cases hr
      exact .null
    | some o =>
      obtain ⟨x, -, hr⟩ := Option.bind_eq_some_iff.mp hr
      exact readContent_distinct (fun _ _ => ih) hr

end Reader

end ObjectBridge
