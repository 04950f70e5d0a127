import ObjectBridge.Proofs.Accounting
import ObjectBridge.Proofs.Copying

set_option autoImplicit false

/-!
# Reading back what was built (SPEC §8)

The foreign form of a value reads back as the value, with every object in it read as well.  The
forms of a value are placed on the heap one after the other, and reading them follows the value: the
size of a value bounds the depth to which its own containers go, and what is read of the objects in
it comes on top.
-/

namespace ObjectBridge

/-! ## Placed objects -/

section Reader

variable {look : ObjId → Option Content} {k : Nat} {xs ys : List Obj} {x : Obj}

/-- The objects stand one after the other from the identity `k` on. -/
def Placed (look : ObjId → Option Content) (k : Nat) (xs : List Obj) : Prop :=
  ∀ i x, xs[i]? = some x → look ⟨k + i⟩ = some (x.cls, x.payload)

theorem Placed.head (hp : Placed look k (x :: xs)) : look ⟨k⟩ = some (x.cls, x.payload) :=
  hp 0 x rfl

theorem Placed.left (hp : Placed look k (xs ++ ys)) : Placed look k xs := by
  intro i x hx
  have hi : i < xs.length := (List.getElem?_eq_some_iff.mp hx).1
  exact hp i x (by rw [List.getElem?_append_left hi, hx])

theorem Placed.right (hp : Placed look k (xs ++ ys)) : Placed look (k + xs.length) ys := by
  intro i x hx
  rw [add_assoc]
  exact hp (xs.length + i) x
    (by rw [List.getElem?_append_right (by omega), Nat.add_sub_cancel_left, hx])

theorem Placed.tail (hp : Placed look k (x :: xs)) : Placed look (k + 1) xs := by
  intro i y hy
  rw [Nat.add_assoc, Nat.add_comm 1]
  exact hp (i + 1) y hy

end Reader

/-! ## Reading back -/

section Back

variable (look : ObjId → Option Content) (order : EntryOrder) (wrap : Class → Option Wrapper)
  (t : ObjId × ObjId) (sum : String → UInt64) (copy : ObjId → Value) (n : Nat)

/-- The forms of the value, wherever they are placed, read back as the value with its objects
replaced by what `copy` gives, provided that this can be read to a depth of `n`. -/
def ReadsBack (v : Value) : Prop :=
  ∀ k, Placed look k (v.forms t sum k) →
    (∀ o ∈ v.claims, readWithin look order wrap n (some o) = some (copy o)) →
    ∃ w, readWithin look order wrap (n + v.size) (v.root t k) = some w ∧
    w.same (v.substitute copy) = true

variable {look order wrap t sum copy n}

theorem readsBack_items {items : List Value}
    (hitems : ∀ v ∈ items, ReadsBack look order wrap t sum copy n v) {k m : Nat}
    (hm : n + Value.sizeOfItems items ≤ m) (hp : Placed look k (Value.formsOfItems t sum k items))
    (hl : ∀ v ∈ items, ∀ o ∈ v.claims, readWithin look order wrap n (some o) = some (copy o)) :
    ∃ ws, (Value.itemRoots t k items).mapM (readWithin look order wrap m) = some ws ∧
      List.Forall₂ (fun w v => w.same (v.substitute copy) = true) ws items := by
  induction items generalizing k with
  | nil => exact ⟨[], rfl, .nil⟩
  | cons v rest ih =>
    unfold Value.sizeOfItems at hm
    obtain ⟨w, hw, hsame⟩ := hitems v List.mem_cons_self k hp.left (hl v List.mem_cons_self)
    have hright := hp.right
    rw [Value.length_forms] at hright
    obtain ⟨ws, hws, hall⟩ :=
      ih (fun u hu => hitems u (List.mem_cons_of_mem v hu)) (by omega) hright
      fun u hu => hl u (List.mem_cons_of_mem v hu)
    have hw' : readWithin look order wrap m (v.root t k) = some w :=
      readWithin_mono (fun _ _ h => h) (by omega) hw
    refine ⟨w :: ws, ?_, .cons hsame hall⟩
    rw [Value.itemRoots, List.mapM_cons, hw', hws]
    rfl

theorem readsBack_entries {entries : List (String × Value)}
    (hentries : ∀ e ∈ entries, ReadsBack look order wrap t sum copy n e.2) {k m : Nat}
    (hm : n + Value.sizeOfEntries entries ≤ m)
    (hp : Placed look k (Value.formsOfEntries t sum k entries))
    (hl : ∀ e ∈ entries, ∀ o ∈ e.2.claims, readWithin look order wrap n (some o) = some (copy o)) :
    ∃ pairs, ((Value.entryRoots t k entries).map Prod.snd).mapM
      (readEntry look (readWithin look order wrap m)) = some pairs ∧
      List.Forall₂ (fun p e => p.1 = e.1 ∧
        p.2.same (e.2.substitute copy) = true) pairs entries := by
  induction entries generalizing k with
  | nil => exact ⟨[], rfl, .nil⟩
  | cons e rest ih =>
    obtain ⟨key, v⟩ := e
    unfold Value.sizeOfEntries at hm
    unfold Value.formsOfEntries at hp
    obtain ⟨w, hw, hsame⟩ :=
      hentries (key, v) List.mem_cons_self k hp.left (hl (key, v) List.mem_cons_self)
    have hright := hp.right
    rw [Value.length_forms] at hright
    obtain ⟨pairs, hpairs, hall⟩ :=
      ih (fun u hu => hentries u (List.mem_cons_of_mem _ hu)) (by omega) hright.tail
      fun u hu => hl u (List.mem_cons_of_mem _ hu)
    have hle : n + v.size ≤ m := by omega
    have hw' : readWithin look order wrap m (v.root t k) = some w :=
      readWithin_mono (fun _ _ h => h) hle hw
    have hkey : readText look ⟨k + v.size⟩ = some key := by
      unfold readText
      rw [hright.head]
      rfl
    have hentry : readEntry look (readWithin look order wrap m) ⟨⟨k + v.size⟩, v.root t k⟩ =
        some (key, w) := by
      unfold readEntry
      rw [hkey, Option.bind_some, hw']
      rfl
    refine ⟨(key, w) :: pairs, ?_, .cons ⟨rfl, hsame⟩ hall⟩
    rw [Value.entryRoots, List.map_cons, List.mapM_cons, hentry, hpairs]
    rfl

variable (ht : ∀ x : Bool, look (if x then t.2 else t.1) = some (.boolean, .boolean x)) (hn : 1 ≤ n)

include hn in
/-- An object that carries a plain value reads as that value. -/
theorem readsBack_scalar {o : ObjId} {x : Content} {v : Value} (m : Nat) (ho : look o = some x)
    (hx : readContent look order wrap (readWithin look order wrap (n + m - 1)) o x = some v) :
    readWithin look order wrap (n + m) (some o) = some v := by
  obtain ⟨d, hd⟩ : ∃ d, n + m = d + 1 := ⟨n + m - 1, by omega⟩
  rw [hd] at hx ⊢
  rw [readWithin_known ho]
  exact hx

theorem readsBack_seq {items : List Value}
    (hitems : ∀ v ∈ items, ReadsBack look order wrap t sum copy n v) :
    ReadsBack look order wrap t sum copy n (.seq items) := by
  intro k hp hl
  unfold Value.forms at hp
  obtain ⟨ws, hws, hall⟩ := readsBack_items hitems le_rfl hp.tail
    fun v hv o ho => hl o (Value.mem_claims_seq.mpr ⟨v, hv, ho⟩)
  refine ⟨.seq ws, ?_, ?_⟩
  · rw [Value.size, Nat.add_comm 1, ← Nat.add_assoc]
    refine (readWithin_known hp.head).trans ?_
    rw [readContent_vector, hws, Option.map_some]
  · rw [Value.substitute, Value.substituteItems_eq]
    exact Value.same_seq_iff.mpr ⟨_, rfl, List.forall₂_map_right_iff.mpr hall⟩

theorem readsBack_map {entries : List (String × Value)} (hkeys : (Assoc.keys entries).Nodup)
    (hentries : ∀ e ∈ entries, ReadsBack look order wrap t sum copy n e.2) :
    ReadsBack look order wrap t sum copy n (.map entries) := by
  intro k hp hl
  unfold Value.forms at hp
  obtain ⟨pairs, hpairs, hall⟩ := readsBack_entries hentries le_rfl hp.tail
    fun e he o ho => hl o (Value.mem_claims_map.mpr ⟨e, he, ho⟩)
  -- the hash lists its entries in an order of its own
  obtain ⟨listed, hlisted, hperm⟩ :=
    mapM_of_perm ((order.perm _).trans (Buckets.perm_entries_addAll sum _)) hpairs
  have hsame : Assoc.keys pairs = Assoc.keys entries := by
    rw [← List.forall₂_eq_eq_eq]
    exact List.forall₂_map_left_iff.mpr (List.forall₂_map_right_iff.mpr (hall.imp fun _ _ h => h.1))
  have hnodup : (Assoc.keys listed).Nodup := by
    rw [← hsame] at hkeys
    exact (hperm.map Prod.fst).nodup_iff.mpr hkeys
  refine ⟨.map listed, ?_, ?_⟩
  · rw [Value.size, Nat.add_comm 1, ← Nat.add_assoc]
    refine (readWithin_known hp.head).trans ?_
    rw [readContent_hash, hlisted, Option.map_some, Assoc.insertAll_of_nodup (by exact hnodup),
      List.nil_append]
  · rw [Value.substitute, Value.substituteEntries_eq]
    refine Value.same_map_iff.mpr ⟨_, rfl, ?_, fun p hp => ?_⟩
    · rw [hperm.length_eq, hall.length_eq, List.length_map]
    · obtain ⟨i, hi, rfl⟩ := List.mem_iff_getElem.mp (hperm.mem_iff.mp hp)
      have hi' : i < entries.length := hall.length_eq ▸ hi
      obtain ⟨hkey, hvalue⟩ := hall.get hi hi'
      refine ⟨entries[i].2.substitute copy, ?_, hvalue⟩
      have hfind : Assoc.find? entries[i].1 entries = some entries[i].2 :=
        Assoc.find?_of_mem hkeys (List.getElem_mem hi')
      rw [List.get_eq_getElem, List.get_eq_getElem] at hkey
      rw [Assoc.find?_map, hkey, hfind, Option.map_some]

include ht hn in
theorem readsBack {v : Value} (hv : v.Distinct) : ReadsBack look order wrap t sum copy n v := by
  induction hv with
  | null => exact fun k _ _ => ⟨.null, readWithin_none _, rfl⟩
  | bool x =>
    intro k hp hl
    exact ⟨.bool x, readsBack_scalar hn 0 (ht x) rfl, (Value.same_scalar_iff (by trivial)).mpr rfl⟩
  | int m =>
    intro k hp hl
    exact ⟨.int m, readsBack_scalar hn 1 hp.head rfl, (Value.same_scalar_iff (by trivial)).mpr rfl⟩
  | float bits =>
    intro k hp hl
    exact ⟨.float bits, readsBack_scalar hn 1 hp.head rfl,
      (Value.same_scalar_iff (by trivial)).mpr rfl⟩
  | text s =>
    intro k hp hl
    exact ⟨.text s, readsBack_scalar hn 1 hp.head rfl, (Value.same_scalar_iff (by trivial)).mpr rfl⟩
  | bytes bytes =>
    intro k hp hl
    exact ⟨.bytes bytes, readsBack_scalar hn 1 hp.head rfl,
      (Value.same_scalar_iff (by trivial)).mpr rfl⟩
  | object h =>
    intro k hp hl
    have hread := hl h.obj List.mem_cons_self
    exact ⟨copy h.obj, hread, Value.same_refl (readWithin_distinct hread)⟩
  | seq hitems ih => exact readsBack_seq ih
  | map hkeys hentries ih => exact readsBack_map hkeys ih

end Back

/-! ## Values that were built -/

namespace Bridge

variable {b : Bridge} {host : Multiset ObjId} {t : ObjId × ObjId} {v : Value} {o : ObjId}

theorem content_built {x : Obj} (hx : b.heap.get? o = some x) (v : Value) :
    (b.built t v).heap.content o = some (x.cls, x.payload) := by
  have hbuilt := get?_built (t := t) (v := v) (Heap.used_of_get? hx)
  rw [hx, Option.map_some] at hbuilt
  rw [Heap.content_of_get? hbuilt, Heap.cls_iterate_retained, Heap.payload_iterate_retained]

/-- What objects carried before a value was built they carry afterwards. -/
theorem content_mono_built (v : Value) (p : ObjId) (x : Content) (hx : b.heap.content p = some x) :
    (b.built t v).heap.content p = some x := by
  obtain ⟨y, hy, rfl⟩ := Option.map_eq_some_iff.mp hx
  exact content_built hy v

/-- The value that was built reads back, whatever the wrappers for the objects in it. -/
theorem readWithin_built (hs : b.Sound host) (ht : b.truths = some t) (hv : v.Distinct)
    {copy : ObjId → Value} {order : EntryOrder} {wrap : Class → Option Wrapper}
    (hl : ∀ o ∈ v.claims, readWithin b.heap.content order wrap b.heap.slots.length (some o) =
      some (copy o)) :
    ∃ w, readWithin (b.built t v).heap.content order wrap (b.built t v).heap.slots.length
        (v.root t b.heap.slots.length) = some w ∧ w.same (v.substitute copy) = true := by
  rw [length_built]
  obtain ⟨no, yes, heq, hno, hyes⟩ := hs.truths
  rw [ht] at heq
  cases heq
  have hlen : 1 ≤ b.heap.slots.length := by
    obtain ⟨x, hx, -⟩ := hno
    have hused : no.index < b.heap.slots.length := Heap.used_of_get? hx
    omega
  have htruths : ∀ x : Bool, (b.built (no, yes) v).heap.content (if x then yes else no) =
      some (.boolean, .boolean x) := by
    intro x
    have htruth : b.heap.IsTruth (if x then yes else no) x := by
      cases x
      · exact hno
      · exact hyes
    obtain ⟨y, hy, hcls, hpay⟩ := htruth
    rw [content_built hy, hcls, hpay]
  have hplaced : Placed (b.built (no, yes) v).heap.content b.heap.slots.length
      (v.forms (no, yes) b.keySum b.heap.slots.length) :=
    fun i x hx => Heap.content_of_get? ((get?_built_new v i).trans hx)
  exact readsBack htruths hlen hv _ hplaced fun o ho =>
    readWithin_mono (content_mono_built v) le_rfl (hl o ho)

theorem read_built_root (hs : b.Sound host) (ht : b.truths = some t) (hv : v.Distinct)
    {copy : ObjId → Value}
    (hl : ∀ o ∈ v.claims, b.read b.heap.slots.length (some o) = some (copy o)) :
    ∃ w, (b.built t v).read (b.built t v).heap.slots.length
      (v.root t b.heap.slots.length) = some w ∧
      w.same (v.substitute copy) = true :=
  readWithin_built hs ht hv hl

end Bridge

/-! ## Clashing keys -/

/-- A bridge in which all keys have one checksum, with an error object and a string. -/
def clashingBridge : Bridge :=
  { Bridge.ready .usual with
    heap := ((Bridge.ready .usual).heap.add ⟨.err, 1, .err "boom"⟩).add ⟨.string, 1, .string "x"⟩
    keySum := fun _ => 0 }

theorem clashingBridge_books : clashingBridge.Books (⟨3⟩ ::ₘ ⟨2⟩ ::ₘ 0) := by
  have hready :
      { Bridge.ready .usual with keySum := fun _ => 0 }.Books ((Payload.err "boom").claims + 0) :=
    ⟨⟨rfl, rfl, rfl, ClassTable.initial_rooted⟩,
      fun _ => ⟨(Bridge.ready_sound .usual).counted, (Bridge.ready_sound .usual).truths,
        (Bridge.ready_sound .usual).rooted, (Bridge.ready_sound .usual).buried⟩⟩
  have herr := hready.add rooted_err
  rw [← zero_add (_ ::ₘ _)] at herr
  exact herr.add (q := .string "x") rfl

end ObjectBridge
