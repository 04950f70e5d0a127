import ObjectBridge.Value.Basic
import ObjectBridge.Proofs.Conversions
import Mathlib.Data.List.Forall2

set_option autoImplicit false

/-!
# Equality of values (SPEC §12.3)

`Value.same` compares sequences element by element and maps key by key.  It is an equivalence on
values whose maps have distinct keys, and kept when equal values take the place of objects.
-/

namespace ObjectBridge

namespace Assoc

variable {K V W : Type} [DecidableEq K] {m : List (K × V)} {k : K} {v : V}

theorem mem_of_find? (hf : find? k m = some v) : (k, v) ∈ m := by
  induction m with
  | nil => cases hf
  | cons p rest ih =>
    obtain ⟨a, b⟩ := p
    unfold find? at hf
    split at hf
    · rename_i ha
      cases hf
      rw [ha]
      exact List.mem_cons_self
    · exact List.mem_cons_of_mem _ (ih hf)

theorem find?_of_mem (hk : (keys m).Nodup) (hm : (k, v) ∈ m) : find? k m = some v := by
  induction m with
  | nil => cases hm
  | cons p rest ih =>
    obtain ⟨a, b⟩ := p
    obtain ⟨ha, hrest⟩ := List.nodup_cons.mp hk
    rcases List.mem_cons.mp hm with heq | hmem
    · cases heq
      exact if_pos rfl
    · have hne : a ≠ k := by
        rintro rfl
        exact ha (List.mem_map.mpr ⟨(a, v), hmem, rfl⟩)
      exact (if_neg hne).trans (ih hrest hmem)

/-- Changing the values changes what is found. -/
theorem find?_map (f : V → W) (m : List (K × V)) (k : K) :
    find? k (m.map fun e => (e.1, f e.2)) = (find? k m).map f := by
  induction m with
  | nil => rfl
  | cons p rest ih =>
    obtain ⟨a, b⟩ := p
    by_cases ha : a = k
    · simp [find?, ha]
    · simp [find?, ha, ih]

theorem nodup_keys_insertAll (pairs m : List (K × V)) (hm : (keys m).Nodup) :
    (keys (insertAll pairs m)).Nodup := by
  induction pairs generalizing m with
  | nil => exact hm
  | cons p rest ih => exact ih _ (nodup_keys_insert m p.1 p.2 hm)

theorem mem_insert {e : K × V}
    (he : e ∈ insert k v m) : e = (k, v) ∨ e ∈ m := by
  induction m with
  | nil => exact .inl (List.mem_singleton.mp he)
  | cons p rest ih =>
    obtain ⟨a, b⟩ := p
    unfold insert at he
    split at he
    · rcases List.mem_cons.mp he with heq | hrest
      · exact .inl heq
      · exact .inr (List.mem_cons_of_mem _ hrest)
    · rcases List.mem_cons.mp he with heq | hrest
      · exact .inr (heq ▸ List.mem_cons_self)
      · exact (ih hrest).imp id (List.mem_cons_of_mem _)

theorem mem_insertAll {pairs m : List (K × V)} {e : K × V}
    (he : e ∈ insertAll pairs m) : e ∈ pairs ∨ e ∈ m := by
  induction pairs generalizing m with
  | nil => exact .inr he
  | cons p rest ih =>
    rcases ih he with hrest | hm
    · exact .inl (List.mem_cons_of_mem _ hrest)
    · rcases mem_insert hm with rfl | hm
      · exact .inl List.mem_cons_self
      · exact .inr hm

theorem insert_of_not_mem (hk : k ∉ keys m) : insert k v m = m ++ [(k, v)] := by
  induction m with
  | nil => rfl
  | cons p rest ih =>
    obtain ⟨a, b⟩ := p
    have hne : ¬ a = k := fun heq => hk (heq ▸ List.mem_cons_self)
    have hrest : k ∉ keys rest := fun hmem => hk (List.mem_cons_of_mem a hmem)
    rw [insert, if_neg hne, ih hrest, List.cons_append]

/-- Binding distinct new keys in turn puts the pairs at the end. -/
theorem insertAll_of_nodup {pairs : List (K × V)} (hk : (keys (m ++ pairs)).Nodup) :
    insertAll pairs m = m ++ pairs := by
  induction pairs generalizing m with
  | nil => exact (List.append_nil m).symm
  | cons p rest ih =>
    obtain ⟨k, v⟩ := p
    have hnew : k ∉ keys m := by
      unfold keys at hk ⊢
      rw [List.map_append, List.map_cons, List.nodup_append] at hk
      exact fun hmem => hk.2.2 k hmem k List.mem_cons_self rfl
    rw [List.append_cons] at hk
    change insertAll rest (insert k v m) = _
    rw [insert_of_not_mem hnew, ih hk, ← List.append_cons]

section Pairs

variable {K V W : Type}

theorem keys_eq_of_forall₂ {R : K × V → K × W → Prop} {xs : List (K × V)} {ys : List (K × W)}
    (hall : List.Forall₂ R xs ys) (hkeys : ∀ x y, R x y → y.1 = x.1) : keys ys = keys xs := by
  unfold keys
  rw [← List.forall₂_eq_eq_eq]
  exact List.forall₂_map_left_iff.mpr
    (List.forall₂_map_right_iff.mpr (hall.flip.imp fun y x h => hkeys x y h))

variable [DecidableEq K]

/-- Lists of pairs with the same keys find related values. -/
theorem find?_rel {R : K → V → W → Prop} {xs : List (K × V)} {ys : List (K × W)}
    (hall : List.Forall₂ (fun x y => y.1 = x.1 ∧ R x.1 x.2 y.2) xs ys) (k : K) :
    Option.Rel (R k) (find? k xs) (find? k ys) := by
  induction hall with
  | nil => exact .none
  | @cons x y xs ys hxy _ ih =>
    obtain ⟨k₁, v⟩ := x
    obtain ⟨k₂, w⟩ := y
    obtain ⟨rfl, hvw⟩ := hxy
    unfold find?
    by_cases hk : k₂ = k
    · rw [if_pos hk, if_pos hk]
      exact .some (hk ▸ hvw)
    · rw [if_neg hk, if_neg hk]
      exact ih

/-- The order of the pairs makes no difference to what is found. -/
theorem find?_of_perm {xs ys : List (K × V)} (hperm : ys.Perm xs)
    (hkeys : (keys xs).Nodup) (k : K) :
    find? k ys = find? k xs := by
  have hkeys' : (keys ys).Nodup := (hperm.map Prod.fst).nodup_iff.mpr hkeys
  cases hfind : find? k xs with
  | some v => exact find?_of_mem hkeys' (hperm.mem_iff.mpr (mem_of_find? hfind))
  | none =>
    rw [find?_eq_none_iff] at hfind ⊢
    exact fun hmem => hfind ((hperm.map Prod.fst).mem_iff.mp hmem)

/-- Lists that have the same keys in the same order and find related values are related pair by
pair. -/
theorem forall₂_of_find? {R : V → W → Prop} {xs : List (K × V)} {ys : List (K × W)}
    (hnodup : (keys xs).Nodup) (hkeys : keys ys = keys xs)
    (hrel : ∀ k, Option.Rel R (find? k xs) (find? k ys)) :
    List.Forall₂ (fun x y => y.1 = x.1 ∧ R x.2 y.2) xs ys := by
  have hlen : xs.length = ys.length := by
    have heq := congrArg List.length hkeys
    rw [keys, keys, List.length_map, List.length_map] at heq
    exact heq.symm
  refine List.forall₂_iff_get.mpr ⟨hlen, fun i hi hi' => ?_⟩
  rw [List.get_eq_getElem, List.get_eq_getElem]
  have hkey : ys[i].1 = xs[i].1 := by
    have heq : (keys ys)[i]? = (keys xs)[i]? := by rw [hkeys]
    rw [keys, keys, List.getElem?_map, List.getElem?_map, List.getElem?_eq_getElem hi,
      List.getElem?_eq_getElem hi'] at heq
    exact Option.some.inj heq
  have hxs : find? xs[i].1 xs = some xs[i].2 := find?_of_mem hnodup (List.getElem_mem hi)
  have hys : find? xs[i].1 ys = some ys[i].2 :=
    find?_of_mem (hkeys ▸ hnodup) (hkey ▸ List.getElem_mem hi')
  have hfound := hrel xs[i].1
  rw [hxs, hys] at hfound
  cases hfound with
  | some hR => exact ⟨hkey, hR⟩

end Pairs

end Assoc

namespace Value

variable {a b c v w : Value}

/-! ## Comparison by kind -/

attribute [local simp] same sameItems sameEntries

theorem sameItems_iff {xs ys : List Value} :
    sameItems xs ys = true ↔ List.Forall₂ (fun v w => v.same w = true) xs ys := by
  induction xs generalizing ys with
  | nil => cases ys <;> simp
  | cons x xs ih => cases ys <;> simp [ih]

theorem sameEntries_iff {xs ys : List (String × Value)} :
    sameEntries xs ys = true ↔ ∀ e ∈ xs, ∃ w, Assoc.find? e.1 ys = some w ∧ e.2.same w = true := by
  induction xs with
  | nil => simp
  | cons x xs ih =>
    obtain ⟨k, v⟩ := x
    rw [sameEntries, Bool.and_eq_true, ih, List.forall_mem_cons]
    refine and_congr_left fun _ => ?_
    cases Assoc.find? k ys <;> simp

/-- The value has neither values nor an object in it. -/
def IsScalar : Value → Prop
  | seq _ | map _ | object _ => False
  | _ => True

theorem same_scalar_iff (ha : a.IsScalar) : a.same b = true ↔ a = b := by
  cases a with
  | seq items | map entries | object h => exact ha.elim
  | null | bool x | int n | float bits | text s | bytes bytes => cases b <;> simp

@[simp]
theorem same_object_iff {h : HostRef} :
    same (.object h) b = true ↔ ∃ h', b = .object h' ∧ h.obj = h'.obj := by
  cases b <;> simp

@[simp]
theorem same_seq_iff {xs : List Value} :
    same (.seq xs) b = true ↔ ∃ ys, b = .seq ys ∧
    List.Forall₂ (fun v w => v.same w = true) xs ys := by
  cases b <;> simp [sameItems_iff]

@[simp]
theorem same_map_iff {xs : List (String × Value)} :
    same (.map xs) b = true ↔ ∃ ys, b = .map ys ∧ xs.length = ys.length ∧
      ∀ e ∈ xs, ∃ w, Assoc.find? e.1 ys = some w ∧ e.2.same w = true := by
  cases b <;> simp [sameEntries_iff]

/-! ## Distinct keys -/

/-- All maps in the value have distinct keys. -/
inductive Distinct : Value → Prop
  | null : Distinct .null
  | bool (b : Bool) : Distinct (.bool b)
  | int (n : Int64) : Distinct (.int n)
  | float (bits : UInt64) : Distinct (.float bits)
  | text (s : String) : Distinct (.text s)
  | bytes (b : List UInt8) : Distinct (.bytes b)
  | seq {items : List Value} (hitems : ∀ v ∈ items, Distinct v) : Distinct (.seq items)
  | map {entries : List (String × Value)} (hkeys : (Assoc.keys entries).Nodup)
    (hentries : ∀ e ∈ entries, Distinct e.2) : Distinct (.map entries)
  | object (h : HostRef) : Distinct (.object h)

theorem same_refl (hv : v.Distinct) : v.same v = true := by
  induction hv with
  | seq hitems ih => exact same_seq_iff.mpr ⟨_, rfl, List.forall₂_same.mpr ih⟩
  | map hkeys hentries ih =>
    exact same_map_iff.mpr ⟨_, rfl, rfl, fun e he => ⟨e.2, Assoc.find?_of_mem hkeys he, ih e he⟩⟩
  | object h => exact same_object_iff.mpr ⟨h, rfl, rfl⟩
  | null | bool b | int n | float bits | text s | bytes b =>
    exact (same_scalar_iff (by trivial)).mpr rfl

theorem same_trans (hab : a.same b = true) (hbc : b.same c = true) : a.same c = true := by
  induction a using Value.induction generalizing b c with
  | seq items ih =>
    obtain ⟨ys, rfl, hys⟩ := same_seq_iff.mp hab
    obtain ⟨zs, rfl, hzs⟩ := same_seq_iff.mp hbc
    refine same_seq_iff.mpr ⟨zs, rfl, ?_⟩
    clear hab hbc
    induction hys generalizing zs with
    | nil => exact hzs
    | @cons x y xs ys hxy hxs ihxs =>
      cases hzs with
      | @cons _ z _ zs hyz hyzs =>
        refine .cons (ih x List.mem_cons_self hxy hyz) ?_
        exact ihxs (fun v hv => ih v (List.mem_cons_of_mem x hv)) zs hyzs
  | map entries ih =>
    obtain ⟨ys, rfl, hlen, hys⟩ := same_map_iff.mp hab
    obtain ⟨zs, rfl, hlen', hzs⟩ := same_map_iff.mp hbc
    refine same_map_iff.mpr ⟨zs, rfl, hlen.trans hlen', fun e he => ?_⟩
    obtain ⟨w, hw, hew⟩ := hys e he
    obtain ⟨u, hu, hwu⟩ := hzs (e.1, w) (Assoc.mem_of_find? hw)
    exact ⟨u, hu, ih e he hew hwu⟩
  | object h =>
    obtain ⟨h', rfl, hh⟩ := same_object_iff.mp hab
    obtain ⟨h'', rfl, hh'⟩ := same_object_iff.mp hbc
    exact same_object_iff.mpr ⟨h'', rfl, hh.trans hh'⟩
  | null | bool x | int n | float bits | text s | bytes bytes =>
    rwa [← (same_scalar_iff (by trivial)).mp hab] at hbc

/-- Maps that compare equal have the same keys. -/
theorem keys_perm_of_same {xs ys : List (String × Value)} (hkeys : (Assoc.keys xs).Nodup)
    (hlen : xs.length = ys.length)
    (hall : ∀ e ∈ xs, ∃ w, Assoc.find? e.1 ys = some w ∧ e.2.same w = true) :
    (Assoc.keys xs).Perm (Assoc.keys ys) := by
  have hsub : Assoc.keys xs ⊆ Assoc.keys ys := by
    intro k hk
    obtain ⟨e, he, rfl⟩ := List.mem_map.mp hk
    obtain ⟨w, hw, -⟩ := hall e he
    exact List.mem_map.mpr ⟨(e.1, w), Assoc.mem_of_find? hw, rfl⟩
  refine (List.subperm_of_subset hkeys hsub).perm_of_length_le ?_
  rw [Assoc.keys, Assoc.keys, List.length_map, List.length_map, hlen]

theorem same_symm (ha : a.Distinct) (hab : a.same b = true) : b.same a = true := by
  induction ha generalizing b with
  | @seq items _ ih =>
    obtain ⟨ys, rfl, hys⟩ := same_seq_iff.mp hab
    refine same_seq_iff.mpr ⟨items, rfl,
      List.forall₂_iff_get.mpr ⟨hys.length_eq.symm, fun i hi hi' => ?_⟩⟩
    exact ih _ (List.getElem_mem hi') (hys.get hi' hi)
  | @map entries hkeys _ ih =>
    obtain ⟨ys, rfl, hlen, hys⟩ := same_map_iff.mp hab
    have hperm := keys_perm_of_same hkeys hlen hys
    refine same_map_iff.mpr ⟨entries, rfl, hlen.symm, fun y hy => ?_⟩
    obtain ⟨e, he, hey⟩ := List.mem_map.mp (hperm.mem_iff.mpr (List.mem_map.mpr ⟨y, hy, rfl⟩))
    obtain ⟨w, hw, hew⟩ := hys e he
    -- no key is twice in the other map either, so what is found there is `y`
    rw [hey, Assoc.find?_of_mem (hperm.nodup_iff.mp hkeys) hy, Option.some_inj] at hw
    subst hw
    exact ⟨e.2, hey ▸ Assoc.find?_of_mem hkeys he, ih e he hew⟩
  | object h =>
    obtain ⟨h', rfl, hh⟩ := same_object_iff.mp hab
    exact same_object_iff.mpr ⟨h, rfl, hh.symm⟩
  | null | bool x | int n | float bits | text s | bytes bytes =>
    obtain rfl := (same_scalar_iff (by trivial)).mp hab
    exact hab

/-! ## Values in the place of objects -/

mutual

/-- The value with `f o` in the place of each object `o`. -/
def substitute (f : ObjId → Value) : Value → Value
  | seq items => .seq (substituteItems f items)
  | map entries => .map (substituteEntries f entries)
  | object h => f h.obj
  | v => v

/-- `substitute` for some values. -/
def substituteItems (f : ObjId → Value) : List Value → List Value
  | [] => []
  | v :: rest => substitute f v :: substituteItems f rest

/-- `substitute` for some entries. -/
def substituteEntries (f : ObjId → Value) : List (String × Value) → List (String × Value)
  | [] => []
  | (k, v) :: rest => (k, substitute f v) :: substituteEntries f rest

end

variable {f : ObjId → Value}

theorem substituteItems_eq (items : List Value) :
    substituteItems f items = items.map (substitute f) := by
  induction items with
  | nil => rfl
  | cons v rest ih => rw [substituteItems, ih, List.map_cons]

theorem substituteEntries_eq (entries : List (String × Value)) :
    substituteEntries f entries = entries.map fun e => (e.1, substitute f e.2) := by
  induction entries with
  | nil => rfl
  | cons e rest ih => rw [substituteEntries, ih, List.map_cons]

theorem mem_claims_seq {items : List Value} {o : ObjId} :
    o ∈ (seq items).claims ↔ ∃ v ∈ items, o ∈ v.claims := by
  rw [claims, claimsOfItems_eq, List.mem_flatMap]

theorem mem_claims_map {entries : List (String × Value)} {o : ObjId} :
    o ∈ (map entries).claims ↔ ∃ e ∈ entries, o ∈ e.2.claims := by
  rw [claims, claimsOfEntries_eq, List.mem_flatMap]

/-- Equal values hold the same objects. -/
theorem mem_claims_of_same (hvw : v.same w = true) {o : ObjId} (ho : o ∈ v.claims) :
    o ∈ w.claims := by
  induction v using Value.induction generalizing w with
  | seq items ih =>
    obtain ⟨ys, rfl, hys⟩ := same_seq_iff.mp hvw
    obtain ⟨v, hv, hov⟩ := mem_claims_seq.mp ho
    obtain ⟨i, hi, rfl⟩ := List.mem_iff_getElem.mp hv
    have hi' : i < ys.length := hys.length_eq ▸ hi
    exact mem_claims_seq.mpr ⟨ys[i], List.getElem_mem hi', ih _ hv (hys.get hi hi') hov⟩
  | map entries ih =>
    obtain ⟨ys, rfl, -, hys⟩ := same_map_iff.mp hvw
    obtain ⟨e, he, hoe⟩ := mem_claims_map.mp ho
    obtain ⟨u, hu, heu⟩ := hys e he
    exact mem_claims_map.mpr ⟨(e.1, u), Assoc.mem_of_find? hu, ih e he heu hoe⟩
  | object h =>
    obtain ⟨h', rfl, hh⟩ := same_object_iff.mp hvw
    rwa [claims, hh] at ho
  | null | bool x | int n | float bits | text s | bytes bytes => cases ho

/-- Equal values stay equal when values take the place of the objects in them. -/
theorem same_substitute (hvw : v.same w = true) (hf : ∀ o ∈ v.claims, (f o).same (f o) = true) :
    (v.substitute f).same (w.substitute f) = true := by
  induction v using Value.induction generalizing w with
  | seq items ih =>
    obtain ⟨ys, rfl, hys⟩ := same_seq_iff.mp hvw
    rw [substitute, substitute, substituteItems_eq, substituteItems_eq]
    refine same_seq_iff.mpr ⟨_, rfl,
      List.forall₂_map_left_iff.mpr (List.forall₂_map_right_iff.mpr ?_)⟩
    refine (List.forall₂_iff_get.mpr ⟨hys.length_eq, fun i hi hi' => ?_⟩)
    have hmem := List.getElem_mem hi
    exact ih _ hmem (hys.get hi hi') fun o ho => hf o (mem_claims_seq.mpr ⟨_, hmem, ho⟩)
  | map entries ih =>
    obtain ⟨ys, rfl, hlen, hys⟩ := same_map_iff.mp hvw
    rw [substitute, substitute, substituteEntries_eq, substituteEntries_eq]
    refine same_map_iff.mpr ⟨_, rfl, by rw [List.length_map, List.length_map, hlen], fun d hd => ?_⟩
    obtain ⟨e, he, rfl⟩ := List.mem_map.mp hd
    obtain ⟨u, hu, heu⟩ := hys e he
    refine ⟨u.substitute f, by rw [Assoc.find?_map, hu, Option.map_some], ?_⟩
    exact ih e he heu fun o ho => hf o (mem_claims_map.mpr ⟨e, he, ho⟩)
  | object h =>
    obtain ⟨h', rfl, hh⟩ := same_object_iff.mp hvw
    rw [substitute, substitute, ← hh]
    exact hf h.obj List.mem_cons_self
  | null | bool x | int n | float bits | text s | bytes bytes =>
    obtain rfl := (same_scalar_iff (by trivial)).mp hvw
    exact hvw

/-- Wrappers in the place of the objects that they wrap make no difference. -/
theorem substitute_same (hv : v.Distinct)
    (hf : ∀ h : HostRef, h.obj ∈ v.claims → (f h.obj).same (.object h) = true) :
    (v.substitute f).same v = true := by
  induction hv with
  | seq hitems ih =>
    rw [substitute, substituteItems_eq]
    refine same_seq_iff.mpr ⟨_, rfl,
      List.forall₂_map_left_iff.mpr (List.forall₂_same.mpr fun v hv => ?_)⟩
    exact ih v hv fun h hh => hf h (mem_claims_seq.mpr ⟨v, hv, hh⟩)
  | map hkeys hentries ih =>
    rw [substitute, substituteEntries_eq]
    refine same_map_iff.mpr ⟨_, rfl, List.length_map _, fun d hd => ?_⟩
    obtain ⟨e, he, rfl⟩ := List.mem_map.mp hd
    refine ⟨e.2, Assoc.find?_of_mem hkeys he, ?_⟩
    exact ih e he fun h hh => hf h (mem_claims_map.mpr ⟨e, he, hh⟩)
  | object h => exact hf h List.mem_cons_self
  | null | bool b | int n | float bits | text s | bytes b =>
    exact (same_scalar_iff (by trivial)).mpr rfl

end Value

end ObjectBridge
