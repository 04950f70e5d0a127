import ObjectBridge.Proofs.Building

set_option autoImplicit false

/-!
# The objects made for a value (SPEC §4.3)

What `Value.forms` lists: objects with one claim each, which hold one another only in the order of
their identities and so form no ring, and which hold every other object as often as the value does.
-/

namespace ObjectBridge

/-- An object with one claim, of a class whose objects are counted. -/
structure Obj.New (x : Obj) : Prop where
  count : x.count = 1
  mortal : x.cls.isImmortal = false

theorem Obj.New.of_class {c : Class} (hc : c.isImmortal = false) (q : Payload) :
    Obj.New ⟨c, 1, q⟩ := ⟨rfl, hc⟩

namespace Value

variable {t : ObjId × ObjId} {sum : String → UInt64} {v : Value} {k : Nat} {q : ObjId}

theorem new_formsOfItems {items : List Value} (hi : ∀ v ∈ items, ∀ k, ∀ x ∈ forms t sum k v, x.New)
    (k : Nat) :
    ∀ x ∈ formsOfItems t sum k items, x.New := by
  induction items generalizing k with
  | nil => exact nofun
  | cons v rest ih =>
    intro x hx
    rcases List.mem_append.mp hx with hv | hrest
    · exact hi v List.mem_cons_self k x hv
    · exact ih (fun w hw => hi w (List.mem_cons_of_mem v hw)) _ x hrest

theorem new_formsOfEntries {entries : List (String × Value)}
    (he : ∀ e ∈ entries, ∀ k, ∀ x ∈ forms t sum k e.2, x.New) (k : Nat) :
    ∀ x ∈ formsOfEntries t sum k entries, x.New := by
  induction entries generalizing k with
  | nil => exact nofun
  | cons e rest ih =>
    intro x hx
    rcases List.mem_append.mp hx with hv | hrest
    · exact he e List.mem_cons_self k x hv
    · rcases List.mem_cons.mp hrest with rfl | hrest
      · exact .of_class rfl _
      · exact ih (fun w hw => he w (List.mem_cons_of_mem e hw)) _ x hrest

/-- Everything that is made for a value is new. -/
theorem new_forms (v : Value) (k : Nat) : ∀ x ∈ forms t sum k v, x.New := by
  induction v using Value.induction generalizing k with
  | null | bool b | object h => exact nofun
  | int n | float bits | text s | bytes bytes =>
    intro x hx
    rw [List.mem_singleton.mp hx]
    exact .of_class rfl _
  | seq items ih =>
    intro x hx
    rcases List.mem_cons.mp hx with rfl | hx
    · exact .of_class rfl _
    · exact new_formsOfItems ih _ x hx
  | map entries ih =>
    intro x hx
    rcases List.mem_cons.mp hx with rfl | hx
    · exact .of_class rfl _
    · exact new_formsOfEntries ih _ x hx

/-- Where the claims of the objects made for a value may go: to an object in the value, to a truth
value, or to a new object from `n` on. -/
def Points (t : ObjId × ObjId) (claims : List ObjId) (n : Nat) (q : ObjId) : Prop :=
  q ∈ claims ∨ (q = t.1 ∨ q = t.2) ∨ n ≤ q.index

theorem Points.mono {claims claims' : List ObjId} {n n' : Nat} (hq : Points t claims n q)
    (hsub : ∀ o ∈ claims, o ∈ claims') (hn : n' ≤ n) : Points t claims' n' q :=
  hq.imp (hsub q) (Or.imp id hn.trans)

theorem points_root (hq : q ∈ v.root t k) : Points t v.claims k q := by
  cases v with
  | null => cases hq
  | bool x =>
    cases hq
    cases x with
    | false => exact .inr (.inl (.inl rfl))
    | true => exact .inr (.inl (.inr rfl))
  | object h =>
    cases hq
    exact .inl List.mem_cons_self
  | int n | float bits | text s | bytes bytes | seq items | map entries =>
    cases hq
    exact .inr (.inr le_rfl)

theorem points_itemRoots {items : List Value} (hq : q ∈ (itemRoots t k items).filterMap id) :
    Points t (claimsOfItems items) k q := by
  induction items generalizing k with
  | nil => cases hq
  | cons v rest ih =>
    obtain ⟨e, he, heq⟩ := List.mem_filterMap.mp hq
    rcases List.mem_cons.mp he with rfl | hmem
    · exact (points_root heq).mono (fun _ => List.mem_append_left _) le_rfl
    · have hrest := ih (List.mem_filterMap.mpr ⟨e, hmem, heq⟩)
      exact hrest.mono (fun _ => List.mem_append_right _) (Nat.le_add_right _ _)

theorem points_entryRoots {entries : List (String × Value)}
    (hq : q ∈ (entryRoots t k entries).flatMap fun e => e.2.claims) :
    Points t (claimsOfEntries entries) k q := by
  induction entries generalizing k with
  | nil => cases hq
  | cons e rest ih =>
    obtain ⟨key, v⟩ := e
    rcases List.mem_append.mp hq with hentry | hrest
    · rcases List.mem_cons.mp hentry with rfl | hvalue
      · exact .inr (.inr (Nat.le_add_right _ _))
      · exact (points_root (Option.mem_toList.mp hvalue)).mono
          (fun _ => List.mem_append_left _) le_rfl
    · exact (ih hrest).mono (fun _ => List.mem_append_right _) (by omega)

/-- The claims of the object at a place go to the value's own objects or to later places. -/
def PointsOn (t : ObjId × ObjId) (claims : List ObjId) (k : Nat) (xs : List Obj) : Prop :=
  ∀ i x, xs[i]? = some x → ∀ q ∈ x.payload.claims, Points t claims (k + i + 1) q

theorem PointsOn.append {claims : List ObjId} {xs ys : List Obj} (hx : PointsOn t claims k xs)
    (hy : PointsOn t claims (k + xs.length) ys) : PointsOn t claims k (xs ++ ys) := by
  intro i x hi q hq
  by_cases hlt : i < xs.length
  · rw [List.getElem?_append_left hlt] at hi
    exact hx i x hi q hq
  · rw [List.getElem?_append_right (by omega)] at hi
    exact (hy _ x hi q hq).mono (fun _ h => h) (by omega)

theorem PointsOn.mono {claims claims' : List ObjId} {xs : List Obj} (hx : PointsOn t claims k xs)
    (hsub : ∀ o ∈ claims, o ∈ claims') : PointsOn t claims' k xs :=
  fun i x hi q hq => (hx i x hi q hq).mono hsub le_rfl

theorem PointsOn.cons {claims : List ObjId} {x : Obj} {xs : List Obj}
    (hx : ∀ q ∈ x.payload.claims, Points t claims (k + 1) q) (hxs : PointsOn t claims (k + 1) xs) :
    PointsOn t claims k (x :: xs) := by
  intro i y hi q hq
  cases i with
  | zero =>
    cases hi
    exact hx q hq
  | succ i => exact (hxs i y hi q hq).mono (fun _ h => h) (by omega)

theorem pointsOn_formsOfItems {items : List Value}
    (hi : ∀ v ∈ items, ∀ k, PointsOn t v.claims k (forms t sum k v)) :
    PointsOn t (claimsOfItems items) k (formsOfItems t sum k items) := by
  induction items generalizing k with
  | nil => exact nofun
  | cons v rest ih =>
    refine ((hi v List.mem_cons_self k).mono fun _ => List.mem_append_left _).append ?_
    rw [length_forms]
    exact (ih fun w hw => hi w (List.mem_cons_of_mem v hw)).mono fun _ => List.mem_append_right _

theorem pointsOn_formsOfEntries {entries : List (String × Value)}
    (he : ∀ e ∈ entries, ∀ k, PointsOn t e.2.claims k (forms t sum k e.2)) :
    PointsOn t (claimsOfEntries entries) k (formsOfEntries t sum k entries) := by
  induction entries generalizing k with
  | nil => exact nofun
  | cons e rest ih =>
    refine ((he e List.mem_cons_self k).mono fun _ => List.mem_append_left _).append
      (.cons nofun ?_)
    rw [length_forms]
    exact (ih fun w hw => he w (List.mem_cons_of_mem e hw)).mono fun _ => List.mem_append_right _

/-- New objects hold one another only in the order of their identities. -/
theorem pointsOn_forms (v : Value) (k : Nat) : PointsOn t v.claims k (forms t sum k v) := by
  induction v using Value.induction generalizing k with
  | null | bool b | object h => exact nofun
  | int n | float bits | text s | bytes bytes => exact .cons nofun nofun
  | seq items ih => exact .cons (fun q hq => points_itemRoots hq) (pointsOn_formsOfItems ih)
  | map entries ih =>
    refine .cons (fun q hq => points_entryRoots ?_) (pointsOn_formsOfEntries ih)
    exact (Buckets.perm_claims_addAll sum _).mem_iff.mp hq

/-! ## Claims on objects that were there before -/

/-- The claims that some objects hold. -/
def heldBy (xs : List Obj) : List ObjId := xs.flatMap fun x => x.payload.claims

section Counts

variable {p : ObjId} (hno : p ≠ t.1) (hyes : p ≠ t.2)

theorem count_heldBy_cons (x : Obj) (xs : List Obj) :
    (heldBy (x :: xs)).count p = x.payload.claims.count p + (heldBy xs).count p := by
  unfold heldBy
  rw [List.flatMap_cons, List.count_append]

theorem count_heldBy_append (xs ys : List Obj) :
    (heldBy (xs ++ ys)).count p = (heldBy xs).count p + (heldBy ys).count p := by
  unfold heldBy
  rw [List.flatMap_append, List.count_append]

theorem count_filterMap_cons (e : Option ObjId) (es : List (Option ObjId)) :
    ((e :: es).filterMap id).count p = e.toList.count p + (es.filterMap id).count p := by
  cases e with
  | none => simp
  | some o => simp [List.count_cons, Nat.add_comm]

theorem count_new (hp : p.index < k) : [(⟨k⟩ : ObjId)].count p = 0 := by
  refine List.count_eq_zero.mpr fun hmem => ?_
  rw [List.mem_singleton.mp hmem] at hp
  exact Nat.lt_irrefl k hp

theorem count_formsOfItems {items : List Value}
    (hi : ∀ v ∈ items, ∀ k, p.index < k →
      (v.root t k).toList.count p + (heldBy (forms t sum k v)).count p = v.claims.count p)
      (hp : p.index < k) :
    ((itemRoots t k items).filterMap id).count p + (heldBy (formsOfItems t sum k items)).count p =
      (claimsOfItems items).count p := by
  induction items generalizing k with
  | nil => rfl
  | cons v rest ih =>
    have hv := hi v List.mem_cons_self k hp
    have hrest := ih (k := k + v.size) (fun w hw => hi w (List.mem_cons_of_mem v hw)) (by omega)
    unfold itemRoots formsOfItems claimsOfItems
    rw [count_filterMap_cons, count_heldBy_append, List.count_append]
    omega

theorem count_formsOfEntries {entries : List (String × Value)}
    (he : ∀ e ∈ entries, ∀ k, p.index < k →
      (e.2.root t k).toList.count p + (heldBy (forms t sum k e.2)).count p = e.2.claims.count p)
      (hp : p.index < k) :
    ((entryRoots t k entries).flatMap fun e => e.2.claims).count p +
        (heldBy (formsOfEntries t sum k entries)).count p =
      (claimsOfEntries entries).count p := by
  induction entries generalizing k with
  | nil => rfl
  | cons e rest ih =>
    obtain ⟨key, v⟩ := e
    have hv : (v.root t k).toList.count p + (heldBy (forms t sum k v)).count p = v.claims.count p :=
      he (key, v) List.mem_cons_self k hp
    have hrest := ih (k := k + v.size + 1) (fun w hw => he w (List.mem_cons_of_mem _ hw)) (by omega)
    have hkey : [(⟨k + v.size⟩ : ObjId)].count p = 0 := count_new (by omega)
    have hentry : (HashEntry.claims ⟨⟨k + v.size⟩, v.root t k⟩).count p =
        (v.root t k).toList.count p := by
      rw [HashEntry.claims, ← List.singleton_append, List.count_append, hkey, Nat.zero_add]
    have hstring : (Payload.string key).claims.count p = 0 := rfl
    unfold entryRoots formsOfEntries claimsOfEntries
    rw [List.flatMap_cons, List.count_append, hentry, count_heldBy_append,
      count_heldBy_cons, hstring, List.count_append]
    omega

include hno hyes in
/-- The objects made for a value, and whoever gets the result, hold as many claims on an object that
was there before as the value does; truth values apart. -/
theorem count_forms (v : Value) (hp : p.index < k) :
    (v.root t k).toList.count p + (heldBy (forms t sum k v)).count p = v.claims.count p := by
  induction v using Value.induction generalizing k with
  | null => rfl
  | bool x =>
    cases x with
    | false => exact List.count_eq_zero.mpr fun hmem => hno (List.mem_singleton.mp hmem)
    | true => exact List.count_eq_zero.mpr fun hmem => hyes (List.mem_singleton.mp hmem)
  | object h => rfl
  | int n | float bits | text s | bytes bytes => exact count_new hp
  | seq items ih =>
    have hroot : ((seq items).root t k).toList.count p = 0 := count_new hp
    rw [hroot, forms, count_heldBy_cons, Nat.zero_add]
    exact count_formsOfItems (fun v hv k hk => ih v hv hk) (Nat.lt_succ_of_lt hp)
  | map entries ih =>
    have hroot : ((map entries).root t k).toList.count p = 0 := count_new hp
    rw [hroot, forms, count_heldBy_cons, Nat.zero_add]
    have hinside := (Buckets.perm_claims_addAll sum (entryRoots t (k + 1) entries)).count_eq p
    exact (congrArg (· + _) hinside).trans
      (count_formsOfEntries (fun e he k hk => ih e he hk) (Nat.lt_succ_of_lt hp))

end Counts

end Value

end ObjectBridge
