import ObjectBridge.Proofs.ValueEquality

set_option autoImplicit false

/-!
# Values by position (SPEC §12.3)

A position leads into a value by the indices of sequences and the keys of maps.  What stands there
is a node: the kind, with the content of a scalar and the identity of an object.  Nodes say nothing
of wrappers, and positions nothing of the order in which a map lists its entries.  Equality of
values is equality of nodes at all positions.
-/

namespace ObjectBridge

/-! ## Lists by index -/

section Related

variable {α β : Type} {R S : α → β → Prop}

/-- Lists are related member by member exactly if what they have at each index is. -/
theorem forall₂_iff_getElem? {xs : List α} {ys : List β} :
    List.Forall₂ R xs ys ↔ ∀ i : Nat, Option.Rel R xs[i]? ys[i]? := by
  constructor
  · intro hall
    induction hall with
    | nil => exact fun _ => .none
    | cons hxy _ ih =>
      intro i
      cases i with
      | zero => exact .some hxy
      | succ i => exact ih i
  · intro hrel
    induction xs generalizing ys with
    | nil =>
      cases ys with
      | nil => exact .nil
      | cons y ys => cases hrel 0
    | cons x xs ih =>
      cases ys with
      | nil => cases hrel 0
      | cons y ys =>
        cases hrel 0 with
        | some hxy => exact .cons hxy (ih fun i => hrel (i + 1))

theorem rel_congr {x : Option α} {y : Option β}
    (hRS : ∀ a b, x = some a → y = some b → (R a b ↔ S a b)) :
    Option.Rel R x y ↔ Option.Rel S x y := by
  cases x with
  | none =>
    cases y with
    | none => exact ⟨fun _ => .none, fun _ => .none⟩
    | some b => exact ⟨nofun, nofun⟩
  | some a =>
    cases y with
    | none => exact ⟨nofun, nofun⟩
    | some b => exact Option.rel_some_some.trans ((hRS a b rfl rfl).trans Option.rel_some_some.symm)

end Related

/-! ## Nodes -/

/-- One step into a value. -/
inductive Branch where
  | item (i : Nat)
  | key (k : String)
  deriving DecidableEq, Repr

/-- A place in a value, as the steps that lead to it. -/
abbrev Position := List Branch

/-- What stands at a position, without what is below it. -/
inductive Node where
  | null
  | bool (b : Bool)
  | int (n : Int)
  | float (bits : UInt64)
  | text (s : String)
  | bytes (b : List UInt8)
  | seq
  | map
  | object (o : ObjId)
  deriving DecidableEq, Repr

/-- The nodes of something without parts. -/
def Node.only (n : Node) : Position → Option Node
  | [] => some n
  | _ :: _ => none

section Parts

variable {α β : Type} {f : α → Position → Option Node} {g : β → Position → Option Node}

/-- The nodes of a sequence, from those of its elements. -/
def itemNodes (f : α → Position → Option Node) (xs : List α) : Position → Option Node
  | [] => some .seq
  | .item i :: p => xs[i]?.bind fun x => f x p
  | .key _ :: _ => none

/-- The nodes of a map, from those of its values. -/
def entryNodes (f : α → Position → Option Node) (es : List (String × α)) : Position → Option Node
  | [] => some .map
  | .key k :: p => (Assoc.find? k es).bind fun x => f x p
  | .item _ :: _ => none

/-- What is there on both sides has the same nodes, if something stands at the root of everything.
-/
theorem bind_nodes_eq_iff (hf : ∀ x, (f x []).isSome) (hg : ∀ y, (g y []).isSome) {x : Option α}
    {y : Option β} :
    (∀ p, (x.bind fun a => f a p) = y.bind fun b => g b p) ↔
      Option.Rel (fun a b => f a = g b) x y := by
  cases x with
  | none =>
    cases y with
    | none => exact ⟨fun _ => .none, fun _ _ => rfl⟩
    | some b =>
      refine ⟨fun h => absurd (h []) ?_, nofun⟩
      exact (Option.ne_none_iff_isSome.mpr (hg b)).symm
  | some a =>
    cases y with
    | none =>
      refine ⟨fun h => absurd (h []) ?_, nofun⟩
      exact Option.ne_none_iff_isSome.mpr (hf a)
    | some b =>
      rw [Option.rel_some_some]
      exact funext_iff.symm

theorem itemNodes_eq_iff (hf : ∀ x, (f x []).isSome) (hg : ∀ y, (g y []).isSome) {xs : List α}
    {ys : List β} :
    itemNodes f xs = itemNodes g ys ↔ List.Forall₂ (fun x y => f x = g y) xs ys := by
  rw [forall₂_iff_getElem?]
  simp only [← bind_nodes_eq_iff hf hg]
  refine ⟨fun h i p => congrFun h (.item i :: p), fun h => funext fun p => ?_⟩
  cases p with
  | nil => rfl
  | cons step p =>
    cases step with
    | item i => exact h i p
    | key k => rfl

theorem entryNodes_eq_iff (hf : ∀ x, (f x []).isSome) (hg : ∀ y, (g y []).isSome)
    {xs : List (String × α)} {ys : List (String × β)} :
    entryNodes f xs = entryNodes g ys ↔
      ∀ k, Option.Rel (fun x y => f x = g y) (Assoc.find? k xs) (Assoc.find? k ys) := by
  simp only [← bind_nodes_eq_iff hf hg]
  refine ⟨fun h k p => congrFun h (.key k :: p), fun h => funext fun p => ?_⟩
  cases p with
  | nil => rfl
  | cons step p =>
    cases step with
    | item i => rfl
    | key k => exact h k p

/-- The order of the entries makes no difference. -/
theorem entryNodes_of_perm {xs ys : List (String × α)} (hperm : ys.Perm xs)
    (hkeys : (Assoc.keys xs).Nodup) :
    entryNodes f ys = entryNodes f xs := by
  funext p
  cases p with
  | nil => rfl
  | cons step p =>
    cases step with
    | item i => rfl
    | key k => rw [entryNodes, entryNodes, Assoc.find?_of_perm hperm hkeys]

end Parts

namespace Value

/-- What a value is, without what is inside of it. -/
def node : Value → Node
  | null => .null
  | bool b => .bool b
  | int n => .int n.toInt
  | float bits => .float bits
  | text s => .text s
  | bytes b => .bytes b
  | seq _ => .seq
  | map _ => .map
  | object h => .object h.obj

/-- What stands at a position of a value. -/
def nodeAt : Value → Position → Option Node
  | v, [] => some v.node
  | seq items, .item i :: p => items[i]?.bind fun v => v.nodeAt p
  | map entries, .key k :: p => (Assoc.find? k entries).bind fun v => v.nodeAt p
  | _, _ :: _ => none

variable {a b c : Value}

theorem isSome_nodeAt_nil (v : Value) : (v.nodeAt []).isSome := by simp [nodeAt]

theorem nodeAt_seq (items : List Value) : (seq items).nodeAt = itemNodes nodeAt items := by
  funext p
  cases p with
  | nil => rfl
  | cons step p => cases step <;> rfl

theorem nodeAt_map (entries : List (String × Value)) :
    (map entries).nodeAt = entryNodes nodeAt entries := by
  funext p
  cases p with
  | nil => rfl
  | cons step p => cases step <;> rfl

theorem nodeAt_object (h : HostRef) : (object h).nodeAt = (Node.object h.obj).only := by
  funext p
  cases p with
  | nil => rfl
  | cons step p => cases step <;> rfl

theorem nodeAt_scalar (ha : a.IsScalar) : a.nodeAt = a.node.only := by
  funext p
  cases p with
  | nil => cases a <;> rfl
  | cons step p =>
    cases a with
    | seq items | map entries | object h => exact ha.elim
    | null | bool x | int n | float bits | text s | bytes bytes => cases step <;> rfl

theorem distinct_of_isScalar (ha : a.IsScalar) : a.Distinct := by
  cases a with
  | seq items | map entries | object h => exact ha.elim
  | _ => constructor

theorem claims_of_isScalar (ha : a.IsScalar) : a.claims = [] := by
  cases a with
  | seq items | map entries | object h => exact ha.elim
  | _ => rfl

theorem node_eq_of_nodeAt (hab : a.nodeAt = b.nodeAt) : a.node = b.node := by
  have hroot := congrFun hab []
  simpa [nodeAt] using hroot

/-- A scalar is all in its node. -/
theorem eq_of_node (ha : a.IsScalar) (hab : a.node = b.node) : a = b := by
  cases a with
  | seq items | map entries | object h => exact ha.elim
  | null | bool x | int n | float bits | text s | bytes bytes =>
    cases b <;> simp_all [node, Int64.toInt_inj]

/-! ## Equality -/

/-- Maps are equal exactly if they have the same keys with equal values, in whatever order. -/
theorem same_map_iff_find? {xs ys : List (String × Value)} (hxs : (Assoc.keys xs).Nodup)
    (hys : (Assoc.keys ys).Nodup) :
    (map xs).same (map ys) = true ↔
      ∀ k, Option.Rel (fun v w => v.same w = true) (Assoc.find? k xs) (Assoc.find? k ys) := by
  constructor
  · intro hsame k
    obtain ⟨_, heq, hlen, hfind⟩ := same_map_iff.mp hsame
    obtain rfl := Value.map.inj heq
    cases hx : Assoc.find? k xs with
    | some v =>
      obtain ⟨w, hw, hvw⟩ := hfind (k, v) (Assoc.mem_of_find? hx)
      rw [hw]
      exact .some hvw
    | none =>
      have hnone : Assoc.find? k ys = none := by
        rw [Assoc.find?_eq_none_iff] at hx ⊢
        exact fun hmem => hx ((keys_perm_of_same hxs hlen hfind).mem_iff.mpr hmem)
      rw [hnone]
      exact .none
  · intro hrel
    have hfound : ∀ e ∈ xs, ∃ w, Assoc.find? e.1 ys = some w ∧ e.2.same w = true := by
      intro e he
      have hfound := hrel e.1
      rw [Assoc.find?_of_mem hxs he] at hfound
      generalize Assoc.find? e.1 ys = y at hfound ⊢
      cases hfound with
      | some hew => exact ⟨_, rfl, hew⟩
    have hkeys : (Assoc.keys xs).Perm (Assoc.keys ys) := by
      refine (List.perm_ext_iff_of_nodup hxs hys).mpr fun k => not_iff_not.mp ?_
      rw [← Assoc.find?_eq_none_iff, ← Assoc.find?_eq_none_iff]
      have hboth := hrel k
      generalize Assoc.find? k xs = x, Assoc.find? k ys = y at hboth ⊢
      cases hboth <;> simp
    have hlen : xs.length = ys.length := by
      have heq := hkeys.length_eq
      rwa [Assoc.keys, Assoc.keys, List.length_map, List.length_map] at heq
    exact same_map_iff.mpr ⟨ys, rfl, hlen, hfound⟩

/-- Values are equal exactly if the same stands at every position of them. -/
theorem same_iff_nodeAt (ha : a.Distinct) (hb : b.Distinct) :
    a.same b = true ↔ a.nodeAt = b.nodeAt := by
  -- kinds that differ show at the root; otherwise it is a matter of the members, index by index or
  -- key by key
  induction ha generalizing b with
  | @seq xs _ ih =>
    cases hb with
    | @seq ys hys =>
      rw [nodeAt_seq, nodeAt_seq, itemNodes_eq_iff isSome_nodeAt_nil isSome_nodeAt_nil, same,
        sameItems_iff, forall₂_iff_getElem?, forall₂_iff_getElem?]
      refine forall_congr' fun i => rel_congr fun v w hv hw => ?_
      exact ih v (List.mem_of_getElem? hv) (hys w (List.mem_of_getElem? hw))
    | _ => exact ⟨nofun, fun h => by cases node_eq_of_nodeAt h⟩
  | @map xs hkeys _ ih =>
    cases hb with
    | @map ys hkeys' hys =>
      rw [nodeAt_map, nodeAt_map, entryNodes_eq_iff isSome_nodeAt_nil isSome_nodeAt_nil,
        same_map_iff_find? hkeys hkeys']
      refine forall_congr' fun k => rel_congr fun v w hv hw => ?_
      exact ih (k, v) (Assoc.mem_of_find? hv) (hys (k, w) (Assoc.mem_of_find? hw))
    | _ => exact ⟨nofun, fun h => by cases node_eq_of_nodeAt h⟩
  | object r =>
    rw [same_object_iff]
    constructor
    · rintro ⟨r', rfl, hr⟩
      rw [nodeAt_object, nodeAt_object, hr]
    · intro h
      have hnode : Node.object r.obj = b.node := node_eq_of_nodeAt h
      cases b with
      | object r' => exact ⟨r', rfl, Node.object.inj hnode⟩
      | _ => cases hnode
  | null | bool x | int n | float bits | text s | bytes bytes =>
    rw [same_scalar_iff (by trivial)]
    exact ⟨fun h => h ▸ rfl, fun h => eq_of_node (by trivial) (node_eq_of_nodeAt h)⟩

/-- The order of the entries makes no difference. -/
theorem same_map_of_perm {xs ys : List (String × Value)} (hxs : (map xs).Distinct)
    (hperm : ys.Perm xs) :
    (map xs).same (map ys) = true := by
  have hself := same_refl hxs
  cases hxs with
  | map hkeys _ =>
    have hkeys' : (Assoc.keys ys).Nodup := (hperm.map Prod.fst).nodup_iff.mpr hkeys
    rw [same_map_iff_find? hkeys hkeys']
    intro k
    rw [Assoc.find?_of_perm hperm hkeys]
    exact (same_map_iff_find? hkeys hkeys).mp hself k

/-- Equality of values is an equivalence.  It decides whether the same stands at every position: the
same kind, with the same content of scalars and the same objects, elements at the same indices and
entries under the same keys.  The order in which entries are listed makes no difference. -/
theorem same_decides_content (ha : a.Distinct) (hb : b.Distinct) :
    a.same a = true ∧ (a.same b = true ↔ b.same a = true) ∧
    (a.same b = true → b.same c = true → a.same c = true) ∧
      (a.same b = true ↔ ∀ p, a.nodeAt p = b.nodeAt p) ∧
      ∀ xs ys, a = .map xs → ys.Perm xs → a.same (.map ys) = true := by
  refine ⟨same_refl ha, ⟨same_symm ha, same_symm hb⟩, same_trans,
    (same_iff_nodeAt ha hb).trans funext_iff, ?_⟩
  rintro xs ys rfl hperm
  exact same_map_of_perm ha hperm

/-- A NaN, and a map with an object in it. -/
def listed : Value :=
  .seq [.float 0x7ff8000000000001, .map [("x", .int 1), ("y", .object ⟨.str, ⟨3⟩⟩)]]

/-- The same with the entries in the other order and another wrapper around the object. -/
def relisted : Value :=
  .seq [.float 0x7ff8000000000001, .map [("y", .object ⟨.object, ⟨3⟩⟩), ("x", .int 1)]]

theorem listed_distinct : listed.Distinct := by
  refine .seq ?_
  simp only [List.forall_mem_cons]
  refine ⟨.float _, .map (by decide) ?_, nofun⟩
  simp only [List.forall_mem_cons]
  exact ⟨.int _, .object _, nofun⟩

theorem relisted_distinct : relisted.Distinct := by
  refine .seq ?_
  simp only [List.forall_mem_cons]
  refine ⟨.float _, .map (by decide) ?_, nofun⟩
  simp only [List.forall_mem_cons]
  exact ⟨.object _, .int _, nofun⟩

/-- The two are equal, and neither is equal to a value with another NaN. -/
theorem same_decides_content_of_listed :
    listed.same relisted = true ∧ relisted.same listed = true ∧
    (∀ p, listed.nodeAt p = relisted.nodeAt p) ∧
      ¬ ∀ p, listed.nodeAt p = (Value.float 0x7ff8000000000000).nodeAt p := by
  have hsame : listed.same relisted = true := by decide +kernel
  obtain ⟨-, hsymm, -, hnodes, -⟩ :=
    same_decides_content (c := .null) listed_distinct relisted_distinct
  obtain ⟨-, -, -, hnodes', -⟩ :=
    same_decides_content (c := .null) listed_distinct (.float 0x7ff8000000000000)
  exact ⟨hsame, hsymm.mp hsame, hnodes.mp hsame, hnodes'.not.mp (by decide +kernel)⟩

end Value

end ObjectBridge
