import ObjectBridge.Proofs.Lending
import ObjectBridge.Proofs.Positions
import ObjectBridge.Proofs.TypedRoundTrip

set_option autoImplicit false

/-!
# What data becomes (SPEC §12.3)

Data has nodes at positions as values have, and an option is no step: what is there stands where the
option stands. Data whose integers are in range becomes a value with the same nodes.  Otherwise an
integer that is out of range is reported, and in a list or in a map in key order no such integer
stands before it.
-/

namespace ObjectBridge

theorem exists_first {α : Type} {P : α → Prop} [DecidablePred P] {xs : List α}
    (hxs : ¬ ∀ x ∈ xs, P x) :
    ∃ before x after, xs = before ++ x :: after ∧ (∀ y ∈ before, P y) ∧ ¬ P x := by
  cases hfind : xs.find? fun x => !decide (P x) with
  | none => exact absurd (by simpa using List.find?_eq_none.mp hfind) hxs
  | some x =>
    obtain ⟨hx, before, after, rfl, hbefore⟩ := List.find?_eq_some_iff_append.mp hfind
    exact ⟨before, x, after, rfl, by simpa using hbefore, by simpa using hx⟩

/-! ## Integers out of range -/

/-- The integer at a position is none that a value can hold. -/
def Exceeds (nodes : Position → Option Node) (p : Position) (n : Int) : Prop :=
  nodes p = some (.int n) ∧ ¬ (-2 ^ 63 ≤ n ∧ n ≤ 2 ^ 63 - 1)

section Parts

variable {α : Type} {f : α → Position → Option Node} {p : Position} {n : Int}

theorem exceeds_itemNodes {xs : List α} :
    Exceeds (itemNodes f xs) p n ↔ ∃ i x q, p = .item i :: q ∧ xs[i]? = some x ∧ Exceeds
      (f x) q n := by
  constructor
  · rintro ⟨hnode, hout⟩
    cases p with
    | nil => cases hnode
    | cons step q =>
      cases step with
      | item i =>
        obtain ⟨x, hx, hnode⟩ := Option.bind_eq_some_iff.mp hnode
        exact ⟨i, x, q, rfl, hx, hnode, hout⟩
      | key k => cases hnode
  · rintro ⟨i, x, q, rfl, hx, hnode, hout⟩
    exact ⟨Option.bind_eq_some_iff.mpr ⟨x, hx, hnode⟩, hout⟩

theorem exceeds_entryNodes {es : List (String × α)} :
    Exceeds (entryNodes f es) p n ↔ ∃ k x q, p = .key k :: q ∧ Assoc.find? k es = some x ∧ Exceeds
      (f x) q n := by
  constructor
  · rintro ⟨hnode, hout⟩
    cases p with
    | nil => cases hnode
    | cons step q =>
      cases step with
      | item i => cases hnode
      | key k =>
        obtain ⟨x, hx, hnode⟩ := Option.bind_eq_some_iff.mp hnode
        exact ⟨k, x, q, rfl, hx, hnode, hout⟩
  · rintro ⟨k, x, q, rfl, hx, hnode, hout⟩
    exact ⟨Option.bind_eq_some_iff.mpr ⟨x, hx, hnode⟩, hout⟩

end Parts

theorem Value.not_exceeds (v : Value) (p : Position) (n : Int) : ¬ Exceeds v.nodeAt p n := by
  induction p generalizing v with
  | nil =>
    rintro ⟨hnode, hout⟩
    cases v with
    | int m =>
      obtain rfl : m.toInt = n := by simpa [nodeAt, node] using hnode
      exact hout ⟨Int64.le_toInt m, Int64.toInt_le m⟩
    | _ => simp [nodeAt, node] at hnode
  | cons step p ih =>
    intro hexceeds
    cases v with
    | seq items =>
      rw [nodeAt_seq, exceeds_itemNodes] at hexceeds
      obtain ⟨i, w, q, hp, -, hw⟩ := hexceeds
      obtain ⟨-, rfl⟩ := List.cons.inj hp
      exact ih w hw
    | map entries =>
      rw [nodeAt_map, exceeds_entryNodes] at hexceeds
      obtain ⟨k, w, q, hp, -, hw⟩ := hexceeds
      obtain ⟨-, rfl⟩ := List.cons.inj hp
      exact ih w hw
    | _ => cases step <;> cases hexceeds.1

/-! ## Data by position -/

namespace Ty

/-- What stands at a position of data. -/
def nodeAt : (t : Ty) → t.Carrier → Position → Option Node
  | int _, n => (Node.int n.1).only
  | float32, (w : UInt32) => (Node.float (Number.widen w)).only
  | float64, (w : UInt64) => (Node.float w).only
  | bool, (b : Bool) => (Node.bool b).only
  | text, (s : String) => (Node.text s).only
  | bytes, (b : List UInt8) => (Node.bytes b).only
  | value, (v : Value) => v.nodeAt
  | claim, (o : ObjId) => (Node.object o).only
  | host, (h : HostRef) => (Node.object h.obj).only
  | option t, (x : Option t.Carrier) =>
    match x with
    | none => Node.null.only
    | some y => t.nodeAt y
  | list t, (xs : List t.Carrier) => itemNodes t.nodeAt xs
  | dict t, (es : List (String × t.Carrier)) => entryNodes t.nodeAt es
  | sortedDict t, (es : List (String × t.Carrier)) => entryNodes t.nodeAt es

theorem isSome_nodeAt_nil (t : Ty) (x : t.Carrier) : (t.nodeAt x []).isSome := by
  induction t with
  | value => exact Value.isSome_nodeAt_nil x
  | option t ih =>
    cases x with
    | none => rfl
    | some y => exact ih y
  | _ => rfl

theorem claims_some {t : Ty} (x : t.Carrier) : (option t).claims (some x) = t.claims x :=
  List.append_nil _

/-- Maps have distinct keys, and maps in key order have them in order. -/
def Keyed : (t : Ty) → t.Carrier → Prop
  | value, (v : Value) => v.Distinct
  | option t, (x : Option t.Carrier) => ∀ y ∈ x, t.Keyed y
  | list t, (xs : List t.Carrier) => ∀ y ∈ xs, t.Keyed y
  | dict t, (es : List (String × t.Carrier)) => (Assoc.keys es).Nodup ∧ ∀ e ∈ es, t.Keyed e.2
  | sortedDict t, (es : List (String × t.Carrier)) =>
    (Assoc.keys es).Pairwise (· < ·) ∧ ∀ e ∈ es, t.Keyed e.2
  | int _, _ | float32, _ | float64, _ | bool, _ | text, _ | bytes, _ | claim, _ | host, _ => True

theorem nodup_of_ascending {ks : List String} (hks : ks.Pairwise (· < ·)) : ks.Nodup := by
  refine hks.imp fun hab => ?_
  rintro rfl
  exact String.lt_irrefl _ hab

section Nodes

variable {t : Ty}

/-- If nothing stands out of range, the data is in range. -/
theorem inRange_of_not_exceeds (x : t.Carrier) (hx : t.Keyed x)
    (hin : ∀ p n, ¬ Exceeds (t.nodeAt x) p n) :
    t.InRange x := by
  induction t with
  | int i =>
    by_contra hout
    exact hin [] x.1 ⟨rfl, hout⟩
  | float32 | float64 | bool | text | bytes | value | claim | host => trivial
  | option t ih =>
    rintro y rfl
    exact ih y (hx y rfl) hin
  | list t ih =>
    intro y hy
    obtain ⟨i, hi⟩ := List.mem_iff_getElem?.mp hy
    exact ih y (hx y hy) fun p n hexceeds =>
      hin _ n (exceeds_itemNodes.mpr ⟨i, y, p, rfl, hi, hexceeds⟩)
  | dict t ih =>
    intro e he
    have hfind := Assoc.find?_of_mem hx.1 he
    exact ih e.2 (hx.2 e he) fun p n hexceeds =>
      hin _ n (exceeds_entryNodes.mpr ⟨e.1, e.2, p, rfl, hfind, hexceeds⟩)
  | sortedDict t ih =>
    intro e he
    have hfind := Assoc.find?_of_mem (nodup_of_ascending hx.1) he
    exact ih e.2 (hx.2 e he) fun p n hexceeds =>
      hin _ n (exceeds_entryNodes.mpr ⟨e.1, e.2, p, rfl, hfind, hexceeds⟩)

/-! ## Data in range -/

/-- What data becomes in a state that wraps its objects with `f`: a value with the same nodes and
the same claims. -/
structure Encoded (f : ObjId → Wrapper) (t : Ty) (x : t.Carrier) (v : Value) : Prop where
  runs : ∀ b : Bridge, (∀ o ∈ t.claims x, b.WrapsWith o (f o)) →
    (t.encode x).run b = (.ok (.ok v), b)
  nodes : t.nodeAt x = v.nodeAt
  distinct : v.Distinct
  claims : v.claims = t.claims x

variable {f : ObjId → Wrapper}

theorem encoded_scalar {x : t.Carrier} {v : Value} (hv : v.IsScalar)
    (hruns : t.encode x = pure (.ok v)) (hnodes : t.nodeAt x = v.node.only)
    (hclaims : t.claims x = []) : Encoded f t x v := by
  refine ⟨fun b _ => hruns ▸ rfl, hnodes.trans (Value.nodeAt_scalar hv).symm,
    Value.distinct_of_isScalar hv, ?_⟩
  rw [hclaims, Value.claims_of_isScalar hv]

theorem encoded_list {xs : List t.Carrier} {vs : List Value}
    (hall : List.Forall₂ (Encoded f t) xs vs) :
    Encoded f (.list t) xs (.seq vs) := by
  refine ⟨fun b hb => ?_, ?_, .seq fun v hv => ?_, ?_⟩
  · have hruns : List.Forall₂ (fun x v => (t.encode x).run b = (.ok (.ok v), b)) xs vs :=
      forall₂_of_mem hall fun x hx v hv => hv.runs b fun o ho =>
        hb o (List.mem_flatMap.mpr ⟨x, hx, ho⟩)
    exact run_bind_of_ok (run_encodeAll hruns)
  · rw [Value.nodeAt_seq]
    exact (itemNodes_eq_iff t.isSome_nodeAt_nil Value.isSome_nodeAt_nil).mpr
      (hall.imp fun _ _ h => h.nodes)
  · obtain ⟨x, -, hx⟩ := exists_of_mem_right hall hv
    exact hx.distinct
  · rw [Value.claims, Value.claimsOfItems_eq]
    change _ = xs.flatMap t.claims
    induction hall with
    | nil => rfl
    | cons hxv _ ih => rw [List.flatMap_cons, List.flatMap_cons, hxv.claims, ih]

/-- The entries `ps` are what the entries `es` become. -/
def EncodedEntries (f : ObjId → Wrapper) (t : Ty) (es : List (String × t.Carrier))
    (ps : List (String × Value)) :
    Prop :=
  List.Forall₂ (fun e p => p.1 = e.1 ∧ Encoded f t e.2 p.2) es ps

section Entries

variable {es : List (String × t.Carrier)} {ps : List (String × Value)}

namespace EncodedEntries

theorem runs (hall : EncodedEntries f t es ps) {b : Bridge}
    (hb : ∀ e ∈ es, ∀ o ∈ t.claims e.2, b.WrapsWith o (f o)) :
    (encodeEntries t.encode t.drop es).run b = (.ok (.ok (.map ps)), b) := by
  have hruns : List.Forall₂ (fun e p => (withKey t.encode e).run b = (.ok (.ok p), b)) es ps :=
    forall₂_of_mem hall fun e he p hp => run_withKey hp.1 (hp.2.runs b (hb e he))
  unfold encodeEntries
  rw [run_bind_of_ok (run_encodeAll hruns)]
  rfl

theorem nodes (hall : EncodedEntries f t es ps) :
    entryNodes t.nodeAt es = (Value.map ps).nodeAt := by
  rw [Value.nodeAt_map, entryNodes_eq_iff t.isSome_nodeAt_nil Value.isSome_nodeAt_nil]
  exact Assoc.find?_rel (R := fun _ x v => t.nodeAt x = v.nodeAt)
    (hall.imp fun _ _ h => ⟨h.1, h.2.nodes⟩)

theorem distinct (hall : EncodedEntries f t es ps) (hkeys : (Assoc.keys es).Nodup) :
    (Value.map ps).Distinct := by
  have heq : Assoc.keys ps = Assoc.keys es := Assoc.keys_eq_of_forall₂ hall fun _ _ h => h.1
  refine .map (heq ▸ hkeys) fun p hp => ?_
  obtain ⟨e, -, he⟩ := exists_of_mem_right hall hp
  exact he.2.distinct

theorem claims (hall : EncodedEntries f t es ps) :
    (Value.map ps).claims = es.flatMap fun e => t.claims e.2 := by
  rw [Value.claims, Value.claimsOfEntries_eq]
  induction hall with
  | nil => rfl
  | cons hep _ ih => rw [List.flatMap_cons, List.flatMap_cons, hep.2.claims, ih]

end EncodedEntries

theorem exists_encodedEntries (hes : ∀ e ∈ es, ∃ v, Encoded f t e.2 v) :
    ∃ ps, EncodedEntries f t es ps := by
  refine exists_forall₂ fun e he => ?_
  obtain ⟨v, hv⟩ := hes e he
  exact ⟨(e.1, v), rfl, hv⟩

end Entries

/-- Data in range becomes a value. -/
theorem exists_encoded (f : ObjId → Wrapper) (x : t.Carrier) (hx : t.Keyed x) (hr : t.InRange x) :
    ∃ v, Encoded f t x v := by
  induction t with
  | int i =>
    refine ⟨.int (Int64.ofInt x.1), encoded_scalar trivial ?_ ?_ rfl⟩
    · exact congrArg pure (encodeInt_of_fits x.2 hr)
    · exact congrArg (fun n => (Node.int n).only) (toInt_ofInt hr).symm
  | float32 => exact ⟨.float (Number.widen x), encoded_scalar trivial rfl rfl rfl⟩
  | float64 => exact ⟨.float x, encoded_scalar trivial rfl rfl rfl⟩
  | bool => exact ⟨.bool x, encoded_scalar trivial rfl rfl rfl⟩
  | text => exact ⟨.text x, encoded_scalar trivial rfl rfl rfl⟩
  | bytes => exact ⟨.bytes x, encoded_scalar trivial rfl rfl rfl⟩
  | value => exact ⟨x, fun _ _ => rfl, rfl, hx, rfl⟩
  | claim =>
    refine ⟨.object ⟨f x, x⟩, fun b hb => ?_, (Value.nodeAt_object ⟨f x, x⟩).symm, .object _, rfl⟩
    have hruns : (Value.ofObject x).run b = (.ok (.object ⟨f x, x⟩), b) :=
      run_bind_of_ok (hb x List.mem_cons_self).run_dispatch
    exact run_bind_of_ok hruns
  | host => exact ⟨.object x, fun _ _ => rfl, (Value.nodeAt_object x).symm, .object _, rfl⟩
  | option t ih =>
    cases x with
    | none => exact ⟨.null, encoded_scalar trivial rfl rfl rfl⟩
    | some y =>
      obtain ⟨v, hv⟩ := ih y (hx y rfl) (hr y rfl)
      exact ⟨v, claims_some y ▸ hv.runs, hv.nodes, hv.distinct, claims_some y ▸ hv.claims⟩
  | list t ih =>
    obtain ⟨vs, hall⟩ := exists_forall₂ fun y hy => ih y (hx y hy) (hr y hy)
    exact ⟨.seq vs, encoded_list hall⟩
  | dict t ih =>
    obtain ⟨ps, hall⟩ := exists_encodedEntries fun e he => ih e.2 (hx.2 e he) (hr e he)
    refine ⟨.map ps, fun b hb => hall.runs fun e he o ho => ?_, hall.nodes, hall.distinct hx.1,
      hall.claims⟩
    exact hb o (List.mem_flatMap.mpr ⟨e, he, ho⟩)
  | sortedDict t ih =>
    obtain ⟨ps, hall⟩ := exists_encodedEntries fun e he => ih e.2 (hx.2 e he) (hr e he)
    refine ⟨.map ps, fun b hb => hall.runs fun e he o ho => ?_, hall.nodes,
      hall.distinct (nodup_of_ascending hx.1), hall.claims⟩
    exact hb o (List.mem_flatMap.mpr ⟨e, he, ho⟩)

theorem not_exceeds_of_inRange {x : t.Carrier} (hx : t.Keyed x) (hr : t.InRange x) (p : Position)
    (n : Int) :
    ¬ Exceeds (t.nodeAt x) p n := by
  obtain ⟨v, hv⟩ := exists_encoded (fun _ => .object) x hx hr
  rw [hv.nodes]
  exact v.not_exceeds p n

end Nodes

/-! ## Data out of range -/

/-- The type is built from integer types by options, lists and maps. -/
def Integral : Ty → Prop
  | int _ => True
  | option t | list t | dict t | sortedDict t => t.Integral
  | float32 | float64 | bool | text | bytes | value | claim | host => False

/-- The order in which data is encoded: lists by index, and maps in key order by key.  The entries
of a map without an order come in any order. -/
inductive Before : Ty → Position → Position → Prop
  | option {t : Ty} {p q : Position} (inside : Before t p q) : Before (.option t) p q
  | index {t : Ty} {i j : Nat} {p q : Position} (hij : i < j) :
    Before (.list t) (.item i :: p) (.item j :: q)
  | item {t : Ty} {i : Nat} {p q : Position} (inside : Before t p q) :
    Before (.list t) (.item i :: p) (.item i :: q)
  | entry {t : Ty} {k : String} {p q : Position} (inside : Before t p q) :
    Before (.dict t) (.key k :: p) (.key k :: q)
  | lower {t : Ty} {k l : String} {p q : Position} (hkl : k < l) :
    Before (.sortedDict t) (.key k :: p) (.key l :: q)
  | sortedEntry {t : Ty} {k : String} {p q : Position} (inside : Before t p q) :
    Before (.sortedDict t) (.key k :: p) (.key k :: q)

/-- The error names an integer that is out of range, and no such integer stands before it. -/
def ReportsFirst (t : Ty) (x : t.Carrier) (e : RangeError) : Prop :=
  ∃ p, Exceeds (t.nodeAt x) p e.value ∧ e.target = "i64" ∧ ∀ q n, Exceeds (t.nodeAt x) q n →
    ¬ t.Before q p

/-- The data is refused in every state, with a report of a first integer that is out of range. -/
def Refused (t : Ty) (x : t.Carrier) : Prop :=
  ∃ e, Yields (t.encode x) (.error e) ∧ t.ReportsFirst x e

theorem label_value : IntType.value.label = "i64" := by decide +kernel

variable {t : Ty}

theorem Integral.claims (ht : t.Integral) (x : t.Carrier) : t.claims x = [] := by
  induction t with
  | int i => rfl
  | float32 | float64 | bool | text | bytes | value | claim | host => exact ht.elim
  | option t ih => exact List.flatMap_eq_nil_iff.mpr fun y _ => ih ht y
  | list t ih => exact List.flatMap_eq_nil_iff.mpr fun y _ => ih ht y
  | dict t ih => exact List.flatMap_eq_nil_iff.mpr fun e _ => ih ht e.2
  | sortedDict t ih => exact List.flatMap_eq_nil_iff.mpr fun e _ => ih ht e.2

theorem Integral.keyed (ht : t.Integral) {x : t.Carrier} (hx : t.WellFormed x) : t.Keyed x := by
  induction t with
  | int i => trivial
  | float32 | float64 | bool | text | bytes | value | claim | host => exact ht.elim
  | option t ih => exact fun y hy => ih ht (hx y hy)
  | list t ih => exact fun y hy => ih ht (hx.2 y hy)
  | dict t ih => exact ⟨hx.1, fun e he => ih ht (hx.2 e he)⟩
  | sortedDict t ih => exact ⟨hx.1, fun e he => ih ht (hx.2 e he)⟩

theorem Integral.yields_drop (ht : t.Integral) (x : t.Carrier) : Yields (t.drop x) () := by
  unfold drop
  rw [ht.claims x]
  exact yields_releaseAll_nil

/-- Without objects in it, data in range becomes the same value in every state. -/
theorem Integral.exists_yields (ht : t.Integral) (x : t.Carrier) (hx : t.Keyed x)
    (hr : t.InRange x) :
    ∃ v, Yields (t.encode x) (.ok v) ∧ t.nodeAt x = v.nodeAt ∧ v.claims = [] := by
  obtain ⟨v, hv⟩ := exists_encoded (fun _ => .object) x hx hr
  have hfree := ht.claims x
  refine ⟨v, fun b => hv.runs b ?_, hv.nodes, hv.claims.trans hfree⟩
  rw [hfree]
  nofun

/-- Encoding a list fails with the first error. -/
theorem yields_encodeAll_error {α β : Type} {enc : α → Run (Except RangeError β)}
    {dropItem : α → Run Unit} {dropResult : β → Run Unit} {before after : List α} {x : α}
    {e : RangeError} (hbefore : ∀ y ∈ before, ∃ v, Yields (enc y) (.ok v) ∧
      Yields (dropResult v) ()) (hx : Yields (enc x) (.error e))
    (hafter : ∀ y ∈ after, Yields (dropItem y) ()) :
    Yields (encodeAll enc dropItem dropResult (before ++ x :: after)) (.error e) := by
  induction before with
  | nil =>
    have hrest : Yields (after.forM dropItem) () := by
      clear hbefore
      induction after with
      | nil => exact .pure _
      | cons y rest ih =>
        rw [List.forall_mem_cons] at hafter
        exact hafter.1.bind (ih hafter.2)
    exact (hx.onUnwind _).bind (hrest.bind (.pure _))
  | cons y rest ih =>
    rw [List.forall_mem_cons] at hbefore
    obtain ⟨⟨v, hv, hdrop⟩, hbefore⟩ := hbefore
    exact (hv.onUnwind _).bind (((ih hbefore).onUnwind _).bind (hdrop.bind (.pure _)))

theorem refused_list (ht : t.Integral) {xs : List t.Carrier} (hx : ∀ y ∈ xs, t.Keyed y)
    (hr : ¬ ∀ y ∈ xs, t.InRange y) (hout : ∀ y ∈ xs, ¬ t.InRange y → t.Refused y) :
    (Ty.list t).Refused xs := by
  obtain ⟨before, y, after, rfl, hbefore, hy⟩ := exists_first hr
  obtain ⟨e, hruns, p, hp, htarget, hfirst⟩ := hout y (by simp) hy
  refine ⟨e, ?_, .item before.length :: p, ?_, htarget, fun q n hq hle => ?_⟩
  · refine (yields_encodeAll_error (fun z hz => ?_) hruns fun z _ =>
      ht.yields_drop z).bind (.pure _)
    obtain ⟨v, hv, -, hfree⟩ := ht.exists_yields z (hx z (List.mem_append_left _ hz)) (hbefore z hz)
    exact ⟨v, hv, ObjectBridge.yields_drop hfree⟩
  · exact exceeds_itemNodes.mpr ⟨_, y, p, rfl, by simp, hp⟩
  · obtain ⟨i, z, r, rfl, hz, hr⟩ := exceeds_itemNodes.mp hq
    cases hle with
    | index hij =>
      -- the elements before are in range, so that nothing stands out there
      rw [List.getElem?_append_left hij] at hz
      have hzmem := List.mem_of_getElem? hz
      exact not_exceeds_of_inRange (hx z (List.mem_append_left _ hzmem)) (hbefore z hzmem) r n hr
    | item inside =>
      obtain rfl : y = z := by simpa using hz
      exact hfirst r n hr inside

section Entries

variable {es before after : List (String × t.Carrier)} {d e : String × t.Carrier} {err : RangeError}

/-- Encoding the entries of a map fails with the first error. -/
theorem yields_encodeEntries_error (ht : t.Integral)
    (hkeyed : ∀ d ∈ before ++ e :: after, t.Keyed d.2) (hbefore : ∀ d ∈ before, t.InRange d.2)
    (he : Yields (t.encode e.2) (.error err)) :
    Yields (encodeEntries t.encode t.drop (before ++ e :: after)) (.error err) := by
  have hfirst : ∀ d ∈ before, ∃ p, Yields (withKey t.encode d) (.ok p) ∧ Yields p.2.drop () := by
    intro d hd
    obtain ⟨v, hv, -, hfree⟩ :=
      ht.exists_yields d.2 (hkeyed d (List.mem_append_left _ hd)) (hbefore d hd)
    exact ⟨(d.1, v), yields_withKey ⟨rfl, hv⟩, ObjectBridge.yields_drop hfree⟩
  have hhere : Yields (withKey t.encode e) (.error err) := he.bind (.pure _)
  exact (yields_encodeAll_error hfirst hhere fun d _ => ht.yields_drop d.2).bind (.pure _)

/-- Of entries in key order, those with lower keys come before. -/
theorem mem_before_of_lt (hkeys : (Assoc.keys (before ++ e :: after)).Pairwise (· < ·))
    (hd : d ∈ before ++ e :: after) (hlt : d.1 < e.1) : d ∈ before := by
  rw [Assoc.keys, List.pairwise_map, List.pairwise_append, List.pairwise_cons] at hkeys
  obtain ⟨-, ⟨hafter, -⟩, -⟩ := hkeys
  rcases List.mem_append.mp hd with hbefore | hrest
  · exact hbefore
  · rcases List.mem_cons.mp hrest with rfl | hmem
    · exact absurd hlt (String.lt_irrefl _)
    · exact absurd hlt (String.lt_asymm (hafter d hmem))

theorem refused_dict (ht : t.Integral) (hkeys : (Assoc.keys es).Nodup) (hx : ∀ e ∈ es, t.Keyed e.2)
    (hr : ¬ ∀ e ∈ es, t.InRange e.2) (hout : ∀ e ∈ es, ¬ t.InRange e.2 → t.Refused e.2) :
    (Ty.dict t).Refused es := by
  obtain ⟨before, d, after, rfl, hbefore, hd⟩ := exists_first hr
  have hmem : d ∈ before ++ d :: after := by simp
  have hfind := Assoc.find?_of_mem hkeys hmem
  obtain ⟨e, hruns, p, hp, htarget, hfirst⟩ := hout d hmem hd
  refine ⟨e, yields_encodeEntries_error ht hx hbefore hruns, .key d.1 :: p, ?_,
    htarget, fun q n hq hle => ?_⟩
  · exact exceeds_entryNodes.mpr ⟨_, d.2, p, rfl, hfind, hp⟩
  · obtain ⟨k, z, r, rfl, hz, hr⟩ := exceeds_entryNodes.mp hq
    cases hle with
    | entry inside =>
      obtain rfl := Option.some.inj (hfind.symm.trans hz)
      exact hfirst r n hr inside

theorem refused_sortedDict (ht : t.Integral) (hkeys : (Assoc.keys es).Pairwise (· < ·))
    (hx : ∀ e ∈ es, t.Keyed e.2) (hr : ¬ ∀ e ∈ es, t.InRange e.2)
    (hout : ∀ e ∈ es, ¬ t.InRange e.2 → t.Refused e.2) :
    (Ty.sortedDict t).Refused es := by
  obtain ⟨before, d, after, rfl, hbefore, hd⟩ := exists_first hr
  have hmem : d ∈ before ++ d :: after := by simp
  have hfind := Assoc.find?_of_mem (nodup_of_ascending hkeys) hmem
  obtain ⟨e, hruns, p, hp, htarget, hfirst⟩ := hout d hmem hd
  refine ⟨e, yields_encodeEntries_error ht hx hbefore hruns, .key d.1 :: p, ?_,
    htarget, fun q n hq hle => ?_⟩
  · exact exceeds_entryNodes.mpr ⟨_, d.2, p, rfl, hfind, hp⟩
  · obtain ⟨k, z, r, rfl, hz, hr⟩ := exceeds_entryNodes.mp hq
    cases hle with
    | lower hkl =>
      have hzmem : (k, z) ∈ before := mem_before_of_lt hkeys (Assoc.mem_of_find? hz) hkl
      exact not_exceeds_of_inRange (hx _ (List.mem_append_left _ hzmem)) (hbefore _ hzmem) r n hr
    | sortedEntry inside =>
      obtain rfl := Option.some.inj (hfind.symm.trans hz)
      exact hfirst r n hr inside

end Entries

theorem Integral.refused (ht : t.Integral) (x : t.Carrier) (hx : t.Keyed x) (hr : ¬ t.InRange x) :
    t.Refused x := by
  induction t with
  | int i =>
    have henc : encodeInt i x.1 = .error ⟨x.1, IntType.value.label⟩ := encodeInt_of_not_fits x.2 hr
    refine ⟨⟨x.1, IntType.value.label⟩, ?_, [], ⟨rfl, hr⟩, label_value, fun q n _ hbefore => ?_⟩
    · unfold encode
      rw [henc]
      exact .pure _
    · cases hbefore
  | float32 | float64 | bool | text | bytes | value | claim | host => exact ht.elim
  | option t ih =>
    cases x with
    | none => exact absurd (fun y hy => by cases hy) hr
    | some y =>
      have hy : ¬ t.InRange y := fun hin => hr fun z hz => Option.some.inj hz ▸ hin
      obtain ⟨e, hruns, p, hp, htarget, hfirst⟩ := ih ht y (hx y rfl) hy
      refine ⟨e, hruns, p, hp, htarget, fun q n hq hbefore => ?_⟩
      cases hbefore with
      | option inside => exact hfirst q n hq inside
  | list t ih => exact refused_list (t := t) ht hx hr fun y hy => ih ht y (hx y hy)
  | dict t ih => exact refused_dict ht hx.1 hx.2 hr fun e he => ih ht e.2 (hx.2 e he)
  | sortedDict t ih => exact refused_sortedDict ht hx.1 hx.2 hr fun e he => ih ht e.2 (hx.2 e he)

/-! ## The check of the range -/

/-- The result of encoding is an error exactly if some integer is out of range, and the error is
that of a first one. Otherwise all integers, and all else, stand in the value where they stand in
the data. -/
structure RangeChecked (t : Ty) (x : t.Carrier) (r : Except RangeError Value) : Prop where
  refuses : (∃ e, r = .error e) ↔ ∃ p n, Exceeds (t.nodeAt x) p n
  reports : ∀ e, r = .error e → t.ReportsFirst x e
  keeps : ∀ v, r = .ok v → ∀ p, v.nodeAt p = t.nodeAt x p

/-- Data that is built from integers is encoded in the same way in all states, which it leaves as
they are.  Encoding refuses exactly the data with an integer out of range; converting such data to
an object changes nothing either. -/
theorem encode_checks_range (t : Ty) (ht : t.Integral) (x : t.Carrier) (hx : t.Keyed x) :
    ∃ r, (∀ b, (t.encode x).run b = (.ok r, b)) ∧ t.RangeChecked x r ∧
      ∀ e, r = .error e → ∀ required nullable b,
        (t.toForeign x required nullable).run b = (.ok (.error (.range e)), b) := by
  by_cases hr : t.InRange x
  · obtain ⟨v, hruns, hnodes, -⟩ := ht.exists_yields x hx hr
    refine ⟨.ok v, hruns, ⟨⟨nofun, ?_⟩, nofun, ?_⟩, nofun⟩
    · rintro ⟨p, n, hout⟩
      exact absurd hout (not_exceeds_of_inRange hx hr p n)
    · rintro _ ⟨⟩ p
      rw [hnodes]
  · obtain ⟨e, hruns, hfirst⟩ := ht.refused x hx hr
    have hexceeds : ∃ p n, Exceeds (t.nodeAt x) p n := by
      obtain ⟨p, hp, -⟩ := hfirst
      exact ⟨p, e.value, hp⟩
    refine ⟨.error e, hruns, ⟨⟨fun _ => hexceeds, fun _ => ⟨e, rfl⟩⟩, ?_, nofun⟩, ?_⟩
    · rintro _ ⟨⟩
      exact hfirst
    · rintro _ ⟨⟩ required nullable
      exact hruns.bind (.pure _)

/-- Numbers that are too large, behind one that is not and an empty map. -/
def excessiveData : nestedType.Carrier :=
  [("b", [none, some []]),
    ("a", [some [("x", ⟨7, by decide⟩), ("y", ⟨2 ^ 63, by decide⟩)],
      some [("x", ⟨2 ^ 64 - 1, by decide⟩)]])]

/-- The least one is reported, which comes first, and nothing is built. -/
theorem encode_checks_range_of_excess :
    nestedType.ReportsFirst excessiveData ⟨2 ^ 63, "i64"⟩ ∧
      (nestedType.toForeign excessiveData none true).run clashingBridge =
        (.ok (.error (.range ⟨2 ^ 63, "i64"⟩)), clashingBridge) := by
  have ht : nestedType.Integral := trivial
  have hkeyed : nestedType.Keyed excessiveData := ht.keyed (by decide +kernel)
  obtain ⟨r, -, hchecked, hforeign⟩ := encode_checks_range nestedType ht excessiveData hkeyed
  have hexceeds :
      Exceeds (nestedType.nodeAt excessiveData) [.key "a", .item 0, .key "y"] (2 ^ 63) :=
    ⟨by decide +kernel, by decide⟩
  obtain ⟨e, rfl⟩ := hchecked.refuses.mpr ⟨_, _, hexceeds⟩
  have hrun := hforeign e rfl none true clashingBridge
  have herror : ((nestedType.toForeign excessiveData none true).run clashingBridge).1 =
      .ok (.error (.range ⟨2 ^ 63, "i64"⟩)) := by decide +kernel
  rw [hrun] at herror
  obtain rfl := BridgeError.range.inj (Except.error.inj (Except.ok.inj herror))
  exact ⟨hchecked.reports _ rfl, hrun⟩

end Ty

end ObjectBridge
