import ObjectBridge.Proofs.ConversionEffect
import ObjectBridge.Proofs.OrderlyStates

set_option autoImplicit false

/-!
# What a conversion answers (SPEC §4.3, §7)

The class of the foreign form of a value is known before the form is built: it is fixed for every
native kind, and an object keeps its own.  Whether a conversion succeeds depends on this class and
on nothing inside of the value, because what is inside is converted without conditions, and every
class descends from the base class.

The statement is about all states that scripts reach.  A form of the wrong class is given back,
which is where counts matter: they have to be right, so it is asked that they have room for the
claims that the form takes.
-/

namespace ObjectBridge

/-- The class of the foreign form of a value, if it has one. -/
def Value.formClass (h : Heap) : Value → Option Class
  | null => none
  | bool _ => some .boolean
  | int _ => some .integer
  | float _ => some .float
  | text _ => some .string
  | bytes _ => some .blob
  | seq _ => some .vector
  | map _ => some .hash
  | object r => (h.get? r.obj).map Obj.cls

/-- How a conversion of `v` in a state with the heap `h` ends, if an object of the class `goal` is
asked for. -/
inductive Value.Answers (v : Value) (h : Heap) (goal : Class) (nullable : Bool) (b : Bridge) :
    Except ConversionError (Option ObjId) → Prop
  | null (hv : v = .null) (hn : nullable = true) : Answers v h goal nullable b (.ok none)
  | missing (hv : v = .null) (hn : nullable = false) :
    Answers v h goal nullable b (.error (.null goal.name))
  | mismatch {c : Class} (hform : v.formClass h = some c) (hc : c.isSubclassOf goal = false) :
    Answers v h goal nullable b (.error (.classMismatch c.name goal.name))
  | delivered {o : ObjId} {x : Obj} (hform : v.formClass h = some x.cls)
    (hc : x.cls.isSubclassOf goal = true) (hx : b.heap.get? o = some x) :
    Answers v h goal nullable b (.ok (some o))

section Answers

variable {b : Bridge} {t : ObjId × ObjId} {v : Value} {host : Multiset ObjId}

/-- The object that stands for a value is of the class that is known before. -/
theorem Bridge.get?_root (hb : b.Books host) (hu : b.Bounded) (ht : b.truths = some t)
    (hheld : ∀ o ∈ v.claims, o ∈ host) {o : ObjId} (ho : v.root t b.heap.slots.length = some o) :
    ∃ x, (b.built t v).heap.get? o = some x ∧ v.formClass b.heap = some x.cls := by
  have hold : ∀ {p x}, b.heap.get? p = some x → ∃ y, (b.built t v).heap.get? p = some y ∧
      y.cls = x.cls := by
    intro p x hx
    refine ⟨_, by rw [get?_built (Heap.used_of_get? hx), hx, Option.map_some], ?_⟩
    rw [Heap.cls_iterate_retained]
  have hnew : ∀ {x}, (v.forms t b.keySum b.heap.slots.length)[0]? = some x →
      (b.built t v).heap.get? ⟨b.heap.slots.length⟩ = some x := fun hx =>
      (get?_built_new v 0).trans hx
  cases v with
  | null => cases ho
  | bool value =>
    obtain ⟨no, yes, heq, hno, hyes⟩ := (hb.sound hu).truths
    obtain rfl := Option.some.inj (ht.symm.trans heq)
    have htruth : b.heap.IsTruth o value := by
      cases value with
      | false =>
        cases ho
        exact hno
      | true =>
        cases ho
        exact hyes
    obtain ⟨x, hx, hcls, -⟩ := htruth
    obtain ⟨y, hy, hsame⟩ := hold hx
    exact ⟨y, hy, by rw [hsame, hcls]; rfl⟩
  | object r =>
    cases ho
    obtain ⟨x, hx⟩ := hb.live (hheld r.obj List.mem_cons_self) hu
    obtain ⟨y, hy, hsame⟩ := hold hx
    exact ⟨y, hy, by rw [hsame, Value.formClass, hx]; rfl⟩
  | int n | float bits | text s | bytes bytes | seq items | map entries =>
    cases ho
    exact ⟨_, hnew rfl, rfl⟩

/-- Only null has no foreign form. -/
theorem Bridge.exists_formClass (hb : b.Books host) (hu : b.Bounded)
    (hheld : ∀ o ∈ v.claims, o ∈ host) (hnull : v ≠ .null) : ∃ c, v.formClass b.heap = some c := by
  obtain ⟨t, ht⟩ := Option.isSome_iff_exists.mp hb.truths
  obtain ⟨o, ho⟩ := Value.exists_root hnull t b.heap.slots.length
  obtain ⟨x, -, hform⟩ := get?_root hb hu ht hheld ho
  exact ⟨x.cls, hform⟩

theorem Bridge.Classed.mem_of_formClass (hb : b.Classed) {c : Class}
    (hc : v.formClass b.heap = some c) :
    c ∈ b.classes.made := by
  cases v with
  | null => cases hc
  | object r =>
    obtain ⟨x, hx, rfl⟩ := Option.map_eq_some_iff.mp hc
    exact hb.classes r.obj x hx
  | bool value | int n | float bits | text s | bytes bytes | seq items | map entries =>
    cases hc
    exact hb.grown.builtins (by decide)

theorem object_answers (r : HostRef) (hb : b.Prepared t [r.obj]) (required : Option Class)
    (nullable : Bool) :
    Ends (hostToForeign (.object r) required nullable) b
      (fun a b' => (Value.object r).Answers b.heap (required.getD .obj) nullable b' a)
        (fun _ _ => False) := by
  obtain ⟨x, hx, -⟩ := hb.claims r.obj List.mem_cons_self
  have hform : (Value.object r).formClass b.heap = some x.cls := by
    rw [Value.formClass, hx]
    rfl
  rw [ends_hostToForeign_object (t := t) hb.started hx]
  split
  · rename_i hc
    have hcls : x.retained.cls = x.cls := Heap.cls_iterate_retained x 1
    refine .delivered (x := x.retained) (hcls ▸ hform) (hcls ▸ hc) ?_
    rw [built_object hx]
    unfold Bridge.grown
    rw [Heap.get?_retain, if_pos rfl, hx, Option.map_some]
  · rename_i hc
    exact .mismatch hform (Bool.eq_false_iff.mpr hc)

/-- A form of the wrong class is given back, for which its claims have to be counted. -/
theorem created_answers (hb : b.Books host) (hu : b.Bounded) (hv : v.WellFormed)
    (hheld : ∀ o ∈ v.claims, o ∈ host) (hnull : v ≠ .null) (hobj : ∀ r, v ≠ .object r)
    (required : Option Class) (nullable : Bool)
    (hroom : ∀ c, v.formClass b.heap = some c → c.isSubclassOf (required.getD .obj) = false →
      b.HasRoom v.claims) :
    Ends (hostToForeign v required nullable) b
      (fun a b' => v.Answers b.heap (required.getD .obj) nullable b' a) (fun _ _ => False) := by
  obtain ⟨t, ht⟩ := Option.isSome_iff_exists.mp hb.truths
  obtain ⟨o, ho⟩ := Value.exists_root hnull t b.heap.slots.length
  obtain ⟨x, hx, hform⟩ := Bridge.get?_root hb hu ht hheld ho
  refine creates hv hnull hobj b t (hb.prepared hu ht hheld) required nullable _ _ o ho ?_
  cases hc : x.cls.isSubclassOf (required.getD .obj) with
  | true => exact (ends_deliver_known hx hc).mpr (.delivered hform hc hx)
  | false =>
    have hs' := (hb.built hu ht hv hheld).sound (hu.built (hroom _ hform hc))
    rw [ho] at hs'
    rw [ends_deliver_other hx hc, ends_releaseAll_sound (by exact hs')]
    exact .mismatch hform hc

theorem hostToForeign_answers (hb : b.Books host) (hu : b.Bounded) (hv : v.WellFormed)
    (hheld : ∀ o ∈ v.claims, o ∈ host) (required : Option Class) (nullable : Bool)
    (hroom : ∀ c, v.formClass b.heap = some c → c.isSubclassOf (required.getD .obj) = false →
      b.HasRoom v.claims) :
    Ends (hostToForeign v required nullable) b
      (fun a b' => v.Answers b.heap (required.getD .obj) nullable b' a) (fun _ _ => False) := by
  by_cases hnull : v = .null
  · subst hnull
    unfold hostToForeign
    rw [ends_bind, ends_start hb.started]
    cases nullable with
    | true => exact .null rfl rfl
    | false => exact .missing rfl rfl
  by_cases hobj : ∃ r, v = .object r
  · obtain ⟨r, rfl⟩ := hobj
    obtain ⟨t, ht⟩ := Option.isSome_iff_exists.mp hb.truths
    exact object_answers r (hb.prepared hu ht hheld) required nullable
  · exact created_answers hb hu hv hheld hnull (fun r heq => hobj ⟨r, heq⟩) required nullable hroom

end Answers

/-- When a conversion of `v` in the state `b` ends with the answer `r`, in the state `b'`, if an
object of the class `goal` is asked for.  Every value but null has a form, so that these are all the
answers there are. -/
structure Value.Outcome (v : Value) (b : Bridge) (goal : Class) (nullable : Bool)
    (r : Except ConversionError (Option ObjId)) (b' : Bridge) : Prop where
  formed : v.formClass b.heap = none ↔ v = .null
  null : r = .ok none ↔ v = .null ∧ nullable = true
  missing : ∀ name, r = .error (.null name) ↔ v = .null ∧ nullable = false ∧ name = goal.name
  mismatch : ∀ found wanted, r = .error (.classMismatch found wanted) ↔
    ∃ c, v.formClass b.heap = some c ∧ goal ∉ c.ancestors ∧ found = c.name ∧ wanted = goal.name
  delivered : ∀ c, (∃ o x, r = .ok (some o) ∧ b'.heap.get? o = some x ∧ x.cls = c) ↔
    v.formClass b.heap = some c ∧ goal ∈ c.ancestors

theorem Value.Answers.outcome {v : Value} {b b' : Bridge} {goal : Class} {nullable : Bool}
    {r : Except ConversionError (Option ObjId)} (ha : v.Answers b.heap goal nullable b' r)
    (hformed : v ≠ .null → ∃ c, v.formClass b.heap = some c)
    (hsub : ∀ c, v.formClass b.heap = some c → (c.isSubclassOf goal = true ↔ goal ∈ c.ancestors)) :
    v.Outcome b goal nullable r b' := by
  have hnull : v.formClass b.heap = none ↔ v = .null := by
    refine ⟨fun hnone => by_contra fun hne => ?_, fun hv => by rw [hv, Value.formClass]⟩
    obtain ⟨c, hc⟩ := hformed hne
    rw [hnone] at hc
    cases hc
  have hne {c : Class} (hc : v.formClass b.heap = some c) : v ≠ .null := fun hv => by
    rw [hnull.mpr hv] at hc
    cases hc
  cases ha with
  | null hv hn => constructor <;> simp [hv, hn, Value.formClass]
  | missing hv hn => constructor <;> simp [hv, hn, Value.formClass, eq_comm]
  | mismatch hform hc =>
    have hgoal := (hsub _ hform).not.mp (by simp [hc])
    constructor <;> simp [hne hform, hform, hgoal, eq_comm]
  | delivered hform hc hx =>
    have hgoal := (hsub _ hform).mp hc
    constructor <;> simp [hne hform, hform, hgoal, hx]

/-- In every state that a script reaches, a conversion returns, and what it answers is decided by
whether the value is null, and by whether the class of its form is or descends from the one that is
asked for.  A form of another class is built and given back; then the counts need room for the
claims of the value. -/
theorem conversion_outcome {b : Bridge} {host : Multiset ObjId} (hr : b.Reached host)
    (hu : b.Bounded) {v : Value} (hv : v.WellFormed) (hheld : ∀ o ∈ v.claims, o ∈ host)
    {required : Option Class} (hreq : ∀ c ∈ required, c ∈ b.classes.made) (nullable : Bool)
    (hroom : ∀ c, v.formClass b.heap = some c → required.getD .obj ∉ c.ancestors →
      b.HasRoom v.claims) :
    ∃ r b', (hostToForeign v required nullable).run b = (.ok r, b') ∧
      v.Outcome b (required.getD .obj) nullable r b' := by
  have hb := hr.books
  have hclasses := hr.orderly.toClassed
  have hgoal : required.getD .obj ∈ b.classes.made := by
    cases required with
    | none => exact hclasses.grown.builtins (by decide)
    | some c => exact hreq c rfl
  have hsub : ∀ c, v.formClass b.heap = some c →
      (c.isSubclassOf (required.getD .obj) = true ↔ required.getD .obj ∈ c.ancestors) :=
    fun c hc => hclasses.grown.isSubclassOf_iff (hclasses.mem_of_formClass hc) hgoal
  have hends := hostToForeign_answers hb hu hv hheld required nullable fun c hc hother =>
    hroom c hc ((hsub c hc).not.mp (by simp [hother]))
  obtain ⟨r, b', hrun, hanswers⟩ := hends.returns
  exact ⟨r, b', hrun, hanswers.outcome (b.exists_formClass hb hu hheld) hsub⟩

/-- A script that defines a class of strings and makes an object of it. -/
def makeLabel : List Instruction :=
  [.act (.onClass (.define "Label" "Clownfish::String" .string .none)) none none,
    .act (.onObject (.make "Label" (.string "x"))) (some "l") none]

/-- The class that it defines. -/
def labelClass : Class := .child ⟨⟨10⟩, "Label", .none, Layout.string.size⟩ .string

/-- The bridge after that script. -/
def labelBridge : Bridge := (Session.after makeLabel).bridge

theorem labelBridge_reached : labelBridge.Reached {⟨2⟩} := by
  have hclaims : (Session.after makeLabel).claims = {⟨2⟩} := by decide +kernel
  exact hclaims ▸ Session.after_reached ⟨trivial, rfl, trivial⟩

/-- A sequence with that object, in a map. -/
def labelValue : Value := .seq [.map [("k", .object ⟨.str, ⟨2⟩⟩)], .null]

theorem labelValue_wellFormed : labelValue.WellFormed := by
  refine ⟨.seq ?_, .seq (by decide) ?_⟩
  · simp only [List.forall_mem_cons]
    refine ⟨.map (by decide) ?_, .null, nofun⟩
    simp only [List.forall_mem_cons]
    exact ⟨.object _, nofun⟩
  · simp only [List.forall_mem_cons]
    refine ⟨.map ?_, .null, nofun⟩
    simp only [List.forall_mem_cons]
    exact ⟨.object _, nofun⟩

/-- The sequence is no string, though the object in it is one.  The object itself does for a string,
but a string does not do for an object of its class. -/
theorem conversion_outcome_of_label :
    (∃ b', (hostToForeign labelValue (some .vector) false).run labelBridge =
      (.ok (.ok (some ⟨3⟩)), b') ∧
      labelValue.Outcome labelBridge .vector false (.ok (some ⟨3⟩)) b') ∧
    (∃ b', (hostToForeign labelValue (some .string) true).run labelBridge =
        (.ok (.error (.classMismatch "Clownfish::Vector" "Clownfish::String")), b') ∧
      labelValue.Outcome labelBridge .string true
        (.error (.classMismatch "Clownfish::Vector" "Clownfish::String")) b') ∧
    (∃ b', (hostToForeign (.object ⟨.str, ⟨2⟩⟩) (some .string) false).run labelBridge =
      (.ok (.ok (some ⟨2⟩)), b') ∧
      (Value.object ⟨.str, ⟨2⟩⟩).Outcome labelBridge .string false (.ok (some ⟨2⟩)) b') ∧
    ∃ b', (hostToForeign (.text "x") (some labelClass) false).run labelBridge =
        (.ok (.error (.classMismatch "Clownfish::String" "Label")), b') ∧
      (Value.text "x").Outcome labelBridge labelClass false
        (.error (.classMismatch "Clownfish::String" "Label")) b' := by
  -- what the conversion answers is computed, and the theorem says what that means
  have outcome {v : Value} (hv : v.WellFormed)
      (hheld : ∀ o ∈ v.claims, o ∈ ({⟨2⟩} : Multiset ObjId)) {c : Class}
      (hc : c ∈ labelBridge.classes.made) {nullable : Bool}
      {r : Except ConversionError (Option ObjId)}
      (hroom : labelBridge.HasRoom v.claims)
      (hr : ((hostToForeign v (some c) nullable).run labelBridge).1 = .ok r) :
      ∃ b', (hostToForeign v (some c) nullable).run labelBridge = (.ok r, b') ∧
        v.Outcome labelBridge c nullable r b' := by
    have hreq : ∀ d ∈ some c, d ∈ labelBridge.classes.made := by simpa using hc
    obtain ⟨r', b', hrun, hout⟩ :=
      conversion_outcome labelBridge_reached (by decide +kernel) hv hheld hreq nullable
        fun _ _ _ => hroom
    rw [hrun] at hr
    obtain rfl := Except.ok.inj hr
    exact ⟨b', hrun, hout⟩
  refine ⟨?_, ?_, ?_, ?_⟩
  · exact outcome labelValue_wellFormed (by decide +kernel) (by decide +kernel) (by decide +kernel)
      (by decide +kernel)
  · exact outcome labelValue_wellFormed (by decide +kernel) (by decide +kernel) (by decide +kernel)
      (by decide +kernel)
  · exact outcome ⟨.object _, .object _⟩ (by decide +kernel) (by decide +kernel) (by decide +kernel)
      (by decide +kernel)
  · exact outcome ⟨.text _, .text _⟩ (by decide +kernel) (by decide +kernel) (by decide +kernel)
      (by decide +kernel)

/-- Where an object has as many claims as can be counted, a sequence that holds it is no string, and
converting it to one raises an exception in place of saying so. -/
theorem conversion_outcome_of_full_count :
    ∃ host, fullBridge.Reached host ∧ fullBridge.Bounded ∧
      (Value.seq [.object stringRef]).WellFormed ∧
      (∀ o ∈ (Value.seq [.object stringRef]).claims, o ∈ host) ∧ .string ∈ fullBridge.classes.made ∧
      ∃ b', (hostToForeign (.seq [.object stringRef]) (some .string) true).run fullBridge =
          (.error (.raised .bridge ⟨5⟩), b') ∧
        b'.heap.content ⟨5⟩ = some (.err, .err (overdrawnMessage .string)) := by
  obtain ⟨host, hr, hstring, -⟩ := fullBridge_reached
  refine ⟨host, hr, fullBridge_bounded, seq_stringRef_wellFormed, ?_, by decide +kernel, ?_⟩
  · intro o ho
    obtain rfl : o = stringRef.obj := List.mem_singleton.mp ho
    exact hstring
  · exact exists_state (by decide +kernel) (by decide +kernel)

end ObjectBridge
