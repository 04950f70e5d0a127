import ObjectBridge.Proofs.CopyKinds
import ObjectBridge.Proofs.OrderlyStates

set_option autoImplicit false

/-!
# The hierarchy of classes (SPEC §3, §4.3, §11.2)

The classes of a table form a tree below the base class, `isSubclassOf` is its order, and final
classes are leaves. Eight built-in classes are copied to the host, and none of them is below
another; since the classes above any class are in one line, no class is below two of them.

Reading an object asks for these eight one after the other.  `toHostTesting` asks for them in any
given order.  As at most one of the answers is yes, all orders do the same, on every bridge whose
objects are of classes in its table; such a bridge stays one while an object is read.
-/

namespace ObjectBridge

/-! ## Kinds of copies -/

/-- Copy an object as one of the kind; `convert` is for what it holds. -/
def CopyKind.copy (convert : Option ObjId → Run Value) (o : ObjId) : CopyKind → Run Value
  | .string => do return .text (← StringObj.text o)
  | .blob => do return .bytes (← BlobObj.bytes o)
  | .byteBuf => do return .bytes (← ByteBufObj.bytes o)
  | .vector => do
    let elems ← VectorObj.elements o
    withClaims (elems.filterMap id) do
      return .seq (← convertAll convert elems)
  | .hash => do
    let entries ← HashObj.entries o
    withClaims (entries.flatMap HashEntry.claims) do
      let convertEntry (e : HashEntry) : Run (String × Value) := do
        let key ← StringObj.text e.key
        return (key, ← convert e.value)
      return .map (← convertEntries convertEntry entries [])
  | .float => do return .float (← FloatObj.bits o)
  | .boolean => do return .bool (← BooleanObj.value o)
  | .integer => do return .int (← IntegerObj.value o)

/-- No class is below two of the eight. -/
theorem ClassTable.Grown.copyKind_unique {t : ClassTable} {c : Class} {k l : CopyKind}
    (ht : t.Grown) (hc : c ∈ t.made) (hk : c.isSubclassOf k.cls = true)
    (hl : c.isSubclassOf l.cls = true) : k = l := by
  rw [ht.isSubclassOf_iff hc (ht.builtins k.cls_mem_builtins)] at hk
  rw [ht.isSubclassOf_iff hc (ht.builtins l.cls_mem_builtins)] at hl
  rcases Class.mem_ancestors_total hk hl with h | h
  · exact CopyKind.eq_of_mem_ancestors h
  · exact (CopyKind.eq_of_mem_ancestors h).symm

/-! ## Reading with tests in any order -/

/-- `toHostWithin` with the tests for kinds of copies in a given order. -/
def toHostTesting (tests : List CopyKind) : Nat → Option ObjId → Run Value
  | _, none => pure .null
  | 0, some _ => throw .endless
  | depth + 1, some o => do
    let c ← classOf o
    match tests.find? fun k => c.isSubclassOf k.cls with
    | some k => k.copy (toHostTesting tests depth) o
    | none => return .object (← dispatch (← share o))

/-- `foreignToHost` with the tests for kinds of copies in a given order. -/
def foreignToHostTesting (tests : List CopyKind) (o : Option ObjId) : Run Value := do
  toHostTesting tests (← get).heap.slots.length o

/-- The tests of `toHostWithin`, one after the other, find the first kind that fits. -/
theorem toHostWithin_succ (depth : Nat) (o : ObjId) :
    toHostWithin (depth + 1) (some o) = do
      let c ← classOf o
      match CopyKind.all.find? fun k => c.isSubclassOf k.cls with
      | some k => k.copy (toHostWithin depth) o
      | none => return .object (← dispatch (← share o)) := by
  unfold toHostWithin
  congr 1
  funext c
  simp only [CopyKind.all, CopyKind.cls, List.find?_cons, List.find?_nil]
  cases c.isSubclassOf .string
  · cases c.isSubclassOf .blob
    · cases c.isSubclassOf .byteBuf
      · cases c.isSubclassOf .vector
        · cases c.isSubclassOf .hash
          · cases c.isSubclassOf .float
            · cases c.isSubclassOf .boolean
              · cases c.isSubclassOf .integer <;> rfl
              · rfl
            · rfl
          · rfl
        · rfl
      · rfl
    · rfl
  · rfl

section Agreement

variable {α β : Type} {P : Bridge → Prop} {r r' : Run α} {f f' : α → Run β}

/-- From the states in `P` the two calls end the same way. -/
def Agree (P : Bridge → Prop) (r r' : Run α) : Prop :=
  ∀ b, P b → ∀ ok bad, Ends r b ok bad ↔ Ends r' b ok bad

theorem Agree.run_eq (hr : Agree P r r') {b : Bridge} (hb : P b) : r.run b = r'.run b := by
  have hends := hr b hb (fun a s => r'.run b = (.ok a, s)) (fun u s => r'.run b = (.error u, s))
  have hself : Ends r' b (fun a s => r'.run b = (.ok a, s))
      (fun u s => r'.run b = (.error u, s)) := by
    unfold Ends
    split <;> assumption
  have hrun := hends.mpr hself
  unfold Ends at hrun
  split at hrun
  · rename_i hr
    exact hr.trans hrun.symm
  · rename_i hr
    exact hr.trans hrun.symm

theorem Agree.refl (r : Run α) : Agree P r r := fun _ _ _ _ => Iff.rfl

theorem Agree.bind (hP : ∀ b b', P b → b.Leads b' → P b') (hr : Agree P r r') (hm : Run.Moves r')
    (hf : ∀ a, Agree P (f a) (f' a)) : Agree P (r >>= f) (r' >>= f') := by
  intro b hb ok bad
  rw [ends_bind, ends_bind, hr b hb]
  have hkeeps : Ends r' b (fun _ b' => P b') (fun _ b' => P b') :=
    (hm b).mono (fun _ _ h => hP _ _ hb h) (fun _ _ h => hP _ _ hb h)
  constructor <;> intro h
  · exact (h.and hkeeps).mono (fun a b' ⟨he, hb'⟩ => (hf a b' hb' ok bad).mp he)
      (fun _ _ ⟨he, _⟩ => he)
  · exact (h.and hkeeps).mono (fun a b' ⟨he, hb'⟩ => (hf a b' hb' ok bad).mpr he)
      (fun _ _ ⟨he, _⟩ => he)

theorem Agree.onUnwind (cleanup : Run Unit) (hr : Agree P r r') :
    Agree P (onUnwind cleanup r) (onUnwind cleanup r') := by
  intro b hb ok bad
  rw [ends_onUnwind, ends_onUnwind]
  exact hr b hb _ _

theorem Agree.withClaims (claims : List ObjId) (hr : Agree P r r') :
    Agree P (withClaims claims r) (withClaims claims r') := by
  intro b hb ok bad
  rw [ends_withClaims, ends_withClaims]
  exact hr b hb _ _

end Agreement

section Order

variable {P : Bridge → Prop}

theorem agree_convertAll {α : Type} (hP : ∀ b b', P b → b.Leads b' → P b') {f f' : α → Run Value}
    (hf : ∀ x, Agree P (f x) (f' x)) (hm : ∀ x, Run.Moves (f' x)) (xs : List α) :
    Agree P (convertAll f xs) (convertAll f' xs) := by
  induction xs with
  | nil => exact .refl _
  | cons x rest ih =>
    refine .bind hP (hf x) (hm x) fun v => ?_
    exact .bind hP (ih.onUnwind v.drop)
      (moves_onUnwind (moves_releaseAll _) (moves_convertAll hm rest)) fun _ => .refl _

theorem agree_convertEntries {α : Type} (hP : ∀ b b', P b → b.Leads b' → P b')
    {f f' : α → Run (String × Value)} (hf : ∀ x, Agree P (f x) (f' x)) (hm : ∀ x, Run.Moves (f' x))
    (xs : List α) (done : List (String × Value)) :
    Agree P (convertEntries f xs done) (convertEntries f' xs done) := by
  induction xs generalizing done with
  | nil => exact .refl _
  | cons x rest ih =>
    refine .bind hP ((hf x).onUnwind _) (moves_onUnwind (moves_releaseAll _) (hm x)) fun e => ?_
    exact .bind hP (.refl _) (moves_releaseAll _) fun _ => ih _

/-- Copying depends on how what is inside is converted, and on nothing else. -/
theorem agree_copy (hP : ∀ b b', P b → b.Leads b' → P b')
    {convert convert' : Option ObjId → Run Value} (hc : ∀ o, Agree P (convert o) (convert' o))
    (hm : ∀ o, Run.Moves (convert' o)) (k : CopyKind) (o : ObjId) :
    Agree P (k.copy convert o) (k.copy convert' o) := by
  cases k with
  | vector =>
    refine .bind hP (.refl _) (VectorObj.moves_elements o) fun elems => Agree.withClaims _ ?_
    exact .bind hP (agree_convertAll hP hc hm elems) (moves_convertAll hm elems) fun _ => .refl _
  | hash =>
    refine .bind hP (.refl _) (HashObj.moves_entries o) fun entries => Agree.withClaims _ ?_
    have hentry (e : HashEntry) : Run.Moves (do
        let key ← StringObj.text e.key
        return (key, ← convert' e.value)) :=
      (moves_text e.key).bind fun _ => (hm e.value).bind fun _ => .pure _
    refine .bind hP (agree_convertEntries hP (fun e => ?_) hentry entries [])
      (moves_convertEntries hentry entries [])
      fun _ => .refl _
    exact .bind hP (.refl _) (moves_text e.key) fun _ =>
      .bind hP (hc e.value) (hm e.value) fun _ => .refl _
  | _ => exact .refl _

/-- If at most one test can succeed, their order does not matter. -/
theorem find?_eq_of_unique {tests tests' : List CopyKind} {p : CopyKind → Bool}
    (hperm : tests.Perm tests') (hp : ∀ k l, p k = true → p l = true → k = l) :
    tests.find? p = tests'.find? p := by
  cases hfind : tests'.find? p with
  | none =>
    rw [List.find?_eq_none] at hfind ⊢
    exact fun k hk => hfind k (hperm.mem_iff.mp hk)
  | some k =>
    have hk : p k = true := List.find?_some hfind
    have hmem : k ∈ tests := hperm.mem_iff.mpr (List.mem_of_find?_eq_some hfind)
    cases hfound : tests.find? p with
    | none => exact absurd hk (List.find?_eq_none.mp hfound k hmem)
    | some l => rw [hp l k (List.find?_some hfound) hk]

/-- On a bridge whose objects are of classes in its table, the order of the tests does not matter at
any depth. -/
theorem agree_testing {tests : List CopyKind} (hperm : tests.Perm CopyKind.all) (depth : Nat)
    (o : Option ObjId) :
    Agree Bridge.Classed (toHostTesting tests depth o) (toHostWithin depth o) := by
  induction depth generalizing o with
  | zero =>
    cases o with
    | none => exact .refl _
    | some o => exact .refl _
  | succ depth ih =>
    cases o with
    | none => exact .refl _
    | some o =>
      intro b hb ok bad
      rw [toHostWithin_succ]
      unfold toHostTesting classOf readObj
      simp only [ends_bind, ends_get]
      cases hx : b.heap.get? o with
      | none => simp only [ends_throw]
      | some x =>
        have hunique : ∀ k l : CopyKind, x.cls.isSubclassOf k.cls = true →
            x.cls.isSubclassOf l.cls = true → k = l :=
          fun k l => hb.grown.copyKind_unique (hb.classes o x hx)
        simp only [ends_pure, find?_eq_of_unique hperm hunique]
        cases CopyKind.all.find? fun k => x.cls.isSubclassOf k.cls with
        | none => exact Iff.rfl
        | some k =>
          exact agree_copy
            (fun _ _ hb hl => hb.leads hl) ih (moves_toHostWithin depth) k o b hb ok bad

theorem agree_foreignToHost {tests : List CopyKind} (hperm : tests.Perm CopyKind.all)
    (o : Option ObjId) :
    Agree Bridge.Classed (foreignToHostTesting tests o) (foreignToHost o) :=
  .bind (fun _ _ hb hl => hb.leads hl) (.refl _) Moves.get fun b =>
    agree_testing hperm b.heap.slots.length o

end Order

/-! ## The hierarchy -/

/-- What the classes of a table are to each other. -/
structure ClassTable.Hierarchy (t : ClassTable) : Prop where
  /-- a parent exists and is older than its child, so that going to the parent again and again comes
  to an end -/
  parents : ∀ c ∈ t.made, ∀ p, c.parent? = some p → p ∈ t.made ∧ p.id.index < c.id.index
  /-- only the base class has no parent -/
  root : ∀ c ∈ t.made, c.parent? = none ↔ c = .obj
  /-- the ancestors are what the walk to the parents meets, from the class itself to the base class
  -/
  walk : ∀ c ∈ t.made, c.ancestors.head? = some c ∧
    (∀ n, c.ancestors[n + 1]? = c.ancestors[n]?.bind Class.parent?) ∧
    c.ancestors.getLast? = some .obj
  /-- the walk is in the table, meets no class twice and is no longer than the class is old -/
  finite : ∀ c ∈ t.made, c.ancestors ⊆ t.made ∧ c.ancestors.Nodup ∧
    c.ancestors.length ≤ c.id.index + 1
  subclass_iff : ∀ c ∈ t.made, ∀ d ∈ t.made, c.isSubclassOf d = true ↔ d ∈ c.ancestors
  refl : ∀ c ∈ t.made, c.isSubclassOf c = true
  trans : ∀ c ∈ t.made, ∀ d ∈ t.made, ∀ e ∈ t.made,
    c.isSubclassOf d = true → d.isSubclassOf e = true → c.isSubclassOf e = true
  antisymm : ∀ c ∈ t.made, ∀ d ∈ t.made, c.isSubclassOf d = true → d.isSubclassOf c = true → c = d
  base : ∀ c ∈ t.made, c.isSubclassOf .obj = true
  /-- the classes above a class are in one line -/
  line : ∀ c ∈ t.made, ∀ d ∈ t.made, ∀ e ∈ t.made,
    c.isSubclassOf d = true → c.isSubclassOf e = true → d.isSubclassOf e = true ∨
    e.isSubclassOf d = true
  /-- nothing is below a final class -/
  final : ∀ c ∈ t.made, ∀ d ∈ t.made, d.isFinal = true → c.isSubclassOf d = true → c = d
  /-- no class is below two of the classes that are copied -/
  copied : ∀ c ∈ t.made, ∀ k l : CopyKind, c.isSubclassOf k.cls = true →
    c.isSubclassOf l.cls = true → k = l
  /-- so it does not matter in which order reading asks for them -/
  tests : ∀ b : Bridge, b.classes = t → (∀ o x, b.heap.get? o = some x → x.cls ∈ t.made) →
    ∀ tests : List CopyKind, tests.Perm CopyKind.all →
    ∀ o, (foreignToHostTesting tests o).run b = (foreignToHost o).run b

/-- Whatever classes have been defined and aliased, in whatever order and with whatever success,
they form a tree below the base class that `isSubclassOf` is the order of. -/
theorem class_hierarchy {t : ClassTable} (hl : ClassTable.Leads .initial t) : t.Hierarchy := by
  have ht := ClassTable.Grown.initial.leads hl
  have hiff {c d : Class} (hc : c ∈ t.made) (hd : d ∈ t.made) := ht.isSubclassOf_iff hc hd
  constructor
  · exact fun c hc p hp => ⟨ht.parents c hc p hp, ht.older c hc p hp⟩
  · refine fun c hc => ⟨ht.base c hc, ?_⟩
    rintro rfl
    rfl
  · exact fun c hc => ⟨c.head?_ancestors, c.getElem?_ancestors_succ, ht.getLast?_ancestors hc⟩
  · refine fun c hc => ⟨fun d => ht.mem_of_mem_ancestors hc, ?_, ht.length_ancestors_le hc⟩
    refine (ht.pairwise_ancestors hc).imp fun hlt heq => ?_
    rw [heq] at hlt
    exact lt_irrefl _ hlt
  · exact fun c hc d hd => hiff hc hd
  · exact fun c hc => Class.isSubclassOf_of_mem c.mem_ancestors_self
  · intro c hc d hd e he hcd hde
    rw [hiff hc hd] at hcd
    rw [hiff hd he] at hde
    exact Class.isSubclassOf_of_mem (Class.mem_ancestors_trans hcd hde)
  · intro c hc d hd hcd hdc
    rw [hiff hc hd] at hcd
    rw [hiff hd hc] at hdc
    exact Class.mem_ancestors_antisymm hcd hdc
  · exact fun c hc => Class.isSubclassOf_of_mem (ht.obj_mem_ancestors hc)
  · intro c hc d hd e he hcd hce
    rw [hiff hc hd] at hcd
    rw [hiff hc he] at hce
    exact (Class.mem_ancestors_total hcd hce).imp Class.isSubclassOf_of_mem
      Class.isSubclassOf_of_mem
  · intro c hc d hd hfinal hcd
    rw [hiff hc hd] at hcd
    exact ht.eq_of_final hc hfinal hcd
  · exact fun c hc k l => ht.copyKind_unique hc
  · rintro b rfl hobjects tests hperm o
    exact (agree_foreignToHost hperm o).run_eq ⟨hl, hobjects⟩

/-- A class of strings. -/
def tagClass : Class := .child ⟨⟨10⟩, "Tag", .none, 48⟩ .string

/-- A class below it that takes no subclasses. -/
def leafClass : Class := .child ⟨⟨11⟩, "Leaf", .final, 48⟩ tagClass

/-- The table in which both are defined, and a class below the second is not. -/
def tagTable : ClassTable :=
  ((ClassTable.initial.after (.define "Tag" .string .none 48)).after
    (.define "Leaf" tagClass .final 48)).after
    (.define "Twig" leafClass .none 48)

theorem class_hierarchy_tagTable :
    ClassTable.Leads .initial tagTable ∧ tagTable.Hierarchy ∧ leafClass ∈ tagTable.made ∧
      leafClass.ancestors = [leafClass, tagClass, .string, .obj] ∧
      leafClass.isSubclassOf .string = true ∧
      leafClass.isSubclassOf .blob = false ∧ tagTable.fetch "Twig" = none := by
  have htag :
      ClassTable.Step .initial (ClassTable.initial.after (.define "Tag" .string .none 48)) :=
    ⟨_, by decide, rfl⟩
  have hleaf : ClassTable.Step (ClassTable.initial.after (.define "Tag" .string .none 48))
      ((ClassTable.initial.after (.define "Tag" .string .none 48)).after
        (.define "Leaf" tagClass .final 48)) :=
    ⟨_, by decide, rfl⟩
  have htwig : ClassTable.Step
      ((ClassTable.initial.after (.define "Tag" .string .none 48)).after
        (.define "Leaf" tagClass .final 48)) tagTable :=
    ⟨.define "Twig" leafClass .none 48, by decide, rfl⟩
  have hl : ClassTable.Leads .initial tagTable := .tail (.tail (.single htag) hleaf) htwig
  exact ⟨hl, class_hierarchy hl, by decide, rfl, rfl, rfl, rfl⟩

end ObjectBridge
