import ObjectBridge.Class.Table
import ObjectBridge.Proofs.ValueEquality
import Mathlib.Logic.Relation

set_option autoImplicit false

/-!
# Names of classes (SPEC §11.2)

Definitions and aliases share one space of names, and a definition looks a name up, or makes and
binds its class, before it compares what it got with what it asks for.  `Change` says what a call
can do to the table: nothing to its bindings, or one binding of a name that was free.  `Ordered` is
what all tables have in common that calls lead to; it makes identities as good as the classes
themselves, so that a comparison of identities compares classes.

The main result is about every table that some history of calls leads to, and about every call on
it.
-/

namespace ObjectBridge.ClassTable

/-! ## Calls -/

/-- A call on the table of names.  The class that it is given has to exist. -/
inductive Call where
  | define (name : String) (parent : Class) (flags : ClassFlags) (size : Nat)
  | addAlias (c : Class) (name : String)

/-- The class that a call is given. -/
def Call.subject : Call → Class
  | .define _ parent _ _ => parent
  | .addAlias c _ => c

/-- The table after a call. -/
def after (t : ClassTable) : Call → ClassTable
  | .define name parent flags size => (t.define name parent flags size).2
  | .addAlias c name => (t.addAlias c name).2

/-- Whether a call reports an error. -/
def Fails (t : ClassTable) : Call → Prop
  | .define name parent flags size => ∃ e, (t.define name parent flags size).1 = .error e
  | .addAlias c name => ∃ e, (t.addAlias c name).1 = .error e

/-- One call on a class that exists, whether it succeeds or not. -/
def Step (t t' : ClassTable) : Prop := ∃ call : Call, call.subject ∈ t.made ∧ t' = t.after call

/-- Any number of calls on classes that exist. -/
abbrev Leads : ClassTable → ClassTable → Prop := Relation.ReflTransGen Step

variable {t t' : ClassTable} {c d parent : Class} {name other : String} {flags : ClassFlags}
  {size : Nat}

/-! ## What a call can do -/

/-- All names are bound as before, and no class was made. -/
structure Unchanged (t t' : ClassTable) : Prop where
  fetch : ∀ other, t'.fetch other = t.fetch other
  made : t'.made = t.made

/-- A free name was bound, and no other name. -/
structure Binds (t t' : ClassTable) (name : String) (c : Class) : Prop where
  free : t.fetch name = none
  fetch : ∀ other, t'.fetch other = if name = other then some c else t.fetch other

/-- What one call, given the class `subject`, can do to the table. -/
inductive Change (t t' : ClassTable) (subject : Class) : Prop
  | none (hsame : t.Unchanged t')
  | bound (name : String) (hbinds : t.Binds t' name subject) (hmade : t'.made = t.made)
  | fresh (name : String) (flags : ClassFlags) (size : Nat)
    (hbinds : t.Binds t' name (t.fresh name subject flags size))
    (hmade : t'.made = t.made ++ [t.fresh name subject flags size])

theorem findOrMake_of_bound (hc : t.fetch name = some c) :
    t.findOrMake name parent flags size = (⟨c, false⟩, t) := by
  simp [findOrMake, hc]

theorem findOrMake_of_free (hfree : t.fetch name = none) :
    t.findOrMake name parent flags size =
      (⟨t.fresh name parent flags size, true⟩,
        ⟨(t.names.insert name (t.fresh name parent flags size)).2,
          t.made ++ [t.fresh name parent flags size]⟩) := by
  simp [findOrMake, hfree]

theorem binds_insert (hfree : t.fetch name = none) (c : Class) (made : List Class) :
    t.Binds ⟨(t.names.insert name c).2, made⟩ name c :=
  ⟨hfree, fun other => SnapshotRegistry.get?_insert t.names name other c⟩

/-- A class that is made for a definition is what the definition asks for, so that no conflict
follows. -/
theorem compatible_fresh (t : ClassTable) (name : String) (parent : Class) (flags : ClassFlags)
    (size : Nat) :
    compatible (t.fresh name parent flags size) parent flags size = true := by
  simp [compatible, fresh, Class.parent?, Class.flags, Class.size, Class.descriptor]

theorem define_of_final (hfinal : parent.isFinal = true) :
    t.define name parent flags size = (.error (.finalParent name parent.name), t) := by
  simp [define, hfinal]

theorem define_of_bound (hfinal : parent.isFinal = false) (hc : t.fetch name = some c) :
    t.define name parent flags size =
      (if compatible c parent flags size then .ok ⟨c, false⟩ else .error (.conflict name), t) := by
  simp only [define, hfinal, Bool.false_eq_true, if_false, findOrMake_of_bound hc]
  split <;> rfl

theorem define_of_free (hfinal : parent.isFinal = false) (hfree : t.fetch name = none) :
    t.define name parent flags size =
      (.ok ⟨t.fresh name parent flags size, true⟩,
        ⟨(t.names.insert name (t.fresh name parent flags size)).2,
          t.made ++ [t.fresh name parent flags size]⟩) := by
  simp [define, hfinal, findOrMake_of_free hfree, compatible_fresh]

theorem addAlias_of_free (hfree : t.fetch name = none) :
    t.addAlias c name = (.ok (), { t with names := (t.names.insert name c).2 }) := by
  have hnot : t.names.contains name = false := by
    unfold fetch at hfree
    simp [SnapshotRegistry.contains, hfree]
  simp [addAlias, SnapshotRegistry.register, SnapshotRegistry.insert, hnot]

/-- A name that is taken is published anew, as it was. -/
theorem addAlias_of_bound (hd : t.fetch name = some d) :
    t.addAlias c name =
      (if d.id = c.id then .ok () else .error (.aliasTaken name d.name),
        { t with names := t.names.publish t.names.current.entries }) := by
  have hd' : t.names.get? name = some d := hd
  have hcontains : t.names.contains name = true := by simp [SnapshotRegistry.contains, hd']
  have hfetch : { t with names := t.names.publish t.names.current.entries }.fetch name = some d :=
    hd
  simp only [addAlias, SnapshotRegistry.register, hcontains, if_true, Bool.false_eq_true,
    if_false, hfetch]
  split <;> rfl

theorem change_define (t : ClassTable) (name : String) (parent : Class) (flags : ClassFlags)
    (size : Nat) :
    t.Change (t.define name parent flags size).2 parent := by
  cases hfinal : parent.isFinal with
  | true =>
    rw [define_of_final hfinal]
    exact .none ⟨fun _ => rfl, rfl⟩
  | false =>
    cases hname : t.fetch name with
    | some c =>
      rw [define_of_bound hfinal hname]
      exact .none ⟨fun _ => rfl, rfl⟩
    | none =>
      rw [define_of_free hfinal hname]
      exact .fresh name flags size (binds_insert hname _ _) rfl

theorem change_addAlias (t : ClassTable) (c : Class) (name : String) :
    t.Change (t.addAlias c name).2 c := by
  cases hname : t.fetch name with
  | some d =>
    rw [addAlias_of_bound hname]
    exact .none ⟨fun _ => rfl, rfl⟩
  | none =>
    rw [addAlias_of_free hname]
    exact .bound name (binds_insert hname _ _) rfl

theorem Step.change (hs : Step t t') : ∃ subject ∈ t.made, t.Change t' subject := by
  obtain ⟨call, hsubject, rfl⟩ := hs
  cases call with
  | define name parent flags size =>
    exact ⟨parent, hsubject, t.change_define name parent flags size⟩
  | addAlias c name => exact ⟨c, hsubject, t.change_addAlias c name⟩

/-! ## Bindings are for ever -/

theorem Binds.keeps (hb : t.Binds t' name c) (hd : t.fetch other = some d) :
    t'.fetch other = some d := by
  have hne : name ≠ other := by
    rintro rfl
    rw [hb.free] at hd
    cases hd
  rw [hb.fetch, if_neg hne, hd]

theorem Change.keeps (hc : t.Change t' parent) (hd : t.fetch other = some d) :
    t'.fetch other = some d := by
  cases hc with
  | none hsame => rw [hsame.fetch, hd]
  | bound _ hbinds _ => exact hbinds.keeps hd
  | fresh _ _ _ hbinds _ => exact hbinds.keeps hd

theorem Change.made_extends (hc : t.Change t' parent) : t.made <+: t'.made := by
  cases hc with
  | none hsame => rw [hsame.made]
  | bound _ _ hmade => rw [hmade]
  | fresh _ _ _ _ hmade =>
    rw [hmade]
    exact List.prefix_append _ _

theorem Leads.keeps (hl : Leads t t') (hd : t.fetch other = some d) : t'.fetch other = some d := by
  induction hl with
  | refl => exact hd
  | tail _ hstep ih =>
    obtain ⟨_, _, hchange⟩ := hstep.change
    exact hchange.keeps ih

theorem Leads.made_extends (hl : Leads t t') : t.made <+: t'.made := by
  induction hl with
  | refl => exact List.prefix_refl _
  | tail _ hstep ih =>
    obtain ⟨_, _, hchange⟩ := hstep.change
    exact ih.trans hchange.made_extends

/-! ## Tables in order -/

/-- What holds of every table that calls lead to. -/
structure Ordered (t : ClassTable) : Prop where
  builtins : Class.builtins ⊆ t.made
  /-- the identity of a class is its place -/
  ids : ∀ (i : Nat) (c : Class), t.made[i]? = some c → c.id = ⟨i⟩
  parents : ∀ c ∈ t.made, ∀ p, c.parent? = some p → p ∈ t.made
  /-- names are bound to classes that exist -/
  bound : ∀ name c, t.fetch name = some c → c ∈ t.made
  /-- every class is bound to its own name -/
  own : ∀ c ∈ t.made, t.fetch c.name = some c

namespace Ordered

/-- Classes that exist are told apart by their identities. -/
theorem eq_of_id (ht : t.Ordered) (hc : c ∈ t.made) (hd : d ∈ t.made) (hid : c.id = d.id) :
    c = d := by
  obtain ⟨i, hi⟩ := List.mem_iff_getElem?.mp hc
  obtain ⟨j, hj⟩ := List.mem_iff_getElem?.mp hd
  rw [ht.ids i c hi, ht.ids j d hj] at hid
  cases hid
  exact Option.some.inj (hi.symm.trans hj)

/-- Classes that exist are told apart by their names. -/
theorem eq_of_name (ht : t.Ordered) (hc : c ∈ t.made) (hd : d ∈ t.made) (hname : c.name = d.name) :
    c = d := by
  have hfetch := ht.own c hc
  rw [hname, ht.own d hd] at hfetch
  exact (Option.some.inj hfetch).symm

theorem compatible_iff (ht : t.Ordered) (hc : c ∈ t.made) (hp : parent ∈ t.made) :
    compatible c parent flags size = true ↔
      c.parent? = some parent ∧ c.flags = flags ∧ c.size = size := by
  unfold compatible
  cases hparent : c.parent? with
  | none => simp
  | some p =>
    have hid : p.id = parent.id ↔ p = parent :=
      ⟨ht.eq_of_id (ht.parents c hc p hparent) hp, fun h => h ▸ rfl⟩
    simp [hid, and_assoc]

theorem unchanged (ht : t.Ordered) (hs : t.Unchanged t') : t'.Ordered := by
  constructor
  · exact hs.made ▸ ht.builtins
  · exact hs.made ▸ ht.ids
  · exact hs.made ▸ ht.parents
  · intro name c hc
    rw [hs.fetch] at hc
    exact hs.made ▸ ht.bound name c hc
  · intro c hc
    rw [hs.made] at hc
    rw [hs.fetch]
    exact ht.own c hc

theorem bind (ht : t.Ordered) (hc : c ∈ t.made) (hb : t.Binds t' name c)
    (hmade : t'.made = t.made) :
    t'.Ordered := by
  constructor
  · exact hmade ▸ ht.builtins
  · exact hmade ▸ ht.ids
  · exact hmade ▸ ht.parents
  · intro other d hd
    rw [hb.fetch] at hd
    rw [hmade]
    split at hd
    · cases hd
      exact hc
    · exact ht.bound other d hd
  · intro d hd
    rw [hmade] at hd
    exact hb.keeps (ht.own d hd)

theorem fresh (ht : t.Ordered) (hp : parent ∈ t.made)
    (hb : t.Binds t' name (t.fresh name parent flags size))
    (hmade : t'.made = t.made ++ [t.fresh name parent flags size]) : t'.Ordered := by
  constructor
  · intro d hd
    rw [hmade]
    exact List.mem_append_left _ (ht.builtins hd)
  · intro i d hd
    rw [hmade, List.getElem?_append] at hd
    split at hd
    · exact ht.ids i d hd
    · -- the new class is the only one behind the old ones, and its identity is the number of these
      rename_i hi
      rw [List.getElem?_singleton] at hd
      split at hd
      · have hplace : i = t.made.length := by omega
        cases hd
        rw [hplace]
        rfl
      · cases hd
  · intro d hd p hparent
    rw [hmade] at hd ⊢
    rcases List.mem_append.mp hd with hold | hnew
    · exact List.mem_append_left _ (ht.parents d hold p hparent)
    · rw [List.mem_singleton.mp hnew] at hparent
      cases hparent
      exact List.mem_append_left _ hp
  · intro other d hd
    rw [hb.fetch] at hd
    rw [hmade]
    split at hd
    · cases hd
      exact List.mem_append_right _ (List.mem_singleton_self _)
    · exact List.mem_append_left _ (ht.bound other d hd)
  · intro d hd
    rw [hmade] at hd
    rcases List.mem_append.mp hd with hold | hnew
    · exact hb.keeps (ht.own d hold)
    · rw [List.mem_singleton.mp hnew, hb.fetch]
      exact if_pos rfl

theorem change (ht : t.Ordered) (hp : parent ∈ t.made) (hc : t.Change t' parent) : t'.Ordered := by
  cases hc with
  | none hsame => exact ht.unchanged hsame
  | bound _ hbinds hmade => exact ht.bind hp hbinds hmade
  | fresh _ _ _ hbinds hmade => exact ht.fresh hp hbinds hmade

theorem leads (ht : t.Ordered) (hl : Leads t t') : t'.Ordered := by
  induction hl with
  | refl => exact ht
  | tail _ hstep ih =>
    obtain ⟨subject, hsubject, hchange⟩ := hstep.change
    exact ih.change hsubject hchange

end Ordered

theorem initial_entries :
    initial.names.current.entries = Class.builtins.map fun c => (c.name, c) := by
  decide

/-- The table of the built-in classes is in order. -/
theorem initial_ordered : initial.Ordered := by
  constructor
  · exact fun _ hc => hc
  · intro i c hc
    have hids : ∀ e ∈ Class.builtins.zipIdx, e.1.id = ⟨e.2⟩ := by decide
    exact hids (c, i) (List.mem_zipIdx_iff_getElem?.mpr hc)
  · decide
  · intro name c hc
    have hmem := Assoc.mem_of_find? (m := initial.names.current.entries) hc
    rw [initial_entries] at hmem
    obtain ⟨d, hd, heq⟩ := List.mem_map.mp hmem
    cases heq
    exact hd
  · intro c hc
    apply Assoc.find?_of_mem (m := initial.names.current.entries)
    · rw [initial_entries]
      decide
    · rw [initial_entries]
      exact List.mem_map_of_mem hc

/-! ## When calls succeed -/

/-- The name is free, or bound to a class with just this parent, these flags and this size. -/
def Admits (t : ClassTable) (name : String) (parent : Class) (flags : ClassFlags)
    (size : Nat) : Prop :=
  t.fetch name = none ∨
    ∃ c, t.fetch name = some c ∧ c.parent? = some parent ∧ c.flags = flags ∧ c.size = size

theorem Ordered.define_ok (ht : t.Ordered) (hp : parent ∈ t.made) (hfinal : parent.isFinal = false)
    (ha : t.Admits name parent flags size) :
    ∃ defined, (t.define name parent flags size).1 = .ok defined ∧
    defined.cls.parent? = some parent ∧
      defined.cls.flags = flags ∧ defined.cls.size = size ∧
      (t.define name parent flags size).2.fetch name = some defined.cls := by
  rcases ha with hfree | ⟨c, hname, hc⟩
  · rw [define_of_free hfinal hfree]
    refine ⟨_, rfl, rfl, rfl, rfl, ?_⟩
    rw [(binds_insert hfree _ _).fetch, if_pos rfl]
  · rw [define_of_bound hfinal hname,
      if_pos ((ht.compatible_iff (ht.bound name c hname) hp).mpr hc)]
    exact ⟨_, rfl, hc.1, hc.2.1, hc.2.2, hname⟩

theorem Ordered.define_conflict (ht : t.Ordered) (hp : parent ∈ t.made)
    (hfinal : parent.isFinal = false) (ha : ¬ t.Admits name parent flags size) :
    t.define name parent flags size = (.error (.conflict name), t) := by
  cases hname : t.fetch name with
  | none => exact absurd (.inl hname) ha
  | some c =>
    have hnot : ¬ compatible c parent flags size = true := fun hcompatible =>
      ha (.inr ⟨c, hname, (ht.compatible_iff (ht.bound name c hname) hp).mp hcompatible⟩)
    rw [define_of_bound hfinal hname, if_neg hnot]

/-- How a definition goes: it fails for a final parent or for a name that is taken by something
else, and otherwise gives what was asked for. -/
structure Defines (t : ClassTable) (name : String) (parent : Class) (flags : ClassFlags)
    (size : Nat) : Prop where
  ok_iff : (∃ defined, (t.define name parent flags size).1 = .ok defined) ↔
    parent.isFinal = false ∧ t.Admits name parent flags size
  ok : ∀ defined, (t.define name parent flags size).1 = .ok defined →
    defined.cls.parent? = some parent ∧ defined.cls.flags = flags ∧ defined.cls.size = size ∧
      (t.define name parent flags size).2.fetch name = some defined.cls
  error : ∀ e, (t.define name parent flags size).1 = .error e →
    e = if parent.isFinal then .finalParent name parent.name else .conflict name

theorem Ordered.defines (ht : t.Ordered) (hp : parent ∈ t.made) (name : String) (flags : ClassFlags)
    (size : Nat) :
    t.Defines name parent flags size := by
  cases hfinal : parent.isFinal with
  | true =>
    constructor <;> rw [define_of_final hfinal]
    · simp [hfinal]
    · simp
    · simp [hfinal, eq_comm]
  | false =>
    by_cases ha : t.Admits name parent flags size
    · obtain ⟨defined, hok, hdefined⟩ := ht.define_ok hp hfinal ha
      constructor <;> rw [hok]
      · simp [hfinal, ha]
      · rintro _ heq
        cases heq
        exact hdefined
      · simp
    · constructor <;> rw [ht.define_conflict hp hfinal ha]
      · simp [ha]
      · simp
      · simp [hfinal, eq_comm]

/-- How aliasing goes: it fails if the name is bound to another class, and reports the name of that.
-/
structure Aliases (t : ClassTable) (c : Class) (name : String) : Prop where
  ok_iff : (t.addAlias c name).1 = .ok () ↔ t.fetch name = none ∨ t.fetch name = some c
  ok : (t.addAlias c name).1 = .ok () → (t.addAlias c name).2.fetch name = some c
  error : ∀ e, (t.addAlias c name).1 = .error e →
    ∃ d, t.fetch name = some d ∧ d ≠ c ∧ e = .aliasTaken name d.name

theorem Ordered.aliases (ht : t.Ordered) (hc : c ∈ t.made) (name : String) : t.Aliases c name := by
  cases hname : t.fetch name with
  | none =>
    constructor <;> rw [addAlias_of_free hname]
    · simp [hname]
    · intro _
      rw [(binds_insert hname c t.made).fetch, if_pos rfl]
    · simp
  | some d =>
    have hid : d.id = c.id ↔ d = c := ⟨ht.eq_of_id (ht.bound name d hname) hc, fun h => h ▸ rfl⟩
    by_cases hd : d = c
    · constructor <;> rw [addAlias_of_bound hname, if_pos (hid.mpr hd)]
      · simp [hname, hd]
      · exact fun _ => hd ▸ hname
      · simp
    · constructor <;> rw [addAlias_of_bound hname, if_neg (mt hid.mp hd)]
      · simp [hname, hd]
      · simp
      · rintro e heq
        cases heq
        exact ⟨d, hname, hd, rfl⟩

/-- A call that reports an error has changed no binding and made no class. -/
theorem unchanged_of_fails {call : Call} (hf : t.Fails call) : t.Unchanged (t.after call) := by
  cases call with
  | define name parent flags size =>
    obtain ⟨e, he⟩ := hf
    simp only [after]
    cases hfinal : parent.isFinal with
    | true =>
      rw [define_of_final hfinal]
      exact ⟨fun _ => rfl, rfl⟩
    | false =>
      cases hname : t.fetch name with
      | some c =>
        rw [define_of_bound hfinal hname]
        exact ⟨fun _ => rfl, rfl⟩
      | none =>
        rw [define_of_free hfinal hname] at he
        cases he
  | addAlias c name =>
    obtain ⟨e, he⟩ := hf
    simp only [after]
    cases hname : t.fetch name with
    | some d =>
      rw [addAlias_of_bound hname]
      exact ⟨fun _ => rfl, rfl⟩
    | none =>
      rw [addAlias_of_free hname] at he
      cases he

/-! ## Whole histories -/

/-- What the names of a table stand for, now and later. -/
structure Consistent (t : ClassTable) : Prop where
  /-- the built-in classes and whatever a name is bound to are among the classes that exist -/
  exist : Class.builtins ⊆ t.made ∧ ∀ name c, t.fetch name = some c → c ∈ t.made
  /-- a bound name stays bound to the same class, and a class that exists stays -/
  stays : ∀ t', Leads t t' → (∀ name c, t.fetch name = some c → t'.fetch name = some c) ∧
    t.made <+: t'.made
  /-- every class that was ever made is bound to its own name -/
  own : ∀ c ∈ t.made, t.fetch c.name = some c
  /-- so no two classes share their name, and neither do they share their identity -/
  distinct : ∀ c ∈ t.made, ∀ d ∈ t.made, c.name = d.name ∨ c.id = d.id → c = d
  failed : ∀ call : Call, call.subject ∈ t.made → t.Fails call → t.Unchanged (t.after call)
  defines : ∀ parent ∈ t.made, ∀ name flags size, t.Defines name parent flags size
  aliases : ∀ c ∈ t.made, ∀ name, t.Aliases c name

end ClassTable

/-- Whatever classes have been defined and aliased, in whatever order and with whatever success,
names stand for classes in a consistent way. -/
theorem class_names_consistent {t : ClassTable} (hl : ClassTable.Leads .initial t) :
    t.Consistent := by
  have ht := ClassTable.initial_ordered.leads hl
  constructor
  · exact ⟨ht.builtins, ht.bound⟩
  · exact fun t' hl' => ⟨fun _ _ => hl'.keeps, hl'.made_extends⟩
  · exact ht.own
  · intro c hc d hd hor
    rcases hor with hname | hid
    · exact ht.eq_of_name hc hd hname
    · exact ht.eq_of_id hc hd hid
  · exact fun _ _ hf => ClassTable.unchanged_of_fails hf
  · exact fun _ hp name flags size => ht.defines hp name flags size
  · exact fun _ hc name => ht.aliases hc name

/-- A class below the base class, the first that is not built in. -/
def petClass : Class := .child ⟨⟨10⟩, "Pet", .none, 40⟩ .obj

/-- The table in which the class of pets is defined and also named after dogs. -/
def petTable : ClassTable :=
  (ClassTable.initial.after (.define "Pet" .obj .none 40)).after (.addAlias petClass "Dog")

theorem class_names_consistent_petTable :
    ClassTable.Leads .initial petTable ∧ petTable.Consistent ∧
    petTable.fetch "Dog" = some petClass ∧
      petTable.Admits "Dog" .obj .none 40 ∧ (petTable.define "Dog" .obj .none 48).1 = .error
        (.conflict "Dog") ∧
      (petTable.addAlias .obj "Dog").1 = .error (.aliasTaken "Dog" "Pet") := by
  have hpet : ClassTable.Step .initial (ClassTable.initial.after (.define "Pet" .obj .none 40)) :=
    ⟨_, by decide, rfl⟩
  have hdog : ClassTable.Step (ClassTable.initial.after (.define "Pet" .obj .none 40)) petTable :=
    ⟨.addAlias petClass "Dog", by decide, rfl⟩
  have hl : ClassTable.Leads .initial petTable := .tail (.single hpet) hdog
  exact ⟨hl, class_names_consistent hl, rfl, .inr ⟨petClass, rfl, rfl, rfl, rfl⟩, rfl, rfl⟩

end ObjectBridge
