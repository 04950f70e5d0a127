import ObjectBridge.Proofs.ClassNames

set_option autoImplicit false

/-!
# Lines of ancestors (SPEC §11.2)

The ancestors of an ancestor are a last part of the ancestors of a class.  Most of the order on
classes follows from this: it is transitive because last parts are, two classes above each other
have equally long lines, and of two last parts of one line the shorter is a last part of the longer.

The walk compares identities, not classes.  `Grown` is what all tables have in common that calls
lead to; in such a table the identity of a parent is smaller than that of its child, the base class
is the only one without a parent, and no parent is final.
-/

namespace ObjectBridge

namespace Class

variable {c d e : Class}

theorem head?_ancestors (c : Class) : c.ancestors.head? = some c := by
  cases c <;> rfl

theorem mem_ancestors_self (c : Class) : c ∈ c.ancestors := List.mem_of_head? c.head?_ancestors

/-- The walk finds a class if its identity occurs in the line. -/
theorem isSubclassOf_iff (c d : Class) :
    c.isSubclassOf d = true ↔ ∃ a ∈ c.ancestors, a.id = d.id := by
  induction c with
  | root desc => simp [isSubclassOf, ancestors, Class.id, descriptor]
  | child desc p ih => simp [isSubclassOf, ancestors, ih, Class.id, descriptor]

theorem isSubclassOf_of_mem (hd : d ∈ c.ancestors) : c.isSubclassOf d = true :=
  (isSubclassOf_iff c d).mpr ⟨d, hd, rfl⟩

/-- The line of an ancestor is where the line of the class goes on. -/
theorem suffix_of_mem_ancestors (hd : d ∈ c.ancestors) : d.ancestors <:+ c.ancestors := by
  induction c with
  | root desc =>
    rw [List.mem_singleton.mp hd]
  | child desc p ih =>
    rcases List.mem_cons.mp hd with rfl | hp
    · exact List.suffix_refl _
    · exact (ih hp).trans (List.suffix_cons _ _)

theorem mem_ancestors_trans (hd : d ∈ c.ancestors) (he : e ∈ d.ancestors) : e ∈ c.ancestors :=
  (suffix_of_mem_ancestors hd).subset he

theorem eq_of_ancestors_eq (h : c.ancestors = d.ancestors) : c = d := by
  have hhead := congrArg List.head? h
  rw [head?_ancestors, head?_ancestors] at hhead
  exact Option.some.inj hhead

theorem mem_ancestors_antisymm (hd : d ∈ c.ancestors) (hc : c ∈ d.ancestors) : c = d := by
  have hdc := suffix_of_mem_ancestors hd
  have hcd := suffix_of_mem_ancestors hc
  exact eq_of_ancestors_eq (hcd.eq_of_length (le_antisymm hcd.length_le hdc.length_le))

/-- Of two classes in one line, one is in the line of the other. -/
theorem mem_ancestors_total (hd : d ∈ c.ancestors) (he : e ∈ c.ancestors) :
    e ∈ d.ancestors ∨ d ∈ e.ancestors := by
  rcases List.suffix_or_suffix_of_suffix (suffix_of_mem_ancestors hd)
    (suffix_of_mem_ancestors he) with h | h
  · exact .inr (h.subset d.mem_ancestors_self)
  · exact .inl (h.subset e.mem_ancestors_self)

/-- Each class in a line is followed by its parent, and the last one has none. -/
theorem getElem?_ancestors_succ (c : Class) (n : Nat) :
    c.ancestors[n + 1]? = c.ancestors[n]?.bind Class.parent? := by
  induction c generalizing n with
  | root desc => cases n <;> rfl
  | child desc p ih =>
    cases n with
    | zero =>
      change p.ancestors[0]? = some p
      rw [← List.head?_eq_getElem?, head?_ancestors]
    | succ n => exact ih n

end Class

namespace ClassTable

variable {t t' : ClassTable} {c d e p : Class}

/-! ## Tables that definitions lead to -/

/-- A call makes no class, or one class below a parent that is not final. -/
theorem Step.made (hs : Step t t') :
    t'.made = t.made ∨ ∃ p ∈ t.made, p.isFinal = false ∧
    ∃ name flags size, t'.made = t.made ++ [t.fresh name p flags size] := by
  obtain ⟨call, hsubject, rfl⟩ := hs
  cases call with
  | define name parent flags size =>
    simp only [after]
    cases hfinal : parent.isFinal with
    | true => exact .inl (by rw [define_of_final hfinal])
    | false =>
      cases hname : t.fetch name with
      | some c => exact .inl (by rw [define_of_bound hfinal hname])
      | none => exact .inr ⟨parent, hsubject, hfinal, name, flags,
          size, by rw [define_of_free hfinal hname]⟩
  | addAlias c name =>
    simp only [after]
    cases hname : t.fetch name with
    | some d => exact .inl (by rw [addAlias_of_bound hname])
    | none => exact .inl (by rw [addAlias_of_free hname])

/-- What holds of the classes of every table that calls lead to. -/
structure Grown (t : ClassTable) : Prop extends t.Ordered where
  /-- only the base class has no parent -/
  base : ∀ c ∈ t.made, c.parent? = none → c = .obj
  /-- a parent is older than its children -/
  older : ∀ c ∈ t.made, ∀ p, c.parent? = some p → p.id.index < c.id.index
  /-- a final class is nobody's parent -/
  unsealed : ∀ c ∈ t.made, ∀ p, c.parent? = some p → p.isFinal = false

namespace Grown

theorem initial : ClassTable.initial.Grown where
  toOrdered := initial_ordered
  base := by decide
  older := by decide
  unsealed := by decide

theorem step (ht : t.Grown) (hs : Step t t') : t'.Grown := by
  have hordered : t'.Ordered := ht.toOrdered.leads (.single hs)
  rcases hs.made with hsame | ⟨q, hq, hfinal, name, flags, size, hmade⟩
  · exact ⟨hordered, hsame ▸ ht.base, hsame ▸ ht.older, hsame ▸ ht.unsealed⟩
  · -- the identity of the new class is the number of the old ones, and its parent is one of these
    have hplace : q.id.index < t.made.length := by
      obtain ⟨i, hi⟩ := List.mem_iff_getElem?.mp hq
      rw [ht.ids i q hi]
      exact (List.getElem?_eq_some_iff.mp hi).1
    refine ⟨hordered, ?_, ?_, ?_⟩ <;> intro c hc <;> rw [hmade, List.mem_append,
      List.mem_singleton] at hc <;>
      rcases hc with hold | rfl
    · exact ht.base c hold
    · exact nofun
    · exact ht.older c hold
    · rintro p ⟨⟩
      exact hplace
    · exact ht.unsealed c hold
    · rintro p ⟨⟩
      exact hfinal

theorem leads (ht : t.Grown) (hl : Leads t t') : t'.Grown := by
  induction hl with
  | refl => exact ht
  | tail _ hstep ih => exact ih.step hstep

/-! ## The order of the classes of a table -/

theorem mem_of_mem_ancestors (ht : t.Grown) (hc : c ∈ t.made) (hd : d ∈ c.ancestors) :
    d ∈ t.made := by
  induction c with
  | root desc => rwa [List.mem_singleton.mp hd]
  | child desc p ih =>
    rcases List.mem_cons.mp hd with rfl | hp
    · exact hc
    · exact ih (ht.parents _ hc p rfl) hp

/-- Among the classes of a table, comparing identities along the line compares classes. -/
theorem isSubclassOf_iff (ht : t.Grown) (hc : c ∈ t.made) (hd : d ∈ t.made) :
    c.isSubclassOf d = true ↔ d ∈ c.ancestors := by
  constructor
  · intro h
    obtain ⟨a, ha, hid⟩ := (Class.isSubclassOf_iff c d).mp h
    rwa [← ht.eq_of_id (ht.mem_of_mem_ancestors hc ha) hd hid]
  · exact Class.isSubclassOf_of_mem

theorem obj_mem_ancestors (ht : t.Grown) (hc : c ∈ t.made) : Class.obj ∈ c.ancestors := by
  induction c with
  | root desc => exact List.mem_singleton.mpr (ht.base _ hc rfl).symm
  | child desc p ih => exact List.mem_cons_of_mem _ (ih (ht.parents _ hc p rfl))

theorem getLast?_ancestors (ht : t.Grown) (hc : c ∈ t.made) : c.ancestors.getLast? = some .obj := by
  induction c with
  | root desc => rw [ht.base _ hc rfl]; rfl
  | child desc p ih =>
    have hne : p.ancestors ≠ [] := List.ne_nil_of_mem p.mem_ancestors_self
    rw [Class.ancestors, List.getLast?_cons_of_ne_nil hne]
    exact ih (ht.parents _ hc p rfl)

theorem index_le (ht : t.Grown) (hc : c ∈ t.made) (hd : d ∈ c.ancestors) :
    d.id.index ≤ c.id.index := by
  induction c with
  | root desc => rw [List.mem_singleton.mp hd]
  | child desc p ih =>
    rcases List.mem_cons.mp hd with rfl | hp
    · exact le_rfl
    · exact (ih (ht.parents _ hc p rfl) hp).trans (ht.older _ hc p rfl).le

theorem length_ancestors_le (ht : t.Grown) (hc : c ∈ t.made) :
    c.ancestors.length ≤ c.id.index + 1 := by
  induction c with
  | root desc => exact Nat.succ_le_succ (Nat.zero_le _)
  | child desc p ih =>
    have hp := ih (ht.parents _ hc p rfl)
    have holder := ht.older _ hc p rfl
    rw [Class.ancestors, List.length_cons]
    omega

/-- Identities get smaller along a line, so that no class comes twice. -/
theorem pairwise_ancestors (ht : t.Grown) (hc : c ∈ t.made) :
    c.ancestors.Pairwise fun a b => b.id.index < a.id.index := by
  induction c with
  | root desc => exact List.pairwise_singleton _ _
  | child desc p ih =>
    have hp := ht.parents _ hc p rfl
    refine List.pairwise_cons.mpr ⟨fun a ha => ?_, ih hp⟩
    exact (ht.index_le hp ha).trans_lt (ht.older _ hc p rfl)

/-- A final class is in no line but its own. -/
theorem eq_of_final (ht : t.Grown) (hc : c ∈ t.made) (hfinal : d.isFinal = true)
    (hd : d ∈ c.ancestors) : c = d := by
  induction c with
  | root desc => exact (List.mem_singleton.mp hd).symm
  | child desc p ih =>
    rcases List.mem_cons.mp hd with rfl | hp
    · rfl
    · have heq : p = d := ih (ht.parents _ hc p rfl) hp
      have hnot := ht.unsealed _ hc p rfl
      rw [heq, hfinal] at hnot
      cases hnot

end Grown

end ClassTable

end ObjectBridge
