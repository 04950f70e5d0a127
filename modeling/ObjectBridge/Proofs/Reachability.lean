import ObjectBridge.Proofs.Accounting
import Mathlib.Order.WellFounded
import Mathlib.Logic.Relation
import Mathlib.Data.Fintype.EquivFin

set_option autoImplicit false

/-!
# No leaks (SPEC §1, §8)

An object lives as long as somebody can get at it.  Exact counts alone do not say so, since objects
that hold each other in a ring keep their counts up; on a heap without rings every live object has a
chain of holders that starts at a claim from outside or at an immortal object.
-/

namespace ObjectBridge

namespace Heap

variable {h : Heap} {out : Multiset ObjId} {o p q root : ObjId}

/-- No object holds itself, directly or through others. -/
def Acyclic (h : Heap) : Prop := ∀ o, ¬ Relation.TransGen h.Holds o o

/-- A heap in which objects hold only objects with a higher rank has no rings. -/
theorem acyclic_of_rank (rank : ObjId → Nat) (hr : ∀ p q, h.Holds p q → rank p < rank q) :
    h.Acyclic := by
  have hlt : ∀ p q, Relation.TransGen h.Holds p q → rank p < rank q := by
    intro p q hpq
    induction hpq with
    | single hh => exact hr _ _ hh
    | tail _ hh ih => exact ih.trans (hr _ _ hh)
  exact fun o ho => absurd (hlt o o ho) (lt_irrefl _)

/-- Ranks can be compared slot by slot. -/
theorem acyclic_of_slots (rank : ObjId → Nat)
    (hr : ∀ i < h.slots.length, ∀ x ∈ h.get? ⟨i⟩, ∀ q ∈ x.payload.claims, rank ⟨i⟩ < rank q) :
    h.Acyclic := by
  refine acyclic_of_rank rank fun p q hpq => ?_
  obtain ⟨x, hx, hq⟩ := hpq
  exact hr p.index (used_of_get? hx) x hx q hq

/-! ## Chains of holders -/

instance finite_live (h : Heap) : Finite {o // h.Live o} := by
  refine Finite.of_injective (fun o => (⟨o.1.index, o.2.used⟩ : Fin h.slots.length))
    fun a b hab => ?_
  obtain ⟨⟨i⟩, hi⟩ := a
  obtain ⟨⟨j⟩, hj⟩ := b
  cases Fin.mk.inj hab
  rfl

/-- Without rings, going from objects to their holders comes to an end. -/
theorem Acyclic.wellFounded (ha : h.Acyclic) :
    WellFounded fun a b : {o // h.Live o} => h.Holds a.1 b.1 := by
  let below (a b : {o // h.Live o}) : Prop := Relation.TransGen h.Holds a.1 b.1
  have htrans : IsTrans {o // h.Live o} below := ⟨fun _ _ _ => Relation.TransGen.trans⟩
  have hirrefl : Std.Irrefl below := ⟨fun a haa => ha a.1 haa⟩
  have hwf : WellFounded below := Finite.wellFounded_of_trans_of_irrefl below
  exact Subrelation.wf (fun hh => Relation.TransGen.single hh) hwf

/-- On a heap without rings, a live object can be reached from outside or from an immortal object.
-/
theorem Counted.reachable (hc : h.Counted out) (ha : h.Acyclic) (hl : h.Live o) :
    ∃ root, (root ∈ out ∨ h.Immortal root) ∧ Relation.ReflTransGen h.Holds root o := by
  -- by induction from holders to what they hold
  suffices hall : ∀ a : {o // h.Live o}, ∃ root, (root ∈ out ∨ h.Immortal root) ∧
      Relation.ReflTransGen h.Holds root a.1 from hall ⟨o, hl⟩
  intro a
  induction a using ha.wellFounded.induction with
  | _ a ih =>
    by_cases hi : h.Immortal a.1
    · exact ⟨a.1, .inr hi, .refl⟩
    · rcases hc.claimed a.2 hi with hout | ⟨p, hp⟩
      · exact ⟨a.1, .inl hout, .refl⟩
      · obtain ⟨root, hroot, hreach⟩ := ih ⟨p, hp.live⟩ hp
        exact ⟨root, hroot, hreach.tail hp⟩

/-- What can be reached from a live object lives. -/
theorem Counted.live_of_reaches (hc : h.Counted out) (hl : h.Live root)
    (hr : Relation.ReflTransGen h.Holds root o) :
    h.Live o := by
  induction hr with
  | refl => exact hl
  | tail _ hh _ =>
    obtain ⟨x, hx, hq⟩ := hh
    exact hc.live_inside hx hq

theorem Counted.live_iff_reachable (hc : h.Counted out) (ha : h.Acyclic) (o : ObjId) :
    h.Live o ↔ ∃ root, (root ∈ out ∨ h.Immortal root) ∧ Relation.ReflTransGen h.Holds root o := by
  constructor
  · exact hc.reachable ha
  · rintro ⟨root, hout | himm, hreach⟩
    · exact hc.live_of_reaches (hc.live_out hout) hreach
    · exact hc.live_of_reaches himm.live hreach

end Heap

/-! ## Runs without rings and without lost claims -/

/-- At every moment of a script, if no claim has been lost and no objects hold each other in a ring,
exactly those objects live that can be reached from a claim of the host or from an immortal object,
and exactly those that once lived and do not live now have been destroyed, each of them once. -/
theorem no_leaks {machine : Machine} (filter : LogFilter) (script : List Instruction)
    (hl : LawfulRoutine script) (m : Moment)
    (hm : ScriptPasses filter script (Session.new (Bridge.ready machine)) m)
    (hu : m.session.bridge.Bounded) (hlost : m.session.bridge.ledger.lost = [])
    (ha : m.session.bridge.heap.Acyclic) (o : ObjId) :
    (m.session.bridge.heap.Live o ↔
      ∃ root, (root ∈ m.claims ∨ m.session.bridge.heap.Immortal root) ∧
        Relation.ReflTransGen m.session.bridge.heap.Holds root o) ∧
    (m.session.bridge.heap.Live o → m.session.bridge.ledger.destroyed.count o = 0) ∧
    (m.session.bridge.heap.Used o → ¬ m.session.bridge.heap.Live o →
      m.session.bridge.ledger.destroyed.count o = 1) := by
  have hsound := (hm.balanced hl (Session.new_books machine)).books.sound hu
  have hcounted := hsound.counted
  rw [hlost, Multiset.coe_nil, add_zero] at hcounted
  refine ⟨hcounted.live_iff_reachable ha o, ?_, ?_⟩
  · rintro ⟨x, hx⟩
    rw [hsound.buried o, hx, if_neg]
    simp
  · intro hused hdead
    rw [hsound.buried o, if_pos ⟨hused, Heap.not_live_iff.mp hdead⟩]

/-- A script that puts a string into a vector and gives up another string. -/
def pushAndDrop : List Instruction :=
  [.act (.onObject (.new (.vector 1))) (some "v") none,
    .act (.onObject (.new (.str "x"))) (some "s") none,
    .act (.primitive "v" true (.vectorPush (some "s"))) none none,
    .act (.onObject (.new (.str "y"))) (some "t") none, .act (.onObject (.drop "t")) none none]

/-- The heap that the script leaves. -/
def pushAndDropHeap : Heap :=
  ⟨[some ⟨.boolean, 1, .boolean false⟩, some ⟨.boolean, 1, .boolean true⟩,
    some ⟨.vector, 1, .vector [some ⟨3⟩]⟩, some ⟨.string, 1, .string "x"⟩, none]⟩

theorem pushAndDropHeap_acyclic : pushAndDropHeap.Acyclic :=
  Heap.acyclic_of_slots ObjId.index (by decide +kernel)

/-- In the end the string in the vector can be reached from the variable, and the other one has been
destroyed once. -/
theorem no_leaks_after_drop :
    ∃ m, ScriptPasses none pushAndDrop (Session.new (Bridge.ready .usual)) m ∧
      (∃ root, (root ∈ m.claims ∨ m.session.bridge.heap.Immortal root) ∧
        Relation.ReflTransGen m.session.bridge.heap.Holds root ⟨3⟩) ∧
      m.session.bridge.ledger.destroyed.count ⟨4⟩ = 1 := by
  have hl : LawfulRoutine pushAndDrop := ⟨trivial, trivial, trivial, trivial, trivial, trivial⟩
  obtain ⟨m, hm, hheap, hledger⟩ : ∃ m,
      ScriptPasses none pushAndDrop (Session.new (Bridge.ready .usual)) m ∧
      m.session.bridge.heap = pushAndDropHeap ∧ m.session.bridge.ledger = ⟨0, [], [⟨4⟩]⟩ :=
    ⟨_, .later (.later (.later (.later (.later (.here _ _))))), by decide +kernel, by
      decide +kernel⟩
  have hu : m.session.bridge.Bounded := by
    unfold Bridge.Bounded
    rw [hledger]
    decide
  have hlost : m.session.bridge.ledger.lost = [] := by rw [hledger]
  have ha : m.session.bridge.heap.Acyclic := hheap ▸ pushAndDropHeap_acyclic
  have hstring : m.session.bridge.heap.Live ⟨3⟩ := by
    rw [hheap]
    exact ⟨_, rfl⟩
  have hgone : ¬ m.session.bridge.heap.Live ⟨4⟩ := by
    rw [hheap, Heap.not_live_iff]
    rfl
  have hused : m.session.bridge.heap.Used ⟨4⟩ := by
    rw [hheap]
    decide
  exact ⟨m, hm, (no_leaks none pushAndDrop hl m hm hu hlost ha ⟨3⟩).1.mp hstring,
    (no_leaks none pushAndDrop hl m hm hu hlost ha ⟨4⟩).2.2 hused hgone⟩

end ObjectBridge
