import ObjectBridge.Proofs.Copying

set_option autoImplicit false

/-!
# Histories of calls (SPEC §11.3)

The host makes calls in turn on one object that it holds, and the object stands for something
simpler, such as a finite map or a list.  A `Meaning` says what each call does to that; `Implements`
says of one call that it goes accordingly, and `Implements.follows` of any number of them.  The
counts are a matter of the state before each call: they have to have room for the claims that it
adds.
-/

namespace ObjectBridge

/-- New claims for which there is room leave the counts bounded. -/
theorem Bridge.Bounded.retainAll {b : Bridge} {claims : List ObjId} (hu : b.Bounded)
    (hroom : b.HasRoom claims) :
    (b.grown (b.heap.retainAll claims) (b.heap.claimPeak b.ledger.peak claims)).Bounded :=
  Heap.claimPeak_lt hu le_rfl hroom

/-- A bridge, and the claims that the host holds on its objects. -/
structure Keeper where
  bridge : Bridge
  host : Multiset ObjId

/-- A kind of calls. -/
structure Interface (C A : Type) where
  /-- the claims that the call takes over -/
  takes : C → List ObjId
  /-- the call, with the claims that it gives -/
  run : C → Run (A × List ObjId)
  /-- the claims that it adds to those that are counted -/
  adds : C → Bridge → List ObjId

/-! ## Making calls -/

namespace Keeper

variable {C A : Type} (api : Interface C A)

/-- The host makes a call: it hands over the claims that the call takes, and gets those that it
gives, or the claim on the exception that it raises. -/
def call (s : Keeper) (c : C) : Except Complaint A × Keeper :=
  match (api.run c).run s.bridge with
  | (.ok (a, given), b) => (.ok a, ⟨b, s.host - api.takes c + given⟩)
  | (.error u, b) => (.error (u.complaint b.heap), ⟨b, s.host - api.takes c + u.claims⟩)

/-- The host makes calls in turn, whether they raise or not. -/
def run (s : Keeper) : List C → List (Except Complaint A) × Keeper
  | [] => ([], s)
  | c :: rest =>
    ((s.call api c).1 :: ((s.call api c).2.run rest).1, ((s.call api c).2.run rest).2)

/-- The host holds the claims that the call takes, and besides them one on `o`, and the counts have
room for the claims that it adds. -/
def Affords (o : ObjId) (s : Keeper) (c : C) : Prop :=
  (api.takes c : Multiset ObjId) + {o} ≤ s.host ∧ s.bridge.HasRoom (api.adds c s.bridge)

instance (o : ObjId) (s : Keeper) (c : C) : Decidable (s.Affords api o c) :=
  inferInstanceAs (Decidable (_ ∧ _))

/-- The host can make each of the calls when its turn comes. -/
def AffordsAll (o : ObjId) (s : Keeper) : List C → Prop
  | [] => True
  | c :: rest => s.Affords api o c ∧ AffordsAll o (s.call api c).2 rest

instance decidableAffordsAll (o : ObjId) :
    (s : Keeper) → (calls : List C) → Decidable (s.AffordsAll api o calls)
  | _, [] => .isTrue trivial
  | s, c :: rest =>
    have := decidableAffordsAll o (s.call api c).2 rest
    inferInstanceAs (Decidable (_ ∧ _))

end Keeper

/-! ## What calls mean -/

/-- What calls mean for something that an object stands for. -/
structure Meaning (C A M : Type) where
  /-- the answer to a call, and what becomes of the thing -/
  step : M → C → Except Complaint A × M
  /-- the object stands for it -/
  Shows : Bridge → M → Prop
  /-- what the call does to the state while the host holds some claims besides those it takes -/
  Effect : M → C → Multiset ObjId → Bridge → Bridge → Prop

section

variable {C A M : Type} {api : Interface C A} {o : ObjId} {μ : Meaning C A M} {m : M} {s : Keeper}
  {c : C} {calls : List C}

/-- The answers to calls in turn, and what becomes of the thing. -/
def Meaning.steps (μ : Meaning C A M) (m : M) : List C → List (Except Complaint A) × M
  | [] => ([], m)
  | c :: rest =>
    ((μ.step m c).1 :: (steps μ (μ.step m c).2 rest).1, (steps μ (μ.step m c).2 rest).2)

/-- The call has ended as it should. -/
structure Meaning.Meets (μ : Meaning C A M) (m : M) (c : C) (host : Multiset ObjId) (b : Bridge)
    (a : Except Complaint A) (b' : Bridge) : Prop where
  answer : a = (μ.step m c).1
  state : μ.Shows b' (μ.step m c).2
  effect : μ.Effect m c host b b'
  bounded : b'.Bounded

/-- Calls on the object `o` go as they should, one at a time. -/
structure Interface.Implements (api : Interface C A) (o : ObjId) (μ : Meaning C A M) : Prop where
  transfers : ∀ c, Transfers {o} (api.takes c) (api.run c) (fun r => r.2)
  meets : ∀ {b : Bridge} {F : Multiset ObjId} {m : M} (c : C), b.Books (api.takes c + F) →
    b.Bounded → o ∈ F → b.HasRoom (api.adds c b) → μ.Shows b m →
    Ends (api.run c) b (fun r b' => μ.Meets m c F b (.ok r.1) b')
      (fun u b' => μ.Meets m c F b (.error (u.complaint b'.heap)) b')

/-- Calls in turn go as they should. -/
structure Keeper.Follows (api : Interface C A) (μ : Meaning C A M) (m : M) (s : Keeper)
    (calls : List C) : Prop where
  /-- every call has the answer that it should have -/
  answers : (s.run api calls).1 = (μ.steps m calls).1
  /-- at all times the object stands for what it should -/
  shown : ∀ before rest, calls = before ++ rest →
    μ.Shows (s.run api before).2.bridge (μ.steps m before).2
  /-- every call changes the state as it should, and not otherwise -/
  effects : ∀ before c rest, calls = before ++ c :: rest →
    μ.Effect (μ.steps m before).2 c ((s.run api before).2.host - api.takes c)
      (s.run api before).2.bridge ((s.run api before).2.call api c).2.bridge
  /-- all claims are accounted for in the end -/
  books : (s.run api calls).2.bridge.Books (s.run api calls).2.host
  bounded : (s.run api calls).2.bridge.Bounded

theorem Keeper.run_concat (before : List C) (c : C) :
    (s.run api (before ++ [c])).2 = ((s.run api before).2.call api c).2 := by
  induction before generalizing s with
  | nil => rfl
  | cons d before ih => exact ih

/-- What every call does to the state a history does to it, if that can be put together. -/
theorem Keeper.Follows.chain {R : Bridge → Bridge → Prop} (hf : s.Follows api μ m calls)
    (hrefl : ∀ b, R b b) (htrans : ∀ {b b' b''}, R b b' → R b' b'' → R b b'')
    (heffect : ∀ {m c F b b'}, μ.Effect m c F b b' → R b b') :
    R s.bridge (s.run api calls).2.bridge := by
  suffices hall : ∀ before rest, calls = before ++ rest →
      R s.bridge (s.run api before).2.bridge from
    hall calls [] (List.append_nil calls).symm
  intro before
  induction before using List.reverseRecOn with
  | nil => exact fun rest _ => hrefl _
  | append_singleton before c ih =>
    intro rest heq
    rw [List.append_assoc, List.singleton_append] at heq
    rw [run_concat]
    exact htrans (ih _ heq) (heffect (hf.effects before c rest heq))

namespace Interface.Implements

/-- One call. -/
theorem call (hi : api.Implements o μ) (hb : s.bridge.Books s.host) (hu : s.bridge.Bounded)
    (hm : μ.Shows s.bridge m) (hc : s.Affords api o c) :
    μ.Meets m c (s.host - api.takes c) s.bridge (s.call api c).1 (s.call api c).2.bridge ∧
      (s.call api c).2.bridge.Books (s.call api c).2.host := by
  obtain ⟨hheld, hroom⟩ := hc
  have hle : (api.takes c : Multiset ObjId) ≤ s.host :=
    le_trans (Multiset.le_add_right _ _) hheld
  have ho : o ∈ s.host - api.takes c := Multiset.singleton_le.mp (le_tsub_of_add_le_left hheld)
  rw [← add_tsub_cancel_of_le hle] at hb
  have hmeets := hi.meets c hb hu ho hroom hm
  have hclaims := hi.transfers c s.bridge _ (Multiset.singleton_subset.mpr ho) hb
  unfold Keeper.call
  split
  · rename_i a given b' hrun
    refine ⟨hmeets.of_ok hrun, ?_⟩
    rw [add_comm]
    exact hclaims.of_ok hrun
  · rename_i u b' hrun
    refine ⟨hmeets.of_error hrun, ?_⟩
    rw [add_comm]
    exact (hclaims.of_error hrun).books

/-- Calls in turn, by what one of them does. -/
theorem follows (hi : api.Implements o μ) (hb : s.bridge.Books s.host) (hu : s.bridge.Bounded)
    (hm : μ.Shows s.bridge m) (hc : s.AffordsAll api o calls) : s.Follows api μ m calls := by
  induction calls generalizing s m with
  | nil =>
    refine ⟨rfl, fun before rest heq => ?_, fun before c rest heq => ?_, hb, hu⟩
    · obtain ⟨rfl, -⟩ := List.append_eq_nil_iff.mp heq.symm
      exact hm
    · cases before <;> cases heq
  | cons c rest ih =>
    obtain ⟨hmeets, hbooks⟩ := hi.call hb hu hm hc.1
    have hrest := ih hbooks hmeets.bounded hmeets.state hc.2
    refine ⟨?_, fun before after heq => ?_, fun before d after heq => ?_, hrest.books,
      hrest.bounded⟩
    · rw [Keeper.run, Meaning.steps, hmeets.answer, hrest.answers]
    · cases before with
      | nil => exact hm
      | cons e before =>
        obtain ⟨rfl, htail⟩ := List.cons.inj heq
        exact hrest.shown before after htail
    · cases before with
      | nil =>
        obtain ⟨rfl, -⟩ := List.cons.inj heq
        exact hmeets.effect
      | cons e before =>
        obtain ⟨rfl, htail⟩ := List.cons.inj heq
        exact hrest.effects before d after htail

end Interface.Implements

end

end ObjectBridge
