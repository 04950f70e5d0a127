import ObjectBridge.Dispatch
import ObjectBridge.Proofs.Ownership

set_option autoImplicit false

/-!
# What calls do with claims (SPEC §4.1)

`Transfers borrowed take r give` describes a call by the claims that change hands: it uses the
claims `borrowed`, which stay where they are, takes over the claims `take` and answers with the
claims `give`.  If it unwinds, all that is left of the claims it took is the claim on the exception
that is on its way.  The host may hold any other claims meanwhile, and the call does not touch them.

`Succeeds` says the same of a call that does not unwind.
-/

namespace ObjectBridge

open Heap

/-! ## Unwinding -/

/-- The claims that are on their way to a trap. -/
def Unwind.claims : Unwind → Multiset ObjId
  | .raised _ err => {err}
  | _ => 0

/-- What may be on its way to a trap: an exception of the bridge with an error object, or a fault,
but never the use of an object that is gone. -/
def Unwind.Sane (h : Heap) : Unwind → Prop
  | .raised via err => via = .bridge ∧ h.IsErr err
  | .dangling _ => False
  | _ => True

namespace Bridge

/-- A call has unwound, and the host holds the claims `host` besides what is on its way. -/
structure Unwound (b : Bridge) (u : Unwind) (host : Multiset ObjId) : Prop where
  books : b.Books (u.claims + host)
  sane : b.Bounded → u.Sane b.heap

/-- A count has run past 32 bits, and nothing is promised of the claims any more. -/
structure Overrun (b : Bridge) : Prop extends b.Running where
  unbounded : ¬ b.Bounded

variable {b : Bridge} {host : Multiset ObjId} {u : Unwind}

theorem Overrun.books (ho : b.Overrun) : b.Books host :=
  ⟨ho.toRunning, fun hu => absurd hu ho.unbounded⟩

theorem Overrun.unwound (ho : b.Overrun) : b.Unwound u host :=
  ⟨ho.books, fun hu => absurd hu ho.unbounded⟩

theorem Books.overrun (hb : b.Books host) (hu : ¬ b.Bounded) : b.Overrun := ⟨hb.toRunning, hu⟩

/-- Books that do not account for a claim are those of a bridge whose counts have overrun. -/
theorem Books.overrun_of_dead {o : ObjId} (hb : b.Books host) (hl : b.Bounded → b.heap.Live o)
    (hx : b.heap.get? o = none) : b.Overrun :=
  hb.overrun fun hu => not_live_iff.mpr hx (hl hu)

theorem Unwound.lose {claims : List ObjId} (hw : b.Unwound u (claims + host)) :
    { b with ledger := b.ledger.noteLost claims }.Unwound u host := by
  refine ⟨?_, hw.sane⟩
  have hb := hw.books
  rw [← add_assoc, add_comm u.claims, add_assoc] at hb
  exact hb.lose

theorem Unwound.journal (hw : b.Unwound u host) (j : Array Entry) :
    { b with journal := j }.Unwound u host :=
  ⟨hw.books.journal j, hw.sane⟩

end Bridge

/-! ## Transfers and their rules -/

theorem add_subset_add {A B C : Multiset ObjId} (hBC : B ⊆ C) : A + B ⊆ A + C := by
  intro o ho
  rcases Multiset.mem_add.mp ho with hA | hB
  · exact Multiset.mem_add.mpr (.inl hA)
  · exact Multiset.mem_add.mpr (.inr (hBC hB))

theorem subset_add_right (A B : Multiset ObjId) :
    B ⊆ A + B := fun _ ho => Multiset.mem_add.mpr (.inr ho)

section Rules

variable {α β : Type} {B B' t t' K : Multiset ObjId} {r : Run α} {f : α → Run β}
  {g g' : α → Multiset ObjId}
  {k : β → Multiset ObjId}

/-- The call borrows `B`, takes `t` and gives `g`. -/
def Transfers (B t : Multiset ObjId) (r : Run α) (g : α → Multiset ObjId) : Prop :=
  ∀ b F, B ⊆ F → b.Books (t + F) → Ends r b (fun a b' => b'.Books (g a + F))
    (fun u b' => b'.Unwound u F)

/-- The call borrows `B`, takes `t` and gives `g`, and does not unwind. -/
def Succeeds (B t : Multiset ObjId) (r : Run α) (g : α → Multiset ObjId) : Prop :=
  ∀ b F, B ⊆ F → b.Books (t + F) → Ends r b (fun a b' => b'.Books (g a + F))
    (fun _ b' => b'.Overrun)

theorem Succeeds.transfers (hr : Succeeds B t r g) : Transfers B t r g := by
  intro b F hB hb
  exact (hr b F hB hb).mono (fun _ _ h => h) (fun _ _ h => h.unwound)

theorem Transfers.pure (a : α) (ht : t = g a) : Transfers B t (pure a) g := by
  intro b F _ hb
  rw [ht] at hb
  exact hb

theorem Succeeds.pure (a : α) (ht : t = g a) : Succeeds B t (pure a) g := by
  intro b F _ hb
  rw [ht] at hb
  exact hb

theorem Transfers.bind (hr : Transfers B t r g) (hf : ∀ a, Transfers B (g a) (f a) k) :
    Transfers B t (r >>= f) k := by
  intro b F hB hb
  rw [ends_bind]
  exact (hr b F hB hb).mono (fun a b' hb' => hf a b' F hB hb') (fun _ _ h => h)

theorem Succeeds.bind (hr : Succeeds B t r g) (hf : ∀ a, Succeeds B (g a) (f a) k) :
    Succeeds B t (r >>= f) k := by
  intro b F hB hb
  rw [ends_bind]
  exact (hr b F hB hb).mono (fun a b' hb' => hf a b' F hB hb') (fun _ _ h => h)

theorem Transfers.weaken (hr : Transfers B t r g) (hB : B ⊆ B') : Transfers B' t r g :=
  fun b F hF hb => hr b F (Multiset.Subset.trans hB hF) hb

theorem Succeeds.weaken (hr : Succeeds B t r g) (hB : B ⊆ B') : Succeeds B' t r g :=
  fun b F hF hb => hr b F (Multiset.Subset.trans hB hF) hb

/-- What a call borrows may be among the claims that its caller owns; a call that does not unwind
leaves them alone. -/
theorem Succeeds.frame (hr : Succeeds B t r g) (K : Multiset ObjId) (hB : B ⊆ K + B') :
    Succeeds B' (K + t) r (fun a => K + g a) := by
  intro b F hF hb
  have hsub : B ⊆ K + F := Multiset.Subset.trans hB (add_subset_add hF)
  have hcomm : ∀ m : Multiset ObjId, K + m + F = m + (K + F) := fun m => by abel
  rw [hcomm] at hb
  refine (hr b (K + F) hsub hb).mono (fun a b' hb' => ?_) (fun _ _ h => h)
  rw [hcomm]
  exact hb'

theorem Transfers.cast (hr : Transfers B t r g) (ht : t' = t) (hg : ∀ a, g a = g' a) :
    Transfers B t' r g' := by
  obtain rfl : g = g' := funext hg
  rw [ht]
  exact hr

theorem Succeeds.cast (hr : Succeeds B t r g) (ht : t' = t) (hg : ∀ a, g a = g' a) :
    Succeeds B t' r g' := by
  obtain rfl : g = g' := funext hg
  rw [ht]
  exact hr

end Rules

/-- Counts that have overrun stay so: a call that accounts for the claims of any host accounts for
claims on an identity that is not used yet, and no count can be right for these. -/
theorem Transfers.overrun {α : Type} {B t : Multiset ObjId} {r : Run α} {g : α → Multiset ObjId}
    (hr : Transfers B t r g) {b : Bridge} (ho : b.Overrun) :
    Ends r b (fun _ b' => b'.Overrun) (fun _ b' => b'.Overrun) := by
  have hfinal : ∀ (b' : Bridge) (m : Multiset ObjId), b'.Books (m + (B + {b'.heap.next})) →
      b'.Overrun := by
    intro b' m hb
    refine hb.overrun fun hu => ?_
    have hmem : b'.heap.next ∈ m + (B + {b'.heap.next}) := by simp
    exact not_used_next (hb.live hmem hu).used
  unfold Ends
  split
  · rename_i a b' hrun
    have hends :=
      hr b (B + {b'.heap.next}) (Multiset.subset_of_le (Multiset.le_add_right _ _)) ho.books
    exact hfinal b' _ (hends.of_ok hrun)
  · rename_i u b' hrun
    have hends :=
      hr b (B + {b'.heap.next}) (Multiset.subset_of_le (Multiset.le_add_right _ _)) ho.books
    exact hfinal b' _ (hends.of_error hrun).books

/-- Counts that are within bounds after a call were so before it. -/
theorem Transfers.bounded {α : Type} {B t : Multiset ObjId} {r : Run α} {g : α → Multiset ObjId}
    (hr : Transfers B t r g) {b : Bridge} (hb : b.Running) (hu : (r.run b).2.Bounded) :
    b.Bounded := by
  by_contra hover
  exact (hr.overrun ⟨hb, hover⟩).final.unbounded hu

/-- The claims of the result of a call that may report an error. -/
def resultClaims {ε α : Type} (f : ε → Multiset ObjId) (g : α → Multiset ObjId) :
    Except ε α → Multiset ObjId
  | .ok a => g a
  | .error e => f e

/-- The claims of the result of a call whose errors carry none. -/
abbrev okClaims {ε α : Type} (g : α → Multiset ObjId) : Except ε α → Multiset ObjId :=
  resultClaims (fun _ => 0) g

/-! ## Claims given back -/

section Release

variable {b : Bridge} {host : Multiset ObjId} {u : Unwind} {claims : List ObjId}
  {ok : Unit → Bridge → Prop} {bad : Unwind → Bridge → Prop}

/-- The state after a sweep. -/
def Bridge.swept (b : Bridge) (claims : List ObjId) : Bridge :=
  { b with
    heap := (b.heap.sweep claims).heap
    journal :=
      b.journal ++ ((b.heap.sweep claims).destroyed.flatMap fun d => finalEntries d.2).toArray
    ledger := b.ledger.noteDestroyed ((b.heap.sweep claims).destroyed.map Prod.fst) }

theorem Bridge.swept_nil (b : Bridge) : b.swept [] = b := by
  simp [swept, Heap.sweep, Ledger.noteDestroyed]

theorem Bridge.swept_append (hstop : (b.heap.sweep claims).stop = none) (more : List ObjId) :
    (b.swept claims).swept more = b.swept (claims ++ more) := by
  simp [swept, sweep_append b.heap claims more hstop, Ledger.noteDestroyed]

/-- Raising a new exception under the bridge's hooks. -/
theorem ends_raise {α : Type} {ok : α → Bridge → Prop} (hh : b.hooks = some .bridge)
    (message : String) :
    Ends (raise message : Run α) b ok bad ↔
      bad (.raised .bridge b.heap.next)
        { b with
          heap := b.heap.add ⟨.err, 1, .err message⟩
          journal := b.journal.push (.log .trace s!"raising clownfish exception: {message}") } := by
  simp only [raise, allocate, raiseWith, ends_bind, ends_get, ends_set, ends_pure]
  rw [hh]
  exact Iff.rfl

theorem ends_sweepClaims {ok : Option Stop → Bridge → Prop} :
    Ends (sweepClaims claims) b ok bad ↔ ok (b.heap.sweep claims).stop (b.swept claims) := Iff.rfl

/-- Nothing stops the host from giving back claims that it holds. -/
theorem ends_releaseAll_sound (hs : b.Sound (claims + host)) :
    Ends (releaseAll claims) b ok bad ↔ ok () (b.swept claims) := by
  unfold releaseAll
  rw [ends_bind, ends_sweepClaims, (hs.sweep b.journal).1]
  exact Iff.rfl

/-- Claims that the host holds are given back. -/
theorem ends_releaseAll (hb : b.Books (claims + host))
    (hok : (b.swept claims).Books host → ok () (b.swept claims))
    (hbad : ∀ u b', b'.Overrun → bad u b') : Ends (releaseAll claims) b ok bad := by
  have hafter : (b.swept claims).Books host := hb.sweep _
  unfold releaseAll
  rw [ends_bind, ends_sweepClaims]
  cases hstop : (b.heap.sweep claims).stop with
  | none => exact hok hafter
  | some stop =>
    -- an accounted heap does not stop a sweep, so the counts have overrun
    have hover : (b.swept claims).Overrun := by
      refine hafter.overrun fun hu => ?_
      have hnone := ((hb.sound hu).sweep (b.swept claims).journal).1
      rw [hstop] at hnone
      cases hnone
    cases stop with
    | overdrawn o c =>
      rw [ends_raise hover.hooks]
      exact hbad _ _ ⟨⟨hover.started, hover.hooks, hover.truths, hover.classes⟩, hover.unbounded⟩
    | dangling o => exact hbad _ _ hover

/-- Giving back claims is safe. -/
theorem releaseAll_succeeds (claims : List ObjId) :
    Succeeds 0 claims (releaseAll claims) (fun _ => 0) := by
  intro b F _ hb
  refine ends_releaseAll hb (fun h => ?_) (fun _ _ h => h)
  rwa [zero_add]

/-- What is on its way stays intact when claims are given back meanwhile. -/
theorem Bridge.Unwound.swept (hw : b.Unwound u (claims + host)) :
    (b.swept claims).Unwound u host := by
  have hb := hw.books
  rw [← add_assoc, add_comm u.claims, add_assoc] at hb
  have hafter : (b.swept claims).Books (u.claims + host) := hb.sweep _
  refine ⟨hafter, fun hu => ?_⟩
  have hsane := hw.sane hu
  cases u with
  | raised via err =>
    obtain ⟨hvia, herr⟩ := hsane
    have hlive : (b.swept claims).heap.Live err := by
      refine hafter.live ?_ hu
      simp [Unwind.claims]
    exact ⟨hvia, herr.same (sameAt_sweep claims hlive)⟩
  | fault _ => trivial
  | dangling _ => exact hsane
  | endless => trivial

theorem ends_releaseAll_unwound (hw : b.Unwound u (claims + host)) :
    Ends (releaseAll claims) b (fun _ b' => b'.Unwound u host) (fun _ b' => b'.Overrun) := by
  have hb := hw.books
  rw [← add_assoc, add_comm u.claims, add_assoc] at hb
  exact ends_releaseAll hb (fun _ => hw.swept) (fun _ _ h => h)

end Release

section Protected

variable {α : Type} {B t K : Multiset ObjId} {r : Run α} {g : α → Multiset ObjId}

/-- A routine may use claims that are given back after it on every way out. -/
theorem Transfers.withClaims (claims : List ObjId) (hr : Transfers (claims + B) t r g) :
    Transfers B (claims + t) (withClaims claims r) g := by
  intro b F hB hb
  rw [ends_withClaims]
  have hcomm : ∀ m : Multiset ObjId, (claims : Multiset ObjId) + m + F =
      m + (claims + F) := fun m => by abel
  rw [hcomm] at hb
  refine (hr b (claims + F) (add_subset_add hB) hb).mono (fun a b' hb' => ?_) (fun u b' hw => ?_)
  · rw [← hcomm, add_assoc] at hb'
    exact ends_releaseAll hb' (fun h => h) (fun _ _ h => h.unwound)
  · exact (ends_releaseAll_unwound hw).mono (fun _ _ h => h) (fun _ _ h => h.unwound)

/-- A cleanup that gives back the claims `K` and leaves what is on its way intact. -/
def Cleans (K : Multiset ObjId) (cleanup : Run Unit) : Prop :=
  ∀ b u F, b.Unwound u (K + F) → Ends cleanup b (fun _ b' => b'.Unwound u F)
    (fun _ b' => b'.Overrun)

theorem releaseAll_cleans (claims : List ObjId) : Cleans claims (releaseAll claims) :=
  fun _ _ _ hw => ends_releaseAll_unwound hw

/-- Several cleanups in turn. -/
theorem forM_cleans {drop : α → Run Unit} {claims : α → List ObjId}
    (hd : ∀ x, Cleans (claims x) (drop x)) (xs : List α) :
    Cleans (xs.flatMap claims : List ObjId) (xs.forM drop) := by
  induction xs with
  | nil => exact fun b u F hw => by simpa [List.forM] using hw
  | cons x rest ih =>
    intro b u F hw
    change Ends (drop x >>= fun _ => rest.forM drop) b _ _
    rw [List.flatMap_cons, ← Multiset.coe_add, add_assoc] at hw
    rw [ends_bind]
    exact (hd x b u _ hw).mono (fun _ b' h => ih b' u F h) (fun _ _ h => h)

theorem forM_succeeds {drop : α → Run Unit} {claims : α → List ObjId}
    (hd : ∀ x, Succeeds 0 (claims x) (drop x) (fun _ => 0)) (xs : List α) :
    Succeeds 0 (xs.flatMap claims : List ObjId) (xs.forM drop) (fun _ => 0) := by
  induction xs with
  | nil => exact .pure () rfl
  | cons x rest ih =>
    change Succeeds 0 _ (drop x >>= fun _ => rest.forM drop) _
    have hframe : Succeeds 0 ((rest.flatMap claims : List ObjId) + claims x) (drop x)
        (fun _ => (rest.flatMap claims : List ObjId) + 0) := (hd x).frame _ (Multiset.zero_subset _)
    refine (hframe.cast ?_ fun _ => add_zero _).bind fun _ => ih
    rw [List.flatMap_cons, ← Multiset.coe_add, add_comm]

/-- A routine may use claims that are given back if it unwinds. -/
theorem Transfers.onUnwind {cleanup : Run Unit} (hc : Cleans K cleanup)
    (hr : Transfers (K + B) t r g) :
    Transfers B (K + t) (onUnwind cleanup r) (fun a => K + g a) := by
  intro b F hB hb
  rw [ends_onUnwind]
  have hcomm : ∀ m : Multiset ObjId, K + m + F = m + (K + F) := fun m => by abel
  rw [hcomm] at hb
  refine (hr b (K + F) (add_subset_add hB) hb).mono (fun a b' hb' => ?_) (fun u b' hw => ?_)
  · rw [hcomm]
    exact hb'
  · exact (hc b' u F hw).mono (fun _ _ h => h) (fun _ _ h => h.unwound)

/-- A call may use claims that are lent to it. -/
theorem Transfers.lend (claims : List ObjId) (hr : Transfers (claims + B) 0 r g) :
    Transfers B claims (ObjectBridge.withClaims claims r) g :=
  (hr.withClaims claims).cast (add_zero _).symm fun _ => rfl

/-- A call does not touch claims that are given back if it unwinds. -/
theorem Transfers.guard (claims : List ObjId) (hr : Transfers B 0 r g) :
    Transfers B claims (ObjectBridge.onUnwind (releaseAll claims) r) (fun a => claims + g a) := by
  have hweak : Transfers (claims + B) 0 r g := hr.weaken (subset_add_right _ _)
  exact (Transfers.onUnwind (releaseAll_cleans claims) hweak).cast (add_zero _).symm fun _ => rfl

end Protected

end ObjectBridge
