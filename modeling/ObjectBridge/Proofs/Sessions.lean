import ObjectBridge.Session.State
import ObjectBridge.Proofs.Transfers
import Mathlib.Data.String.Basic

set_option autoImplicit false

/-!
# The claims of sessions (SPEC §4.1)

The host of a script is its session: the variables own claims, and so do the bare handles that were
let go of. `Session.Books s extra` says that the bridge accounts for these and for the claims
`extra` of the step that is running. `Runs` says how a step ends, with a failure as a third way
besides answering and unwinding, and `Handles` describes a step by the claims that change hands, as
`Transfers` does for calls on the bridge.
-/

namespace ObjectBridge

/-! ## Variables -/

/-- The claims that some variables own. -/
def slotsClaims (slots : List (String × Slot)) : Multiset ObjId :=
  (slots.flatMap fun e => e.2.claims : List ObjId)

section Slots

variable {slots : List (String × Slot)} {name : String} {x : Slot}

theorem slotsClaims_cons (e : String × Slot) (rest : List (String × Slot)) :
    slotsClaims (e :: rest) = e.2.claims + slotsClaims rest := by
  unfold slotsClaims
  rw [List.flatMap_cons, ← Multiset.coe_add]

/-- Forgetting a variable takes its claims away. -/
theorem slotsClaims_erase (hx : Assoc.find? name slots = some x) :
    x.claims + slotsClaims (Assoc.erase name slots) = slotsClaims slots := by
  induction slots with
  | nil => cases hx
  | cons e rest ih =>
    obtain ⟨k, y⟩ := e
    unfold Assoc.find? at hx
    unfold Assoc.erase
    by_cases hk : k = name
    · rw [if_pos hk, Option.some_inj] at hx
      rw [if_pos hk, slotsClaims_cons, hx]
    · rw [if_neg hk] at hx
      rw [if_neg hk, slotsClaims_cons, slotsClaims_cons, ← ih hx]
      abel

theorem claims_subset_slots (hx : Assoc.find? name slots = some x) :
    (x.claims : Multiset ObjId) ⊆ slotsClaims slots := by
  rw [← slotsClaims_erase hx]
  exact Multiset.subset_of_le (Multiset.le_add_right _ _)

/-- Variables are kept in the order of their names, each name once. -/
def SortedSlots (slots : List (String × Slot)) : Prop := slots.Pairwise fun a b => a.1 < b.1

theorem find?_eq_none_of_lt (hlt : ∀ e ∈ slots, name < e.1) : Assoc.find? name slots = none := by
  rw [Assoc.find?_eq_none_iff]
  intro hmem
  obtain ⟨e, he, hname⟩ := List.mem_map.mp hmem
  exact absurd (hlt e he) (by rw [hname]; exact lt_irrefl _)

theorem mem_bindSorted {e : String × Slot} (he : e ∈ bindSorted name x slots) :
    e = (name, x) ∨ e ∈ slots := by
  induction slots with
  | nil => exact .inl (List.mem_singleton.mp he)
  | cons d rest ih =>
    unfold bindSorted at he
    split at he
    · rcases List.mem_cons.mp he with rfl | hrest
      · exact .inl rfl
      · exact .inr (List.mem_cons_of_mem d hrest)
    · split at he
      · exact List.mem_cons.mp he
      · rcases List.mem_cons.mp he with rfl | hrest
        · exact .inr List.mem_cons_self
        · exact (ih hrest).imp id (List.mem_cons_of_mem d)

theorem SortedSlots.bind (hs : SortedSlots slots) (name : String) (x : Slot) :
    SortedSlots (bindSorted name x slots) := by
  induction slots with
  | nil => exact List.pairwise_singleton _ _
  | cons d rest ih =>
    obtain ⟨hd, hrest⟩ := List.pairwise_cons.mp hs
    unfold bindSorted
    split
    · rename_i hname
      exact List.pairwise_cons.mpr ⟨fun e he => hname ▸ hd e he, hrest⟩
    · rename_i hne
      split
      · rename_i hlt
        refine List.pairwise_cons.mpr ⟨fun e he => ?_, hs⟩
        rcases List.mem_cons.mp he with rfl | he
        · exact hlt
        · exact lt_trans hlt (hd e he)
      · rename_i hnot
        refine List.pairwise_cons.mpr ⟨fun e he => ?_, ih hrest⟩
        rcases mem_bindSorted he with rfl | he
        · exact lt_of_le_of_ne (not_lt.mp hnot) (Ne.symm hne)
        · exact hd e he

theorem erase_sublist (name : String) (slots : List (String × Slot)) :
    (Assoc.erase name slots).Sublist slots := by
  induction slots with
  | nil => exact List.Sublist.refl _
  | cons e rest ih =>
    unfold Assoc.erase
    split
    · exact List.sublist_cons_self _ _
    · exact ih.cons_cons e

theorem SortedSlots.erase (hs : SortedSlots slots) (name : String) :
    SortedSlots (Assoc.erase name slots) :=
  List.Pairwise.sublist (erase_sublist name slots) hs

/-- Binding a variable takes the claims of the new content and leaves those of the old one. -/
theorem slotsClaims_bind (hs : SortedSlots slots) (name : String) (x : Slot) :
    slotsClaims (bindSorted name x slots) +
      (((Assoc.find? name slots).map Slot.claims).getD [] : List ObjId) =
      x.claims + slotsClaims slots := by
  induction slots with
  | nil => simp [bindSorted, Assoc.find?, slotsClaims]
  | cons d rest ih =>
    obtain ⟨hd, hrest⟩ := List.pairwise_cons.mp hs
    obtain ⟨k, y⟩ := d
    unfold bindSorted
    by_cases hk : k = name
    · have hfind : Assoc.find? name ((k, y) :: rest) = some y := if_pos hk
      rw [if_pos hk.symm, hfind, slotsClaims_cons, slotsClaims_cons]
      simp only [Option.map_some, Option.getD_some]
      abel
    · have hfind : Assoc.find? name ((k, y) :: rest) = Assoc.find? name rest := if_neg hk
      rw [if_neg (Ne.symm hk), hfind]
      by_cases hlt : name < k
      · have hnone : Assoc.find? name rest = none :=
          find?_eq_none_of_lt fun e he => lt_trans hlt (hd e he)
        rw [if_pos hlt, hnone, slotsClaims_cons]
        exact add_zero _
      · rw [if_neg hlt, slotsClaims_cons, slotsClaims_cons, add_assoc, ih hrest]
        abel

end Slots

/-! ## Accounted sessions -/

namespace Session

/-- The claims that a session holds: those of its variables and of its bare handles. -/
def claims (s : Session) : Multiset ObjId := slotsClaims s.slots + s.bare

/-- The bridge accounts for the claims of the session and for the claims `extra`. -/
structure Books (s : Session) (extra : Multiset ObjId) : Prop where
  sorted : SortedSlots s.slots
  bridge : s.bridge.Books (extra + s.claims)

/-- A step has unwound, and there are the claims `extra` besides those of the session and of what is
on its way. -/
structure Unwound (s : Session) (u : Unwind) (extra : Multiset ObjId) : Prop where
  sorted : SortedSlots s.slots
  bridge : s.bridge.Unwound u (extra + s.claims)

theorem Books.zero {s : Session} {extra : Multiset ObjId} (hs : s.Books extra) :
    s.Books (0 + extra) := by
  rwa [zero_add]

theorem Books.of_zero {s : Session} {extra : Multiset ObjId} (hs : s.Books (0 + extra)) :
    s.Books extra := by
  rwa [zero_add] at hs

/-- Answers that were noted hold no claims. -/
theorem Books.withFinished {s : Session} {extra : Multiset ObjId} (hs : s.Books extra)
    (finished : List Report) :
    { s with finished := finished }.Books extra := ⟨hs.sorted, hs.bridge⟩

theorem Unwound.withFinished {s : Session} {u : Unwind} {extra : Multiset ObjId}
    (hs : s.Unwound u extra) (finished : List Report) :
    { s with finished := finished }.Unwound u extra := ⟨hs.sorted, hs.bridge⟩

end Session

/-! ## How steps end -/

section Steps

variable {α β : Type} {r : Step α} {s : Session} {F : Multiset ObjId} {ok : α → Session → Prop}
  {failed : Failure → Session → Prop} {bad : Unwind → Session → Prop}

/-- The ways in which a step may end without unwinding. -/
def Concludes (ok : α → Session → Prop) (failed : Failure → Session → Prop) :
    Except Failure α → Session → Prop
  | .ok a, s => ok a s
  | .error f, s => failed f s

/-- Started in `s`, the step answers with `ok`, fails with `failed` or unwinds with `bad`. -/
def Finishes (r : Step α) (s : Session) (ok : α → Session → Prop)
    (failed : Failure → Session → Prop) (bad : Unwind → Session → Prop) : Prop :=
  Ends (ExceptT.run r) s (Concludes ok failed) bad

theorem Finishes.mono {ok' : α → Session → Prop} {failed' : Failure → Session → Prop}
    {bad' : Unwind → Session → Prop} (hr : Finishes r s ok failed bad)
    (hok : ∀ a s', ok a s' → ok' a s') (hfailed : ∀ f s', failed f s' → failed' f s')
    (hbad : ∀ u s', bad u s' → bad' u s') : Finishes r s ok' failed' bad' := by
  refine Ends.mono hr (fun result s' h => ?_) hbad
  cases result with
  | ok a => exact hok a s' h
  | error f => exact hfailed f s' h

theorem finishes_pure (a : α) : Finishes (pure a) s ok failed bad ↔ ok a s := Iff.rfl

theorem finishes_bind (f : α → Step β) {ok : β → Session → Prop} :
    Finishes (r >>= f) s ok failed bad ↔
      Finishes r s (fun a s' => Finishes (f a) s' ok failed bad) failed bad := by
  change Ends (ExceptT.run r >>= ExceptT.bindCont f) s _ _ ↔ _
  rw [ends_bind]
  refine ends_congr (fun result s' => ?_) fun _ _ => Iff.rfl
  cases result with
  | ok a => exact Iff.rfl
  | error f => exact Iff.rfl

theorem finishes_map (f : α → β) {ok : β → Session → Prop} :
    Finishes (f <$> r) s ok failed bad ↔ Finishes r s (fun a => ok (f a)) failed bad := by
  rw [map_eq_pure_bind, finishes_bind]
  exact Iff.rfl

theorem ends_callBridge (r : Run α) :
    Ends (callBridge r) s ok bad ↔
      Ends r s.bridge (fun a b => ok a { s with bridge := b })
        (fun u b => bad u { s with bridge := b }) := by
  simp only [Ends, callBridge, ExceptT.run, ExceptT.mk]
  rcases (r s.bridge : Except Unwind α × Bridge) with ⟨_ | _, b⟩ <;> rfl

/-- A call of the session never fails the step. -/
theorem finishes_walk (r : Walk α) :
    Finishes (liftM r : Step α) s ok failed bad ↔ Ends r s ok bad := by
  change Ends (Except.ok <$> r) s _ _ ↔ _
  rw [ends_map]
  exact Iff.rfl

/-- A call on the bridge never fails the step. -/
theorem finishes_call (r : Run α) :
    Finishes (liftM r : Step α) s ok failed bad ↔
      Ends r s.bridge (fun a b => ok a { s with bridge := b })
        (fun u b => bad u { s with bridge := b }) :=
  (finishes_walk (callBridge r)).trans (ends_callBridge r)

/-- What is done at the end of a step is done on all three ways out; a failure of it comes before
others. -/
theorem finishes_tryFinally' (last : Option α → Step β) {ok : α × β → Session → Prop} :
    Finishes (tryFinally' r last) s ok failed bad ↔
      Finishes r s (fun a s' => Finishes (last (some a)) s' (fun b => ok (a, b)) failed bad)
        (fun f s' => Finishes (last none) s' (fun _ => failed f) failed bad)
        (fun u s' => Finishes (last none) s' (fun _ => bad u) (fun _ => bad u) bad) := by
  simp only [Finishes, Ends, tryFinally', ExceptT.run, ExceptT.mk, Bind.bind, StateT.bind,
    ExceptT.bind]
  rcases (r s : Except Unwind (Except Failure α) × Session) with ⟨u | f | a, s'⟩
  · dsimp only
    rcases (last none s' : Except Unwind (Except Failure β) × Session) with ⟨_ | _ | _, s''⟩ <;> rfl
  · dsimp only [Concludes]
    rcases (last none s' : Except Unwind (Except Failure β) × Session) with ⟨_ | _ | _, s''⟩ <;> rfl
  · dsimp only [Concludes]
    rcases (last (some a) s' : Except Unwind (Except Failure β) × Session) with
      ⟨_ | _ | _, s''⟩ <;> rfl

/-- Claims that are lent to a step are given back on all three ways out. -/
theorem finishes_withClaims (claims : List ObjId) :
    Finishes (withClaims claims r) s ok failed bad ↔
      Finishes r s
        (fun a s' => Ends (callBridge (releaseAll claims)) s' (fun _ => ok a) bad)
        (fun f s' => Ends (callBridge (releaseAll claims)) s' (fun _ => failed f) bad)
        (fun u s' => Ends (callBridge (releaseAll claims)) s' (fun _ => bad u) bad) := by
  simp only [withClaims, tryFinally, finishes_map, finishes_tryFinally', finishes_call,
    ends_callBridge]

/-- A cleanup is done if the step fails or unwinds. -/
theorem finishes_onUnwind (cleanup : Run Unit) :
    Finishes (onUnwind cleanup r) s ok failed bad ↔
      Finishes r s ok
        (fun f s' => Ends (callBridge cleanup) s' (fun _ => failed f) bad)
        (fun u s' => Ends (callBridge cleanup) s' (fun _ => bad u) bad) := by
  simp only [onUnwind, finishes_bind, finishes_tryFinally', finishes_pure, finishes_call,
    ends_callBridge]

end Steps

/-! ## What steps do with claims -/

section Handling

variable {α β : Type} {r : Step α} {f : α → Step β} {s : Session} {B B' t F : Multiset ObjId}
  {u : Unwind}
  {ok : α → Session → Prop} {g : α → Multiset ObjId} {k : β → Multiset ObjId}

/-- However the step ends, the claims `F` of others and the claims of the session are accounted for;
a failure and an unwinding bring their own claims along, and an answer makes `ok` hold. -/
def Runs (r : Step α) (s : Session) (F : Multiset ObjId) (ok : α → Session → Prop) : Prop :=
  Finishes r s ok (fun f s' => s'.Books (f.claims + F)) (fun u s' => s'.Unwound u F)

theorem Runs.mono {ok' : α → Session → Prop} (hr : Runs r s F ok)
    (hok : ∀ a s', ok a s' → ok' a s') :
    Runs r s F ok' :=
  Finishes.mono hr hok (fun _ _ h => h) (fun _ _ h => h)

theorem runs_throw (f : Failure) :
    Runs (throw f : Step α) s F ok ↔ s.Books (f.claims + F) := Iff.rfl

theorem runs_get {ok : Session → Session → Prop} : Runs get s F ok ↔ ok s s := Iff.rfl

theorem runs_modify (f : Session → Session) {ok : PUnit → Session → Prop} :
    Runs (modify f) s F ok ↔ ok () (f s) :=
  Iff.rfl

theorem runs_bind {ok : β → Session → Prop} :
    Runs (r >>= f) s F ok ↔ Runs r s F (fun a s' => Runs (f a) s' F ok) :=
  finishes_bind f

/-- A call on the bridge may borrow claims of others and of the session. -/
theorem runs_call {r : Run α} (hr : Transfers B t r g) (hs : s.Books (t + F))
    (hB : B ⊆ F + s.claims)
    (hok : ∀ a b, { s with bridge := b }.Books (g a + F) → ok a { s with bridge := b }) :
    Runs (liftM r) s F ok := by
  have hb := hs.bridge
  rw [add_assoc] at hb
  unfold Runs
  rw [finishes_call]
  refine (hr s.bridge (F + s.claims) hB hb).mono (fun a b hb' => hok a b ⟨hs.sorted, ?_⟩)
    (fun u b hw => ?_)
  · rw [add_assoc]
    exact hb'
  · exact ⟨hs.sorted, hw⟩

/-- The step borrows `B`, takes `t` and gives `g`, whatever the variables of the session are. -/
def Handles (B t : Multiset ObjId) (r : Step α) (g : α → Multiset ObjId) : Prop :=
  ∀ s F, B ⊆ F → s.Books (t + F) → Runs r s F (fun a s' => s'.Books (g a + F))

theorem Transfers.handles {r : Run α} (hr : Transfers B t r g) : Handles B t (liftM r) g := by
  intro s F hB hs
  refine runs_call hr hs (Multiset.Subset.trans hB ?_) fun _ _ h => h
  exact Multiset.subset_of_le (Multiset.le_add_right _ _)

theorem Handles.pure (a : α) (ht : t = g a) : Handles B t (pure a) g := by
  intro s F _ hs
  rw [ht] at hs
  exact hs

theorem Handles.throw (f : Failure) (hf : f.claims = []) : Handles B 0 (throw f : Step α) g := by
  intro s F _ hs
  rw [runs_throw, hf]
  exact hs

theorem Handles.bind (hr : Handles B t r g) (hf : ∀ a, Handles B (g a) (f a) k) :
    Handles B t (r >>= f) k := by
  intro s F hB hs
  rw [runs_bind]
  exact (hr s F hB hs).mono fun a s' hs' => hf a s' F hB hs'

theorem Handles.weaken (hr : Handles B t r g) (hB : B ⊆ B') : Handles B' t r g :=
  fun s F hF hs => hr s F (Multiset.Subset.trans hB hF) hs

theorem Handles.cast {t' : Multiset ObjId} {g' : α → Multiset ObjId} (hr : Handles B t r g)
    (ht : t' = t) (hg : ∀ a, g a = g' a) : Handles B t' r g' := by
  obtain rfl : g = g' := funext hg
  rw [ht]
  exact hr

/-- Claims that a step holds besides others are given back. -/
theorem ends_release_books {claims : List ObjId} {E : Multiset ObjId} (hs : s.Books (claims + E)) :
    Ends (callBridge (releaseAll claims)) s (fun _ s' => s'.Books E)
      (fun u s' => s'.Unwound u F) := by
  have hb := hs.bridge
  rw [add_assoc] at hb
  rw [ends_callBridge]
  exact ends_releaseAll hb (fun h => ⟨hs.sorted, h⟩) (fun _ _ h => ⟨hs.sorted, h.unwound⟩)

theorem ends_release_unwound {claims : List ObjId} (hs : s.Unwound u (claims + F)) :
    Ends (callBridge (releaseAll claims)) s (fun _ s' => s'.Unwound u F)
      (fun u s' => s'.Unwound u F) := by
  have hw := hs.bridge
  rw [add_assoc] at hw
  rw [ends_callBridge]
  exact (ends_releaseAll_unwound hw).mono (fun _ _ h => ⟨hs.sorted, h⟩)
    (fun _ _ h => ⟨hs.sorted, h.unwound⟩)

/-- A step may use claims that are lent to it. -/
theorem Handles.lend (claims : List ObjId) (hr : Handles (claims + B) 0 r g) :
    Handles B claims (withClaims claims r) g := by
  intro s F hB hs
  have hcomm : ∀ m : Multiset ObjId, m + (claims + F) = claims + (m + F) := fun m => by abel
  unfold Runs
  rw [finishes_withClaims]
  refine Finishes.mono (hr s (claims + F) (add_subset_add hB) (by rwa [zero_add]))
    (fun a s' hs' => ?_)
    (fun f s' hs' => ?_) (fun u s' hs' => ends_release_unwound hs')
  · rw [hcomm] at hs'
    exact ends_release_books hs'
  · rw [hcomm] at hs'
    exact ends_release_books hs'

/-- A step may use claims that are given back if it does not answer. -/
theorem Handles.guard (claims : List ObjId) (hr : Handles (claims + B) t r g) :
    Handles B (claims + t) (onUnwind (releaseAll claims) r) (fun a => claims + g a) := by
  intro s F hB hs
  have hcomm : ∀ m : Multiset ObjId, m + (claims + F) = claims + m + F := fun m => by abel
  rw [← hcomm] at hs
  unfold Runs
  rw [finishes_onUnwind]
  refine Finishes.mono (hr s (claims + F) (add_subset_add hB) hs) (fun a s' hs' => ?_)
    (fun f s' hs' => ?_) (fun u s' hs' => ends_release_unwound hs')
  · rw [← hcomm]
    exact hs'
  · rw [hcomm, add_assoc] at hs'
    exact ends_release_books hs'

/-- The answer of a call whose errors become failures. -/
theorem runs_orFail {ε : Type} {toFailure : ε → Failure} {r : Run (Except ε α)}
    (hr : Transfers B t r (resultClaims (fun e => (toFailure e).claims) g)) (hs : s.Books (t + F))
    (hB : B ⊆ F + s.claims)
    (hok : ∀ a b, { s with bridge := b }.Books (g a + F) → ok a { s with bridge := b }) :
    Runs (orFail toFailure r) s F ok := by
  unfold orFail
  rw [runs_bind]
  refine runs_call hr hs hB fun result b hs' => ?_
  cases result with
  | ok a => exact hok a b hs'
  | error e => exact hs'

theorem orFail_handles {ε : Type} {toFailure : ε → Failure} {r : Run (Except ε α)}
    (hr : Transfers B t r (resultClaims (fun e => (toFailure e).claims) g)) :
    Handles B t (orFail toFailure r) g :=
  fun _ _ hB hs =>
    runs_orFail hr hs (Multiset.Subset.trans hB (Multiset.subset_of_le (Multiset.le_add_right _ _)))
      fun _ _ h => h

/-- Steps that leave no claims, one for each member of a list. -/
theorem mapM_handles {f : α → Step β} (xs : List α)
    (hf : ∀ x ∈ xs, Handles B 0 (f x) (fun _ => 0)) :
    Handles B 0 (xs.mapM f) (fun _ => 0) := by
  induction xs with
  | nil => exact .pure [] rfl
  | cons x rest ih =>
    rw [List.mapM_cons]
    refine (hf x List.mem_cons_self).bind fun y => ?_
    exact (ih fun y hy => hf y (List.mem_cons_of_mem x hy)).bind fun ys => .pure _ rfl

end Handling

end ObjectBridge
