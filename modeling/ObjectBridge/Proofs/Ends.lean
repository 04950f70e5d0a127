import ObjectBridge.Bridge.Trap

set_option autoImplicit false

/-!
# How calls end

A call returns or unwinds, and leaves a state in either case.  `Ends r s ok bad` says that from the
state `s` the call either returns something for which `ok` holds, or unwinds so that `bad` holds.
One rule for each way of building a call reduces this to its parts; the rules work for every state,
so that they serve the bridge and sessions alike.
-/

namespace ObjectBridge

variable {σ α β : Type} {r : ExceptT Unwind (StateM σ) α} {s : σ} {ok : α → σ → Prop}
  {bad : Unwind → σ → Prop}

/-- Started in `s`, the call returns with `ok` or unwinds with `bad`. -/
def Ends (r : ExceptT Unwind (StateM σ) α) (s : σ) (ok : α → σ → Prop)
    (bad : Unwind → σ → Prop) : Prop :=
  match (r.run s : Except Unwind α × σ) with
  | (.ok a, s') => ok a s'
  | (.error u, s') => bad u s'

theorem ends_of_run_ok {a : α} {s' : σ} (hr : (r.run s : Except Unwind α × σ) = (.ok a, s')) :
    Ends r s ok bad ↔ ok a s' := by
  unfold Ends
  rw [hr]

theorem ends_of_run_error {u : Unwind} {s' : σ}
    (hr : (r.run s : Except Unwind α × σ) = (.error u, s')) :
    Ends r s ok bad ↔ bad u s' := by
  unfold Ends
  rw [hr]

theorem Ends.mono {ok' : α → σ → Prop} {bad' : Unwind → σ → Prop} (he : Ends r s ok bad)
    (hok : ∀ a s', ok a s' → ok' a s') (hbad : ∀ u s', bad u s' → bad' u s') :
    Ends r s ok' bad' := by
  unfold Ends at he ⊢
  split
  · rename_i a s' hr
    rw [hr] at he
    exact hok a s' he
  · rename_i u s' hr
    rw [hr] at he
    exact hbad u s' he

theorem ends_congr {ok' : α → σ → Prop} {bad' : Unwind → σ → Prop}
    (hok : ∀ a s', ok a s' ↔ ok' a s') (hbad : ∀ u s', bad u s' ↔ bad' u s') :
    Ends r s ok bad ↔ Ends r s ok' bad' :=
  ⟨fun he => he.mono (fun a s' => (hok a s').mp) (fun u s' => (hbad u s').mp),
    fun he => he.mono (fun a s' => (hok a s').mpr) (fun u s' => (hbad u s').mpr)⟩

theorem Ends.of_ok {a : α} {s' : σ} (he : Ends r s ok bad)
    (hr : (r.run s : Except Unwind α × σ) = (.ok a, s')) :
    ok a s' := (ends_of_run_ok hr).mp he

theorem Ends.of_error {u : Unwind} {s' : σ} (he : Ends r s ok bad)
    (hr : (r.run s : Except Unwind α × σ) = (.error u, s')) : bad u s' :=
  (ends_of_run_error hr).mp he

/-- Two descriptions of how a call ends hold together. -/
theorem Ends.and {ok' : α → σ → Prop} {bad' : Unwind → σ → Prop} (he : Ends r s ok bad)
    (he' : Ends r s ok' bad') :
    Ends r s (fun a s' => ok a s' ∧ ok' a s') (fun u s' => bad u s' ∧ bad' u s') := by
  unfold Ends at he he' ⊢
  split
  · rename_i a s' hr
    rw [hr] at he he'
    exact ⟨he, he'⟩
  · rename_i u s' hr
    rw [hr] at he he'
    exact ⟨he, he'⟩

/-- A call that cannot unwind returns. -/
theorem Ends.returns (he : Ends r s ok (fun _ _ => False)) :
    ∃ a s', (r.run s : Except Unwind α × σ) = (.ok a, s') ∧ ok a s' := by
  unfold Ends at he
  cases hr : (r.run s : Except Unwind α × σ) with
  | mk result s' =>
    rw [hr] at he
    cases result with
    | ok a => exact ⟨a, s', rfl, he⟩
    | error u => exact False.elim he

/-- A call that cannot return unwinds. -/
theorem Ends.unwinds (he : Ends r s (fun _ _ => False) bad) :
    ∃ u s', (r.run s : Except Unwind α × σ) = (.error u, s') ∧ bad u s' := by
  unfold Ends at he
  cases hr : (r.run s : Except Unwind α × σ) with
  | mk result s' =>
    rw [hr] at he
    cases result with
    | ok a => exact False.elim he
    | error u => exact ⟨u, s', rfl, he⟩

/-- A call that can end in one way only ends that way. -/
theorem Ends.run_ok {a : α} {s' : σ}
    (he : Ends r s (fun a' s'' => a' = a ∧ s'' = s') (fun _ _ => False)) :
    r.run s = (.ok a, s') := by
  obtain ⟨a', s'', hrun, rfl, rfl⟩ := he.returns
  exact hrun

theorem Ends.run_error {u : Unwind} {s' : σ}
    (he : Ends r s (fun _ _ => False) (fun u' s'' => u' = u ∧ s'' = s')) :
    r.run s = (.error u, s') := by
  obtain ⟨u', s'', hrun, rfl, rfl⟩ := he.unwinds
  exact hrun

/-- The state in which a call leaves off, whichever way it ends. -/
theorem Ends.final {P : σ → Prop} (he : Ends r s (fun _ s' => P s') (fun _ s' => P s')) :
    P (r.run s).2 := by
  unfold Ends at he
  cases hr : (r.run s : Except Unwind α × σ) with
  | mk result s' =>
    rw [hr] at he
    cases result with
    | ok a => exact he
    | error u => exact he

@[simp]
theorem ends_pure (a : α) : Ends (pure a) s ok bad ↔ ok a s := Iff.rfl

@[simp]
theorem ends_bind (f : α → ExceptT Unwind (StateM σ) β) {ok : β → σ → Prop} :
    Ends (r >>= f) s ok bad ↔ Ends r s (fun a s' => Ends (f a) s' ok bad) bad := by
  simp only [Ends, ExceptT.run, bind, ExceptT.bind, ExceptT.mk, StateT.bind]
  rcases (r s : Except Unwind α × σ) with ⟨_ | _, s'⟩ <;> rfl

@[simp]
theorem ends_map (f : α → β) {ok : β → σ → Prop} :
    Ends (f <$> r) s ok bad ↔ Ends r s (fun a s' => ok (f a) s') bad := by
  simp only [Ends, ExceptT.run, Functor.map, ExceptT.map, ExceptT.mk, bind, StateT.bind]
  rcases (r s : Except Unwind α × σ) with ⟨_ | _, s'⟩ <;> rfl

/-- What a call gives and what it leaves can be told apart. -/
theorem exists_state {result : Except Unwind α} {P : σ → Prop}
    (hresult : (r.run s : Except Unwind α × σ).1 = result)
    (hstate : P (r.run s : Except Unwind α × σ).2) :
    ∃ s', (r.run s : Except Unwind α × σ) = (result, s') ∧ P s' :=
  ⟨_, Prod.ext hresult rfl, hstate⟩

/-- To see that a call unwinds, a part of what it would have given is enough. -/
theorem exists_state_of_error {u : Unwind} {P : σ → Prop} (f : α → β)
    (hresult : (r.run s : Except Unwind α × σ).1.map f = .error u)
    (hstate : P (r.run s : Except Unwind α × σ).2) :
    ∃ s', (r.run s : Except Unwind α × σ) = (.error u, s') ∧ P s' := by
  refine exists_state ?_ hstate
  cases hr : (r.run s : Except Unwind α × σ).1 with
  | ok a =>
    rw [hr] at hresult
    cases hresult
  | error u' =>
    rw [hr] at hresult
    cases hresult
    rfl

theorem run_bind_of_ok {f : α → ExceptT Unwind (StateM σ) β} {a : α} {s' : σ}
    (hr : (r.run s : Except Unwind α × σ) = (.ok a, s')) : (r >>= f).run s = (f a).run s' := by
  simp only [ExceptT.run, bind, ExceptT.bind, ExceptT.mk, StateT.bind] at hr ⊢
  rw [hr]
  rfl

theorem run_bind_of_error {f : α → ExceptT Unwind (StateM σ) β} {u : Unwind} {s' : σ}
    (hr : (r.run s : Except Unwind α × σ) = (.error u, s')) : (r >>= f).run s = (.error u, s') := by
  simp only [ExceptT.run, bind, ExceptT.bind, ExceptT.mk, StateT.bind] at hr ⊢
  rw [hr]
  rfl

theorem run_map_of_ok (f : α → β) {a : α} {s' : σ}
    (hr : (r.run s : Except Unwind α × σ) = (.ok a, s')) :
    (f <$> r).run s = (.ok (f a), s') := by
  apply Ends.run_ok
  rw [ends_map, ends_of_run_ok hr]
  exact ⟨rfl, rfl⟩

theorem run_map_of_error (f : α → β) {u : Unwind} {s' : σ}
    (hr : (r.run s : Except Unwind α × σ) = (.error u, s')) :
    (f <$> r).run s = (.error u, s') := by
  apply Ends.run_error
  rw [ends_map, ends_of_run_error hr]
  exact ⟨rfl, rfl⟩

@[simp]
theorem ends_get {ok : σ → σ → Prop} : Ends get s ok bad ↔ ok s s := Iff.rfl

@[simp]
theorem ends_set (s' : σ) {ok : PUnit → σ → Prop} : Ends (set s') s ok bad ↔ ok () s' := Iff.rfl

@[simp]
theorem ends_modify (f : σ → σ) {ok : PUnit → σ → Prop} :
    Ends (modify f) s ok bad ↔ ok () (f s) := Iff.rfl

@[simp]
theorem ends_throw (u : Unwind) :
    Ends (throw u : ExceptT Unwind (StateM σ) α) s ok bad ↔ bad u s := Iff.rfl

@[simp]
theorem ends_tryCatch (handle : Unwind → ExceptT Unwind (StateM σ) α) :
    Ends (tryCatch r handle) s ok bad ↔ Ends r s ok (fun u s' => Ends (handle u) s' ok bad) := by
  simp only [Ends, tryCatch, tryCatchThe, MonadExceptOf.tryCatch, ExceptT.tryCatch, ExceptT.run,
    ExceptT.mk, bind, StateT.bind]
  rcases (r s : Except Unwind α × σ) with ⟨_ | _, s'⟩ <;> rfl

@[simp]
theorem ends_tryCatchThe (handle : Unwind → ExceptT Unwind (StateM σ) α) :
    Ends (tryCatchThe Unwind r handle) s ok bad ↔
      Ends r s ok (fun u s' => Ends (handle u) s' ok bad) :=
  ends_tryCatch handle

@[simp]
theorem ends_throwThe (u : Unwind) :
    Ends (throwThe Unwind u : ExceptT Unwind (StateM σ) α) s ok bad ↔ bad u s :=
  Iff.rfl

/-- What is done at the end may look at the result, and is done on both ways out. -/
@[simp]
theorem ends_tryFinally' (last : Option α → ExceptT Unwind (StateM σ) β) {ok : α × β → σ → Prop} :
    Ends (tryFinally' r last) s ok bad ↔
      Ends r s (fun a s' => Ends (last (some a)) s' (fun b s'' => ok (a, b) s'') bad)
        (fun u s' => Ends (last none) s' (fun _ s'' => bad u s'') bad) := by
  simp only [Ends, tryFinally', ExceptT.run, ExceptT.mk, bind, StateT.bind]
  rcases (r s : Except Unwind α × σ) with ⟨u | a, s'⟩
  · dsimp only
    rcases (last none s' : Except Unwind β × σ) with ⟨_ | _, s''⟩ <;> rfl
  · dsimp only
    rcases (last (some a) s' : Except Unwind β × σ) with ⟨_ | _, s''⟩ <;> rfl

@[simp]
theorem ends_tryFinally (last : ExceptT Unwind (StateM σ) β) :
    Ends (tryFinally r last) s ok bad ↔
      Ends r s (fun a s' => Ends last s' (fun _ s'' => ok a s'') bad)
        (fun u s' => Ends last s' (fun _ s'' => bad u s'') bad) := by
  unfold tryFinally
  rw [ends_map, ends_tryFinally']

/-! ## Calls on the bridge -/

section Bridge

variable {r : Run α} {b : Bridge} {ok : α → Bridge → Prop} {bad : Unwind → Bridge → Prop}

@[simp]
theorem ends_onUnwind (cleanup : Run Unit) :
    Ends (onUnwind cleanup r) b ok bad ↔
      Ends r b ok (fun u b' => Ends cleanup b' (fun _ b'' => bad u b'') bad) := by
  unfold onUnwind
  rw [ends_bind, ends_tryFinally']
  exact Iff.rfl

theorem run_onUnwind_of_ok {a : α} {b' : Bridge} (cleanup : Run Unit) (hr : r.run b = (.ok a, b')) :
    (onUnwind cleanup r).run b = (.ok a, b') := by
  apply Ends.run_ok
  rw [ends_onUnwind, ends_of_run_ok hr]
  exact ⟨rfl, rfl⟩

@[simp]
theorem ends_withClaims (claims : List ObjId) :
    Ends (withClaims claims r) b ok bad ↔
      Ends r b (fun a b' => Ends (releaseAll claims) b' (fun _ b'' => ok a b'') bad)
        (fun u b' => Ends (releaseAll claims) b' (fun _ b'' => bad u b'') bad) :=
  ends_tryFinally (releaseAll claims)

@[simp]
theorem ends_losing (claims : List ObjId) :
    Ends (losing claims r) b ok bad ↔
      Ends r b ok (fun u b' => bad u { b' with ledger := b'.ledger.noteLost claims }) :=
  ends_tryCatch _

@[simp]
theorem ends_note (e : Entry) {ok : Unit → Bridge → Prop} :
    Ends (note e) b ok bad ↔ ok () { b with journal := b.journal.push e } := Iff.rfl

@[simp]
theorem ends_log (level : Level) (text : String) {ok : Unit → Bridge → Prop} :
    Ends (log level text) b ok bad ↔ ok ()
      { b with journal := b.journal.push (.log level text) } := Iff.rfl

@[simp]
theorem ends_fault (message : String) :
    Ends (fault message : Run α) b ok bad ↔ bad (.fault message) b := Iff.rfl

end Bridge

end ObjectBridge
