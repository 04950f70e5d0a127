import ObjectBridge.Proofs.DataClaims
import ObjectBridge.Proofs.Lineage

set_option autoImplicit false

/-!
# What calls can do to the bridge (SPEC §3)

`Bridge.Change` lists the elementary changes of the classes and the heap of a bridge: a call on the
table of names, a new object, a claim more, claims given back, a new payload of the old kind.  Every
call is a run of such changes, whether it returns or unwinds and whatever state it starts in.  What
all elementary changes keep is therefore kept by all calls, without looking into them again.

Nothing is assumed about the state, so the conditions of the changes are what a call has just
checked: a class is built in or bound to a name, a payload that is replaced has been looked at, and
a new key is a string that was just made.
-/

namespace ObjectBridge

/-! ## Elementary changes -/

/-- The class is built in, or a name is bound to it. -/
def ClassTable.Knows (t : ClassTable) (c : Class) : Prop :=
  c ∈ Class.builtins ∨ ∃ name, t.fetch name = some c

/-- What can take the place of a payload: another one of the same kind.  A hash keeps its keys, or
gets a new string as a key. -/
inductive Heap.Rewrites (h : Heap) : Payload → Payload → Prop
  | byteBuf (old new : List UInt8) : h.Rewrites (.byteBuf old) (.byteBuf new)
  | err (old new : String) : h.Rewrites (.err old) (.err new)
  | vector (old new : List (Option ObjId)) : h.Rewrites (.vector old) (.vector new)
  | hash {old new : Buckets}
    (hkeys : ∀ e ∈ new.entries, (∃ d ∈ old.entries, d.key = e.key) ∨
      ∃ text, h.get? e.key = some ⟨.string, 1, .string text⟩) : h.Rewrites (.hash old) (.hash new)

/-- One elementary change of a bridge. -/
inductive Bridge.Change (b b' : Bridge) : Prop
  /-- neither the classes nor the heap change -/
  | aside (hclasses : b'.classes = b.classes) (hheap : b'.heap = b.heap)
  | table (call : ClassTable.Call) (hsubject : b.classes.Knows call.subject)
    (hclasses : b'.classes = b.classes.after call) (hheap : b'.heap = b.heap)
  | add (c : Class) (p : Payload) (hc : b.classes.Knows c) (hp : p.claims = [])
    (hclasses : b'.classes = b.classes) (hheap : b'.heap = b.heap.add ⟨c, 1, p⟩)
  | retain (o : ObjId) (hclasses : b'.classes = b.classes) (hheap : b'.heap = b.heap.retain o)
  | rewrite (o : ObjId) (x : Obj) (p : Payload) (hx : b.heap.get? o = some x)
    (hp : b.heap.Rewrites x.payload p) (hclasses : b'.classes = b.classes)
    (hheap : b'.heap = b.heap.setPayload o p)
  | sweep (claims : List ObjId) (hclasses : b'.classes = b.classes)
    (hheap : b'.heap = (b.heap.sweep claims).heap)

/-- Any number of elementary changes. -/
abbrev Bridge.Leads : Bridge → Bridge → Prop := Relation.ReflTransGen Bridge.Change

theorem Bridge.leads_aside {b b' : Bridge} (hclasses : b'.classes = b.classes)
    (hheap : b'.heap = b.heap) :
    b.Leads b' := .single (.aside hclasses hheap)

theorem Class.knows_of_builtin {t : ClassTable} {c : Class} (hc : c ∈ builtins) :
    t.Knows c := .inl hc

/-! ## Calls -/

section Rules

variable {σ α β : Type} {view : σ → Bridge} {r : ExceptT Unwind (StateM σ) α}
  {f : α → ExceptT Unwind (StateM σ) β}

/-- However the call ends, the bridge in the state has gone through elementary changes only. -/
def Moves (view : σ → Bridge) (r : ExceptT Unwind (StateM σ) α) : Prop :=
  ∀ s, Ends r s (fun _ s' => (view s).Leads (view s')) (fun _ s' => (view s).Leads (view s'))

/-- What is left to do after some changes. -/
theorem Moves.after (hr : Moves view r) {s₀ s : σ} (hs : (view s₀).Leads (view s)) :
    Ends r s (fun _ s' => (view s₀).Leads (view s')) (fun _ s' => (view s₀).Leads (view s')) :=
  (hr s).mono (fun _ _ h => hs.trans h) (fun _ _ h => hs.trans h)

theorem Moves.pure (a : α) : Moves view (pure a : ExceptT Unwind (StateM σ) α) := fun _ => .refl

theorem Moves.throw (u : Unwind) :
    Moves view (throw u : ExceptT Unwind (StateM σ) α) := fun _ => .refl

theorem Moves.get : Moves view (get : ExceptT Unwind (StateM σ) σ) := fun _ => .refl

theorem Moves.modify {change : σ → σ} (hc : ∀ s, (view s).Leads (view (change s))) :
    Moves view (modify change : ExceptT Unwind (StateM σ) PUnit) := hc

theorem Moves.bind (hr : Moves view r) (hf : ∀ a, Moves view (f a)) : Moves view (r >>= f) := by
  intro s
  rw [ends_bind]
  exact (hr s).mono (fun a _ h => (hf a).after h) (fun _ _ h => h)

theorem Moves.map (g : α → β) (hr : Moves view r) : Moves view (g <$> r) := by
  intro s
  rw [ends_map]
  exact hr s

theorem Moves.ite {c : Prop} [Decidable c] {r' : ExceptT Unwind (StateM σ) α} (hr : Moves view r)
    (hr' : Moves view r') : Moves view (if c then r else r') := by
  split
  · exact hr
  · exact hr'

theorem Moves.tryCatch {handle : Unwind → ExceptT Unwind (StateM σ) α} (hr : Moves view r)
    (hh : ∀ u, Moves view (handle u)) : Moves view (tryCatch r handle) := by
  intro s
  rw [ends_tryCatch]
  exact (hr s).mono (fun _ _ h => h) (fun u _ h => (hh u).after h)

theorem Moves.tryFinally' {last : Option α → ExceptT Unwind (StateM σ) β} (hr : Moves view r)
    (hl : ∀ a, Moves view (last a)) : Moves view (tryFinally' r last) := by
  intro s
  rw [ends_tryFinally']
  exact (hr s).mono (fun a _ h => (hl (some a)).after h) (fun _ _ h => (hl none).after h)

theorem Moves.tryFinally {last : ExceptT Unwind (StateM σ) β} (hr : Moves view r)
    (hl : Moves view last) :
    Moves view (tryFinally r last) := (hr.tryFinally' fun _ => hl).map _

theorem Moves.forM {γ : Type} {f : γ → ExceptT Unwind (StateM σ) PUnit} (xs : List γ)
    (hf : ∀ x, Moves view (f x)) :
    Moves view (xs.forM f) := by
  induction xs with
  | nil => exact .pure _
  | cons x rest ih => exact (hf x).bind fun _ => ih

end Rules

/-- A call on the bridge is a run of elementary changes. -/
abbrev Run.Moves {α : Type} (r : Run α) : Prop := ObjectBridge.Moves id r

section Calls

variable {α : Type} {b : Bridge} {o : ObjId}

theorem moves_log (level : Level) (text : String) :
    Run.Moves (log level text) := fun _ => Bridge.leads_aside rfl rfl

theorem moves_note (e : Entry) : Run.Moves (note e) := fun _ => Bridge.leads_aside rfl rfl

theorem moves_fault (message : String) : Run.Moves (fault message : Run α) := .throw _

theorem moves_readObj (o : ObjId) : Run.Moves (readObj o) := by
  refine Moves.get.bind fun b => ?_
  cases b.heap.get? o with
  | some x => exact .pure x
  | none => exact .throw _

theorem moves_classOf (o : ObjId) : Run.Moves (classOf o) := (moves_readObj o).bind fun _ => .pure _

theorem moves_isA (o : ObjId) (c : Class) : Run.Moves (isA o c) :=
  (moves_classOf o).bind fun _ => .pure _

theorem moves_refcount (o : ObjId) : Run.Moves (refcount o) :=
  (moves_readObj o).bind fun _ => .pure _

theorem moves_retain (o : ObjId) : Run.Moves (retain o) :=
  (moves_readObj o).bind fun _ => .modify fun _ => .single (.retain o rfl rfl)

theorem moves_sweepClaims (claims : List ObjId) : Run.Moves (sweepClaims claims) :=
  fun _ => .single (.sweep claims rfl rfl)

theorem moves_losing (claims : List ObjId) {r : Run α} (hr : Run.Moves r) :
    Run.Moves (losing claims r) := by
  refine hr.tryCatch fun u => Moves.bind (Moves.modify fun b => ?_) fun _ => .throw u
  exact Bridge.leads_aside rfl rfl

theorem moves_onUnwind {cleanup : Run Unit} {r : Run α} (hc : Run.Moves cleanup)
    (hr : Run.Moves r) :
    Run.Moves (onUnwind cleanup r) := by
  intro b
  rw [ends_onUnwind]
  exact (hr b).mono (fun _ _ h => h) (fun _ _ h => hc.after h)

/-! ### Exceptions -/

/-- An object is made. -/
theorem ends_allocate {c : Class} {p : Payload} {ok : ObjId → Bridge → Prop}
    {bad : Unwind → Bridge → Prop} :
    Ends (allocate c p) b ok bad ↔ ok b.heap.next { b with heap := b.heap.add ⟨c, 1, p⟩ } := Iff.rfl

/-- Raising does not return. -/
theorem ends_raiseWith_moves (err : ObjId) (message : String) {ok : α → Bridge → Prop} {b₀ : Bridge}
    (hb : b₀.Leads b) : Ends (raiseWith err message : Run α) b ok (fun _ b' => b₀.Leads b') := by
  unfold raiseWith
  rw [ends_bind, ends_get]
  cases b.hooks with
  | none =>
    unfold missingHooks
    rw [ends_bind, ends_sweepClaims, ends_bind, ends_log, ends_fault]
    exact hb.tail (.sweep [err] rfl rfl)
  | some via =>
    dsimp only
    rw [ends_bind, ends_log]
    split
    · rw [ends_bind, ends_note, ends_throw]
      exact hb.tail (.aside rfl rfl)
    · exact hb.tail (.aside rfl rfl)

theorem ends_raise_moves (message : String) {ok : α → Bridge → Prop} :
    Ends (raise message : Run α) b ok (fun _ b' => b.Leads b') := by
  unfold raise
  rw [ends_bind, ends_allocate]
  refine ends_raiseWith_moves _ message (.single ?_)
  exact .add .err (.err message) (Class.knows_of_builtin (by decide)) rfl rfl rfl

theorem moves_raise (message : String) :
    Run.Moves (raise message : Run α) := fun _ => ends_raise_moves message

theorem moves_releaseAll (claims : List ObjId) : Run.Moves (releaseAll claims) := by
  refine (moves_sweepClaims claims).bind fun stop => ?_
  rcases stop with _ | ⟨_, c⟩ | ⟨o⟩
  · exact .pure _
  · exact moves_raise _
  · exact .throw _

theorem moves_release (o : ObjId) : Run.Moves (release o) :=
  Moves.get.bind fun _ => (moves_releaseAll [o]).bind fun _ => .pure _

theorem moves_withClaims (claims : List ObjId) {r : Run α} (hr : Run.Moves r) :
    Run.Moves (withClaims claims r) :=
  hr.tryFinally (moves_releaseAll claims)

/-- Making an object of a known class, whether its size is right or not. -/
theorem ends_makeObj_moves {c : Class} {p : Payload} (hc : b.classes.Knows c) (hp : p.claims = []) :
    Ends (makeObj c p) b (fun _ b' => b.Leads b') (fun _ b' => b.Leads b') := by
  unfold makeObj
  split
  · rw [ends_allocate]
    exact .single (.add c p hc hp rfl rfl)
  · have hraise (message : String) : Run.Moves (raise message : Run ObjId) := moves_raise message
    refine (hraise _).tryFinally ?_ b
    split
    · exact moves_note _
    · exact .pure _

theorem moves_makeObj (c : Class) (p : Payload) (hc : c ∈ Class.builtins) (hp : p.claims = []) :
    Run.Moves (makeObj c p) := fun _ => ends_makeObj_moves (Class.knows_of_builtin hc) hp

theorem moves_certify (o : ObjId) (c : Class) (look : Payload → Option α) :
    Run.Moves (certify o c look) := by
  refine (moves_readObj o).bind fun x => .ite ?_ (moves_raise _)
  cases look x.payload with
  | some a => exact .pure a
  | none => exact moves_raise _

/-- Looking into an object changes nothing if it succeeds. -/
theorem ends_certify_moves {c : Class} {look : Payload → Option α} {ok : α → Bridge → Prop}
    (hok : ∀ x a, b.heap.get? o = some x → look x.payload = some a → ok a b) :
    Ends (certify o c look) b ok (fun _ b' => b.Leads b') := by
  unfold certify readObj
  rw [ends_bind, ends_bind, ends_get]
  cases hx : b.heap.get? o with
  | none => exact .refl
  | some x =>
    rw [ends_pure]
    split
    · cases hl : look x.payload with
      | some a => exact hok x a hx hl
      | none => exact ends_raise_moves _
    · exact ends_raise_moves _

/-- A payload that was looked at is replaced by one of its kind. -/
theorem moves_rewrite (o : ObjId) (c : Class) {look : Payload → Option α} {change : α → Payload}
    (hc : ∀ (h : Heap) p a, look p = some a → h.Rewrites p (change a)) :
    Run.Moves (do setPayload o (change (← certify o c look))) := by
  intro b
  rw [ends_bind]
  refine ends_certify_moves fun x a hx hl => ?_
  rw [ends_setPayload]
  exact .single (.rewrite o x _ hx (hc b.heap x.payload a hl) rfl rfl)

theorem moves_errMessage (o : ObjId) : Run.Moves (ErrObj.message o) := moves_certify o _ _

theorem moves_errAppend (o : ObjId) (more : String) : Run.Moves (ErrObj.append o more) := by
  refine moves_rewrite o .err fun h p old hl => ?_
  cases p with
  | err message => exact .err _ _
  | _ => cases hl

theorem moves_throwObj (o : ObjId) : Run.Moves (ErrObj.throwObj o : Run α) :=
  (moves_losing [o] (moves_errMessage o)).bind fun message => fun _ =>
    ends_raiseWith_moves o message .refl

/-! ### Starting -/

theorem moves_installHooks (hooks : Hooks) : Run.Moves (installHooks hooks) := by
  refine Moves.get.bind fun b => .ite (.pure _) ?_
  exact Moves.bind (Moves.modify fun _ => Bridge.leads_aside rfl rfl) fun _ =>
    (moves_log _ _).bind fun _ => .pure _

theorem moves_hooksInstalled : Run.Moves hooksInstalled := Moves.get.bind fun _ => .pure _

theorem moves_truth (value : Bool) : Run.Moves (truth value) := by
  refine Moves.get.bind fun b => ?_
  rcases b.truths with _ | ⟨no, yes⟩
  · refine (moves_makeObj _ _ (by decide) rfl).bind fun no =>
      (moves_makeObj _ _ (by decide) rfl).bind fun yes => ?_
    exact Moves.bind (Moves.modify fun _ => Bridge.leads_aside rfl rfl) fun _ => .pure _
  · exact .pure _

theorem moves_bootstrap : Run.Moves bootstrap := by
  have hrest : Run.Moves (do
      let names := (← get).classes.size
      let _ ← truth false
      log .debug s!"clownfish core bootstrapped with {names} class names") :=
    Moves.get.bind fun _ => (moves_truth false).bind fun _ => moves_log _ _
  exact moves_hooksInstalled.bind fun _ => .ite ((moves_log _ _).bind fun _ => hrest) hrest

theorem moves_registerWrapper (c : Class) (w : Wrapper) : Run.Moves (registerWrapper c w) := by
  intro b
  simp only [registerWrapper, ends_bind, ends_get, ends_set, ends_log, ends_pure]
  exact Bridge.leads_aside rfl rfl

theorem moves_registerWrappers (entries : List (Class × Wrapper)) :
    Run.Moves (registerWrappers entries) := by
  intro b
  simp only [registerWrappers, ends_bind, ends_get, ends_set, ends_log, ends_pure]
  exact Bridge.leads_aside rfl rfl

theorem moves_start : Run.Moves start := by
  have hrest : Run.Moves (do
      bootstrap
      let _ ← registerWrappers Wrapper.builtins
      log .debug "clownfish bridge initialized") :=
    moves_bootstrap.bind fun _ => (moves_registerWrappers _).bind fun _ => moves_log _ _
  refine Moves.get.bind fun b => .ite (.pure _) ?_
  refine Moves.bind (Moves.modify fun _ => Bridge.leads_aside rfl rfl) fun _ => ?_
  exact (moves_installHooks _).bind fun _ => .ite ((moves_log _ _).bind fun _ => hrest) hrest

theorem ends_defineClass_moves {parent : Class} (hp : b.classes.Knows parent) (name : String)
    (flags : ClassFlags) (layout : Layout) :
    Ends (defineClass name parent flags layout) b (fun _ b' => b.Leads b')
      (fun _ b' => b.Leads b') := by
  have hstep (j : Array Entry) :
      b.Leads { b with
          classes := (b.classes.define name parent flags layout.size).2, journal := j } :=
    .single (.table (.define name parent flags layout.size) hp rfl rfl)
  unfold defineClass
  simp only [ends_bind, ends_get, ends_set]
  cases (b.classes.define name parent flags layout.size).1 with
  | error e => exact hstep b.journal
  | ok d =>
    dsimp only
    split
    · exact hstep _
    · exact hstep b.journal

theorem ends_aliasClass_moves {c : Class} (hc : b.classes.Knows c) (name : String) :
    Ends (aliasClass c name) b (fun _ b' => b.Leads b') (fun _ b' => b.Leads b') := by
  simp only [aliasClass, ends_bind, ends_get, ends_set, ends_pure]
  exact .single (.table (.addAlias c name) hc rfl rfl)

theorem moves_throwForeign (message : String) : Run.Moves (throwForeign message : Run α) :=
  moves_start.bind fun _ => moves_raise message

/-! ### Wrappers -/

theorem moves_adopt (o : ObjId) : Run.Moves (adopt o) := moves_start.bind fun _ => .pure o

theorem moves_share (o : ObjId) : Run.Moves (share o) :=
  (moves_retain o).bind fun _ => moves_adopt o

theorem moves_wrapperFor? (c : Class) : Run.Moves (wrapperFor? c) := Moves.get.bind fun _ => .pure _

theorem moves_dispatch (o : ObjId) : Run.Moves (dispatch o) := by
  refine moves_start.bind fun _ => (moves_classOf o).bind fun c =>
    (moves_wrapperFor? c).bind fun w => ?_
  cases w with
  | some w => exact .pure _
  | none => exact (moves_log _ _).bind fun _ => (moves_releaseAll [o]).bind fun _ => moves_fault _

theorem moves_hostShare (h : HostRef) : Run.Moves h.share :=
  (moves_share h.obj).bind fun o => moves_dispatch o

theorem moves_foreignClass (w : Wrapper) : Run.Moves w.foreignClass := by
  cases w with
  | extension e =>
    refine Moves.bind (fun b => ends_defineClass_moves (Class.knows_of_builtin (by decide)) _ _ _)
      fun result => ?_
    cases result with
    | ok c => exact .pure c
    | error e => exact moves_fault _
  | _ => exact .pure _

theorem moves_wrap (w : Wrapper) (o : ObjId) : Run.Moves (w.wrap o) := by
  refine (moves_onUnwind (moves_releaseAll [o]) (moves_foreignClass w)).bind fun required => ?_
  refine (moves_isA o required).bind fun _ => .ite (.pure _) ?_
  exact (moves_classOf o).bind fun _ => (moves_releaseAll [o]).bind fun _ => .pure _

theorem moves_throwErr (err : ObjId) : Run.Moves (throwErr err : Run α) :=
  moves_start.bind fun _ => moves_throwObj err

/-! ### Objects without claims -/

theorem moves_byteBufAppend (o : ObjId) (more : List UInt8) :
    Run.Moves (ByteBufObj.append o more) := by
  refine moves_rewrite o .byteBuf fun h p old hl => ?_
  cases p with
  | byteBuf bytes => exact .byteBuf _ _
  | _ => cases hl

theorem moves_text (o : ObjId) : Run.Moves (StringObj.text o) := moves_certify o _ _

end Calls

/-! ### Containers -/

section Containers

variable {b : Bridge} {vec hash : ObjId}

namespace VectorObj

theorem moves_overflow {α : Type} (elem : Option ObjId) : Run.Moves (overflow elem : Run α) :=
  (moves_releaseAll elem.toList).bind fun _ => moves_raise _

theorem moves_new (capacity : Nat) : Run.Moves (new capacity) :=
  .ite (moves_overflow none) (moves_makeObj _ _ (by decide) rfl)

/-- Looking into a vector to which an element is handed over. -/
theorem ends_losingSlots_moves {elem : Option ObjId} {ok : List (Option ObjId) → Bridge → Prop}
    (hok : ∀ x elems, b.heap.get? vec = some x → x.payload = .vector elems → ok elems b) :
    Ends (losing elem.toList (slots vec)) b ok (fun _ b' => b.Leads b') := by
  rw [ends_losing]
  refine (ends_certify_moves fun x elems hx hl => hok x elems hx (Payload.eq_vector hl)).mono
    (fun _ _ h => h) ?_
  exact fun _ _ h => h.tail (.aside rfl rfl)

theorem leads_setSlots {x : Obj} {elems : List (Option ObjId)} (hx : b.heap.get? vec = some x)
    (hp : x.payload = .vector elems) (new : List (Option ObjId)) :
    b.Leads { b with heap := b.heap.setPayload vec (.vector new) } :=
  .single (.rewrite vec x _ hx (hp ▸ .vector elems new) rfl rfl)

theorem moves_push (vec : ObjId) (elem : Option ObjId) : Run.Moves (push vec elem) := by
  intro b
  unfold push
  rw [ends_bind]
  refine ends_losingSlots_moves fun x elems hx hp => ?_
  exact leads_setSlots hx hp _

theorem moves_store (vec : ObjId) (tick : Nat) (elem : Option ObjId) :
    Run.Moves (store vec tick elem) := by
  refine .ite (moves_overflow elem) fun b => ?_
  rw [ends_bind]
  refine ends_losingSlots_moves fun x elems hx hp => ?_
  rw [ends_bind, ends_get]
  split
  · exact moves_overflow elem b
  · rw [ends_bind, ends_setPayload]
    exact (moves_releaseAll _).after (leads_setSlots hx hp _)

theorem moves_fetch (vec : ObjId) (tick : Nat) : Run.Moves (fetch vec tick) :=
  (moves_certify vec _ _).bind fun _ => (Moves.forM _ moves_retain).bind fun _ => .pure _

theorem moves_size (vec : ObjId) : Run.Moves (size vec) :=
  (moves_certify vec _ _).bind fun _ => .pure _

theorem moves_elements (vec : ObjId) : Run.Moves (elements vec) :=
  (moves_certify vec _ _).bind fun _ => (Moves.forM _ moves_retain).bind fun _ => .pure _

end VectorObj

namespace HashObj

theorem moves_withCapacity (capacity : Nat) : Run.Moves (withCapacity capacity) :=
  .ite (moves_makeObj _ _ (by decide) rfl) (moves_fault _)

theorem moves_store (hash : ObjId) (key : String) (value : Option ObjId) :
    Run.Moves (store hash key value) := by
  intro b
  unfold store
  rw [ends_bind, ends_losing]
  refine (ends_certify_moves fun x inside hx hl => ?_).mono (fun _ _ h => h)
    (fun _ _ h => h.tail (.aside rfl rfl))
  have hp := Payload.eq_hash hl
  rw [ends_bind, ends_get]
  cases hf : find? b inside key with
  | some e =>
    dsimp only
    rw [ends_bind, ends_setPayload]
    refine (moves_releaseAll _).after (.single (.rewrite hash x _ hx ?_ rfl rfl))
    exact hp ▸ .hash fun d hd => .inl (Buckets.mem_entries_replace hf hd)
  | none =>
    dsimp only
    unfold StringObj.new
    rw [ends_bind, ends_makeObj rfl, ends_setPayload]
    -- the hash is not the new key, so it still carries what was looked at
    have hadd : b.Change { b with heap := b.heap.add ⟨.string, 1, .string key⟩ } :=
      .add .string (.string key) (Class.knows_of_builtin (by decide)) rfl rfl rfl
    have hx' : (b.heap.add ⟨.string, 1, .string key⟩).get? hash = some x := by
      rw [Heap.get?_add, if_neg (Heap.ne_next_of_get? hx), hx]
    refine .tail (.single hadd) (.rewrite hash x _ hx' (hp ▸ .hash fun d hd => ?_) rfl rfl)
    rcases Buckets.mem_entries_add.mp hd with hold | rfl
    · exact .inl ⟨d, hold, rfl⟩
    · exact .inr ⟨key, by rw [Heap.get?_add, if_pos rfl]⟩

theorem moves_fetch (hash : ObjId) (key : String) : Run.Moves (fetch hash key) :=
  (moves_certify hash _ _).bind fun _ => Moves.get.bind fun _ =>
    (Moves.forM _ moves_retain).bind fun _ => .pure _

theorem moves_contains (hash : ObjId) (key : String) : Run.Moves (contains hash key) :=
  (moves_certify hash _ _).bind fun _ => Moves.get.bind fun _ => .pure _

theorem moves_delete (hash : ObjId) (key : String) : Run.Moves (delete hash key) := by
  intro b
  unfold delete
  rw [ends_bind]
  refine ends_certify_moves fun x inside hx hl => ?_
  have hp := Payload.eq_hash hl
  rw [ends_bind, ends_get]
  cases hf : find? b inside key with
  | none => exact .refl
  | some e =>
    dsimp only
    rw [ends_bind, ends_setPayload]
    refine ((moves_releaseAll [e.key]).bind fun _ => Moves.pure e.value).after
      (.single (.rewrite hash x _ hx ?_ rfl rfl))
    exact hp ▸ .hash fun d hd => .inl ⟨d, Buckets.mem_entries_erase hf hd, rfl⟩

theorem moves_size (hash : ObjId) : Run.Moves (size hash) :=
  (moves_certify hash _ _).bind fun _ => .pure _

theorem moves_entries (hash : ObjId) : Run.Moves (entries hash) :=
  (moves_certify hash _ _).bind fun _ => Moves.get.bind fun _ =>
    (Moves.forM _ moves_retain).bind fun _ => .pure _

end HashObj

end Containers

/-! ## Values -/

section Values

variable {α β : Type}

theorem moves_clone (v : Value) : Run.Moves v.clone := by
  induction v using Value.induction with
  | seq items ih =>
    have hitems : Run.Moves (Value.cloneItems items) := by
      induction items with
      | nil => exact .pure _
      | cons v rest ihs =>
        refine (ih v List.mem_cons_self).bind fun v' => Moves.bind ?_ fun _ => .pure _
        exact moves_onUnwind (moves_releaseAll _) (ihs fun w hw => ih w (List.mem_cons_of_mem v hw))
    exact hitems.bind fun _ => .pure _
  | map entries ih =>
    have hentries : Run.Moves (Value.cloneEntries entries) := by
      induction entries with
      | nil => exact .pure _
      | cons e rest ihs =>
        refine (ih e List.mem_cons_self).bind fun v' => Moves.bind ?_ fun _ => .pure _
        exact moves_onUnwind (moves_releaseAll _) (ihs fun d hd => ih d (List.mem_cons_of_mem e hd))
    exact hentries.bind fun _ => .pure _
  | object h => exact (moves_hostShare h).bind fun _ => .pure _
  | _ => exact .pure _

theorem moves_ofObject (o : ObjId) : Run.Moves (Value.ofObject o) :=
  (moves_dispatch o).bind fun _ => .pure _

theorem moves_checkClass (o : ObjId) (required : Class) : Run.Moves (checkClass o required) :=
  (moves_classOf o).bind fun _ => .ite (.pure _) (.pure _)

theorem moves_deliver (o : ObjId) (required : Class) : Run.Moves (deliver o required) := by
  refine (moves_checkClass o required).bind fun result => ?_
  cases result with
  | ok _ => exact .pure _
  | error e => exact (moves_releaseAll [o]).bind fun _ => .pure _

/-- A new object is adopted and checked. -/
theorem moves_delivered {make : Run ObjId} (hmake : Run.Moves make) (required : Class) :
    Run.Moves (do start; deliver (← adopt (← make)) required) :=
  moves_start.bind fun _ => hmake.bind fun _ => (moves_adopt _).bind fun o =>
    moves_deliver o required

/-- A new container is adopted, filled and checked, and given up if it cannot be filled. -/
theorem moves_filled {make : Run ObjId} {fill : ObjId → Run (Except ConversionError Unit)}
    (hmake : Run.Moves make) (hfill : ∀ o, Run.Moves (fill o)) (required : Class) :
    Run.Moves (do
      start
      let o ← adopt (← make)
      match ← onUnwind (releaseAll [o]) (fill o) with
      | .ok () => deliver o required
      | .error e =>
        releaseAll [o]
        return .error e) := by
  refine moves_start.bind fun _ => hmake.bind fun _ => (moves_adopt _).bind fun o => ?_
  refine (moves_onUnwind (moves_releaseAll [o]) (hfill o)).bind fun result => ?_
  cases result with
  | ok _ => exact moves_deliver o required
  | error e => exact (moves_releaseAll [o]).bind fun _ => .pure _

theorem moves_fillVector (vec : ObjId) (items : List Value)
    (ih : ∀ v ∈ items, ∀ required nullable, Run.Moves (hostToForeign v required nullable)) :
    Run.Moves (fillVector vec items) := by
  induction items with
  | nil => exact .pure _
  | cons v rest ihs =>
    unfold fillVector
    refine (ih v List.mem_cons_self none true).bind fun result => ?_
    cases result with
    | ok elem =>
      exact (VectorObj.moves_push vec elem).bind fun _ => ihs fun w hw =>
        ih w (List.mem_cons_of_mem v hw)
    | error e => exact .pure _

theorem moves_fillHash (hash : ObjId) (entries : List (String × Value))
    (ih : ∀ e ∈ entries, ∀ required nullable, Run.Moves (hostToForeign e.2 required nullable)) :
    Run.Moves (fillHash hash entries) := by
  induction entries with
  | nil => exact .pure _
  | cons e rest ihs =>
    unfold fillHash
    refine (ih e List.mem_cons_self none true).bind fun result => ?_
    cases result with
    | ok value =>
      exact (HashObj.moves_store hash e.1 value).bind fun _ => ihs fun d hd =>
        ih d (List.mem_cons_of_mem e hd)
    | error e => exact .pure _

theorem moves_hostToForeign (v : Value) :
    ∀ required nullable, Run.Moves (hostToForeign v required nullable) := by
  induction v using Value.induction with
  | null => exact fun _ _ => moves_start.bind fun _ => .ite (.pure _) (.pure _)
  | bool b => exact fun required _ => moves_delivered (moves_truth b) _
  | int n => exact fun required _ => moves_delivered (moves_makeObj _ _ (by decide) rfl) _
  | float bits => exact fun required _ => moves_delivered (moves_makeObj _ _ (by decide) rfl) _
  | text s => exact fun required _ => moves_delivered (moves_makeObj _ _ (by decide) rfl) _
  | bytes b => exact fun required _ => moves_delivered (moves_makeObj _ _ (by decide) rfl) _
  | seq items ih =>
    intro required _
    unfold hostToForeign
    exact moves_filled (VectorObj.moves_new _) (fun vec => moves_fillVector vec items ih) _
  | map entries ih =>
    intro required _
    unfold hostToForeign
    exact moves_filled (moves_makeObj _ _ (by decide) rfl)
      (fun hash => moves_fillHash hash entries ih) _
  | object h =>
    intro required _
    unfold hostToForeign
    refine moves_start.bind fun _ => (moves_checkClass h.obj _).bind fun result => ?_
    cases result with
    | ok _ => exact (moves_share h.obj).bind fun _ => .pure _
    | error e => exact .pure _

theorem moves_convertAll {f : α → Run Value} (hf : ∀ x, Run.Moves (f x)) (xs : List α) :
    Run.Moves (convertAll f xs) := by
  induction xs with
  | nil => exact .pure _
  | cons x rest ih =>
    exact (hf x).bind fun v => Moves.bind (moves_onUnwind (moves_releaseAll v.claims) ih)
      fun _ => .pure _

theorem moves_convertEntries {f : α → Run (String × Value)} (hf : ∀ x, Run.Moves (f x))
    (xs : List α) (done : List (String × Value)) : Run.Moves (convertEntries f xs done) := by
  induction xs generalizing done with
  | nil => exact .pure _
  | cons x rest ih =>
    refine Moves.bind (moves_onUnwind (moves_releaseAll _) (hf x)) fun e => ?_
    exact (moves_releaseAll _).bind fun _ => ih _

theorem moves_toHostWithin (depth : Nat) (o : Option ObjId) : Run.Moves (toHostWithin depth o) := by
  induction depth generalizing o with
  | zero =>
    cases o with
    | none => exact .pure _
    | some o => exact .throw _
  | succ depth ih =>
    cases o with
    | none => exact .pure _
    | some o =>
      unfold toHostWithin
      refine (moves_classOf o).bind fun c => ?_
      refine .ite ((moves_certify o _ _).bind fun _ => .pure _) ?_
      refine .ite ((moves_certify o _ _).bind fun _ => .pure _) ?_
      refine .ite ((moves_certify o _ _).bind fun _ => .pure _) ?_
      refine .ite ((VectorObj.moves_elements o).bind fun elems => ?_) ?_
      · exact moves_withClaims _ ((moves_convertAll ih elems).bind fun _ => .pure _)
      refine .ite ((HashObj.moves_entries o).bind fun entries => moves_withClaims _ ?_) ?_
      · refine (moves_convertEntries (fun e => ?_) entries []).bind fun _ => .pure _
        exact (moves_text e.key).bind fun _ => (ih e.value).bind fun _ => .pure _
      refine .ite ((moves_certify o _ _).bind fun _ => .pure _) ?_
      refine .ite ((moves_certify o _ _).bind fun _ => .pure _) ?_
      refine .ite ((moves_certify o _ _).bind fun _ => .pure _) ?_
      exact (moves_share o).bind fun o => (moves_dispatch o).bind fun _ => .pure _

theorem moves_foreignToHost (o : Option ObjId) : Run.Moves (foreignToHost o) :=
  Moves.get.bind fun _ => moves_toHostWithin _ o

end Values

end ObjectBridge
