import ObjectBridge.Proofs.Transfers

set_option autoImplicit false

/-!
# Claims in the calls of the bridge (SPEC §4.1, §11.1, §11.4)

What the basic calls do with claims: looking at objects, making them, sharing and wrapping them,
raising exceptions.
-/

namespace ObjectBridge

open Heap

section Basic

variable {α : Type} {b : Bridge} {host : Multiset ObjId} {o : ObjId} {bad : Unwind → Bridge → Prop}

/-! ## Looking at objects -/

/-- A live object can be looked at. -/
theorem ends_readObj {ok : Obj → Bridge → Prop} (hb : b.Books host) (hl : b.Bounded → b.heap.Live o)
    (hok : ∀ x, b.heap.get? o = some x → ok x b) (hbad : ∀ u b', b'.Overrun → bad u b') :
    Ends (readObj o) b ok bad := by
  unfold readObj
  rw [ends_bind, ends_get]
  cases hx : b.heap.get? o with
  | some x => exact hok x hx
  | none => exact hbad _ _ (hb.overrun_of_dead hl hx)

theorem readObj_succeeds (o : ObjId) : Succeeds {o} 0 (readObj o) (fun _ => 0) := by
  intro b F hB hb
  rw [zero_add] at hb
  refine ends_readObj hb (hb.live (hB (Multiset.mem_singleton_self o))) (fun x _ => ?_)
    (fun _ _ h => h)
  rwa [zero_add]

theorem classOf_succeeds (o : ObjId) : Succeeds {o} 0 (classOf o) (fun _ => 0) :=
  (readObj_succeeds o).bind fun _ => .pure _ rfl

theorem isA_succeeds (o : ObjId) (c : Class) : Succeeds {o} 0 (isA o c) (fun _ => 0) :=
  (classOf_succeeds o).bind fun _ => .pure _ rfl

theorem refcount_succeeds (o : ObjId) : Succeeds {o} 0 (refcount o) (fun _ => 0) :=
  (readObj_succeeds o).bind fun _ => .pure _ rfl

/-! ## Exceptions -/

theorem rooted_err : Class.Rooted .err := rfl

/-- A new exception unwinds with nothing but its own claim. -/
theorem ends_raise_unwound {ok : α → Bridge → Prop} (hb : b.Books host) (message : String) :
    Ends (raise message : Run α) b ok (fun u b' => b'.Unwound u host) := by
  rw [ends_raise hb.hooks]
  have hadd : { b with heap := b.heap.add ⟨.err, 1, .err message⟩ }.Books (b.heap.next ::ₘ host) :=
    Bridge.Books.add (q := .err message) (by simpa [Payload.claims] using hb) rooted_err
  refine ⟨?_, fun _ => ⟨rfl, ?_⟩⟩
  · change Bridge.Books _ ({b.heap.next} + host)
    rw [Multiset.singleton_add]
    exact hadd.journal _
  · exact ⟨_, message, by rw [get?_add, if_pos rfl], rfl, rfl⟩

theorem raise_transfers (B : Multiset ObjId) (message : String) (g : α → Multiset ObjId) :
    Transfers B 0 (raise message : Run α) g := by
  intro b F _ hb
  rw [zero_add] at hb
  exact ends_raise_unwound hb message

/-- Looking into a live object of the right class and layout; otherwise the call raises. -/
theorem ends_certify {c : Class} {view : Payload → Option α} {ok : α → Bridge → Prop}
    (hb : b.Books host) (hl : b.Bounded → b.heap.Live o)
    (hok : ∀ x a, b.heap.get? o = some x → x.cls.isSubclassOf c = true →
      view x.payload = some a → ok a b)
    (hbad : ∀ u b', b'.Unwound u host → bad u b') : Ends (certify o c view) b ok bad := by
  unfold certify
  rw [ends_bind]
  refine ends_readObj hb hl (fun x hx => ?_) (fun u b' h => hbad u b' h.unwound)
  split
  · rename_i hsub
    cases hv : view x.payload with
    | some a => exact hok x a hx hsub hv
    | none => exact (ends_raise_unwound hb _).mono (fun _ _ h => h) hbad
  · exact (ends_raise_unwound hb _).mono (fun _ _ h => h) hbad

theorem certify_transfers (o : ObjId) (c : Class) (view : Payload → Option α) :
    Transfers {o} 0 (certify o c view) (fun _ => 0) := by
  intro b F hB hb
  rw [zero_add] at hb
  refine ends_certify hb (hb.live (hB (Multiset.mem_singleton_self o))) (fun x a _ _ _ => ?_)
    (fun _ _ h => h)
  rwa [zero_add]

/-- Raising an object consumes a claim on it, also if it turns out to be no error object. -/
theorem throwObj_transfers (o : ObjId) (g : α → Multiset ObjId) :
    Transfers 0 {o} (ErrObj.throwObj o : Run α) g := by
  intro b F _ hb
  have hmem : o ∈ ({o} : Multiset ObjId) + F := by simp
  unfold ErrObj.throwObj ErrObj.message
  rw [ends_bind, ends_losing]
  refine ends_certify hb (hb.live hmem) (fun x m hx hsub hm => ?_) (fun u b' hw => ?_)
  · unfold raiseWith
    rw [ends_bind, ends_get, hb.hooks]
    refine ⟨hb.journal _, fun _ => ⟨rfl, x, m, hx, hsub, ?_⟩⟩
    cases hp : x.payload <;> simp_all [Payload.err?]
  · have hw' : b'.Unwound u (([o] : List ObjId) + F) := by simpa using hw
    exact hw'.lose

/-! ## New objects -/

theorem allocate_succeeds (c : Class) (q : Payload) (hc : c.Rooted) :
    Succeeds 0 q.claims (allocate c q) (fun o => {o}) := by
  intro b F _ hb
  change Bridge.Books _ ({b.heap.next} + F)
  rw [Multiset.singleton_add]
  exact hb.add hc

/-- An object of the size that its class asks for is made. -/
theorem makeObj_succeeds (c : Class) (q : Payload) (hc : c.Rooted) (hs : c.size = q.layout.size)
    (hq : q.claims = []) : Succeeds 0 0 (makeObj c q) (fun o => {o}) := by
  have halloc := allocate_succeeds c q hc
  rw [hq] at halloc
  unfold makeObj
  rw [if_pos hs]
  exact halloc

/-- Making an object of a payload without claims. -/
theorem makeObj_transfers (c : Class) (q : Payload) (hc : c.Rooted) (hq : q.claims = []) :
    Transfers 0 0 (makeObj c q) (fun o => {o}) := by
  by_cases hs : c.size = q.layout.size
  · exact (makeObj_succeeds c q hc hs hq).transfers
  · intro b F _ hb
    rw [zero_add] at hb
    unfold makeObj
    rw [if_neg hs, ends_tryFinally]
    have hraise (message : String) :
        Ends (raise message : Run ObjId) b (fun _ _ => False) (fun u b' => b'.Unwound u F) :=
      ends_raise_unwound hb message
    refine (hraise _).mono (fun _ _ h => h.elim) (fun u b' hw => ?_)
    cases q with
    | tracked label => exact hw.journal _
    | _ => exact hw

end Basic

/-! ## Sharing -/

section Sharing

variable {b : Bridge} {host : Multiset ObjId} {o : ObjId} {bad : Unwind → Bridge → Prop}

/-- The state after one claim more on `o`, which is `x`. -/
def Bridge.retained (b : Bridge) (o : ObjId) (x : Obj) : Bridge :=
  { b with heap := b.heap.retain o, ledger := b.ledger.noteClaim x }

theorem Bridge.Bounded.of_retained {x : Obj} (hu : (b.retained o x).Bounded) : b.Bounded :=
  (b.ledger.peak_le_noteClaim x).trans_lt hu

/-- A live object can be claimed once more. -/
theorem ends_retain {ok : Unit → Bridge → Prop} (hb : b.Books host) (hl : b.Bounded → b.heap.Live o)
    (hok : ∀ x, b.heap.get? o = some x → ok () (b.retained o x))
    (hbad : ∀ u b', b'.Overrun → bad u b') :
    Ends (retain o) b ok bad := by
  unfold retain
  rw [ends_bind]
  exact ends_readObj hb hl hok hbad

theorem retain_succeeds (o : ObjId) : Succeeds {o} 0 (retain o) (fun _ => {o}) := by
  intro b F hB hb
  rw [zero_add] at hb
  refine ends_retain hb (hb.live (hB (Multiset.mem_singleton_self o))) (fun x hx => ?_)
    (fun _ _ h => h)
  rw [Multiset.singleton_add]
  exact hb.retain hx

/-- Live objects can be claimed in turn. -/
theorem ends_forM_retain (claims : List ObjId) (hb : b.Books host)
    (hl : ∀ o ∈ claims, b.Bounded → b.heap.Live o) :
    Ends (claims.forM retain) b (fun _ b' => b'.Books (claims + host))
      (fun _ b' => b'.Overrun) := by
  induction claims generalizing b host with
  | nil => simpa [List.forM] using hb
  | cons o rest ih =>
    change Ends (retain o >>= fun _ => rest.forM retain) b _ _
    rw [ends_bind]
    refine ends_retain hb (hl o List.mem_cons_self) (fun x hx => ?_) (fun _ _ h => h)
    have hrest : ∀ p ∈ rest, (b.retained o x).Bounded → (b.retained o x).heap.Live p := by
      intro p hp hu
      obtain ⟨y, hy⟩ := hl p (List.mem_cons_of_mem o hp) hu.of_retained
      obtain ⟨z, hz, -⟩ := sameAt_retain o y hy
      exact ⟨z, hz⟩
    refine (ih (hb.retain hx) hrest).mono (fun _ b' hb' => ?_) (fun _ _ h => h)
    rw [← Multiset.cons_coe, Multiset.cons_add, ← Multiset.add_cons]
    exact hb'

@[simp]
theorem ends_start {ok : Unit → Bridge → Prop} (hs : b.started = true) :
    Ends start b ok bad ↔ ok () b := by
  unfold start
  rw [ends_bind, ends_get, if_pos hs]
  exact Iff.rfl

theorem run_start (hs : b.started = true) : start.run b = (.ok (), b) :=
  Ends.run_ok ((ends_start hs).mpr ⟨rfl, rfl⟩)

/-- A call that begins with a start does the same whether the bridge was started before or is
started by the call. -/
theorem run_start_bind {α : Type} {b' : Bridge} (f : Unit → Run α)
    (hstart : start.run b = (.ok (), b')) (hs : b'.started = true) :
    (start >>= f).run b = (start >>= f).run b' := by
  rw [run_bind_of_ok hstart, run_bind_of_ok (run_start hs)]

theorem start_succeeds {B t : Multiset ObjId} : Succeeds B t start (fun _ => t) := by
  intro b F _ hb
  rw [ends_start hb.started]
  exact hb

theorem adopt_succeeds (o : ObjId) : Succeeds 0 {o} (adopt o) (fun p => {p}) := by
  intro b F _ hb
  unfold adopt
  rw [ends_bind, ends_start hb.started]
  exact hb

theorem share_succeeds (o : ObjId) : Succeeds {o} 0 (share o) (fun p => {p}) := by
  intro b F hB hb
  unfold share
  rw [ends_bind]
  refine (retain_succeeds o b F hB hb).mono (fun _ b' hb' => ?_) (fun _ _ h => h)
  exact adopt_succeeds o b' F (Multiset.zero_subset F) hb'

/-- The objects for truth values exist from the start. -/
theorem truth_succeeds (value : Bool) : Succeeds 0 0 (truth value) (fun o => {o}) := by
  intro b F _ hb
  rw [zero_add] at hb
  obtain ⟨⟨no, yes⟩, ht⟩ := Option.isSome_iff_exists.mp hb.truths
  unfold truth
  rw [ends_bind, ends_get, ht]
  change b.Books ({if value then yes else no} + F)
  rw [Multiset.singleton_add]
  exact hb.claim_truth ht value

/-! ## Wrapping -/

theorem wrapperFor?_succeeds (c : Class) : Succeeds 0 0 (wrapperFor? c) (fun _ => 0) :=
  fun _ _ _ hb => hb

/-- The wrapper holds the claim that it was made with; without a wrapper the claim is given back. -/
theorem dispatch_transfers (o : ObjId) : Transfers 0 {o} (dispatch o) (fun h => {h.obj}) := by
  intro b F _ hb
  unfold dispatch
  rw [ends_bind, ends_start hb.started, ends_bind]
  refine (classOf_succeeds o b ({o} + F) (by simp) (by rwa [zero_add])).mono (fun c b' hb' => ?_)
    (fun _ _ h => h.unwound)
  rw [zero_add] at hb'
  rw [ends_bind]
  refine (wrapperFor?_succeeds c b' ({o} + F) (by simp) (by rwa [zero_add])).mono
    (fun w b'' hb'' => ?_)
    (fun _ _ h => h.unwound)
  rw [zero_add] at hb''
  cases w with
  | some w => exact hb''
  | none =>
    rw [ends_bind, ends_log, ends_bind]
    have hlog : ∀ j, { b'' with journal := j }.Books (([o] : List ObjId) + F) := fun j =>
      hb''.journal j
    refine ends_releaseAll (hlog _) (fun hafter => ?_) (fun _ _ h => h.unwound)
    exact ⟨by simpa [Unwind.claims] using hafter, fun _ => trivial⟩

theorem hostShare_transfers (h : HostRef) : Transfers {h.obj} 0 h.share (fun h' => {h'.obj}) :=
  (share_succeeds h.obj).transfers.bind fun o =>
    (dispatch_transfers o).weaken (Multiset.zero_subset _)

end Sharing

/-! ## Classes -/

theorem Class.Rooted.child {p : Class} (hp : p.Rooted) (d : Descriptor) :
    Class.Rooted (.child d p) := by
  unfold Class.Rooted at hp ⊢
  simp [Class.isSubclassOf, hp]

namespace ClassTable

variable {t : ClassTable} {c : Class} {name : String}

theorem Rooted.insert (ht : t.Rooted) (hc : c.Rooted) (made : List Class) :
    ClassTable.Rooted ⟨(t.names.insert name c).2, made⟩ := by
  intro other d hd
  unfold fetch at hd
  rw [SnapshotRegistry.get?_insert] at hd
  split at hd
  · cases hd
    exact hc
  · exact ht other d hd

theorem Rooted.findOrMake (ht : t.Rooted) (hc : c.Rooted) (flags : ClassFlags) (size : Nat) :
    (t.findOrMake name c flags size).2.Rooted := by
  unfold ClassTable.findOrMake
  split
  · exact ht
  · exact ht.insert (hc.child _) _

theorem Rooted.define (ht : t.Rooted) (hc : c.Rooted) (flags : ClassFlags) (size : Nat) :
    (t.define name c flags size).2.Rooted := by
  unfold ClassTable.define
  split
  · exact ht
  · dsimp only
    split <;> exact ht.findOrMake hc flags size

theorem Rooted.addAlias (ht : t.Rooted) (hc : c.Rooted) : (t.addAlias c name).2.Rooted := by
  have hregister : ClassTable.Rooted { t with names := (t.names.register name c).2 } := by
    unfold SnapshotRegistry.register
    split
    · exact ht
    · exact ht.insert hc t.made
  unfold ClassTable.addAlias
  dsimp only
  split
  · exact hregister
  · split
    · split <;> exact hregister
    · exact hregister

end ClassTable

section Classes

variable {B : Multiset ObjId}

theorem defineClass_succeeds (name : String) (parent : Class) (flags : ClassFlags) (layout : Layout)
    (hp : parent.Rooted) : Succeeds B 0 (defineClass name parent flags layout) (fun _ => 0) := by
  intro b F _ hb
  unfold defineClass
  simp only [ends_bind, ends_get, ends_set]
  have hdefine : (b.classes.define name parent flags layout.size).2.Rooted :=
    hb.classes.define hp flags layout.size
  have hnew := hb.withClasses hdefine
  split
  · exact hnew
  · split
    · exact hnew.journal _
    · exact hnew

theorem aliasClass_succeeds (c : Class) (name : String) (hc : c.Rooted) :
    Succeeds B 0 (aliasClass c name) (fun _ => 0) :=
  fun _ _ _ hb => hb.withClasses (hb.classes.addAlias hc)

theorem registerWrapper_succeeds (c : Class) (w : Wrapper) :
    Succeeds B 0 (registerWrapper c w) (fun _ => 0) :=
  fun _ _ _ hb => (hb.withWrappers _).journal _

theorem registerWrappers_succeeds (entries : List (Class × Wrapper)) :
    Succeeds B 0 (registerWrappers entries) (fun _ => 0) :=
  fun _ _ _ hb => (hb.withWrappers _).journal _

theorem fault_transfers {α : Type} (message : String) (g : α → Multiset ObjId) :
    Transfers B 0 (fault message : Run α) g := by
  intro b F _ hb
  exact ⟨hb, fun _ => trivial⟩

theorem foreignClass_transfers (w : Wrapper) : Transfers B 0 w.foreignClass (fun _ => 0) := by
  unfold Wrapper.foreignClass
  split
  · rename_i e
    refine (defineClass_succeeds e.className .obj .none e.layout rfl).transfers.bind
      fun result => ?_
    cases result with
    | ok c => exact .pure c rfl
    | error e => exact fault_transfers _ _
  · exact .pure _ rfl

theorem wrap_transfers (w : Wrapper) (o : ObjId) :
    Transfers 0 {o} (w.wrap o) (okClaims fun h => {h.obj}) := by
  intro b F hB hb
  unfold Wrapper.wrap
  rw [ends_bind]
  refine ((foreignClass_transfers w).guard [o] b F hB (by simpa using hb)).mono (fun c b' hb' => ?_)
    (fun _ _ h => h)
  have hown : b'.Books ({o} + F) := by simpa using hb'
  rw [ends_bind]
  refine ((isA_succeeds o c).frame {o} (by simp) b' F hB (by simpa using hown)).mono
    (fun a b'' hb'' => ?_)
    (fun _ _ h => h.unwound)
  cases a with
  | true => simpa [resultClaims] using hb''
  | false =>
    rw [if_neg (by simp), ends_bind]
    refine ((classOf_succeeds o).frame {o} (by simp) b'' F hB (by simpa using hb'')).mono
      (fun d b₃ hb₃ => ?_)
      (fun _ _ h => h.unwound)
    rw [ends_bind]
    have hlist : b₃.Books (([o] : List ObjId) + F) := by simpa using hb₃
    refine ends_releaseAll hlist (fun hafter => ?_) (fun _ _ h => h.unwound)
    simpa [resultClaims] using hafter

theorem throwForeign_transfers {α : Type} (message : String) (g : α → Multiset ObjId) :
    Transfers B 0 (throwForeign message : Run α) g := by
  intro b F hB hb
  unfold throwForeign
  rw [ends_bind, ends_start hb.started]
  exact raise_transfers B message g b F hB hb

theorem throwErr_transfers {α : Type} (err : ObjId) (g : α → Multiset ObjId) :
    Transfers 0 {err} (throwErr err : Run α) g := by
  intro b F hB hb
  unfold throwErr
  rw [ends_bind, ends_start hb.started]
  exact throwObj_transfers err g b F hB hb

end Classes

end ObjectBridge
