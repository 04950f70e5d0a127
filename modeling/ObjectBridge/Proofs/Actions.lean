import ObjectBridge.Session.Script
import ObjectBridge.Proofs.Expressions

set_option autoImplicit false

/-!
# Claims in the actions of scripts (SPEC §4.1)

Whatever an action does, the claims that it leaves are those of the session and of the outcome.  The
one thing that a script must not do is to make an object out of claims that it does not own:
`Action.Lawful` rules it out.
-/

namespace ObjectBridge

/-- The claims of what a step leaves for a variable. -/
def Outcome.claims (outcome : Outcome) : Multiset ObjId :=
  ((outcome.result.map Slot.claims).getD [] : List ObjId)

section Answers

variable {B : Multiset ObjId}

theorem brief_succeeds (o : ObjId) : Succeeds {o} 0 (brief o) (fun _ => 0) :=
  (readObj_succeeds o).bind fun _ => .pure _ rfl

theorem optionalBrief_succeeds (o : Option ObjId) :
    Succeeds o.toList 0 (optionalBrief o) (fun _ => 0) := by
  cases o with
  | none => exact .pure _ rfl
  | some o => exact brief_succeeds o

theorem answer_handles (r : Report) : Handles B 0 (answer r) Outcome.claims := .pure _ rfl

theorem answerClaim_handles (o : ObjId) : Handles B {o} (answerClaim o) Outcome.claims := by
  have hbrief : Succeeds B ({o} + 0) (brief o) (fun _ => {o} + 0) :=
    (brief_succeeds o).frame {o} (Multiset.subset_of_le (Multiset.le_add_right _ _))
  refine (hbrief.transfers.handles.cast (add_zero _).symm fun _ => add_zero _).bind fun r =>
    .pure _ rfl

theorem answerOptionalClaim_handles (o : Option ObjId) :
    Handles B o.toList (answerOptionalClaim o) Outcome.claims := by
  cases o with
  | none => exact .pure _ rfl
  | some o => exact answerClaim_handles o

theorem answerValue_handles (v : Value) : Handles B v.claims (answerValue v) Outcome.claims := by
  intro s F _ hs
  exact hs

theorem answerHost_handles (h : HostRef) : Handles B {h.obj} (answerHost h) Outcome.claims := by
  intro s F _ hs
  exact hs

theorem classNamed_handles (name : String) : Handles B 0 (classNamed name) (fun _ => 0) :=
  fun _ _ _ hs => runs_classNamed hs.of_zero fun _ _ => hs

theorem optionalClass_handles (name : Option String) :
    Handles B 0 (optionalClass name) (fun _ => 0) :=
  fun _ _ _ hs => runs_optionalClass hs.of_zero fun _ => hs

end Answers

/-! ## Classes -/

theorem ClassAction.run_handles (a : ClassAction) : Handles 0 0 a.run Outcome.claims := by
  cases a with
  | define name parent layout flags =>
    intro s F hB hs
    refine runs_bind.mpr (runs_classNamed hs.of_zero fun p hp => ?_)
    refine runs_bind.mpr (runs_orFail (g := fun _ => 0) ?_ hs (Multiset.zero_subset _)
      fun c b hs' => hs')
    refine (defineClass_succeeds name p flags layout hp).transfers.cast rfl fun result => ?_
    cases result <;> rfl
  | addAlias cls name =>
    intro s F hB hs
    refine runs_bind.mpr (runs_classNamed hs.of_zero fun c hc => ?_)
    refine runs_bind.mpr (runs_orFail (g := fun _ => 0) ?_ hs (Multiset.zero_subset _)
      fun _ b hs' => hs')
    refine (aliasClass_succeeds c name hc).transfers.cast rfl fun result => ?_
    cases result <;> rfl
  | fetch name => exact fun s F _ hs => hs
  | isSubclass cls other =>
    exact (classNamed_handles cls).bind fun c => (classNamed_handles other).bind fun d =>
      .pure _ rfl
  | compare a b =>
    exact (classNamed_handles a).bind fun c => (classNamed_handles b).bind fun d => .pure _ rfl
  | countNames => exact fun s F _ hs => hs

/-! ## Objects -/

theorem Construction.run_transfers (c : Construction) : Transfers 0 0 c.run (fun o => {o}) := by
  cases c with
  | str text => exact (makeObj_succeeds .string (.string text) rfl rfl rfl).transfers
  | errObj message => exact (makeObj_succeeds .err (.err message) rfl rfl rfl).transfers
  | blob bytes => exact (makeObj_succeeds .blob (.blob bytes) rfl rfl rfl).transfers
  | byteBuf bytes => exact (makeObj_succeeds .byteBuf (.byteBuf bytes) rfl rfl rfl).transfers
  | integer n => exact (makeObj_succeeds .integer (.integer n) rfl rfl rfl).transfers
  | float bits => exact (makeObj_succeeds .float (.float bits) rfl rfl rfl).transfers
  | boolean b => exact (truth_succeeds b).transfers
  | vector capacity => exact VectorObj.new_transfers capacity
  | hash capacity => exact HashObj.withCapacity_transfers capacity

/-- An object is made out of a payload without claims. -/
def ObjectAction.Lawful : ObjectAction → Prop
  | make _ payload => payload.claims = []
  | _ => True

section Objects

variable {s : Session} {F : Multiset ObjId}

/-- A new object is adopted and reported. -/
theorem answerNew_handles {make : Run ObjId} (hmake : Transfers 0 0 make (fun o => {o})) :
    Handles 0 0 (do answerClaim (← adopt (← make))) Outcome.claims :=
  hmake.handles.bind fun o => (adopt_succeeds o).transfers.handles.bind fun o =>
    answerClaim_handles o

/-- A question about the object of a variable. -/
theorem runs_look {α : Type} {ok : α → Session → Prop} {look : Run α} {o : ObjId}
    (hlook : Transfers {o} 0 look (fun _ => 0)) (hs : s.Books F) (ho : o ∈ s.claims)
    (hok : ∀ a b, { s with bridge := b }.Books F → ok a { s with bridge := b }) :
    Runs (liftM look) s F ok := by
  refine runs_call hlook hs.zero ?_ fun a b hs' => hok a b hs'.of_zero
  exact Multiset.singleton_subset.mpr (Multiset.mem_add.mpr (.inr ho))

/-- A claim that is let go of as a bare handle stays a claim of the session. -/
theorem Session.Books.letGo {o : ObjId} (hs : s.Books ({o} + F)) :
    { s with bare := o :: s.bare }.Books F := by
  refine ⟨hs.sorted, ?_⟩
  have hclaims : F + (slotsClaims s.slots + (o :: s.bare : List ObjId)) = {o} + F + s.claims := by
    unfold Session.claims
    rw [← Multiset.cons_coe, ← Multiset.singleton_add]
    abel
  have hb := hs.bridge
  rw [← hclaims] at hb
  exact hb

theorem runs_removeSlot {ok : Unit → Session → Prop} {name : String} :
    Runs (removeSlot name) s F ok ↔ ok () { s with slots := Assoc.erase name s.slots } := Iff.rfl

theorem liftM_bind {α β : Type} (r : Run α) (f : α → Run β) :
    (liftM (r >>= f) : Step β) = liftM r >>= fun a => liftM (f a) := by
  funext s
  simp only [liftM, monadLift, MonadLiftT.monadLift, ExceptT.lift, ExceptT.mk, ExceptT.run,
    callBridge, Functor.map, ExceptT.map, Bind.bind, ExceptT.bind, StateT.bind]
  rcases (r s.bridge : Except Unwind α × Bridge) with ⟨u | a, b⟩ <;> rfl

theorem liftM_forM {α : Type} (f : α → Run Unit) (xs : List α) :
    xs.forM (fun x => (liftM (f x) : Step Unit)) = liftM (xs.forM f) := by
  induction xs with
  | nil => rfl
  | cons x rest ih =>
    change ((liftM (f x) : Step Unit) >>= fun _ => rest.forM fun x => liftM (f x)) =
      liftM (f x >>= fun _ => rest.forM f)
    rw [ih, liftM_bind]

/-- Several claims on one object. -/
theorem cloneMany_handles (on : String) (n : Nat) :
    Handles 0 0 (ObjectAction.cloneMany on n).run Outcome.claims := by
  intro s F hB hs
  refine runs_bind.mpr (runs_objectAt hs.of_zero fun o ho => runs_bind.mpr ?_)
  rw [liftM_forM]
  have hretain : Transfers {o} 0 ((List.replicate n o).forM retain)
      (fun _ => (List.replicate n o : List ObjId)) := by
    intro b F hB hb
    rw [zero_add] at hb
    refine (ends_forM_retain _ hb fun p hp => ?_).mono (fun _ _ h => h) (fun _ _ h => h.unwound)
    rw [List.eq_of_mem_replicate hp]
    exact hb.live (hB (Multiset.mem_singleton_self o))
  exact runs_call hretain hs (Multiset.singleton_subset.mpr (Multiset.mem_add.mpr (.inr ho)))
    fun _ _ h => h

theorem release_transfers (o : ObjId) : Transfers 0 {o} (release o) (fun _ => 0) := by
  intro b F hB hb
  unfold release
  rw [ends_bind, ends_get, ends_bind]
  exact ((releaseAll_succeeds [o]).transfers b F hB hb).mono (fun _ _ h => h) (fun _ _ h => h)

theorem ObjectAction.run_handles (a : ObjectAction) (ha : a.Lawful) :
    Handles 0 0 a.run Outcome.claims := by
  cases a with
  | new c => exact answerNew_handles c.run_transfers
  | make cls payload =>
    intro s F hB hs
    refine runs_bind.mpr (runs_classNamed hs.of_zero fun c hc => ?_)
    exact answerNew_handles (makeObj_transfers c payload hc ha) s F hB hs
  | clone on => exact (claimObject_handles on false).bind fun o => answerClaim_handles o
  | share on =>
    cases on with
    | some name => exact (claimObject_handles name false).bind fun o => answerClaim_handles o
    | none => exact .throw _ rfl
  | retain on => exact (claimObject_handles on false).bind fun o => answerClaim_handles o
  | cloneMany on n => exact cloneMany_handles on n
  | release on =>
    exact (takeObject_handles on).bind fun o => (release_transfers o).handles.bind fun _ =>
      .pure _ rfl
  | drop on =>
    intro s F hB hs
    refine runs_bind.mpr (runs_slot hs.of_zero fun x hx _ => runs_bind.mpr (runs_removeSlot.mpr ?_))
    have hafter := hs.of_zero.remove hx
    exact runs_bind.mpr
      (runs_call (releaseAll_succeeds x.claims).transfers hafter (Multiset.zero_subset _)
      fun _ _ hs' => hs')
  | forget on =>
    intro s F hB hs
    refine runs_bind.mpr ((takeObject_handles on s F hB hs).mono fun o s' hs' => ?_)
    exact runs_bind.mpr ((runs_modify _).mpr hs'.letGo.zero)
  | rewrap on =>
    cases on with
    | some name => exact (takeObject_handles name).bind fun o => answerClaim_handles o
    | none => exact .throw _ rfl
  | rewrapNullable on =>
    cases on with
    | some name => exact (takeObject_handles name).bind fun o => answerClaim_handles o
    | none => exact .pure _ rfl
  | refcount on =>
    intro s F hB hs
    refine runs_bind.mpr (runs_objectAt hs.of_zero fun o ho => ?_)
    exact runs_bind.mpr (runs_look (refcount_succeeds o).transfers hs.of_zero ho
      fun _ _ hs' => hs'.zero)
  | classOf on =>
    intro s F hB hs
    refine runs_bind.mpr (runs_objectAt hs.of_zero fun o ho => ?_)
    exact runs_bind.mpr (runs_look (classOf_succeeds o).transfers hs.of_zero ho
      fun _ _ hs' => hs'.zero)
  | isA on cls =>
    intro s F hB hs
    refine runs_bind.mpr (runs_objectAt hs.of_zero fun o ho => ?_)
    refine runs_bind.mpr (runs_classNamed hs.of_zero fun c _ => ?_)
    exact runs_bind.mpr (runs_look (isA_succeeds o c).transfers hs.of_zero ho
      fun _ _ hs' => hs'.zero)
  | same a b =>
    intro s F hB hs
    refine runs_bind.mpr (runs_objectAt hs.of_zero fun x _ => ?_)
    exact runs_bind.mpr (runs_objectAt hs.of_zero fun y _ => hs)
  | hasLayout on layout =>
    intro s F hB hs
    refine runs_bind.mpr (runs_objectAt hs.of_zero fun o ho => ?_)
    exact runs_bind.mpr (runs_look (readObj_succeeds o).transfers hs.of_zero ho
      fun _ _ hs' => hs'.zero)
  | certify on layout cls =>
    intro s F hB hs
    refine runs_bind.mpr (runs_classNamed hs.of_zero fun c _ => ?_)
    refine runs_bind.mpr (runs_objectAt hs.of_zero fun o ho => ?_)
    exact runs_bind.mpr (runs_look (certify_transfers o c _) hs.of_zero ho fun _ _ hs' => hs'.zero)
  | debug on =>
    intro s F hB hs
    refine runs_bind.mpr (runs_objectAt hs.of_zero fun o ho => ?_)
    exact runs_bind.mpr (runs_look (classOf_succeeds o).transfers hs.of_zero ho
      fun _ _ hs' => hs'.zero)
  | debugAddress on =>
    intro s F hB hs
    exact runs_bind.mpr (runs_objectAt hs.of_zero fun x _ => hs)

end Objects

/-! ## Values and data -/

section Values

variable {s : Session} {F B : Multiset ObjId}

theorem runs_optionalObject {ok : Option ObjId → Session → Prop} {on : Option String}
    (hs : s.Books F)
    (hok : ∀ o : Option ObjId, (o.toList : Multiset ObjId) ⊆ F + s.claims → ok o s) :
    Runs (optionalObject on) s F ok := by
  cases on with
  | none => exact hok none (Multiset.zero_subset _)
  | some name =>
    refine runs_bind.mpr (runs_objectAt hs fun o ho => hok (some o) ?_)
    exact Multiset.singleton_subset.mpr (Multiset.mem_add.mpr (.inr ho))

theorem reportData_handles (t : Ty) (x : t.Carrier) :
    Handles B (t.claims x) (reportData t x) (fun _ => 0) := by
  intro s F hB hs
  refine runs_bind.mpr (runs_get.mpr (runs_bind.mpr ?_))
  exact runs_call (releaseAll_succeeds (t.claims x)).transfers hs (Multiset.zero_subset _)
    fun _ _ h => h

theorem reportValue_handles (v : Value) : Handles B v.claims (reportValue v) (fun _ => 0) := by
  intro s F hB hs
  refine runs_bind.mpr (runs_get.mpr (runs_bind.mpr ?_))
  exact runs_call v.drop_succeeds.transfers hs (Multiset.zero_subset _) fun _ _ h => h

/-- A description is made of a copy, which is dropped. -/
theorem runs_describe {v : Value} (hs : s.Books F)
    (hv : (v.claims : Multiset ObjId) ⊆ F + s.claims) :
    Runs v.describe s F (fun _ s' => s'.Books F) := by
  refine runs_bind.mpr (runs_call v.clone_transfers hs.zero hv fun copy b hs' => ?_)
  refine runs_bind.mpr (runs_get.mpr (runs_bind.mpr ?_))
  exact runs_call copy.drop_succeeds.transfers hs' (Multiset.zero_subset _) fun _ _ h => h.of_zero

theorem ConversionAction.run_handles (a : ConversionAction) : Handles 0 0 a.run Outcome.claims := by
  cases a with
  | hostToForeign value cls nullable =>
    refine (value.eval_handles).bind fun v => ?_
    refine (Handles.lend v.claims ?_).bind fun o => answerOptionalClaim_handles o
    refine (optionalClass_handles cls).bind fun c => orFail_handles ?_
    exact (hostToForeign_transfers v c nullable).weaken
      (Multiset.subset_of_le (Multiset.le_add_right _ _))
  | valueToForeign on cls nullable =>
    intro s F hB hs
    refine runs_bind.mpr (runs_valueAt hs.of_zero fun v hv => ?_)
    refine runs_bind.mpr (runs_optionalClass hs.of_zero fun c => ?_)
    have hborrow : (v.claims : Multiset ObjId) ⊆ F + s.claims :=
      Multiset.Subset.trans hv (subset_add_right _ _)
    refine runs_bind.mpr (runs_orFail (hostToForeign_transfers v c nullable) hs hborrow
      fun o b hs' => ?_)
    exact answerOptionalClaim_handles o _ F hB hs'
  | toForeign t data cls nullable =>
    refine (optionalClass_handles cls).bind fun c => (t.eval_handles data).bind fun x => ?_
    exact (orFail_handles (t.toForeign_transfers x c nullable)).bind fun o =>
      answerOptionalClaim_handles o
  | toHost on =>
    intro s F hB hs
    refine runs_bind.mpr (runs_optionalObject hs.of_zero fun o ho => ?_)
    refine runs_bind.mpr (runs_call (foreignToHost_transfers o) hs ho fun v b hs' => ?_)
    exact answerValue_handles v _ F hB hs'
  | fromForeign on t =>
    intro s F hB hs
    refine runs_bind.mpr (runs_optionalObject hs.of_zero fun o ho => ?_)
    refine runs_bind.mpr (runs_orFail (t.fromForeign_transfers o) hs ho fun x b hs' => ?_)
    exact ((reportData_handles t x).bind answer_handles) _ F hB hs'
  | evaluate value => exact value.eval_handles.bind fun v => answerValue_handles v
  | valueOf on move via =>
    refine (claimObject_handles on move).bind fun o => ?_
    cases via with
    | dispatch => exact (Value.ofObject_transfers o).handles.bind fun v => answerValue_handles v
    | wrapper w =>
      exact (orFail_handles (wrap_transfers w o)).bind fun h => answerValue_handles (.object h)
  | cloneValue on =>
    intro s F hB hs
    refine runs_bind.mpr (runs_valueAt hs.of_zero fun v hv => ?_)
    have hborrow : (v.claims : Multiset ObjId) ⊆ F + s.claims :=
      Multiset.Subset.trans hv (subset_add_right _ _)
    exact runs_bind.mpr (runs_call v.clone_transfers hs hborrow fun copy b hs' => hs')
  | sameValue a b =>
    intro s F hB hs
    refine runs_bind.mpr (runs_slot hs.of_zero fun x _ _ => ?_)
    refine runs_bind.mpr (runs_slot hs.of_zero fun y _ _ => ?_)
    split <;> exact hs
  | describeValue on =>
    intro s F hB hs
    refine runs_bind.mpr (runs_valueAt hs.of_zero fun v hv => ?_)
    have hborrow : (v.claims : Multiset ObjId) ⊆ F + s.claims :=
      Multiset.Subset.trans hv (subset_add_right _ _)
    exact runs_bind.mpr ((runs_describe hs.of_zero hborrow).mono fun _ _ hs' => hs'.zero)
  | fromValue on t =>
    intro s F hB hs
    refine runs_bind.mpr (runs_valueAt hs.of_zero fun v hv => ?_)
    have hborrow : (v.claims : Multiset ObjId) ⊆ F + s.claims :=
      Multiset.Subset.trans hv (subset_add_right _ _)
    refine runs_bind.mpr (runs_orFail (t.decode_transfers v) hs hborrow fun x b hs' => ?_)
    exact ((reportData_handles t x).bind answer_handles) _ F hB hs'
  | intoValue t data =>
    refine (t.eval_handles data).bind fun x => ?_
    exact (orFail_handles (t.encode_transfers x)).bind fun v => answerValue_handles v

end Values

/-! ## Wrappers -/

/-- Putting what a variable holds back into it under another form changes no claims. -/
theorem slotsClaims_rebind {slots : List (String × Slot)} {name : String} {x y : Slot}
    (hs : SortedSlots slots) (hx : Assoc.find? name slots = some x) (hy : y.claims = x.claims) :
    slotsClaims (bindSorted name y slots) = slotsClaims slots := by
  have hbind := slotsClaims_bind hs name y
  rw [hx, Option.map_some, Option.getD_some, hy, add_comm (x.claims : Multiset ObjId)] at hbind
  exact add_right_cancel hbind

theorem WrapperAction.run_handles (a : WrapperAction) : Handles 0 0 a.run Outcome.claims := by
  cases a with
  | register cls w =>
    refine (classNamed_handles cls).bind fun c => ?_
    exact (registerWrapper_succeeds c w).transfers.handles.bind fun _ => .pure _ rfl
  | registerAll entries =>
    refine (mapM_handles entries fun e _ => ?_).bind fun classes => ?_
    · exact (classNamed_handles e.1).bind fun c => .pure _ rfl
    · exact (registerWrappers_succeeds classes).transfers.handles.bind fun _ => .pure _ rfl
  | lookup cls =>
    refine (classNamed_handles cls).bind fun c => ?_
    exact (wrapperFor?_succeeds c).transfers.handles.bind fun _ => .pure _ rfl
  | registered =>
    have hread : Transfers 0 0 registeredClasses (fun _ => 0) := fun _ _ _ hb => hb
    exact hread.handles.bind fun _ => .pure _ rfl
  | registerWidget =>
    refine (foreignClass_transfers (.extension widget)).handles.bind fun c => ?_
    exact (registerWrapper_succeeds c (.extension widget)).transfers.handles.bind fun _ =>
      .pure _ rfl
  | dispatch on move =>
    refine (claimObject_handles on move).bind fun o => ?_
    exact (dispatch_transfers o).handles.bind fun h => answerHost_handles h
  | share on =>
    intro s F hB hs
    refine runs_bind.mpr (runs_hostAt hs.of_zero fun h _ _ _ hh => ?_)
    have hborrow : {h.obj} ⊆ F + s.claims :=
      Multiset.singleton_subset.mpr (Multiset.mem_add.mpr (.inr hh))
    refine runs_bind.mpr (runs_call (hostShare_transfers h) hs hborrow fun h' b hs' => ?_)
    exact answerHost_handles h' _ F hB hs'
  | debug on =>
    intro s F hB hs
    refine runs_bind.mpr (runs_hostAt hs.of_zero fun h _ _ _ _ => ?_)
    exact runs_bind.mpr (runs_get.mpr hs)
  | unwrap on => exact (takeObject_handles on).bind fun o => answerClaim_handles o
  | downcast on w =>
    intro s F hB hs
    refine runs_bind.mpr (runs_hostAt hs.of_zero fun h x hx hclaims hh => ?_)
    have hslots : slotsClaims (bindSorted on (.host h) s.slots) = slotsClaims s.slots :=
      slotsClaims_rebind hs.sorted hx hclaims.symm
    have hsame : { s with slots := bindSorted on (.host h) s.slots }.claims = s.claims := by
      unfold Session.claims
      rw [hslots]
    have hafter : { s with slots := bindSorted on (.host h) s.slots }.Books F :=
      ⟨hs.sorted.bind on (.host h), by rw [hsame]; exact hs.of_zero.bridge⟩
    refine runs_bind.mpr ((runs_modify _).mpr (runs_bind.mpr ?_))
    refine runs_look (refcount_succeeds h.obj).transfers hafter ?_ fun _ _ hs' => hs'.zero
    rw [hsame]
    exact hh

/-! ## Errors and exceptions -/

theorem installHooks_succeeds (hooks : Hooks) : Succeeds 0 0 (installHooks hooks) (fun _ => 0) := by
  intro b F _ hb
  unfold installHooks
  rw [ends_bind, ends_get, hb.hooks]
  exact hb

/-- Only errors of the bridge carry claims, and these have a message. -/
theorem Failure.claims_of_message? {f : Failure} (hf : f.message? = none) : f.claims = [] := by
  cases f <;> first | rfl | cases hf

theorem ErrorAction.run_handles (a : ErrorAction) : Handles 0 0 a.run Outcome.claims := by
  cases a with
  | throwText message => exact (throwForeign_transfers message _).handles
  | throwRaw message => exact (raise_transfers 0 message _).handles
  | rethrow on =>
    intro s F hB hs
    refine runs_bind.mpr (runs_errorAt hs.of_zero fun e _ _ => ?_)
    cases hm : e.message? with
    | some message => exact (throwForeign_transfers message _).handles s F hB hs
    | none => exact Handles.throw e (Failure.claims_of_message? hm) s F hB hs
  | throwErr on move =>
    refine (claimObject_handles on move).bind fun o => ?_
    exact (orFail_handles (wrap_transfers .errObj o)).bind fun h =>
      (throwErr_transfers h.obj _).handles
  | throwObject on move =>
    exact (claimObject_handles on move).bind fun o => (throwObj_transfers o _).handles
  | fault message => exact (fault_transfers message _).handles
  | describe on =>
    intro s F hB hs
    refine runs_bind.mpr (runs_errorAt hs.of_zero fun e _ _ => ?_)
    cases e.message? with
    | some message => exact runs_bind.mpr (runs_get.mpr hs)
    | none => exact hs
  | compare a b =>
    intro s F hB hs
    refine runs_bind.mpr (runs_errorAt hs.of_zero fun x _ _ => ?_)
    refine runs_bind.mpr (runs_errorAt hs.of_zero fun y _ _ => ?_)
    cases x.same? y with
    | some equal => exact hs
    | none => exact hs
  | trappedInfo on =>
    intro s F hB hs
    refine runs_bind.mpr (runs_trappedAt hs.of_zero fun t _ ht => ?_)
    refine runs_bind.mpr (runs_look (certify_transfers t.err .err Payload.err?) hs.of_zero ht
      fun now b hs' => ?_)
    exact runs_bind.mpr (runs_look (brief_succeeds t.err).transfers hs' ht fun _ _ hs'' =>
      hs''.zero)
  | trappedErr on =>
    intro s F hB hs
    refine runs_bind.mpr (runs_trappedAt hs.of_zero fun t _ ht => ?_)
    have hborrow : {t.err} ⊆ F + s.claims :=
      Multiset.singleton_subset.mpr (Multiset.mem_add.mpr (.inr ht))
    refine runs_bind.mpr (runs_call (share_succeeds t.err).transfers hs hborrow fun o b hs' => ?_)
    exact answerClaim_handles o _ F hB hs'
  | trappedInto on =>
    intro s F hB hs
    refine runs_bind.mpr (runs_trappedAt hs.of_zero fun t ht _ => ?_)
    refine runs_bind.mpr (runs_removeSlot.mpr ?_)
    exact answerClaim_handles t.err _ F hB (hs.of_zero.remove ht)
  | warn message =>
    have hwarn : Transfers 0 0 (ObjectBridge.warn message) (fun _ => 0) := fun _ _ _ hb =>
      hb.journal _
    exact hwarn.handles.bind fun _ => .pure _ rfl
  | start =>
    have hread : Transfers 0 0 hooksInstalled (fun _ => 0) := fun _ _ _ hb => hb
    exact start_succeeds.transfers.handles.bind fun _ => hread.handles.bind fun _ => .pure _ rfl
  | installHooks =>
    exact (installHooks_succeeds .application).transfers.handles.bind fun _ => .pure _ rfl

end ObjectBridge
