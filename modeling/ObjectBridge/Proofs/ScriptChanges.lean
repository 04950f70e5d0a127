import ObjectBridge.Proofs.Accounting
import ObjectBridge.Proofs.Changes

set_option autoImplicit false

/-!
# What scripts can do to the bridge (SPEC §6)

The steps of a session change its bridge by calls only, so they are runs of elementary changes as
well.  It follows that the bridge at any moment of a script has come from the bridge at its
beginning by elementary changes.
-/

namespace ObjectBridge

/-! ## Data -/

namespace Ty

section Lists

variable {α β ε : Type}

theorem moves_withKey {f : α → Run (Except ε β)} (hf : ∀ x, Run.Moves (f x)) (e : String × α) :
    Run.Moves (withKey f e) := by
  refine (hf e.2).bind fun result => ?_
  cases result with
  | ok y => exact .pure _
  | error e => exact .pure _

theorem moves_encodeAll {encode : α → Run (Except RangeError β)} {dropItem : α → Run Unit}
    {dropResult : β → Run Unit} (he : ∀ x, Run.Moves (encode x)) (hi : ∀ x, Run.Moves (dropItem x))
    (hr : ∀ y, Run.Moves (dropResult y)) (xs : List α) :
    Run.Moves (encodeAll encode dropItem dropResult xs) := by
  induction xs with
  | nil => exact .pure _
  | cons x rest ih =>
    refine (moves_onUnwind (.forM rest hi) (he x)).bind fun result => ?_
    cases result with
    | error e => exact (Moves.forM rest hi).bind fun _ => .pure _
    | ok y =>
      refine (moves_onUnwind (hr y) ih).bind fun result => ?_
      cases result with
      | error e => exact (hr y).bind fun _ => .pure _
      | ok ys => exact .pure _

theorem moves_decodeAll {decode : α → Run (Except BridgeError β)} {dropItem : β → Run Unit}
    (hd : ∀ x, Run.Moves (decode x)) (hi : ∀ y, Run.Moves (dropItem y)) (xs : List α) :
    Run.Moves (decodeAll decode dropItem xs) := by
  induction xs with
  | nil => exact .pure _
  | cons x rest ih =>
    refine (hd x).bind fun result => ?_
    cases result with
    | error e => exact .pure _
    | ok y =>
      refine (moves_onUnwind (hi y) ih).bind fun result => ?_
      cases result with
      | error e => exact (hi y).bind fun _ => .pure _
      | ok ys => exact .pure _

theorem moves_encodeEntries {encode : α → Run (Except RangeError Value)} {dropItem : α → Run Unit}
    (he : ∀ x, Run.Moves (encode x)) (hi : ∀ x, Run.Moves (dropItem x))
    (entries : List (String × α)) :
    Run.Moves (encodeEntries encode dropItem entries) := by
  refine (moves_encodeAll (moves_withKey he) (fun e => hi e.2)
    (fun e => moves_releaseAll _) entries).bind
    fun result => ?_
  cases result with
  | ok es => exact .pure _
  | error e => exact .pure _

theorem moves_decodeEntries {decode : Value → Run (Except BridgeError β)} {dropItem : β → Run Unit}
    (hd : ∀ v, Run.Moves (decode v)) (hi : ∀ y, Run.Moves (dropItem y)) (v : Value) :
    Run.Moves (decodeEntries decode dropItem v) := by
  unfold decodeEntries
  split
  · exact moves_decodeAll (moves_withKey hd) (fun e => hi e.2) _
  · exact .pure _

end Lists

theorem moves_drop (t : Ty) (x : t.Carrier) : Run.Moves (t.drop x) := moves_releaseAll _

theorem moves_encode (t : Ty) (x : t.Carrier) : Run.Moves (t.encode x) := by
  induction t with
  | claim => exact (moves_ofObject x).bind fun _ => .pure _
  | option t ih =>
    cases x with
    | none => exact .pure _
    | some y => exact ih y
  | list t ih =>
    refine (moves_encodeAll ih t.moves_drop (fun v => moves_releaseAll _) x).bind fun result => ?_
    cases result with
    | ok vs => exact .pure _
    | error e => exact .pure _
  | dict t ih => exact moves_encodeEntries ih t.moves_drop x
  | sortedDict t ih => exact moves_encodeEntries ih t.moves_drop x
  | _ => exact .pure _

theorem moves_toForeign (t : Ty) (x : t.Carrier) (required : Option Class) (nullable : Bool) :
    Run.Moves (t.toForeign x required nullable) := by
  refine (t.moves_encode x).bind fun result => ?_
  cases result with
  | error e => exact .pure _
  | ok v =>
    refine (moves_onUnwind (moves_releaseAll _) (moves_hostToForeign v required nullable)).bind
      fun found => ?_
    refine (moves_releaseAll _).bind fun _ => ?_
    cases found with
    | ok o => exact .pure _
    | error e => exact .pure _

theorem moves_decode (t : Ty) (v : Value) : Run.Moves (t.decode v) := by
  induction t generalizing v with
  | value => exact (moves_clone v).bind fun _ => .pure _
  | claim =>
    unfold decode
    split
    · exact (moves_share _).bind fun _ => .pure _
    · exact .pure _
  | host =>
    unfold decode
    split
    · exact (moves_hostShare _).bind fun _ => .pure _
    · exact .pure _
  | option t ih =>
    unfold decode
    split
    · exact .pure _
    · refine (ih v).bind fun result => ?_
      cases result with
      | ok x => exact .pure _
      | error e => exact .pure _
  | list t ih =>
    cases v with
    | seq items => exact moves_decodeAll ih t.moves_drop items
    | _ => exact .pure _
  | dict t ih => exact moves_decodeEntries ih t.moves_drop v
  | sortedDict t ih =>
    refine (moves_decodeEntries ih t.moves_drop v).bind fun result => ?_
    cases result with
    | ok es => exact .pure _
    | error e => exact .pure _
  | _ => exact .pure _

theorem moves_fromForeign (t : Ty) (o : Option ObjId) : Run.Moves (t.fromForeign o) := by
  refine (moves_foreignToHost o).bind fun v => ?_
  exact (moves_onUnwind (moves_releaseAll _) (t.moves_decode v)).bind fun _ =>
    (moves_releaseAll _).bind fun _ => .pure _

end Ty

/-! ## Steps -/

section Steps

variable {α β : Type} {r : Step α} {f : α → Step β}

/-- However the step ends, the bridge of the session has gone through elementary changes only. -/
def Step.Moves (r : Step α) : Prop :=
  ∀ s, Finishes r s (fun _ s' => s.bridge.Leads s'.bridge) (fun _ s' => s.bridge.Leads s'.bridge)
    (fun _ s' => s.bridge.Leads s'.bridge)

theorem Step.Moves.run (hr : Step.Moves r) : ObjectBridge.Moves Session.bridge (ExceptT.run r) := by
  refine fun s => Ends.mono (hr s) (fun result s' h => ?_) (fun _ _ h => h)
  cases result with
  | ok a => exact h
  | error f => exact h

namespace Step.Moves

theorem after (hr : Step.Moves r) {s₀ s : Session} (hs : s₀.bridge.Leads s.bridge) :
    Finishes r s (fun _ s' => s₀.bridge.Leads s'.bridge) (fun _ s' => s₀.bridge.Leads s'.bridge)
      (fun _ s' => s₀.bridge.Leads s'.bridge) :=
  (hr s).mono (fun _ _ h => hs.trans h) (fun _ _ h => hs.trans h) (fun _ _ h => hs.trans h)

protected theorem pure (a : α) : Step.Moves (pure a : Step α) := fun _ => .refl

protected theorem throw (f : Failure) : Step.Moves (throw f : Step α) := fun _ => .refl

protected theorem get : Step.Moves (get : Step Session) := fun _ => .refl

protected theorem modify {change : Session → Session} (hc : ∀ s, (change s).bridge = s.bridge) :
    Step.Moves (modify change : Step PUnit) := by
  intro s
  change s.bridge.Leads (change s).bridge
  rw [hc]

protected theorem bind (hr : Step.Moves r) (hf : ∀ a, Step.Moves (f a)) : Step.Moves (r >>= f) := by
  intro s
  rw [finishes_bind]
  exact (hr s).mono (fun a _ h => (hf a).after h) (fun _ _ h => h) (fun _ _ h => h)

protected theorem ite {c : Prop} [Decidable c] {r' : Step α} (hr : Step.Moves r)
    (hr' : Step.Moves r') :
    Step.Moves (if c then r else r') := by
  split
  · exact hr
  · exact hr'

protected theorem mapM {γ : Type} {f : γ → Step β} (xs : List γ) (hf : ∀ x, Step.Moves (f x)) :
    Step.Moves (xs.mapM f) := by
  induction xs with
  | nil => exact .pure _
  | cons x rest ih =>
    rw [List.mapM_cons]
    exact (hf x).bind fun _ => ih.bind fun _ => .pure _

protected theorem forM {γ : Type} {f : γ → Step PUnit} (xs : List γ) (hf : ∀ x, Step.Moves (f x)) :
    Step.Moves (xs.forM f) := by
  induction xs with
  | nil => exact .pure _
  | cons x rest ih => exact (hf x).bind fun _ => ih

end Step.Moves

theorem Run.Moves.step {r : Run α} (hr : Run.Moves r) : Step.Moves (liftM r : Step α) := by
  intro s
  rw [finishes_call]
  exact hr s.bridge

theorem ends_callBridge_moves {r : Run α} (hr : Run.Moves r) {s₀ s : Session}
    (hs : s₀.bridge.Leads s.bridge) :
    Ends (callBridge r) s (fun _ s' => s₀.bridge.Leads s'.bridge)
      (fun _ s' => s₀.bridge.Leads s'.bridge) := by
  rw [ends_callBridge]
  exact (hr s.bridge).mono (fun _ _ h => hs.trans h) (fun _ _ h => hs.trans h)

theorem Step.Moves.withClaims (claims : List ObjId) (hr : Step.Moves r) :
    Step.Moves (ObjectBridge.withClaims claims r) := by
  intro s
  rw [finishes_withClaims]
  exact (hr s).mono (fun _ _ h => ends_callBridge_moves (moves_releaseAll claims) h)
    (fun _ _ h => ends_callBridge_moves (moves_releaseAll claims) h)
    (fun _ _ h => ends_callBridge_moves (moves_releaseAll claims) h)

theorem Step.Moves.onUnwind {cleanup : Run Unit} (hc : Run.Moves cleanup) (hr : Step.Moves r) :
    Step.Moves (ObjectBridge.onUnwind cleanup r) := by
  intro s
  rw [finishes_onUnwind]
  exact (hr s).mono (fun _ _ h => h) (fun _ _ h => ends_callBridge_moves hc h)
    (fun _ _ h => ends_callBridge_moves hc h)

theorem moves_orFail {ε : Type} {toFailure : ε → Failure} {r : Run (Except ε α)}
    (hr : Run.Moves r) :
    Step.Moves (orFail toFailure r) := by
  refine hr.step.bind fun result => ?_
  cases result with
  | ok a => exact .pure a
  | error e => exact .throw _

/-! ### Variables -/

theorem moves_slot (name : String) : Step.Moves (slot name) := by
  refine Step.Moves.get.bind fun s => ?_
  cases Assoc.find? name s.slots with
  | some x => exact .pure x
  | none => exact .throw _

theorem moves_removeSlot (name : String) : Step.Moves (removeSlot name) := .modify fun _ => rfl

theorem moves_objectAt (name : String) : Step.Moves (objectAt name) := by
  refine (moves_slot name).bind fun x => ?_
  cases x.object? with
  | some o => exact .pure o
  | none => exact .throw _

theorem moves_takeObject (name : String) : Step.Moves (takeObject name) :=
  (moves_objectAt name).bind fun _ => (moves_removeSlot name).bind fun _ => .pure _

theorem moves_claimObject (name : String) (move : Bool) : Step.Moves (claimObject name move) :=
  .ite (moves_takeObject name) ((moves_objectAt name).bind fun o => (moves_share o).step)

theorem moves_heldAt (name : String) : Step.Moves (heldAt name) := by
  refine (moves_slot name).bind fun x => ?_
  cases x with
  | object o => exact .pure _
  | host h => exact .pure _
  | _ => exact .throw _

theorem moves_hostAt (name : String) : Step.Moves (hostAt name) := by
  refine (moves_slot name).bind fun x => ?_
  cases x.host? with
  | some h => exact .pure h
  | none => exact .throw _

theorem moves_valueAt (name : String) : Step.Moves (valueAt name) := by
  refine (moves_slot name).bind fun x => ?_
  cases x with
  | value v => exact .pure _
  | _ => exact .throw _

theorem moves_errorAt (name : String) : Step.Moves (errorAt name) := by
  refine (moves_slot name).bind fun x => ?_
  cases x with
  | error e => exact .pure _
  | _ => exact .throw _

theorem moves_trappedAt (name : String) : Step.Moves (trappedAt name) := by
  refine (moves_errorAt name).bind fun e => ?_
  split
  · exact .pure _
  · exact .throw _

theorem finishes_get {s : Session} {ok : Session → Session → Prop}
    {failed : Failure → Session → Prop} {bad : Unwind → Session → Prop} :
    Finishes get s ok failed bad ↔ ok s s := Iff.rfl

/-- A class that a name is bound to is known. -/
theorem finishes_classNamed {s : Session} {name : String} {ok : Class → Session → Prop}
    (hok : ∀ c, s.bridge.classes.Knows c → ok c s) :
    Finishes (classNamed name) s ok (fun _ s' => s.bridge.Leads s'.bridge)
      (fun _ s' => s.bridge.Leads s'.bridge) := by
  unfold classNamed
  rw [finishes_bind, finishes_get]
  cases hname : s.bridge.classes.fetch name with
  | some c => exact hok c (.inr ⟨name, hname⟩)
  | none => exact .refl

theorem moves_classNamed (name : String) :
    Step.Moves (classNamed name) := fun _ => finishes_classNamed fun _ _ => .refl

theorem moves_optionalClass (name : Option String) : Step.Moves (optionalClass name) := by
  cases name with
  | none => exact .pure _
  | some name => exact (moves_classNamed name).bind fun _ => .pure _

/-! ### Expressions -/

theorem moves_valueOfVar (name : String) : Step.Moves (valueOfVar name) := by
  refine (moves_slot name).bind fun x => ?_
  cases x with
  | object o => exact (moves_share o).step.bind fun o => (moves_ofObject o).step
  | host h => exact (moves_hostShare h).step.bind fun _ => .pure _
  | value v => exact (moves_clone v).step
  | _ => exact .throw _

theorem moves_evalAll {eval : α → Step β} {claims : β → List ObjId} (xs : List α)
    (he : ∀ x ∈ xs, Step.Moves (eval x)) : Step.Moves (evalAll eval claims xs) := by
  induction xs with
  | nil => exact .pure _
  | cons x rest ih =>
    have hrest := ih fun y hy => he y (List.mem_cons_of_mem x hy)
    refine (he x List.mem_cons_self).bind fun y => ?_
    exact (Step.Moves.onUnwind (moves_releaseAll _) hrest).bind fun _ => .pure _

theorem moves_evalDict {eval : α → Step β} {claims : β → List ObjId} (entries : List (String × α))
    (done : List (String × β)) (he : ∀ e ∈ entries, Step.Moves (eval e.2)) :
    Step.Moves (evalDict eval claims entries done) := by
  induction entries generalizing done with
  | nil => exact .pure _
  | cons e rest ih =>
    refine (Step.Moves.onUnwind (moves_releaseAll _) (he e List.mem_cons_self)).bind fun y => ?_
    exact (moves_releaseAll _).step.bind fun _ => ih _ fun d hd => he d (List.mem_cons_of_mem e hd)

theorem ValueExpr.moves_eval (e : ValueExpr) : Step.Moves e.eval := by
  induction e using ValueExpr.induction with
  | seq items ih =>
    have hitems : Step.Moves (evalItems items) := by
      rw [evalItems_eq]
      exact moves_evalAll items ih
    exact hitems.bind fun _ => .pure _
  | map entries ih =>
    have hentries : Step.Moves (evalEntries entries []) := by
      rw [evalEntries_eq]
      exact moves_evalDict entries [] ih
    exact hentries.bind fun _ => .pure _
  | var name => exact moves_valueOfVar name
  | _ => exact .pure _

theorem Ty.moves_eval (t : Ty) (x : t.Literal) : Step.Moves (t.eval x) := by
  induction t with
  | value => exact ValueExpr.moves_eval x
  | claim => exact (moves_heldAt x).bind fun o => (moves_share o).step
  | host =>
    exact (moves_heldAt x).bind fun o => (moves_share o).step.bind fun o => (moves_dispatch o).step
  | option t ih =>
    cases x with
    | none => exact .pure _
    | some y => exact (ih y).bind fun _ => .pure _
  | list t ih => exact moves_evalAll x fun y _ => ih y
  | dict t ih => exact moves_evalDict x [] fun e _ => ih e.2
  | sortedDict t ih => exact (moves_evalDict x [] fun e _ => ih e.2).bind fun _ => .pure _
  | _ => exact .pure _

end Steps

/-! ## Actions -/

section Actions

theorem moves_brief (o : ObjId) : Run.Moves (brief o) := (moves_readObj o).bind fun _ => .pure _

theorem moves_optionalBrief (o : Option ObjId) : Run.Moves (optionalBrief o) := by
  cases o with
  | some o => exact moves_brief o
  | none => exact .pure _

theorem moves_answerClaim (o : ObjId) : Step.Moves (answerClaim o) :=
  (moves_brief o).step.bind fun _ => .pure _

theorem moves_answerOptionalClaim (o : Option ObjId) : Step.Moves (answerOptionalClaim o) := by
  cases o with
  | some o => exact moves_answerClaim o
  | none => exact .pure _

theorem moves_answerValue (v : Value) : Step.Moves (answerValue v) :=
  Step.Moves.get.bind fun _ => .pure _

theorem moves_answerHost (h : HostRef) : Step.Moves (answerHost h) :=
  Step.Moves.get.bind fun _ => .pure _

theorem moves_reportValue (v : Value) : Step.Moves (reportValue v) :=
  Step.Moves.get.bind fun _ => (moves_releaseAll _).step.bind fun _ => .pure _

theorem moves_reportData (t : Ty) (x : t.Carrier) : Step.Moves (reportData t x) :=
  Step.Moves.get.bind fun _ => (t.moves_drop x).step.bind fun _ => .pure _

theorem moves_describe (v : Value) : Step.Moves v.describe :=
  (moves_clone v).step.bind fun _ => Step.Moves.get.bind fun _ =>
    (moves_releaseAll _).step.bind fun _ => .pure _

theorem ClassAction.moves_run (a : ClassAction) : Step.Moves a.run := by
  cases a with
  | define name parent layout flags =>
    intro s
    refine (finishes_bind _).mpr (finishes_classNamed fun p hp => (finishes_bind _).mpr ?_)
    have hdefine := ends_defineClass_moves hp name flags layout
    unfold orFail
    rw [finishes_bind, finishes_call]
    refine hdefine.mono (fun result b hb => ?_) (fun _ _ h => h)
    cases result with
    | ok c => exact hb
    | error e => exact hb
  | addAlias cls name =>
    intro s
    refine (finishes_bind _).mpr (finishes_classNamed fun c hc => (finishes_bind _).mpr ?_)
    have halias := ends_aliasClass_moves hc name
    unfold orFail
    rw [finishes_bind, finishes_call]
    refine halias.mono (fun result b hb => ?_) (fun _ _ h => h)
    cases result with
    | ok _ => exact hb
    | error e => exact hb
  | fetch name => exact Step.Moves.get.bind fun _ => .pure _
  | isSubclass cls other =>
    exact (moves_classNamed cls).bind fun _ => (moves_classNamed other).bind fun _ => .pure _
  | compare a b =>
    exact (moves_classNamed a).bind fun _ => (moves_classNamed b).bind fun _ => .pure _
  | countNames => exact Step.Moves.get.bind fun _ => .pure _

theorem Construction.moves_run (c : Construction) : Run.Moves c.run := by
  cases c with
  | str text => exact moves_makeObj .string (.string text) (by decide) rfl
  | errObj message => exact moves_makeObj .err (.err message) (by decide) rfl
  | blob bytes => exact moves_makeObj .blob (.blob bytes) (by decide) rfl
  | byteBuf bytes => exact moves_makeObj .byteBuf (.byteBuf bytes) (by decide) rfl
  | integer n => exact moves_makeObj .integer (.integer n) (by decide) rfl
  | float bits => exact moves_makeObj .float (.float bits) (by decide) rfl
  | boolean b => exact moves_truth b
  | vector capacity => exact VectorObj.moves_new capacity
  | hash capacity => exact HashObj.moves_withCapacity capacity

theorem ObjectAction.moves_run (a : ObjectAction) (ha : a.Lawful) : Step.Moves a.run := by
  cases a with
  | new c =>
    exact c.moves_run.step.bind fun _ => (moves_adopt _).step.bind fun o => moves_answerClaim o
  | make cls payload =>
    intro s
    refine (finishes_bind _).mpr (finishes_classNamed fun c hc => (finishes_bind _).mpr ?_)
    rw [finishes_call]
    refine (ends_makeObj_moves hc ha).mono (fun o b hb => ?_) (fun _ _ h => h)
    exact ((moves_adopt o).step.bind fun o => moves_answerClaim o).after hb
  | clone on => exact (moves_claimObject on false).bind fun o => moves_answerClaim o
  | share on =>
    cases on with
    | some name => exact (moves_claimObject name false).bind fun o => moves_answerClaim o
    | none => exact .throw _
  | retain on => exact (moves_claimObject on false).bind fun o => moves_answerClaim o
  | cloneMany on n =>
    exact (moves_objectAt on).bind fun _ =>
      (Step.Moves.forM _ fun o => (moves_retain o).step).bind fun _ => .pure _
  | release on =>
    exact (moves_takeObject on).bind fun o => (moves_release o).step.bind fun _ => .pure _
  | drop on =>
    refine (moves_slot on).bind fun x => (moves_removeSlot on).bind fun _ => ?_
    exact (moves_releaseAll x.claims).step.bind fun _ => .pure _
  | forget on => exact (moves_takeObject on).bind fun _ =>
    Step.Moves.bind (.modify fun _ => rfl) fun _ => .pure _
  | rewrap on =>
    cases on with
    | some name => exact (moves_takeObject name).bind fun o => moves_answerClaim o
    | none => exact .throw _
  | rewrapNullable on =>
    cases on with
    | some name => exact (moves_takeObject name).bind fun o => moves_answerClaim o
    | none => exact .pure _
  | refcount on =>
    exact (moves_objectAt on).bind fun o => (moves_refcount o).step.bind fun _ => .pure _
  | classOf on =>
    exact (moves_objectAt on).bind fun o => (moves_classOf o).step.bind fun _ => .pure _
  | isA on cls =>
    exact (moves_objectAt on).bind fun o => (moves_classNamed cls).bind fun c =>
      (moves_isA o c).step.bind fun _ => .pure _
  | same a b => exact (moves_objectAt a).bind fun _ => (moves_objectAt b).bind fun _ => .pure _
  | hasLayout on layout =>
    exact (moves_objectAt on).bind fun o => (moves_readObj o).step.bind fun _ => .pure _
  | certify on layout cls =>
    refine (moves_classNamed cls).bind fun c => (moves_objectAt on).bind fun o => ?_
    exact (moves_certify o c _).step.bind fun _ => .pure _
  | debug on => exact (moves_objectAt on).bind fun o => (moves_classOf o).step.bind fun _ => .pure _
  | debugAddress on => exact (moves_objectAt on).bind fun _ => .pure _

theorem moves_optionalObject (on : Option String) : Step.Moves (optionalObject on) := by
  cases on with
  | some name => exact (moves_objectAt name).bind fun _ => .pure _
  | none => exact .pure _

theorem ConversionAction.moves_run (a : ConversionAction) : Step.Moves a.run := by
  cases a with
  | hostToForeign value cls nullable =>
    refine value.moves_eval.bind fun v => Step.Moves.bind ?_ fun o => moves_answerOptionalClaim o
    refine Step.Moves.withClaims v.claims ((moves_optionalClass cls).bind fun c => ?_)
    exact moves_orFail (moves_hostToForeign v c nullable)
  | valueToForeign on cls nullable =>
    refine (moves_valueAt on).bind fun v => (moves_optionalClass cls).bind fun c => ?_
    exact (moves_orFail (moves_hostToForeign v c nullable)).bind fun o =>
      moves_answerOptionalClaim o
  | toForeign t data cls nullable =>
    refine (moves_optionalClass cls).bind fun c => (t.moves_eval data).bind fun x => ?_
    exact (moves_orFail (t.moves_toForeign x c nullable)).bind fun o => moves_answerOptionalClaim o
  | toHost on =>
    exact (moves_optionalObject on).bind fun o => (moves_foreignToHost o).step.bind fun v =>
      moves_answerValue v
  | fromForeign on t =>
    refine (moves_optionalObject on).bind fun o =>
      (moves_orFail (t.moves_fromForeign o)).bind fun x => ?_
    exact (moves_reportData t x).bind fun _ => .pure _
  | evaluate value => exact value.moves_eval.bind fun v => moves_answerValue v
  | valueOf on move via =>
    refine (moves_claimObject on move).bind fun o => ?_
    cases via with
    | dispatch => exact (moves_ofObject o).step.bind fun v => moves_answerValue v
    | wrapper w => exact (moves_orFail (moves_wrap w o)).bind fun h => moves_answerValue _
  | cloneValue on =>
    exact (moves_valueAt on).bind fun v => (moves_clone v).step.bind fun _ => .pure _
  | sameValue a b =>
    refine (moves_slot a).bind fun x => (moves_slot b).bind fun y => ?_
    split
    · exact .pure _
    · exact .throw _
  | describeValue on =>
    exact (moves_valueAt on).bind fun v => (moves_describe v).bind fun _ => .pure _
  | fromValue on t =>
    refine (moves_valueAt on).bind fun v => (moves_orFail (t.moves_decode v)).bind fun x => ?_
    exact (moves_reportData t x).bind fun _ => .pure _
  | intoValue t data =>
    exact (t.moves_eval data).bind fun x => (moves_orFail (t.moves_encode x)).bind fun v =>
      moves_answerValue v

theorem WrapperAction.moves_run (a : WrapperAction) : Step.Moves a.run := by
  cases a with
  | register cls w => exact (moves_classNamed cls).bind fun c =>
    (moves_registerWrapper c w).step.bind fun _ => .pure _
  | registerAll entries =>
    refine (Step.Moves.mapM entries fun e => (moves_classNamed e.1).bind fun _ => .pure _).bind
      fun classes => ?_
    exact (moves_registerWrappers classes).step.bind fun _ => .pure _
  | lookup cls =>
    exact (moves_classNamed cls).bind fun c => (moves_wrapperFor? c).step.bind fun _ => .pure _
  | registered =>
    have hregistered : Run.Moves registeredClasses := Moves.get.bind fun _ => .pure _
    exact hregistered.step.bind fun _ => .pure _
  | registerWidget =>
    exact (moves_foreignClass _).step.bind fun c =>
      (moves_registerWrapper c _).step.bind fun _ => .pure _
  | dispatch on move =>
    exact (moves_claimObject on move).bind fun o => (moves_dispatch o).step.bind fun h =>
      moves_answerHost h
  | share on =>
    exact (moves_hostAt on).bind fun h => (moves_hostShare h).step.bind fun h => moves_answerHost h
  | debug on => exact (moves_hostAt on).bind fun _ => Step.Moves.get.bind fun _ => .pure _
  | unwrap on => exact (moves_takeObject on).bind fun o => moves_answerClaim o
  | downcast on w =>
    refine (moves_hostAt on).bind fun h => Step.Moves.bind (.modify fun _ => rfl) fun _ => ?_
    exact (moves_refcount h.obj).step.bind fun _ => .pure _

theorem ErrorAction.moves_run (a : ErrorAction) : Step.Moves a.run := by
  cases a with
  | throwText message => exact (moves_throwForeign message).step
  | throwRaw message => exact (moves_raise message).step
  | rethrow on =>
    refine (moves_errorAt on).bind fun e => ?_
    cases e.message? with
    | some message => exact (moves_throwForeign message).step
    | none => exact .throw _
  | throwErr on move =>
    refine (moves_claimObject on move).bind fun o =>
      (moves_orFail (moves_wrap _ o)).bind fun h => ?_
    exact (moves_throwErr h.obj).step
  | throwObject on move => exact (moves_claimObject on move).bind fun o => (moves_throwObj o).step
  | fault message => exact (moves_fault message).step
  | describe on =>
    refine (moves_errorAt on).bind fun e => ?_
    cases e.message? with
    | some message => exact Step.Moves.get.bind fun _ => .pure _
    | none => exact .pure _
  | compare a b =>
    refine (moves_errorAt a).bind fun x => (moves_errorAt b).bind fun y => ?_
    cases x.same? y with
    | some equal => exact .pure _
    | none => exact .pure _
  | trappedInfo on =>
    refine (moves_trappedAt on).bind fun t => (moves_errMessage t.err).step.bind fun _ => ?_
    exact (moves_brief t.err).step.bind fun _ => .pure _
  | trappedErr on => exact (moves_trappedAt on).bind fun t => (moves_share t.err).step.bind fun o =>
    moves_answerClaim o
  | trappedInto on =>
    exact (moves_trappedAt on).bind fun t => (moves_removeSlot on).bind fun _ =>
      moves_answerClaim t.err
  | warn message => exact (moves_log _ message).step.bind fun _ => .pure _
  | start => exact moves_start.step.bind fun _ => moves_hooksInstalled.step.bind fun _ => .pure _
  | installHooks => exact (moves_installHooks _).step.bind fun _ => .pure _

theorem moves_foundAnswer (found : Found) : Step.Moves found.answer := by
  cases found with
  | report r => exact .pure _
  | claim o => exact moves_answerOptionalClaim o
  | bundle r claims => exact .pure _

/-- Something is looked at and reported. -/
theorem moves_looked {α : Type} {look : Run α} (hlook : Run.Moves look) (report : α → Found) :
    Step.Moves (do return report (← look)) := hlook.step.bind fun _ => .pure _

theorem moves_byteBufSize (o : ObjId) : Run.Moves (ByteBufObj.size o) :=
  (moves_certify o _ _).bind fun _ => .pure _

/-- A value is converted and then put into a container. -/
theorem moves_putValue {put : Option ObjId → Run Unit} (hput : ∀ o, Run.Moves (put o)) (v : Value) :
    Run.Moves (do
      match ← hostToForeign v none true with
      | .ok o => return .ok (← put o)
      | .error e => return .error e : Run (Except ConversionError Unit)) := by
  refine (moves_hostToForeign v none true).bind fun result => ?_
  cases result with
  | ok o => exact (hput o).bind fun _ => .pure _
  | error e => exact .pure _

/-- An object is taken out of a container, converted, and its claim given back. -/
theorem moves_getValue {take : Run (Option ObjId)} (htake : Run.Moves take) :
    Run.Moves (do
      let o ← take
      withClaims o.toList (foreignToHost o)) :=
  htake.bind fun o => moves_withClaims _ (moves_foreignToHost o)

theorem Method.moves_call (w : Wrapper) (o : ObjId) (v : Value) (m : Method) :
    Step.Moves (m.call w o v) := by
  cases m with
  | classes =>
    exact (moves_foreignClass w).step.bind fun _ => (moves_classOf o).step.bind fun _ => .pure _
  | appendBytes bytes =>
    exact (moves_byteBufAppend o bytes).step.bind fun _ => moves_looked (moves_byteBufSize o) _
  | bufferSize => exact moves_looked (moves_byteBufSize o) _
  | push _ =>
    refine (moves_orFail (moves_putValue (VectorObj.moves_push o) v)).bind fun _ => ?_
    exact moves_looked (VectorObj.moves_size o) _
  | storeAt tick _ =>
    refine (moves_orFail (moves_putValue (VectorObj.moves_store o tick) v)).bind fun _ => ?_
    exact moves_looked (VectorObj.moves_size o) _
  | fetchAt tick => exact moves_looked (VectorObj.moves_fetch o tick) _
  | getAt tick =>
    refine (moves_getValue (VectorObj.moves_fetch o tick)).step.bind fun v => ?_
    exact (moves_reportValue v).bind fun _ => .pure _
  | vectorSize => exact moves_looked (VectorObj.moves_size o) _
  | storeKey key _ =>
    refine (moves_orFail (moves_putValue (HashObj.moves_store o key) v)).bind fun _ => ?_
    exact moves_looked (HashObj.moves_size o) _
  | fetchKey key => exact moves_looked (HashObj.moves_fetch o key) _
  | getKey key =>
    refine (moves_getValue (HashObj.moves_fetch o key)).step.bind fun v => ?_
    exact (moves_reportValue v).bind fun _ => .pure _
  | containsKey key => exact moves_looked (HashObj.moves_contains o key) _
  | removeKey key =>
    refine (moves_getValue (HashObj.moves_delete o key)).step.bind fun v => ?_
    exact (moves_reportValue v).bind fun _ => .pure _
  | hashSize => exact moves_looked (HashObj.moves_size o) _
  | appendMessage more =>
    exact (moves_errAppend o more).step.bind fun _ => moves_looked (moves_errMessage o) _
  | _ => exact moves_looked (moves_certify o _ _) _

theorem moves_wrapperClaim (w : Wrapper) (on : String) : Step.Moves (wrapperClaim w on) := by
  have hhost (h : HostRef) :
      Step.Moves (if h.wrapper = w then do return some (← share h.obj) else return none) :=
    .ite ((moves_share h.obj).step.bind fun _ => .pure _) (.pure _)
  refine (moves_slot on).bind fun x => ?_
  cases x with
  | object o =>
    exact (moves_orFail ((moves_share o).bind fun o => moves_wrap w o)).bind fun _ => .pure _
  | host h => exact hhost h
  | value v =>
    cases v with
    | object h => exact hhost h
    | _ => exact .throw _
  | error | bundle => exact .throw _

theorem moves_callMethod (on : String) (w : Wrapper) (m : Method) :
    Step.Moves (callMethod on w m) := by
  refine (ValueExpr.moves_eval _).bind fun v =>
    Step.Moves.bind (Step.Moves.withClaims v.claims ?_) fun found =>
    moves_foundAnswer found
  refine (moves_wrapperClaim w on).bind fun o => ?_
  cases o with
  | none => exact .pure _
  | some o => exact Step.Moves.withClaims [o] (m.moves_call w o v)

theorem moves_elementClaim (move : Bool) (elem : Option String) :
    Step.Moves (elementClaim move elem) := by
  cases elem with
  | some name => exact (moves_claimObject name move).bind fun _ => .pure _
  | none => exact .pure _

theorem moves_entryReport (e : HashEntry) : Run.Moves (entryReport e) := by
  refine (moves_text e.key).bind fun _ => (moves_brief e.key).bind fun _ => ?_
  exact (moves_optionalBrief e.value).bind fun _ => .pure _

theorem Primitive.moves_call (o : ObjId) (move : Bool) (p : Primitive) :
    Step.Moves (p.call o move) := by
  have hcertified {α β : Type} {c : Class} {look : Payload → Option α} (g : α → β) :
      Run.Moves (do return g (← certify o c look)) := (moves_certify o c look).bind fun _ => .pure _
  cases p with
  | stringSize => exact moves_looked (hcertified _) _
  | stringEquals other => exact moves_looked (hcertified _) _
  | stringChecksum =>
    exact moves_looked ((moves_text o).bind fun _ => Moves.get.bind fun _ => .pure _) _
  | blobSize => exact moves_looked (hcertified _) _
  | bufferAppend bytes => exact (moves_byteBufAppend o bytes).step.bind fun _ => .pure _
  | bufferSize => exact moves_looked (moves_byteBufSize o) _
  | bufferIsEmpty => exact moves_looked (moves_byteBufSize o) _
  | vectorPush elem =>
    exact (moves_elementClaim move elem).bind fun e =>
      (VectorObj.moves_push o e).step.bind fun _ => .pure _
  | vectorStore tick elem =>
    exact (moves_elementClaim move elem).bind fun e =>
      (VectorObj.moves_store o tick e).step.bind fun _ => .pure _
  | vectorFetch tick => exact moves_looked (VectorObj.moves_fetch o tick) _
  | vectorSize => exact moves_looked (VectorObj.moves_size o) _
  | vectorElements =>
    refine (VectorObj.moves_elements o).step.bind fun elems => ?_
    have hreports := Step.Moves.mapM elems fun e => (moves_optionalBrief e).step
    exact (Step.Moves.onUnwind (moves_releaseAll _) hreports).bind fun _ => .pure _
  | hashStore key elem =>
    exact (moves_elementClaim move elem).bind fun e =>
      (HashObj.moves_store o key e).step.bind fun _ => .pure _
  | hashFetch key => exact moves_looked (HashObj.moves_fetch o key) _
  | hashContains key => exact moves_looked (HashObj.moves_contains o key) _
  | hashDelete key => exact moves_looked (HashObj.moves_delete o key) _
  | hashSize => exact moves_looked (HashObj.moves_size o) _
  | hashEntries =>
    refine (HashObj.moves_entries o).step.bind fun entries => ?_
    have hrows := Step.Moves.mapM entries fun e => (moves_entryReport e).step
    exact (Step.Moves.onUnwind (moves_releaseAll _) hrows).bind fun _ => .pure _
  | errAppend text => exact (moves_errAppend o text).step.bind fun _ => .pure _
  | _ => exact moves_looked (moves_certify o _ _) _

theorem Action.moves_run (a : Action) (ha : a.Lawful) : Step.Moves a.run := by
  cases a with
  | onClass a => exact a.moves_run
  | onObject a => exact a.moves_run ha
  | onValue a => exact a.moves_run
  | onWrapper a => exact a.moves_run
  | onError a => exact a.moves_run
  | method on w m => exact moves_callMethod on w m
  | primitive on move p =>
    exact (moves_objectAt on).bind fun o => (p.moves_call o move).bind moves_foundAnswer

end Actions

/-! ## Scripts -/

section Scripts

variable {α : Type} {filter : LogFilter}

/-- A call of a session is a run of elementary changes of its bridge. -/
abbrev Walk.Moves (r : Walk α) : Prop := ObjectBridge.Moves Session.bridge r

theorem moves_callBridge {r : Run α} (hr : Run.Moves r) : Walk.Moves (callBridge r) :=
  fun _ => ends_callBridge_moves hr .refl

theorem Walk.moves_modify {change : Session → Session} (hc : ∀ s, (change s).bridge = s.bridge) :
    Walk.Moves (modify change : Walk PUnit) := .modify fun s => by rw [hc]

theorem moves_bind (name : String) (x : Slot) : Walk.Moves (bind name x) := by
  refine Moves.get.bind fun s => Moves.bind (Walk.moves_modify fun _ => rfl) fun _ => ?_
  cases Assoc.find? name s.slots with
  | some y => exact moves_callBridge (moves_releaseAll y.claims)
  | none => exact .pure _

theorem moves_keep (name : Option String) (x : Slot) : Walk.Moves (keep name x) := by
  cases name with
  | some n => exact moves_bind n x
  | none => exact moves_callBridge (moves_releaseAll x.claims)

theorem moves_settle (result error : Option String) (outcome : Except Failure Outcome) :
    Walk.Moves (settle result error outcome) := by
  rcases outcome with f | ⟨report, left⟩
  · exact (moves_keep error _).bind fun _ => .pure _
  · cases left with
    | some x => exact (moves_keep result x).bind fun _ => .pure _
    | none => exact .pure _

theorem moves_catchForeign {routine : Walk α} (hr : Walk.Moves routine) :
    Walk.Moves (catchForeign routine) := by
  refine (moves_callBridge (moves_log _ _)).bind fun _ => Moves.tryCatch (hr.map _) fun u => ?_
  split
  · exact (moves_callBridge (moves_log _ _)).bind fun _ => .pure _
  · exact .throw _

theorem moves_trap {routine : Walk Unit} (hr : Walk.Moves routine) : Walk.Moves (trap routine) := by
  refine (moves_callBridge Moves.get).bind fun b => ?_
  rcases b.hooks with _ | _ | _
  · exact moves_callBridge ((moves_log _ _).bind fun _ => moves_fault _)
  · refine (moves_catchForeign hr).bind fun result => ?_
    cases result with
    | ok _ => exact .pure _
    | error err => exact .pure _
  · refine Moves.tryCatch (hr.bind fun _ => .pure _) fun u => ?_
    split
    · exact .pure _
    · exact .throw _

theorem moves_runTrapped {routine : Walk α} (hr : Walk.Moves routine) :
    Walk.Moves (runTrapped routine) := by
  refine (moves_callBridge moves_start).bind fun _ => (moves_catchForeign hr).bind fun result => ?_
  cases result with
  | ok a => exact .pure _
  | error err => exact (moves_callBridge (moves_errMessage err)).bind fun _ => .pure _

theorem moves_trapRoutine (byHooks : Bool) {routine : Walk Unit} (hr : Walk.Moves routine) :
    Walk.Moves (trapRoutine byHooks routine) := by
  refine .ite ((moves_trap hr).bind fun caught => ?_) ((moves_runTrapped hr).bind fun result => ?_)
  · cases caught with
    | none => exact .pure _
    | some err => exact (moves_callBridge (moves_errMessage err)).bind fun _ => .pure _
  · cases result with
    | ok _ => exact .pure _
    | error t => exact .pure _

theorem moves_withAnswers {routine : Walk α} (hr : Walk.Moves routine) :
    Walk.Moves (withAnswers routine) := by
  refine Moves.get.bind fun s => Moves.bind (Walk.moves_modify fun _ => rfl) fun _ =>
    hr.tryFinally' fun _ => ?_
  exact Moves.get.bind fun _ => Moves.bind (Walk.moves_modify fun _ => rfl) fun _ => .pure _

theorem Walk.Moves.step {r : Walk α} (hr : Walk.Moves r) : Step.Moves (liftM r : Step α) :=
  fun s => (finishes_walk r).mpr (hr s)

theorem Loan.moves_finish (o : ObjId) (loan : Loan) : Step.Moves (loan.finish o) := by
  cases loan with
  | look => exact (moves_brief o).step.bind fun _ => .pure _
  | raise message => exact (moves_throwForeign message).step
  | fault message => exact (moves_fault message).step
  | fail => exact .throw _

theorem moves_lendRoutine (on : String) (move : Bool) {routine : Walk Unit}
    (hr : Walk.Moves routine) (loan : Loan) : Step.Moves (lendRoutine on move routine loan) :=
  (moves_claimObject on move).bind fun o =>
    Step.Moves.withClaims [o] (hr.step.bind fun _ => loan.moves_finish o)

theorem moves_takeJournal :
    Walk.Moves (liftM (takeJournal filter) : Walk (List (String × Report))) :=
  fun _ => Bridge.leads_aside rfl rfl

theorem moves_runRoutine (routine : List Instruction)
    (hi : ∀ i ∈ routine, Walk.Moves (i.run filter)) :
    Walk.Moves (runRoutine filter routine) := by
  induction routine with
  | nil => exact .pure _
  | cons i rest ih =>
    unfold runRoutine
    refine (hi i List.mem_cons_self).bind fun _ => moves_takeJournal.bind fun _ => ?_
    exact Moves.bind (Walk.moves_modify fun _ => rfl) fun _ => ih fun j hj =>
      hi j (List.mem_cons_of_mem i hj)

theorem Instruction.moves_run (i : Instruction) (hl : i.Lawful) : Walk.Moves (i.run filter) := by
  induction i using Instruction.induction with
  | act a result error =>
    unfold Instruction.run
    exact (a.moves_run hl).run.bind fun outcome => moves_settle result error outcome
  | trap byHooks routine result error ih =>
    have hroutine : Walk.Moves (runRoutine filter routine) :=
      moves_runRoutine routine fun i hi => ih i hi (LawfulRoutine.of_mem hl hi)
    unfold Instruction.run
    exact (moves_withAnswers (moves_trapRoutine byHooks hroutine)).bind fun _ =>
      moves_settle result error _
  | lend on move routine loan result error ih =>
    have hroutine : Walk.Moves (runRoutine filter routine) :=
      moves_runRoutine routine fun i hi => ih i hi (LawfulRoutine.of_mem hl hi)
    unfold Instruction.run
    refine (moves_withAnswers (moves_lendRoutine on move hroutine loan).run).bind fun p => ?_
    exact (moves_settle result error p.1).bind fun _ => .pure _

theorem Instruction.moves_guarded (i : Instruction) (hl : i.Lawful) :
    Walk.Moves (i.guarded filter) := by
  refine (moves_runTrapped (i.moves_run hl)).bind fun result => ?_
  cases result with
  | ok r => exact .pure _
  | error t => exact moves_settle none i.errorName _

theorem moves_dropAll : Walk.Moves dropAll := by
  intro s
  unfold dropAll
  rw [ends_bind, ends_get, ends_bind, ends_set]
  have hsame : s.bridge.Leads { s with slots := [] }.bridge := .refl
  exact ends_callBridge_moves (Moves.forM s.slots fun e => moves_releaseAll e.2.claims) hsame

theorem Walk.Moves.leads_run {r : Walk α} (hr : Walk.Moves r) (s : Session) :
    s.bridge.Leads (r.run s).2.bridge :=
  (hr s).final (P := fun s' : Session => s.bridge.Leads s'.bridge)

/-- The answer of a top-level instruction. -/
theorem Instruction.leads_answer (i : Instruction) (hl : i.Lawful) (s : Session) :
    s.bridge.Leads ((i.answer filter).run s).2.bridge :=
  ((i.moves_guarded hl).leads_run s).tail (.aside rfl rfl)

variable {routine script : List Instruction} {s : Session} {m : Moment}

theorem Moment.leads_after {r : Walk α} (hr : Walk.Moves r) (s : Session) :
    s.bridge.Leads (Moment.after r s).session.bridge := by
  have hleads := hr.leads_run s
  unfold Moment.after
  cases hrun : (r.run s : Except Unwind α × Session) with
  | mk result s' =>
    rw [hrun] at hleads
    cases result with
    | ok a => exact hleads
    | error u => exact hleads

theorem Session.leads_enterTrap (s : Session) : s.bridge.Leads s.enterTrap.bridge :=
  Bridge.leads_aside rfl rfl

theorem RoutinePasses.leads (hm : RoutinePasses filter routine s m) (hl : LawfulRoutine routine) :
    s.bridge.Leads m.session.bridge := by
  induction hm with
  | here routine s => exact .refl
  | ended i rest s => exact Moment.leads_after (i.moves_run hl.1) s
  | inside hm ih =>
    obtain ⟨htrap, -⟩ := hl
    exact (Session.leads_enterTrap _).trans (ih htrap)
  | @lent on move _ _ _ _ _ s s' _ _ ho hm ih =>
    obtain ⟨hloan, -⟩ := hl
    have hclaim := Walk.Moves.leads_run (moves_claimObject on move).run { s with finished := [] }
    rw [ho] at hclaim
    exact hclaim.trans (ih hloan)
  | @later i rest s m hi hm ih =>
    obtain ⟨hi', hrest⟩ := hl
    have hmoves : Walk.Moves (runRoutine filter [i]) := by
      refine moves_runRoutine [i] fun j hj => ?_
      rw [List.mem_singleton.mp hj]
      exact i.moves_run hi'
    exact (hmoves.leads_run s).trans (ih hrest)

/-- Whatever a script does, its bridge goes through elementary changes only. -/
theorem ScriptPasses.leads (hm : ScriptPasses filter script s m) (hl : LawfulRoutine script) :
    s.bridge.Leads m.session.bridge := by
  induction hm with
  | here script s => exact .refl
  | within hm => exact (Session.leads_enterTrap _).trans (hm.leads ⟨hl.1, trivial⟩)
  | later hm ih => exact (Instruction.leads_answer _ hl.1 _).trans (ih hl.2)
  | dropped s => exact Moment.leads_after moves_dropAll s

end Scripts

end ObjectBridge
