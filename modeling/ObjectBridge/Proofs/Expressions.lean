import ObjectBridge.Session.Expr
import ObjectBridge.Proofs.DataClaims
import ObjectBridge.Proofs.Sessions

set_option autoImplicit false

/-!
# Claims of variables and expressions (SPEC §4.1)

What is borrowed from a variable is claimed by the session, what is moved out of a variable takes
its claim along, and the value of an expression has claims of its own.
-/

namespace ObjectBridge

/-! ## Variables -/

theorem Slot.claims_of_object? {x : Slot} {o : ObjId} (hx : x.object? = some o) :
    x.claims = [o] := by
  unfold Slot.object? at hx
  split at hx <;> simp_all [Slot.claims, Value.claims]

theorem Slot.claims_of_host? {x : Slot} {h : HostRef} (hx : x.host? = some h) :
    x.claims = [h.obj] := by
  unfold Slot.host? at hx
  split at hx <;> simp_all [Slot.claims, Value.claims]

section Variables

variable {s : Session} {F : Multiset ObjId} {name : String}

theorem Session.slots_subset_claims (s : Session) : slotsClaims s.slots ⊆ s.claims :=
  Multiset.subset_of_le (Multiset.le_add_right _ _)

theorem runs_slot {ok : Slot → Session → Prop} (hs : s.Books F)
    (hok : ∀ x, Assoc.find? name s.slots = some x →
      (x.claims : Multiset ObjId) ⊆ s.claims → ok x s) :
    Runs (slot name) s F ok := by
  unfold slot
  rw [runs_bind, runs_get]
  cases hx : Assoc.find? name s.slots with
  | some x => exact hok x hx (Multiset.Subset.trans (claims_subset_slots hx) s.slots_subset_claims)
  | none => exact hs.zero

theorem runs_objectAt {ok : ObjId → Session → Prop} (hs : s.Books F)
    (hok : ∀ o, o ∈ s.claims → ok o s) :
    Runs (objectAt name) s F ok := by
  unfold objectAt
  rw [runs_bind]
  refine runs_slot hs fun x _ hsub => ?_
  cases hx : x.object? with
  | some o =>
    rw [Slot.claims_of_object? hx] at hsub
    exact hok o (hsub (by simp))
  | none => exact hs.zero

theorem runs_heldAt {ok : ObjId → Session → Prop} (hs : s.Books F)
    (hok : ∀ o, o ∈ s.claims → ok o s) :
    Runs (heldAt name) s F ok := by
  unfold heldAt
  rw [runs_bind]
  refine runs_slot hs fun x _ hsub => ?_
  cases x with
  | object o => exact hok o (hsub (by simp [Slot.claims]))
  | host h => exact hok h.obj (hsub (by simp [Slot.claims]))
  | _ => exact hs.zero

theorem runs_hostAt {ok : HostRef → Session → Prop} (hs : s.Books F)
    (hok : ∀ h x, Assoc.find? name s.slots = some x → x.claims = [h.obj] →
      h.obj ∈ s.claims → ok h s) :
    Runs (hostAt name) s F ok := by
  unfold hostAt
  rw [runs_bind]
  refine runs_slot hs fun x hx hsub => ?_
  cases hh : x.host? with
  | some h =>
    have hclaims := Slot.claims_of_host? hh
    exact hok h x hx hclaims (hsub (by simp [hclaims]))
  | none => exact hs.zero

theorem runs_valueAt {ok : Value → Session → Prop} (hs : s.Books F)
    (hok : ∀ v, (v.claims : Multiset ObjId) ⊆ s.claims → ok v s) : Runs (valueAt name) s F ok := by
  unfold valueAt
  rw [runs_bind]
  refine runs_slot hs fun x _ hsub => ?_
  cases x with
  | value v => exact hok v hsub
  | _ => exact hs.zero

theorem runs_errorAt {ok : Failure → Session → Prop} (hs : s.Books F)
    (hok : ∀ f, Assoc.find? name s.slots = some (.error f) →
      (f.claims : Multiset ObjId) ⊆ s.claims → ok f s) :
    Runs (errorAt name) s F ok := by
  unfold errorAt
  rw [runs_bind]
  refine runs_slot hs fun x hx hsub => ?_
  cases x with
  | error f => exact hok f hx hsub
  | _ => exact hs.zero

theorem runs_trappedAt {ok : TrappedError → Session → Prop} (hs : s.Books F)
    (hok : ∀ t, Assoc.find? name s.slots = some (.error (.bridge (.trapped t))) →
      t.err ∈ s.claims → ok t s) :
    Runs (trappedAt name) s F ok := by
  unfold trappedAt
  rw [runs_bind]
  refine runs_errorAt hs fun f hf hsub => ?_
  split
  · exact hok _ hf (hsub (by simp [Failure.claims, BridgeError.claims]))
  · exact hs.zero

theorem runs_classNamed {ok : Class → Session → Prop} (hs : s.Books F)
    (hok : ∀ c, c.Rooted → ok c s) :
    Runs (classNamed name) s F ok := by
  unfold classNamed
  rw [runs_bind, runs_get]
  cases hc : s.bridge.classes.fetch name with
  | some c => exact hok c (hs.bridge.classes name c hc)
  | none => exact hs.zero

theorem runs_optionalClass {ok : Option Class → Session → Prop} {cls : Option String}
    (hs : s.Books F) (hok : ∀ c, ok c s) : Runs (optionalClass cls) s F ok := by
  cases cls with
  | none => exact hok none
  | some name =>
    unfold optionalClass
    rw [runs_bind]
    exact runs_classNamed hs fun c _ => hok (some c)

/-- Forgetting a variable leaves its claims with the step. -/
theorem Session.Books.remove {x : Slot} (hs : s.Books F) (hx : Assoc.find? name s.slots = some x) :
    { s with slots := Assoc.erase name s.slots }.Books (x.claims + F) := by
  refine ⟨hs.sorted.erase name, ?_⟩
  have hclaims : (x.claims : Multiset ObjId) + F +
      (slotsClaims (Assoc.erase name s.slots) + s.bare) = F + s.claims := by
    unfold Session.claims
    rw [← slotsClaims_erase hx]
    abel
  change s.bridge.Books _
  rw [Session.claims, hclaims]
  exact hs.bridge

/-- A variable that is moved out hands over its claim. -/
theorem runs_takeObject (hs : s.Books F) :
    Runs (takeObject name) s F (fun o s' => s'.Books ({o} + F) ∧ s.claims ⊆ {o} + s'.claims) := by
  unfold takeObject objectAt
  rw [runs_bind, runs_bind]
  refine runs_slot hs fun x hx _ => ?_
  cases ho : x.object? with
  | none => exact hs.zero
  | some o =>
    have hclaims := Slot.claims_of_object? ho
    have hbooks := hs.remove hx
    rw [hclaims] at hbooks
    refine ⟨hbooks, ?_⟩
    unfold Session.claims
    rw [← slotsClaims_erase hx, hclaims, add_assoc]
    exact fun _ h => h

/-- A claim on the object of a variable: its own if it is moved, a new one otherwise. -/
theorem runs_claimObject (move : Bool) (hs : s.Books F) :
    Runs (claimObject name move) s F
      (fun o s' => s'.Books ({o} + F) ∧ s.claims ⊆ {o} + s'.claims) := by
  unfold claimObject
  cases move with
  | true => exact runs_takeObject hs
  | false =>
    rw [if_neg (by simp), runs_bind]
    refine runs_objectAt hs fun o ho => ?_
    refine runs_call (share_succeeds o).transfers hs.zero ?_ fun p b hs' => ?_
    · exact Multiset.singleton_subset.mpr (Multiset.mem_add.mpr (.inr ho))
    · exact ⟨hs', subset_add_right _ _⟩

theorem takeObject_handles {B : Multiset ObjId} (name : String) :
    Handles B 0 (takeObject name) (fun o => {o}) :=
  fun _ _ _ hs => (runs_takeObject (hs.of_zero)).mono fun _ _ h => h.1

theorem claimObject_handles {B : Multiset ObjId} (name : String) (move : Bool) :
    Handles B 0 (claimObject name move) (fun o => {o}) :=
  fun _ _ _ hs => (runs_claimObject move (hs.of_zero)).mono fun _ _ h => h.1

end Variables

/-! ## Expressions -/

/-- Induction on an expression, with a hypothesis for each member of a sequence or map. -/
theorem ValueExpr.induction {P : ValueExpr → Prop} (null : P .null) (bool : ∀ b, P (.bool b))
    (int : ∀ n, P (.int n)) (float : ∀ bits, P (.float bits)) (text : ∀ s, P (.text s))
    (bytes : ∀ b, P (.bytes b)) (seq : ∀ items, (∀ e ∈ items, P e) → P (.seq items))
    (map : ∀ entries, (∀ e ∈ entries, P e.2) → P (.map entries))
    (var : ∀ name, P (.var name)) : ∀ e, P e
  | .null => null
  | .bool b => bool b
  | .int n => int n
  | .float bits => float bits
  | .text s => text s
  | .bytes b => bytes b
  | .seq items => seq items fun e _ => induction null bool int float text bytes seq map var e
  | .map entries => map entries fun e _ => induction null bool int float text bytes seq map var e.2
  | .var name => var name
termination_by e => sizeOf e
decreasing_by
  · rename_i he
    have := List.sizeOf_lt_of_mem he
    simp
    omega
  · rename_i he
    have := List.sizeOf_lt_of_mem he
    obtain ⟨k, v⟩ := e
    simp at this ⊢
    omega

/-- A variable gives a value with claims of its own. -/
theorem valueOfVar_handles {B : Multiset ObjId} (name : String) :
    Handles B 0 (valueOfVar name) (fun v => v.claims) := by
  intro s F _ hs
  unfold valueOfVar
  rw [runs_bind]
  refine runs_slot hs.of_zero fun x _ hsub => ?_
  have hborrow : (x.claims : Multiset ObjId) ⊆ F + s.claims :=
    Multiset.Subset.trans hsub (subset_add_right _ _)
  cases x with
  | object o =>
    dsimp only
    have hshare : Transfers {o} 0 (share o) (fun p => {p}) := (share_succeeds o).transfers
    rw [runs_bind]
    refine runs_call hshare hs hborrow fun p b hs' => ?_
    exact runs_call (Value.ofObject_transfers p) hs' (Multiset.zero_subset _) fun _ _ h => h
  | host h =>
    refine (runs_bind).mpr (runs_call (hostShare_transfers h) hs hborrow fun _ _ h => h)
  | value v => exact runs_call (Value.clone_transfers v) hs hborrow fun _ _ h => h
  | error f => exact hs
  | bundle claims => exact hs

section Lists

variable {α β : Type} {B : Multiset ObjId} {claims : β → List ObjId}

/-- Members that are evaluated in turn are all there at the end. -/
theorem evalAll_handles {eval : α → Step β} (xs : List α)
    (heval : ∀ x ∈ xs, Handles B 0 (eval x) (fun y => claims y)) :
    Handles B 0 (evalAll eval claims xs) (fun ys => (ys.flatMap claims : List ObjId)) := by
  induction xs with
  | nil => exact .pure [] rfl
  | cons x rest ih =>
    have hrest := ih fun y hy => heval y (List.mem_cons_of_mem x hy)
    unfold evalAll
    refine (heval x List.mem_cons_self).bind fun y => ?_
    have hguard := (hrest.weaken (subset_add_right (claims y) B)).guard (claims y)
    refine (hguard.cast (add_zero _).symm fun _ => rfl).bind fun ys => .pure _ ?_
    exact Multiset.coe_add _ _

/-- Entries that are evaluated in turn: a later one takes the place of an earlier one with the same
key. -/
theorem evalDict_handles {eval : α → Step β} (entries : List (String × α))
    (done : List (String × β)) (heval : ∀ e ∈ entries, Handles B 0 (eval e.2) (fun y => claims y)) :
    Handles B (done.flatMap fun e => claims e.2 : List ObjId) (evalDict eval claims entries done)
      (fun es => (es.flatMap fun e => claims e.2 : List ObjId)) := by
  induction entries generalizing done with
  | nil => exact .pure done rfl
  | cons e rest ih =>
    obtain ⟨key, x⟩ := e
    have hrest := fun done => ih done fun y hy => heval y (List.mem_cons_of_mem _ hy)
    unfold evalDict
    have hguard := ((heval (key, x) List.mem_cons_self).weaken (subset_add_right _ B)).guard
      (done.flatMap fun e => claims e.2)
    refine (hguard.cast (add_zero _).symm fun _ => rfl).bind fun y => ?_
    have hrelease := (releaseAll_succeeds (((Assoc.find? key done).map claims).getD [])).weaken
      (Multiset.zero_subset B)
    have hframe :=
      hrelease.frame ((Assoc.insert key y done).flatMap fun e => claims e.2 : List ObjId)
      (subset_add_right _ _)
    refine (hframe.transfers.handles.cast ?_ fun _ => add_zero _).bind fun _ => hrest _
    exact (Assoc.claims_insert claims key y done).symm

end Lists

/-! The evaluation of values in lists is that of data in lists. -/

theorem evalItems_eq (items : List ValueExpr) :
    evalItems items = evalAll ValueExpr.eval Value.claims items := by
  induction items with
  | nil =>
    unfold evalItems
    rfl
  | cons e rest ih =>
    unfold evalItems evalAll
    rw [ih]
    rfl

theorem evalEntries_eq (entries : List (String × ValueExpr)) (done : List (String × Value)) :
    evalEntries entries done = evalDict ValueExpr.eval Value.claims entries done := by
  induction entries generalizing done with
  | nil =>
    unfold evalEntries
    rfl
  | cons e rest ih =>
    unfold evalEntries evalDict
    simp only [ih, Value.claimsOfEntries_eq]

/-- The value of an expression has claims of its own. -/
theorem ValueExpr.eval_handles {B : Multiset ObjId} (e : ValueExpr) :
    Handles B 0 e.eval (fun v => v.claims) := by
  induction e using ValueExpr.induction with
  | seq items ih =>
    unfold eval
    rw [evalItems_eq]
    refine (evalAll_handles items ih).bind fun vs => .pure _ ?_
    exact congrArg Multiset.ofList (Value.claimsOfItems_eq vs).symm
  | map entries ih =>
    unfold eval
    rw [evalEntries_eq]
    refine (evalDict_handles entries [] ih).bind fun es => .pure _ ?_
    exact congrArg Multiset.ofList (Value.claimsOfEntries_eq es).symm
  | var name =>
    unfold eval
    exact valueOfVar_handles name
  | null => exact .pure _ rfl
  | bool b => exact .pure _ rfl
  | int n => exact .pure _ rfl
  | float bits => exact .pure _ rfl
  | text s => exact .pure _ rfl
  | bytes b => exact .pure _ rfl

/-- A new claim on what a variable holds. -/
theorem shareHeld_handles {B : Multiset ObjId} (name : String) :
    Handles B 0 (do share (← heldAt name)) (fun o => {o}) := by
  intro s F hB hs
  rw [runs_bind]
  refine runs_heldAt hs.of_zero fun o ho => ?_
  have hborrow : {o} ⊆ F + s.claims :=
    Multiset.singleton_subset.mpr (Multiset.mem_add.mpr (.inr ho))
  exact runs_call (share_succeeds o).transfers hs hborrow fun _ _ h => h

/-- Data that a literal stands for has claims of its own. -/
theorem Ty.eval_handles {B : Multiset ObjId} (t : Ty) (x : t.Literal) :
    Handles B 0 (t.eval x) (fun y => t.claims y) := by
  induction t with
  | int t => exact .pure _ rfl
  | float32 => exact .pure _ rfl
  | float64 => exact .pure _ rfl
  | bool => exact .pure _ rfl
  | text => exact .pure _ rfl
  | bytes => exact .pure _ rfl
  | value => exact ValueExpr.eval_handles x
  | claim => exact shareHeld_handles x
  | host =>
    have hwrap :=
      (shareHeld_handles x).bind fun o =>
      ((dispatch_transfers o).weaken (Multiset.zero_subset B)).handles
    rw [bind_assoc] at hwrap
    exact hwrap
  | option t ih =>
    unfold eval
    cases x with
    | none => exact .pure _ rfl
    | some y =>
      refine (ih y).bind fun z => .pure _ ?_
      exact congrArg Multiset.ofList (List.append_nil (t.claims z)).symm
  | list t ih => exact evalAll_handles x fun y _ => ih y
  | dict t ih => exact evalDict_handles x [] fun e _ => ih e.2
  | sortedDict t ih =>
    unfold eval
    refine (evalDict_handles x [] fun e _ => ih e.2).bind fun es => .pure _ ?_
    exact Multiset.coe_eq_coe.mpr ((sortByKey_perm es).flatMap_right _).symm

end ObjectBridge
