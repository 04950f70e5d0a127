import ObjectBridge.Proofs.Actions

set_option autoImplicit false

/-!
# Claims in calls on wrappers and on bare objects (SPEC §11.3, §12.2)

A method call holds the wrapper that it goes through and the value that it takes until the call is
over.  A primitive borrows its object from a variable, and moves the claim of an element out of
another variable, or out of the same one.
-/

namespace ObjectBridge

/-- The claims of what a call found. -/
def Found.claims : Found → Multiset ObjId
  | report _ => 0
  | claim o => o.toList
  | bundle _ claims => claims

theorem Found.answer_handles {B : Multiset ObjId} (found : Found) :
    Handles B found.claims found.answer Outcome.claims := by
  cases found with
  | report r => exact ObjectBridge.answer_handles r
  | claim o => exact answerOptionalClaim_handles o
  | bundle r claims => exact .pure _ rfl

section Methods

variable {α : Type} {B : Multiset ObjId} {o : ObjId}

theorem byteBufSize_transfers (o : ObjId) : Transfers {o} 0 (ByteBufObj.size o) (fun _ => 0) :=
  (certify_transfers o .byteBuf Payload.byteBuf?).bind fun _ => .pure _ rfl

/-- A call that leaves no claims is reported. -/
theorem reportCall_handles {r : Run α} (report : α → Report) (hr : Transfers B 0 r (fun _ => 0)) :
    Handles B 0 (do return .report (report (← r)) : Step Found) Found.claims :=
  hr.handles.bind fun _ => .pure _ rfl

/-- Claims that were asked for are answered with a report of them, and given back if the report
cannot be made. -/
theorem Handles.bundle {r : Step α} {claims : List ObjId}
    (hr : Handles (claims + B) 0 r (fun _ => 0)) (report : α → Report) :
    Handles B claims
      (do return .bundle (report (← onUnwind (releaseAll claims) r)) claims : Step Found)
      Found.claims :=
  ((hr.guard claims).cast (add_zero _).symm fun _ => add_zero _).bind fun _ => .pure _ rfl

/-- A method borrows its object and the value that it takes. -/
theorem Method.call_handles (m : Method) (w : Wrapper) (o : ObjId) (v : Value) :
    Handles ({o} + v.claims) 0 (m.call w o v) Found.claims := by
  have hobj : {o} ⊆ ({o} + v.claims : Multiset ObjId) :=
    Multiset.subset_of_le (Multiset.le_add_right _ _)
  cases m with
  | classes =>
    refine (foreignClass_transfers w).handles.bind fun required => ?_
    exact ((classOf_succeeds o).transfers.weaken hobj).handles.bind fun _ => .pure _ rfl
  | text => exact reportCall_handles _ ((certify_transfers o .string Payload.string?).weaken hobj)
  | blobBytes => exact reportCall_handles _ ((certify_transfers o .blob Payload.blob?).weaken hobj)
  | appendBytes bytes =>
    refine ((byteBufAppend_transfers o bytes).weaken hobj).handles.bind fun _ => ?_
    exact reportCall_handles _ ((byteBufSize_transfers o).weaken hobj)
  | bufferBytes =>
    exact reportCall_handles _ ((certify_transfers o .byteBuf Payload.byteBuf?).weaken hobj)
  | bufferSize => exact reportCall_handles _ ((byteBufSize_transfers o).weaken hobj)
  | integer =>
    exact reportCall_handles _ ((certify_transfers o .integer Payload.integer?).weaken hobj)
  | float => exact reportCall_handles _ ((certify_transfers o .float Payload.float?).weaken hobj)
  | boolean =>
    exact reportCall_handles _ ((certify_transfers o .boolean Payload.boolean?).weaken hobj)
  | push _ =>
    refine (orFail_handles ?_).bind fun _ =>
      reportCall_handles _ ((VectorObj.size_transfers o).weaken hobj)
    exact (putValue_transfers v (VectorObj.push_transfers o)).cast rfl fun result => by
      cases result <;> rfl
  | storeAt tick _ =>
    refine (orFail_handles ?_).bind fun _ =>
      reportCall_handles _ ((VectorObj.size_transfers o).weaken hobj)
    exact (putValue_transfers v (VectorObj.store_transfers o tick)).cast rfl fun result => by
      cases result <;> rfl
  | storeKey key _ =>
    refine (orFail_handles ?_).bind fun _ =>
      reportCall_handles _ ((HashObj.size_transfers o).weaken hobj)
    exact (putValue_transfers v (HashObj.store_transfers o key)).cast rfl fun result => by
      cases result <;> rfl
  | fetchAt tick =>
    exact ((VectorObj.fetch_transfers o tick).weaken hobj).handles.bind fun _ => .pure _ rfl
  | fetchKey key =>
    exact ((HashObj.fetch_transfers o key).weaken hobj).handles.bind fun _ => .pure _ rfl
  | getAt tick =>
    refine ((takeValue_transfers (VectorObj.fetch_transfers o tick)).weaken hobj).handles.bind
      fun v => ?_
    exact (reportValue_handles v).bind fun _ => .pure _ rfl
  | getKey key =>
    refine ((takeValue_transfers (HashObj.fetch_transfers o key)).weaken hobj).handles.bind
      fun v => ?_
    exact (reportValue_handles v).bind fun _ => .pure _ rfl
  | removeKey key =>
    refine ((takeValue_transfers (HashObj.delete_transfers o key)).weaken hobj).handles.bind
      fun v => ?_
    exact (reportValue_handles v).bind fun _ => .pure _ rfl
  | vectorSize => exact reportCall_handles _ ((VectorObj.size_transfers o).weaken hobj)
  | containsKey key => exact reportCall_handles _ ((HashObj.contains_transfers o key).weaken hobj)
  | hashSize => exact reportCall_handles _ ((HashObj.size_transfers o).weaken hobj)
  | message => exact reportCall_handles _ ((certify_transfers o .err Payload.err?).weaken hobj)
  | appendMessage more =>
    refine ((errAppend_transfers o more).weaken hobj).handles.bind fun _ => ?_
    exact reportCall_handles _ ((certify_transfers o .err Payload.err?).weaken hobj)

/-- The wrapper of a method call holds a claim of its own. -/
theorem wrapperClaim_handles (w : Wrapper) (on : String) :
    Handles B 0 (wrapperClaim w on) (fun o => o.toList) := by
  intro s F _ hs
  have hshare (p : ObjId) : Transfers {p} 0 (share p) (fun q => {q}) := (share_succeeds p).transfers
  refine runs_bind.mpr (runs_slot hs.of_zero fun x _ hsub => ?_)
  have hborrow : (x.claims : Multiset ObjId) ⊆ F + s.claims :=
    Multiset.Subset.trans hsub (subset_add_right _ _)
  split
  · rename_i o _
    have hwrap := (hshare o).bind fun p => (wrap_transfers w p).weaken (Multiset.zero_subset _)
    exact runs_bind.mpr (runs_orFail hwrap hs hborrow fun h b hs' => hs')
  · cases hh : x.host? with
    | none => exact hs
    | some h =>
      rw [Slot.claims_of_host? hh] at hborrow
      dsimp only
      split
      · exact runs_bind.mpr (runs_call (hshare h.obj) hs hborrow fun p b hs' => hs')
      · exact hs

/-- A method call gives up its value and its wrapper before it answers. -/
theorem callMethod_handles (on : String) (w : Wrapper) (m : Method) :
    Handles 0 0 (callMethod on w m) Outcome.claims := by
  refine (ValueExpr.eval_handles _).bind fun v => ?_
  refine (Handles.lend v.claims ?_).bind fun found => found.answer_handles
  refine (wrapperClaim_handles w on).bind fun o => ?_
  cases o with
  | none => exact .pure _ rfl
  | some o =>
    refine Handles.lend [o] ((m.call_handles w o v).weaken ?_)
    exact add_subset_add (Multiset.subset_of_le (Multiset.le_add_right _ _))

end Methods

section Primitives

variable {s : Session} {F : Multiset ObjId} {o : ObjId}

/-- The claim that is handed over with an element; what the session claimed before is still claimed.
-/
theorem runs_elementClaim (move : Bool) (elem : Option String) (hs : s.Books F) :
    Runs (elementClaim move elem) s F
      (fun e s' => s'.Books (e.toList + F) ∧
        s.claims ⊆ (e.toList : Multiset ObjId) + s'.claims) := by
  cases elem with
  | none => exact ⟨hs.zero, subset_add_right _ _⟩
  | some name => exact runs_bind.mpr ((runs_claimObject move hs).mono fun _ _ h => h)

/-- Handing an element to a container, which may be claimed by nothing but that element. -/
theorem runs_putElement {put : Option ObjId → Run Unit} (move : Bool) (elem : Option String)
    (hs : s.Books F) (ho : o ∈ s.claims)
    (hput : ∀ {b : Bridge} {e : Option ObjId} {G : Multiset ObjId}, b.Books (e.toList + G) →
      (b.Bounded → b.heap.Live o) → Ends
      (put e) b (fun _ b' => b'.Books G) (fun u b' => b'.Unwound u G)) :
    Runs (do
      let e ← elementClaim move elem
      (put e : Run Unit)
      return Found.report .null) s F (fun found s' => s'.Books (found.claims + F)) := by
  refine runs_bind.mpr ((runs_elementClaim move elem hs).mono fun e s' hs' => runs_bind.mpr ?_)
  obtain ⟨hs', hsub⟩ := hs'
  have hb := hs'.bridge
  have hlive : s'.bridge.Bounded → s'.bridge.heap.Live o := by
    refine hb.live ?_
    rcases Multiset.mem_add.mp (hsub ho) with he | hclaims
    · exact Multiset.mem_add.mpr (.inl (Multiset.mem_add.mpr (.inl he)))
    · exact Multiset.mem_add.mpr (.inr hclaims)
  rw [add_assoc] at hb
  refine (finishes_call (put e)).mpr
    ((hput hb hlive).mono (fun _ b' hb' => ?_) (fun u b' hw => ⟨hs'.sorted, hw⟩))
  exact Session.Books.zero ⟨hs'.sorted, hb'⟩

/-- A primitive that leaves no claims is reported. -/
theorem runs_reportCall {α : Type} {r : Run α} (report : α → Report)
    (hr : Transfers {o} 0 r (fun _ => 0)) (hs : s.Books F) (ho : o ∈ s.claims) :
    Runs (do return .report (report (← r)) : Step Found) s F
      (fun found s' => s'.Books (found.claims + F)) :=
  runs_bind.mpr (runs_look hr hs ho fun _ _ hs' => hs'.zero)

/-- A primitive that answers a claim. -/
theorem runs_claimCall {r : Run (Option ObjId)} (hr : Transfers {o} 0 r (fun e => e.toList))
    (hs : s.Books F) (ho : o ∈ s.claims) :
    Runs (do return .claim (← r) : Step Found) s F (fun found s' => s'.Books (found.claims + F)) :=
  runs_bind.mpr
    (runs_call hr hs.zero (Multiset.singleton_subset.mpr (Multiset.mem_add.mpr (.inr ho)))
    fun _ _ hs' => hs')

theorem stringCall_transfers {α : Type} (f : String → α) (o : ObjId) :
    Transfers {o} 0 (do return f (← StringObj.text o)) (fun _ => 0) :=
  (certify_transfers o .string Payload.string?).bind fun _ => .pure _ rfl

theorem entryReport_transfers (e : HashEntry) :
    Transfers e.claims 0 (entryReport e) (fun _ => 0) := by
  have hkey : {e.key} ⊆ (e.claims : Multiset ObjId) :=
    Multiset.singleton_subset.mpr List.mem_cons_self
  have hvalue : (e.value.toList : Multiset ObjId) ⊆ (e.claims : Multiset ObjId) := fun p hp =>
    List.mem_cons_of_mem _ hp
  refine ((certify_transfers e.key .string Payload.string?).weaken hkey).bind fun key => ?_
  refine ((brief_succeeds e.key).transfers.weaken hkey).bind fun k => ?_
  exact ((optionalBrief_succeeds e.value).transfers.weaken hvalue).bind fun v => .pure _ rfl

/-- A primitive borrows its object from the session. -/
theorem Primitive.runs_call (p : Primitive) (move : Bool) (hs : s.Books F) (ho : o ∈ s.claims) :
    Runs (p.call o move) s F (fun found s' => s'.Books (found.claims + F)) := by
  cases p with
  | stringText => exact runs_reportCall _ (certify_transfers o .string Payload.string?) hs ho
  | stringSize => exact runs_reportCall _ (stringCall_transfers _ o) hs ho
  | stringEquals other => exact runs_reportCall _ (stringCall_transfers _ o) hs ho
  | stringChecksum =>
    have hsum : Transfers {o} 0 (StringObj.checksum o) (fun _ => 0) :=
      (certify_transfers o .string Payload.string?).bind fun _ _ _ _ hb => hb
    exact runs_reportCall _ hsum hs ho
  | blobBytes => exact runs_reportCall _ (certify_transfers o .blob Payload.blob?) hs ho
  | blobSize =>
    have hsize : Transfers {o} 0 (BlobObj.size o) (fun _ => 0) :=
      (certify_transfers o .blob Payload.blob?).bind fun _ => .pure _ rfl
    exact runs_reportCall _ hsize hs ho
  | bufferBytes => exact runs_reportCall _ (certify_transfers o .byteBuf Payload.byteBuf?) hs ho
  | bufferAppend bytes =>
    exact runs_bind.mpr (runs_look (byteBufAppend_transfers o bytes) hs ho fun _ _ hs' => hs'.zero)
  | bufferSize => exact runs_reportCall _ (byteBufSize_transfers o) hs ho
  | bufferIsEmpty => exact runs_reportCall _ (byteBufSize_transfers o) hs ho
  | integer => exact runs_reportCall _ (certify_transfers o .integer Payload.integer?) hs ho
  | float => exact runs_reportCall _ (certify_transfers o .float Payload.float?) hs ho
  | boolean => exact runs_reportCall _ (certify_transfers o .boolean Payload.boolean?) hs ho
  | vectorPush elem => exact runs_putElement move elem hs ho fun hb hl => VectorObj.ends_push hb hl
  | vectorStore tick elem =>
    exact runs_putElement move elem hs ho fun hb hl => VectorObj.ends_store tick hb hl
  | hashStore key elem =>
    exact runs_putElement move elem hs ho fun hb hl => HashObj.ends_store key hb hl
  | vectorFetch tick => exact runs_claimCall (VectorObj.fetch_transfers o tick) hs ho
  | vectorSize => exact runs_reportCall _ (VectorObj.size_transfers o) hs ho
  | vectorElements =>
    have hborrow : {o} ⊆ F + s.claims :=
      Multiset.singleton_subset.mpr (Multiset.mem_add.mpr (.inr ho))
    refine runs_bind.mpr (ObjectBridge.runs_call (VectorObj.elements_transfers o) hs.zero hborrow
      fun elems b hs' => ?_)
    refine Handles.bundle (B := 0) (mapM_handles elems fun e he => ?_) _ _ F
      (Multiset.zero_subset _) hs'
    exact ((optionalBrief_succeeds e).transfers.weaken (toList_subset_filterMap he)).handles
  | hashFetch key => exact runs_claimCall (HashObj.fetch_transfers o key) hs ho
  | hashContains key => exact runs_reportCall _ (HashObj.contains_transfers o key) hs ho
  | hashDelete key => exact runs_claimCall (HashObj.delete_transfers o key) hs ho
  | hashSize => exact runs_reportCall _ (HashObj.size_transfers o) hs ho
  | hashEntries =>
    have hborrow : {o} ⊆ F + s.claims :=
      Multiset.singleton_subset.mpr (Multiset.mem_add.mpr (.inr ho))
    refine runs_bind.mpr (ObjectBridge.runs_call (HashObj.entries_transfers o) hs.zero hborrow
      fun entries b hs' => ?_)
    refine Handles.bundle (B := 0) (mapM_handles entries fun e he => ?_) _ _ F
      (Multiset.zero_subset _) hs'
    refine ((entryReport_transfers e).weaken fun p hp => ?_).handles
    exact Multiset.mem_add.mpr (.inl (List.mem_flatMap.mpr ⟨e, he, hp⟩))
  | errMessage => exact runs_reportCall _ (certify_transfers o .err Payload.err?) hs ho
  | errAppend text =>
    exact runs_bind.mpr (runs_look (errAppend_transfers o text) hs ho fun _ _ hs' => hs'.zero)

theorem callPrimitive_handles (on : String) (move : Bool) (p : Primitive) :
    Handles 0 0 (callPrimitive on move p) Outcome.claims := by
  intro s F hB hs
  refine runs_bind.mpr (runs_objectAt hs.of_zero fun o ho => ?_)
  refine runs_bind.mpr ((p.runs_call move hs.of_zero ho).mono fun found s' hs' => ?_)
  exact found.answer_handles s' F hB hs'

end Primitives

/-! ## All actions -/

/-- Objects are made out of payloads without claims. -/
def Action.Lawful : Action → Prop
  | onObject a => a.Lawful
  | _ => True

theorem Action.run_handles (a : Action) (ha : a.Lawful) : Handles 0 0 a.run Outcome.claims := by
  cases a with
  | onClass a => exact a.run_handles
  | onObject a => exact a.run_handles ha
  | onValue a => exact a.run_handles
  | onWrapper a => exact a.run_handles
  | onError a => exact a.run_handles
  | method on w m => exact callMethod_handles on w m
  | primitive on move p => exact callPrimitive_handles on move p

end ObjectBridge
