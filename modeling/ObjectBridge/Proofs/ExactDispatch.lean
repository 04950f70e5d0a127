import ObjectBridge.Proofs.Accounting
import ObjectBridge.Proofs.Copying
import ObjectBridge.Proofs.Registrations

set_option autoImplicit false

/-!
# Wrapping by the exact class (SPEC §4.2, §8, §12.5)

An object is wrapped by what was last registered for exactly its class, wherever in the history that
was; what is registered for ancestors of the class does not matter.  A class that has a wrapper
keeps one for ever.

The order of registrations is that of the calls, with those of the bridge itself at its first start.
A registration for a built-in class that comes before the start is therefore replaced by the start.

Left out: registrations by several threads at a time (SPEC §8).  A history is the order in which
they were published.
-/

namespace ObjectBridge

/-! ## Runs of single calls -/

section Calls

variable {b : Bridge} {o : ObjId} {x : Obj} {w : Wrapper}

theorem ends_dispatch (hs : b.started = true) (hx : b.heap.get? o = some x)
    {ok : HostRef → Bridge → Prop} {bad : Unwind → Bridge → Prop} :
    Ends (dispatch o) b ok bad ↔
      match b.wrapperOf x.cls with
      | some w => ok ⟨w, o⟩ b
      | none =>
        Ends (releaseAll [o]) { b with
            journal := b.journal.push (.log .error (lookupMessage x.cls)) }
        (fun _ b' => bad (.fault (lookupMessage x.cls)) b') bad := by
  unfold dispatch classOf
  rw [ends_bind, ends_start hs, ends_bind, ends_bind, ends_readObj_known hx, ends_pure, ends_bind,
    ends_wrapperFor?]
  cases b.wrapperOf x.cls <;> simp

theorem run_dispatch (hs : b.started = true) (hx : b.heap.get? o = some x)
    (hw : b.wrapperOf x.cls = some w) :
    (dispatch o).run b = (.ok ⟨w, o⟩, b) := by
  apply Ends.run_ok
  simp [ends_dispatch hs hx, hw]

/-- Without a wrapper for its class an object is not wrapped. -/
theorem wrapperOf_of_run_dispatch {h : HostRef} {b' : Bridge} (hs : b.started = true)
    (hx : b.heap.get? o = some x) (hrun : (dispatch o).run b = (.ok h, b')) :
    ∃ w, b.wrapperOf x.cls = some w := by
  cases hw : b.wrapperOf x.cls with
  | some w => exact ⟨w, rfl⟩
  | none =>
    have hfails : Ends (dispatch o) b (fun _ _ => False) (fun _ _ => True) := by
      rw [ends_dispatch hs hx, hw]
      exact ends_trivial _ _
    exact (hfails.of_ok hrun).elim

/-- The object is not wrapped, and the claim is given back. -/
theorem run_dispatch_refused {host : Multiset ObjId} (hb : b.Books (o ::ₘ host)) (hu : b.Bounded)
    (hx : b.heap.get? o = some x) (hw : b.wrapperOf x.cls = none) :
    (dispatch o).run b = (.error (.fault (lookupMessage x.cls)),
      { b with journal := b.journal.push (.log .error (lookupMessage x.cls)) }.swept [o]) := by
  have hsound : { b with journal := b.journal.push (.log .error (lookupMessage x.cls)) }.Sound
      (([o] : List ObjId) + host) := (hb.journal _).sound hu
  apply Ends.run_error
  rw [ends_dispatch hb.started hx, hw]
  exact (ends_releaseAll_sound hsound).mpr ⟨rfl, rfl⟩

theorem run_share {h : HostRef} (hs : b.started = true) (hx : b.heap.get? h.obj = some x) :
    h.share.run b = (dispatch h.obj).run (b.retained h.obj x) := by
  have hshare : (share h.obj).run b = (.ok h.obj, b.retained h.obj x) := by
    apply Ends.run_ok
    unfold share retain
    rw [ends_bind, ends_bind, ends_readObj_known hx, ends_modify, ends_adopt (by exact hs)]
    exact ⟨rfl, rfl⟩
  exact run_bind_of_ok hshare

end Calls

/-! ## Histories -/

namespace Process

variable {p p' : Process} {c : Class}

theorem Valid.wrapperOf (hp : p.Valid) (hc : c ∈ p.bridge.classes.made) :
    p.bridge.wrapperOf c = lastWrapper? p.registrations c := by
  unfold Bridge.wrapperOf SnapshotRegistry.get?
  rw [hp.recorded.finds c hc]
  cases lastWrapper? p.registrations c <;> rfl

/-- How objects are wrapped, given everything that was registered so far. -/
structure WrapsExactly (p : Process) (regs : List (Class × Wrapper)) : Prop where
  /-- the last registration for exactly the class decides, and the wrapper takes over the claim -/
  wraps : ∀ o x w, p.bridge.heap.get? o = some x → x.cls ∈ p.bridge.classes.made →
    lastWrapper? regs x.cls = some w →
    (dispatch o).run p.bridge = (.ok ⟨w, o⟩, p.bridge)
  /-- without a registration for exactly the class, and only then, the claim is given back and the
  fault is about the class -/
  refuses : ∀ o x host, p.bridge.heap.get? o = some x → x.cls ∈ p.bridge.classes.made →
    p.bridge.Books (o ::ₘ host) → p.bridge.Bounded →
    ((∀ w, (x.cls, w) ∉ regs) ↔
      ∃ b', (dispatch o).run p.bridge = (.error (.fault (lookupMessage x.cls)), b') ∧
      b'.heap = (p.bridge.heap.sweep [o]).heap ∧ b'.Books host)
  listed : ∃ classes, registeredClasses.run p.bridge = (.ok classes, p.bridge) ∧ classes.Nodup ∧
    ∀ c, c ∈ classes ↔ ∃ w, (c, w) ∈ regs
  /-- registering a wrapper says whether it is the first one of the class -/
  first : ∀ c ∈ p.bridge.classes.made, ∀ w, ∃ isFirst b',
    (registerWrapper c w).run p.bridge = (.ok isFirst, b') ∧
    (isFirst = true ↔ ∀ w', (c, w') ∉ regs)
  /-- where one object of a class could be wrapped, each object of the class can be wrapped ever
  after -/
  lasting : ∀ o x w h b', p.bridge.heap.get? o = some x → x.cls ∈ p.bridge.classes.made →
    (dispatch o).run p.bridge = (.ok h, b') ∨ (HostRef.share ⟨w, o⟩).run p.bridge = (.ok h, b') →
    ∀ p', Leads p p' → ∀ o' x', p'.bridge.heap.get? o' = some x' → x'.cls = x.cls →
      ∃ w', (dispatch o').run p'.bridge = (.ok ⟨w', o'⟩, p'.bridge) ∧
        ∀ w, (HostRef.share ⟨w, o'⟩).run p'.bridge = (.ok ⟨w', o'⟩, p'.bridge.retained o' x')

theorem Valid.refuses {o : ObjId} {x : Obj} {host : Multiset ObjId} (hp : p.Valid)
    (hx : p.bridge.heap.get? o = some x) (hc : x.cls ∈ p.bridge.classes.made)
    (hb : p.bridge.Books (o ::ₘ host)) (hu : p.bridge.Bounded) :
    (∀ w, (x.cls, w) ∉ p.registrations) ↔
      ∃ b', (dispatch o).run p.bridge = (.error (.fault (lookupMessage x.cls)), b') ∧
        b'.heap = (p.bridge.heap.sweep [o]).heap ∧ b'.Books host := by
  rw [← lastWrapper?_eq_none_iff, ← hp.wrapperOf hc]
  constructor
  · intro hw
    have hclaims : p.bridge.Books (([o] : List ObjId) + host) := hb
    have hjournal := hclaims.journal (p.bridge.journal.push (.log .error (lookupMessage x.cls)))
    exact ⟨_, run_dispatch_refused hb hu hx hw, rfl, hjournal.sweep _⟩
  · rintro ⟨b', hrun, -⟩
    cases hw : p.bridge.wrapperOf x.cls with
    | none => rfl
    | some w =>
      rw [run_dispatch hb.started hx hw] at hrun
      cases hrun

theorem Valid.first (hp : p.Valid) (hc : c ∈ p.bridge.classes.made) (w : Wrapper) :
    ∃ isFirst b', (registerWrapper c w).run p.bridge = (.ok isFirst, b') ∧
      (isFirst = true ↔ ∀ w', (c, w') ∉ p.registrations) := by
  refine ⟨_, _, rfl, ?_⟩
  rw [← lastWrapper?_eq_none_iff]
  change ((Assoc.find? c.id p.bridge.wrappers.current.entries).isNone = true) ↔ _
  rw [hp.recorded.finds c hc]
  cases lastWrapper? p.registrations c <;> simp

/-- A class with a wrapper has one in every later state. -/
theorem Valid.registered_later (hp : p.Valid) (hl : Leads p p') (hc : c ∈ p.bridge.classes.made)
    {w : Wrapper} (hw : p.bridge.wrapperOf c = some w) : ∃ w', p'.bridge.wrapperOf c = some w' := by
  have hmade : c ∈ p'.bridge.classes.made := (hl.classes hp).made_extends.subset hc
  rw [(hl.valid hp).wrapperOf hmade, ← Option.ne_none_iff_exists', ne_eq, lastWrapper?_eq_none_iff]
  rw [hp.wrapperOf hc] at hw
  intro hnone
  have hbefore : lastWrapper? p.registrations c = none :=
    lastWrapper?_eq_none_iff.mpr fun w' hmem => hnone w' ((hl.registrations_extend hp).subset hmem)
  rw [hw] at hbefore
  cases hbefore

theorem Valid.lasting {o : ObjId} {x : Obj} {w : Wrapper} {h : HostRef} {b' : Bridge} (hp : p.Valid)
    (hs : p.bridge.started = true) (hx : p.bridge.heap.get? o = some x)
    (hc : x.cls ∈ p.bridge.classes.made)
    (hrun : (dispatch o).run p.bridge = (.ok h, b') ∨
      (HostRef.share ⟨w, o⟩).run p.bridge = (.ok h, b'))
    (hl : Leads p p') {o' : ObjId} {x' : Obj} (hx' : p'.bridge.heap.get? o' = some x')
    (hcls : x'.cls = x.cls) :
    ∃ w', (dispatch o').run p'.bridge = (.ok ⟨w', o'⟩, p'.bridge) ∧
      ∀ w, (HostRef.share ⟨w, o'⟩).run p'.bridge = (.ok ⟨w', o'⟩, p'.bridge.retained o' x') := by
  have hnow : ∃ w, p.bridge.wrapperOf x.cls = some w := by
    rcases hrun with hdispatch | hshare
    · exact wrapperOf_of_run_dispatch hs hx hdispatch
    · rw [run_share hs hx] at hshare
      obtain ⟨y, hy, hycls, -⟩ := Heap.sameAt_retain o x hx
      rw [← hycls]
      exact wrapperOf_of_run_dispatch (b := p.bridge.retained o x) hs hy hshare
  obtain ⟨w, hw⟩ := hnow
  obtain ⟨w', hw'⟩ := hp.registered_later hl hc hw
  rw [← hcls] at hw'
  have hs' := (hl.started hp hs).1
  refine ⟨w', run_dispatch hs' hx' hw', fun w => ?_⟩
  rw [run_share hs' hx']
  obtain ⟨y, hy, hycls, -⟩ := Heap.sameAt_retain o' x' hx'
  rw [← hycls] at hw'
  exact run_dispatch (b := p'.bridge.retained o' x') hs' hy hw'

theorem Valid.wrapsExactly (hp : p.Valid) (hs : p.bridge.started = true) :
    p.WrapsExactly p.registrations := by
  constructor
  · intro o x w hx hc hw
    exact run_dispatch hs hx ((hp.wrapperOf hc).trans hw)
  · intro o x host hx hc hb hu
    exact hp.refuses hx hc hb hu
  · exact ⟨_, rfl, hp.recorded.nodup_classes, hp.recorded.mem_classes_iff⟩
  · intro c hc w
    exact hp.first hc w
  · intro o x w h b' hx hc hrun p' hl o' x' hx' hcls
    exact hp.lasting hs hx hc hrun hl hx' hcls

end Process

/-- Once the bridge has been started, and whatever is registered and defined then, objects are
wrapped by exactly what was last registered for their class. -/
theorem wraps_by_exact_class {machine : Machine} {p : Process}
    (hl : Process.Leads (.ready machine) p) :
    p.WrapsExactly (Wrapper.builtins ++ p.late) := by
  have hready := (Process.leads_ready machine).valid (Process.valid_new machine)
  obtain ⟨hs, hearly⟩ := hl.started hready rfl
  have hregs : p.registrations = Wrapper.builtins ++ p.late := by
    simp [Process.registrations, hs, hearly, Process.ready]
  rw [← hregs]
  exact (hl.valid hready).wrapsExactly hs

/-- The wrapper of pets. -/
def petWrapper : Wrapper := .extension ⟨"PetRef", "Pet", .unit⟩

/-- A class below the class of pets. -/
def puppyClass : Class := .child ⟨⟨11⟩, "Puppy", .none, 40⟩ petClass

/-- The class of pets is defined and has a wrapper, the class below it has none, and there is an
object of each. -/
def petProcess : Process :=
  let ready := Process.ready .usual
  let pet : Process :=
    { ready with bridge := ((defineClass "Pet" .obj .none .unit).run ready.bridge).2 }
  let wrapped :=
    pet.noting [(petClass, petWrapper)] ((registerWrapper petClass petWrapper).run pet.bridge).2
  let puppy : Process :=
    { wrapped with bridge := ((defineClass "Puppy" petClass .none .unit).run wrapped.bridge).2 }
  { puppy with bridge := { puppy.bridge with
      heap := (puppy.bridge.heap.add ⟨petClass, 1, .unit⟩).add ⟨puppyClass, 1, .unit⟩ } }

theorem leads_petProcess : Process.Leads (.ready .usual) petProcess := by
  have hpet : Process.Leads (.ready .usual) _ :=
    .single (.define "Pet" .obj .none .unit (by decide))
  have hwrapped := hpet.tail (.register petClass petWrapper (by decide +kernel))
  have hpuppy := hwrapped.tail (.define "Puppy" petClass .none .unit (by decide +kernel))
  exact hpuppy.tail (.work ⟨rfl, rfl, rfl⟩)

theorem petProcess_books : petProcess.bridge.Books (⟨3⟩ ::ₘ {⟨2⟩}) := by
  have hpets : (ClassTable.initial.define "Pet" .obj .none 40).2.Rooted :=
    ClassTable.initial_rooted.define (c := .obj) rfl .none 40
  have hclasses :
      ((ClassTable.initial.define "Pet" .obj .none 40).2.define "Puppy" petClass .none
        40).2.Rooted :=
    hpets.define (c := petClass) rfl .none 40
  have hready :=
    (((Bridge.ready_books .usual).withClasses hclasses).withWrappers
      petProcess.bridge.wrappers).journal
    petProcess.bridge.journal
  have hpet :=
    Bridge.Books.add (q := .unit) (c := petClass) (by simpa [Payload.claims] using hready) rfl
  exact Bridge.Books.add (q := .unit) (c := puppyClass) (by simpa [Payload.claims] using hpet) rfl

/-- A pet is wrapped by the wrapper of pets, and a puppy is not wrapped at all. -/
theorem wraps_by_exact_class_pets :
    Process.Leads (.ready .usual) petProcess ∧
    (dispatch ⟨2⟩).run petProcess.bridge = (.ok ⟨petWrapper, ⟨2⟩⟩, petProcess.bridge) ∧
    ∃ b', (dispatch ⟨3⟩).run petProcess.bridge =
      (.error (.fault "no wrap function registered for class Puppy"), b') ∧ b'.Books {⟨2⟩} := by
  have hexact := wraps_by_exact_class leads_petProcess
  have hnone : lastWrapper? (Wrapper.builtins ++ petProcess.late) puppyClass = none := by
    decide +kernel
  have hpet :=
    hexact.wraps ⟨2⟩ ⟨petClass, 1, .unit⟩ petWrapper rfl (by decide +kernel) (by decide +kernel)
  have hpuppy :=
    hexact.refuses ⟨3⟩ ⟨puppyClass, 1, .unit⟩ {⟨2⟩} rfl (by decide +kernel) petProcess_books
    (by decide +kernel)
  obtain ⟨b', hrun, -, hbooks⟩ := hpuppy.mp (lastWrapper?_eq_none_iff.mp hnone)
  exact ⟨leads_petProcess, hpet, b', hrun, hbooks⟩

/-! ## Registrations before the start -/

/-- Wrapping starts the bridge if that has not been done. -/
theorem run_dispatch_start {b b' : Bridge} (o : ObjId) (hstart : start.run b = (.ok (), b'))
    (hs : b'.started = true) : (dispatch o).run b = (dispatch o).run b' :=
  run_start_bind _ hstart hs

/-- In whatever order the bridge is started, explicitly or by the call itself, and wrappers are
registered, an object is wrapped by the last registration for exactly its class.  What the bridge
registers by itself comes after everything that was registered before it was started. -/
theorem wraps_in_any_order {machine : Machine} {p : Process} (hl : Process.Leads (.new machine) p)
    {o : ObjId} {x : Obj} {w : Wrapper} (hx : p.bridge.heap.get? o = some x)
    (hc : x.cls ∈ p.bridge.classes.made)
    (hw : lastWrapper? (p.early ++ Wrapper.builtins ++ p.late) x.cls = some w) :
    (dispatch o).run p.bridge = (.ok ⟨w, o⟩, (start.run p.bridge).2) := by
  have hp := hl.valid (Process.valid_new machine)
  cases hs : p.bridge.started with
  | true =>
    have hregs : p.registrations = p.early ++ Wrapper.builtins ++ p.late := by
      simp [Process.registrations, hs]
    rw [run_start hs]
    exact run_dispatch hs hx ((hp.wrapperOf hc).trans (hregs ▸ hw))
  | false =>
    obtain ⟨_, b', hstart, hstarts⟩ := (ends_start_first hs).returns
    have hp' : Process.Valid { p with bridge := b' } := by
      have hvalid := Process.Leads.valid (hl.tail .start) (Process.valid_new machine)
      rwa [hstart] at hvalid
    have hregs : { p with bridge := b' }.registrations = p.early ++ Wrapper.builtins ++ p.late := by
      simp [Process.registrations, hstarts.started]
    have hmade : x.cls ∈ b'.classes.made := hstarts.classes ▸ hc
    rw [run_dispatch_start o hstart hstarts.started, hstart]
    exact run_dispatch hstarts.started (hstarts.objects o x hx)
      ((hp'.wrapperOf hmade).trans (hregs ▸ hw))

/-- A process that registers a wrapper of its own for the base class before the bridge is started,
and has an object of that class. -/
def hastyProcess : Process :=
  let hasty := (Process.new .usual).noting [(.obj, petWrapper)]
    ((registerWrapper .obj petWrapper).run (.fresh .usual)).2
  { hasty with bridge := { hasty.bridge with heap := hasty.bridge.heap.add ⟨.obj, 1, .unit⟩ } }

theorem leads_hastyProcess : Process.Leads (.new .usual) hastyProcess := by
  have hregister : Process.Leads (.new .usual) _ := .single (.register .obj petWrapper (by decide))
  exact hregister.tail (.work ⟨rfl, rfl, rfl⟩)

/-- The start replaces what the application registered for a built-in class before it. -/
theorem start_replaces_early_registration :
    Process.Leads (.new .usual) hastyProcess ∧ hastyProcess.early = [(.obj, petWrapper)] ∧
      ∃ b', (dispatch ⟨0⟩).run hastyProcess.bridge = (.ok ⟨.object, ⟨0⟩⟩, b') :=
  ⟨leads_hastyProcess, rfl, _, Prod.ext (by decide +kernel) rfl⟩

/-- The same process after the start, when it has registered its wrapper once more. -/
def patientProcess : Process :=
  let started := { hastyProcess with bridge := (start.run hastyProcess.bridge).2 }
  started.noting [(.obj, petWrapper)] ((registerWrapper .obj petWrapper).run started.bridge).2

/-- After the start nothing replaces what the application registers. -/
theorem wraps_in_any_order_of_patient_process :
    Process.Leads (.new .usual) patientProcess ∧
      (dispatch ⟨0⟩).run patientProcess.bridge =
        (.ok ⟨petWrapper, ⟨0⟩⟩, (start.run patientProcess.bridge).2) := by
  have hl : Process.Leads (.new .usual) patientProcess :=
    (leads_hastyProcess.tail .start).tail (.register .obj petWrapper (by decide +kernel))
  have hx : patientProcess.bridge.heap.get? ⟨0⟩ = some ⟨.obj, 1, .unit⟩ := by decide +kernel
  exact ⟨hl, wraps_in_any_order hl hx (by decide +kernel) (by decide +kernel)⟩

end ObjectBridge
