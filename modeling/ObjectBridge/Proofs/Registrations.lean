import ObjectBridge.Proofs.Calls
import ObjectBridge.Proofs.ClassNames

set_option autoImplicit false

/-!
# Wrappers and the history of their registrations (SPEC §4.2, §12.2, §12.5)

A `Process` is a bridge together with what the application has registered so far, the part before
the bridge was started apart from the part since then.  Its steps are the calls that register
wrappers or define classes, the start of the bridge, and anything else that leaves these tables
alone.  `Process.registrations` puts the registrations in order, those of the bridge itself
included, and `Bridge.Records` says that the table of wrappers holds the last one of each class; it
holds of every process that steps lead to.

Wrappers are registered under the identities of classes.  Identities stand for classes because the
table of class names is in order.
-/

namespace ObjectBridge

/-! ## The most recent registration -/

/-- The wrapper that was last registered for exactly this class. -/
def lastWrapper? (regs : List (Class × Wrapper)) (c : Class) : Option Wrapper :=
  regs.reverse.lookup c

section LastWrapper

variable {regs new : List (Class × Wrapper)} {c d : Class} {w : Wrapper}

theorem lastWrapper?_append (regs new : List (Class × Wrapper)) (c : Class) :
    lastWrapper? (regs ++ new) c = (lastWrapper? new c).or (lastWrapper? regs c) := by
  simp [lastWrapper?, List.lookup_append]

theorem lastWrapper?_push (regs : List (Class × Wrapper)) (c : Class) (w : Wrapper) (d : Class) :
    lastWrapper? (regs ++ [(c, w)]) d = if c = d then some w else lastWrapper? regs d := by
  rw [lastWrapper?_append]
  by_cases hd : c = d
  · simp [lastWrapper?, hd]
  · have hne : (d == c) = false := beq_eq_false_iff_ne.mpr (Ne.symm hd)
    simp [lastWrapper?, List.lookup_cons, hd, hne]

theorem lastWrapper?_eq_none_iff : lastWrapper? regs c = none ↔ ∀ w, (c, w) ∉ regs := by
  simp only [lastWrapper?, List.lookup_eq_none_iff, List.mem_reverse, Prod.forall, bne_iff_ne]
  constructor
  · intro h w hw
    exact h c w hw rfl
  · rintro h d w hd rfl
    exact h w hd

end LastWrapper

/-! ## The table of wrappers -/

/-- The map holds, under the identity of each class of the table, what was last registered for it,
and nothing else. -/
structure Recorded (t : ClassTable) (m : List (ClassId × Class × Wrapper))
    (regs : List (Class × Wrapper)) : Prop where
  nodup : (Assoc.keys m).Nodup
  known : ∀ e ∈ regs, e.1 ∈ t.made
  keyed : ∀ k e, (k, e) ∈ m → e.1 ∈ t.made ∧ k = e.1.id
  finds : ∀ c ∈ t.made, Assoc.find? c.id m = (lastWrapper? regs c).map fun w => (c, w)

namespace Recorded

variable {t t' : ClassTable} {m : List (ClassId × Class × Wrapper)} {regs : List (Class × Wrapper)}
  {c : Class}

theorem empty (t : ClassTable) : Recorded t [] [] where
  nodup := List.nodup_nil
  known _ he := absurd he List.not_mem_nil
  keyed _ _ he := absurd he List.not_mem_nil
  finds _ _ := rfl

theorem insert (hr : Recorded t m regs) (ht : t.Ordered) (hc : c ∈ t.made) (w : Wrapper) :
    Recorded t (Assoc.insert c.id (c, w) m) (regs ++ [(c, w)]) := by
  constructor
  · exact Assoc.nodup_keys_insert m c.id (c, w) hr.nodup
  · intro e he
    rcases List.mem_append.mp he with hold | hnew
    · exact hr.known e hold
    · rw [List.mem_singleton.mp hnew]
      exact hc
  · intro k e he
    rcases Assoc.mem_insert he with heq | hold
    · cases heq
      exact ⟨hc, rfl⟩
    · exact hr.keyed k e hold
  · intro d hd
    have hid : c.id = d.id ↔ c = d := ⟨ht.eq_of_id hc hd, fun h => h ▸ rfl⟩
    rw [Assoc.find?_insert, lastWrapper?_push]
    by_cases heq : c = d
    · simp [heq]
    · simp [hid, heq, hr.finds d hd]

theorem insertAll (hr : Recorded t m regs) (ht : t.Ordered) (new : List (Class × Wrapper))
    (hnew : ∀ e ∈ new, e.1 ∈ t.made) :
    Recorded t (Assoc.insertAll (new.map fun e => (e.1.id, e)) m) (regs ++ new) := by
  induction new generalizing m regs with
  | nil => simpa [Assoc.insertAll] using hr
  | cons e rest ih =>
    rw [List.append_cons]
    exact ih (hr.insert ht (hnew e List.mem_cons_self) e.2) fun e' he =>
      hnew e' (List.mem_cons_of_mem e he)

/-- Nothing is registered yet for classes that are defined later. -/
theorem leads (hr : Recorded t m regs) (ht : t.Ordered) (hl : t.Leads t') : Recorded t' m regs := by
  have ht' := ht.leads hl
  have hsub : t.made ⊆ t'.made := hl.made_extends.subset
  refine ⟨hr.nodup, fun e he => hsub (hr.known e he), fun k e he => ?_, fun c hc => ?_⟩
  · obtain ⟨hmade, hk⟩ := hr.keyed k e he
    exact ⟨hsub hmade, hk⟩
  · by_cases hold : c ∈ t.made
    · exact hr.finds c hold
    · have hlast : lastWrapper? regs c = none :=
        lastWrapper?_eq_none_iff.mpr fun w hw => hold (hr.known (c, w) hw)
      have hfree : Assoc.find? c.id m = none := by
        cases hfind : Assoc.find? c.id m with
        | none => rfl
        | some e =>
          obtain ⟨hmade, hid⟩ := hr.keyed c.id e (Assoc.mem_of_find? hfind)
          exact absurd (ht'.eq_of_id hc (hsub hmade) hid ▸ hmade) hold
      rw [hfree, hlast]
      rfl

/-- The classes of the map are those for which something was registered. -/
theorem mem_classes_iff (hr : Recorded t m regs) (c : Class) :
    c ∈ m.map (fun e => e.2.1) ↔ ∃ w, (c, w) ∈ regs := by
  have hsome : c ∈ t.made → ((∃ w, (c, w) ∈ regs) ↔ ∃ e, Assoc.find? c.id m = some e) := by
    intro hc
    rw [hr.finds c hc, ← not_iff_not, not_exists, ← lastWrapper?_eq_none_iff]
    cases lastWrapper? regs c <;> simp
  constructor
  · intro hmem
    obtain ⟨⟨k, e⟩, he, rfl⟩ := List.mem_map.mp hmem
    obtain ⟨hmade, hk⟩ := hr.keyed k e he
    exact (hsome hmade).mpr ⟨e, Assoc.find?_of_mem hr.nodup (hk ▸ he)⟩
  · rintro ⟨w, hw⟩
    have hc := hr.known (c, w) hw
    obtain ⟨e, he⟩ := (hsome hc).mp ⟨w, hw⟩
    have hfound := hr.finds c hc
    rw [he] at hfound
    obtain ⟨w', -, rfl⟩ := Option.map_eq_some_iff.mp hfound.symm
    exact List.mem_map.mpr ⟨(c.id, c, w'), Assoc.mem_of_find? he, rfl⟩

theorem nodup_classes (hr : Recorded t m regs) : (m.map fun e => e.2.1).Nodup := by
  have hkeys : Assoc.keys m = (m.map fun e => e.2.1).map Class.id := by
    rw [Assoc.keys, List.map_map]
    exact List.map_congr_left fun e he => (hr.keyed e.1 e.2 he).2
  have hnodup := hr.nodup
  rw [hkeys] at hnodup
  exact List.Nodup.of_map _ hnodup

end Recorded

/-! ## Starting -/

namespace Bridge

/-- The tables of classes and wrappers are the same, and the bridge has been started in both states
or in none. -/
structure SameTables (b b' : Bridge) : Prop where
  started : b'.started = b.started
  classes : b'.classes = b.classes
  wrappers : b'.wrappers = b.wrappers

/-- The objects of a heap are there in another as they were. -/
def KeepsObjects (b b' : Bridge) : Prop := ∀ o x, b.heap.get? o = some x → b'.heap.get? o = some x

/-- What starting brings about in a bridge that has not been started. -/
structure Starts (b b' : Bridge) : Prop where
  started : b'.started = true
  classes : b'.classes = b.classes
  wrappers : b'.wrappers = (b.wrappers.insertAll (Wrapper.builtins.map fun e => (e.1.id, e))).2
  objects : b.KeepsObjects b'

end Bridge

section Start

variable {b : Bridge}

theorem ends_truth (value : Bool) :
    Ends (truth value) b (fun _ b' => b.SameTables b' ∧ b.KeepsObjects b') (fun _ _ => False) := by
  have hmake : ∀ v, makeObj .boolean (.boolean v) = allocate .boolean (.boolean v) := fun _ =>
    if_pos rfl
  have hold : ∀ {h : Heap} {o : ObjId} {x : Obj} (y : Obj), h.get? o = some x →
      (h.add y).get? o = some x := by
    intro h o x y hx
    rw [Heap.get?_add, if_neg (Heap.ne_next_of_get? hx), hx]
  unfold truth
  rw [ends_bind, ends_get]
  cases b.truths with
  | some pair => exact ⟨⟨rfl, rfl, rfl⟩, fun _ _ hx => hx⟩
  | none =>
    simp only [hmake, allocate, ends_bind, ends_get, ends_set, ends_pure, ends_modify]
    exact ⟨⟨rfl, rfl, rfl⟩, fun o x hx => hold _ (hold _ hx)⟩

theorem ends_bootstrap :
    Ends bootstrap b (fun _ b' => b.SameTables b' ∧ b.KeepsObjects b') (fun _ _ => False) := by
  unfold bootstrap hooksInstalled
  simp only [ends_bind, ends_get, ends_pure]
  split
  · simp only [ends_bind, ends_log, ends_get]
    exact (ends_truth false).mono (fun _ _ h => ⟨⟨h.1.started, h.1.classes, h.1.wrappers⟩, h.2⟩)
      (fun _ _ h => h)
  · simp only [ends_bind, ends_log, ends_get]
    exact (ends_truth false).mono (fun _ _ h => ⟨⟨h.1.started, h.1.classes, h.1.wrappers⟩, h.2⟩)
      (fun _ _ h => h)

theorem ends_installHooks (hooks : Hooks) :
    Ends (installHooks hooks) b (fun _ b' => b.SameTables b' ∧ b'.heap = b.heap)
      (fun _ _ => False) := by
  unfold installHooks
  simp only [ends_bind, ends_get]
  split
  · exact ⟨⟨rfl, rfl, rfl⟩, rfl⟩
  · exact ⟨⟨rfl, rfl, rfl⟩, rfl⟩

/-- The first start registers the wrappers of the built-in classes on top of what was registered
before. -/
theorem ends_start_first (hs : b.started = false) :
    Ends start b (fun _ b' => b.Starts b') (fun _ _ => False) := by
  -- the rest of a start from any state that came out of installing the hooks
  have hrest : ∀ b₁ : Bridge, { b with started := true }.SameTables b₁ → b₁.heap = b.heap →
      Ends (do
        bootstrap
        let _ ← registerWrappers Wrapper.builtins
        log .debug "clownfish bridge initialized") b₁
        (fun _ b' => b.Starts b') (fun _ _ => False) := by
    intro b₁ h₁ hheap
    rw [ends_bind]
    refine ends_bootstrap.mono (fun _ b₂ h₂ => ?_) (fun _ _ h => h)
    obtain ⟨h₂, hobjects⟩ := h₂
    constructor
    · exact h₂.started.trans h₁.started
    · exact h₂.classes.trans h₁.classes
    · change (b₂.wrappers.insertAll _).2 = _
      rw [h₂.wrappers, h₁.wrappers]
    · intro o x hx
      exact hobjects o x (hheap ▸ hx)
  unfold start
  simp only [ends_bind, ends_get, hs, Bool.false_eq_true, if_false, ends_modify]
  refine (ends_installHooks .bridge).mono (fun installed b₁ h₁ => ?_) (fun _ _ h => h)
  cases installed with
  | true => simpa using hrest b₁ h₁.1 h₁.2
  | false =>
    have hlog :=
      hrest { b₁ with
          journal :=
            b₁.journal.push (.log .warn "clownfish raise/trap hooks were already installed") }
      ⟨h₁.1.started, h₁.1.classes, h₁.1.wrappers⟩ h₁.2
    simpa [warn] using hlog

theorem ends_defineClass (name : String) (parent : Class) (flags : ClassFlags) (layout : Layout) :
    Ends (defineClass name parent flags layout) b
      (fun _ b' =>
        { b with classes := (b.classes.define name parent flags layout.size).2 }.SameTables b')
      (fun _ _ => False) := by
  unfold defineClass
  simp only [ends_bind, ends_get, ends_set]
  split
  · exact ⟨rfl, rfl, rfl⟩
  · split
    · exact ⟨rfl, rfl, rfl⟩
    · exact ⟨rfl, rfl, rfl⟩

end Start

/-! ## Processes -/

/-- A bridge, and what the application has registered so far. -/
structure Process where
  bridge : Bridge
  /-- what was registered while the bridge had not been started -/
  early : List (Class × Wrapper)
  /-- what has been registered since -/
  late : List (Class × Wrapper)

namespace Process

/-- Nothing has run yet. -/
def new (machine : Machine) : Process := ⟨.fresh machine, [], []⟩

/-- Nothing but the start of the bridge has run. -/
def ready (machine : Machine) : Process := ⟨(start.run (.fresh machine)).2, [], []⟩

/-- All registrations in order.  The bridge registers the wrappers of the built-in classes when it
is started. -/
def registrations (p : Process) : List (Class × Wrapper) :=
  if p.bridge.started then p.early ++ Wrapper.builtins ++ p.late else p.early

/-- The application has registered some wrappers, which left the bridge in the state `b`. -/
def noting (p : Process) (entries : List (Class × Wrapper)) (b : Bridge) : Process :=
  if p.bridge.started then ⟨b, p.early, p.late ++ entries⟩ else ⟨b, p.early ++ entries, p.late⟩

/-- What can happen in a process.  The classes that calls are given have to exist. -/
inductive Step (p : Process) : Process → Prop
  | start : Step p { p with bridge := (ObjectBridge.start.run p.bridge).2 }
  | register (c : Class) (w : Wrapper) (hc : c ∈ p.bridge.classes.made) :
    Step p (p.noting [(c, w)] ((registerWrapper c w).run p.bridge).2)
  | registerAll (entries : List (Class × Wrapper))
    (hc : ∀ e ∈ entries, e.1 ∈ p.bridge.classes.made) :
    Step p (p.noting entries ((registerWrappers entries).run p.bridge).2)
  | define (name : String) (parent : Class) (flags : ClassFlags) (layout : Layout)
    (hp : parent ∈ p.bridge.classes.made) :
    Step p { p with bridge := ((defineClass name parent flags layout).run p.bridge).2 }
  | addAlias (c : Class) (name : String) (hc : c ∈ p.bridge.classes.made) :
    Step p { p with bridge := ((aliasClass c name).run p.bridge).2 }
  /-- work on objects, hooks and the journal -/
  | work {b : Bridge} (hb : p.bridge.SameTables b) : Step p { p with bridge := b }

/-- Anything that happens in a process, step by step. -/
abbrev Leads : Process → Process → Prop := Relation.ReflTransGen Step

/-- What holds of every process that steps lead to. -/
structure Valid (p : Process) : Prop where
  ordered : p.bridge.classes.Ordered
  recorded : Recorded p.bridge.classes p.bridge.wrappers.current.entries p.registrations
  unstarted : p.bridge.started = false → p.late = []

/-- What one step can do to the tables: it may register `added`, it may add classes, and a started
bridge stays started. -/
structure Advance (p p' : Process) (added : List (Class × Wrapper)) : Prop where
  known : ∀ e ∈ added, e.1 ∈ p.bridge.classes.made
  classes : p.bridge.classes.Leads p'.bridge.classes
  wrappers : p'.bridge.wrappers.current.entries =
    Assoc.insertAll (added.map fun e => (e.1.id, e)) p.bridge.wrappers.current.entries
  registrations : p'.registrations = p.registrations ++ added
  started : p.bridge.started = true → p'.bridge.started = true ∧ p'.early = p.early
  unstarted : p'.bridge.started = false → p'.late = []

variable {p p' : Process}

theorem advance_start (hp : p.Valid) :
    ∃ added, p.Advance { p with bridge := (ObjectBridge.start.run p.bridge).2 } added := by
  cases hs : p.bridge.started with
  | true =>
    have hrun : (ObjectBridge.start.run p.bridge).2 = p.bridge :=
      Ends.final (P := fun b' => b' = p.bridge) ((ends_start hs).mpr rfl)
    rw [hrun]
    refine ⟨[], by simp, .refl, rfl, by simp [Process.registrations], fun _ =>
      ⟨hs, rfl⟩, fun h => ?_⟩
    simp [hs] at h
  | false =>
    have hstarts : p.bridge.Starts (ObjectBridge.start.run p.bridge).2 :=
      Ends.final ((ends_start_first hs).mono (fun _ _ h => h) fun _ _ h => h.elim)
    refine ⟨Wrapper.builtins, ?_, ?_, ?_, ?_, ?_, ?_⟩
    · have hbuiltins : ∀ e ∈ Wrapper.builtins, e.1 ∈ Class.builtins := by decide
      exact fun e he => hp.ordered.builtins (hbuiltins e he)
    · simp only [hstarts.classes]
      exact .refl
    · simp only [hstarts.wrappers]
      rfl
    · simp [Process.registrations, hstarts.started, hs, hp.unstarted hs]
    · simp [hs]
    · simp [hstarts.started]

theorem advance_noting {b : Bridge} (hp : p.Valid) (entries : List (Class × Wrapper))
    (hc : ∀ e ∈ entries, e.1 ∈ p.bridge.classes.made) (hs : b.started = p.bridge.started)
    (ht : b.classes = p.bridge.classes)
    (hw : b.wrappers.current.entries =
      Assoc.insertAll (entries.map fun e => (e.1.id, e)) p.bridge.wrappers.current.entries) :
    p.Advance (p.noting entries b) entries := by
  unfold noting
  cases hstarted : p.bridge.started with
  | true =>
    refine ⟨hc, ?_, by simpa using hw, ?_, by simp [hs, hstarted], by simp [hs, hstarted]⟩
    · simp only [if_true, ht]
      exact .refl
    · simp [Process.registrations, hs, hstarted]
  | false =>
    refine ⟨hc, ?_, by simpa using hw, ?_, by simp [hstarted], by simp [hp.unstarted hstarted]⟩
    · simp only [Bool.false_eq_true, if_false, ht]
      exact .refl
    · simp [Process.registrations, hs, hstarted]

/-- A step that registers nothing. -/
theorem advance_classes {b : Bridge} (hp : p.Valid) {t : ClassTable} (ht : p.bridge.classes.Leads t)
    (hb : { p.bridge with classes := t }.SameTables b) : p.Advance { p with bridge := b } [] := by
  refine ⟨by simp, ?_, ?_, ?_, fun hs => ⟨hb.started.trans hs, rfl⟩, fun hs => ?_⟩
  · simp only [hb.classes]
    exact ht
  · simp only [hb.wrappers]
    rfl
  · simp [Process.registrations, hb.started]
  · exact hp.unstarted (hb.started.symm.trans hs)

theorem Step.advance (hp : p.Valid) (hs : Step p p') : ∃ added, p.Advance p' added := by
  cases hs with
  | start => exact advance_start hp
  | register c w hc => exact ⟨_, advance_noting hp [(c, w)] (by simpa using hc) rfl rfl rfl⟩
  | registerAll entries hc => exact ⟨_, advance_noting hp entries hc rfl rfl rfl⟩
  | define name parent flags layout hparent =>
    have hb :=
      Ends.final ((ends_defineClass (b := p.bridge) name parent flags layout).mono (fun _ _ h => h)
      fun _ _ h => h.elim)
    have hstep : p.bridge.classes.Step (p.bridge.classes.define name parent flags layout.size).2 :=
      ⟨.define name parent flags layout.size, hparent, rfl⟩
    exact ⟨_, advance_classes hp (.single hstep) hb⟩
  | addAlias c name hc =>
    have hstep : p.bridge.classes.Step (p.bridge.classes.addAlias c name).2 :=
      ⟨.addAlias c name, hc, rfl⟩
    exact ⟨_, advance_classes hp (.single hstep) ⟨rfl, rfl, rfl⟩⟩
  | work hb => exact ⟨_, advance_classes hp .refl hb⟩

theorem Advance.valid {added : List (Class × Wrapper)} (hp : p.Valid) (ha : p.Advance p' added) :
    p'.Valid := by
  refine ⟨hp.ordered.leads ha.classes, ?_, ha.unstarted⟩
  rw [ha.wrappers, ha.registrations]
  exact (hp.recorded.insertAll hp.ordered added ha.known).leads hp.ordered ha.classes

theorem Leads.valid (hl : Leads p p') (hp : p.Valid) : p'.Valid := by
  induction hl with
  | refl => exact hp
  | tail _ hstep ih =>
    obtain ⟨added, hadvance⟩ := hstep.advance ih
    exact hadvance.valid ih

theorem Leads.classes (hl : Leads p p') (hp : p.Valid) :
    p.bridge.classes.Leads p'.bridge.classes := by
  induction hl with
  | refl => exact .refl
  | tail hfirst hstep ih =>
    obtain ⟨added, hadvance⟩ := hstep.advance (Leads.valid hfirst hp)
    exact ih.trans hadvance.classes

/-- Nothing that was registered is taken back. -/
theorem Leads.registrations_extend (hl : Leads p p') (hp : p.Valid) :
    p.registrations <+: p'.registrations := by
  induction hl with
  | refl => exact List.prefix_refl _
  | tail hfirst hstep ih =>
    obtain ⟨added, hadvance⟩ := hstep.advance (Leads.valid hfirst hp)
    rw [hadvance.registrations]
    exact ih.trans (List.prefix_append _ _)

theorem Leads.started (hl : Leads p p') (hp : p.Valid) (hs : p.bridge.started = true) :
    p'.bridge.started = true ∧ p'.early = p.early := by
  induction hl with
  | refl => exact ⟨hs, rfl⟩
  | tail hfirst hstep ih =>
    obtain ⟨added, hadvance⟩ := hstep.advance (Leads.valid hfirst hp)
    obtain ⟨hstarted, hearly⟩ := hadvance.started ih.1
    exact ⟨hstarted, hearly.trans ih.2⟩

theorem valid_new (machine : Machine) : (Process.new machine).Valid :=
  ⟨ClassTable.initial_ordered, Recorded.empty _, fun _ => rfl⟩

theorem leads_ready (machine : Machine) : Leads (.new machine) (.ready machine) := .single .start

end Process

end ObjectBridge
