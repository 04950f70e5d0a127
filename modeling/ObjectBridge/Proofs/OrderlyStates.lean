import ObjectBridge.Proofs.HeapGrowth
import ObjectBridge.Proofs.Registrations
import ObjectBridge.Proofs.ScriptChanges

set_option autoImplicit false

/-!
# States that scripts reach (SPEC §3, §12.5)

What holds of every state that a script passes through, on top of its accounts: the classes of its
objects are in the table, and the keys of its hashes are strings.  Neither can be checked by a call
that meets such an object; both hold because of how the object came to be, so they are shown for the
elementary changes of the bridge and follow for all runs.
-/

namespace ObjectBridge

/-! ## Keys -/

namespace Heap

variable {h h' : Heap} {o k : ObjId} {x : Obj} {p : Payload}

/-- The identity was given to a string object, which may be gone. -/
def KeyAt (h : Heap) (k : ObjId) : Prop :=
  h.Used k ∧ ∀ y, h.get? k = some y → y.cls = .string ∧ y.payload.layout = .string

/-- All keys of all hashes are strings. -/
def Keyed (h : Heap) : Prop :=
  ∀ o x inside, h.get? o = some x → x.payload = .hash inside → ∀ e ∈ inside.entries, h.KeyAt e.key

theorem keyAt_of_string {n : UInt32} {text : String}
    (hk : h.get? k = some ⟨.string, n, .string text⟩) : h.KeyAt k := by
  refine ⟨used_of_get? hk, fun y hy => ?_⟩
  obtain rfl := Option.some.inj (hk.symm.trans hy)
  exact ⟨rfl, rfl⟩

/-- Objects may go or change their counts, and nothing else. -/
structure Fades (h h' : Heap) : Prop where
  used : ∀ o, h.Used o → h'.Used o
  from_old : ∀ o y, h'.get? o = some y → ∃ x, h.get? o = some x ∧ y.cls = x.cls ∧
    y.payload = x.payload

theorem fades_retain (h : Heap) (o : ObjId) : h.Fades (h.retain o) where
  used p hp := by
    unfold Used at hp ⊢
    rwa [length_retain]
  from_old p y hy := by
    rw [get?_retain] at hy
    split at hy
    · rename_i heq
      obtain ⟨x, hx, rfl⟩ := Option.map_eq_some_iff.mp hy
      refine ⟨x, heq ▸ hx, ?_⟩
      unfold Obj.retained
      split <;> exact ⟨rfl, rfl⟩
    · exact ⟨y, hy, rfl, rfl⟩

theorem fades_sweep (h : Heap) (work : List ObjId) : h.Fades (h.sweep work).heap where
  used _ hp := (used_sweep h work).mpr hp
  from_old _ _ hy := by
    obtain ⟨x, hx, hcls, hpay, -⟩ := sweep_get? h work hy
    exact ⟨x, hx, hcls, hpay⟩

theorem Fades.keyAt (hf : h.Fades h') (hk : h.KeyAt k) : h'.KeyAt k := by
  refine ⟨hf.used k hk.1, fun y hy => ?_⟩
  obtain ⟨x, hx, hcls, hpay⟩ := hf.from_old k y hy
  rw [hcls, hpay]
  exact hk.2 x hx

theorem Fades.keyed (hf : h.Fades h') (hk : h.Keyed) : h'.Keyed := by
  intro o y inside hy hinside e he
  obtain ⟨x, hx, -, hpay⟩ := hf.from_old o y hy
  exact hf.keyAt (hk o x inside hx (hpay ▸ hinside) e he)

theorem KeyAt.add (hk : h.KeyAt k) (x : Obj) : (h.add x).KeyAt k := by
  have hne : k ≠ h.next := by
    rintro rfl
    exact not_used_next hk.1
  refine ⟨(used_add h x k).mpr (.inl hk.1), fun y hy => ?_⟩
  rw [get?_add, if_neg hne] at hy
  exact hk.2 y hy

theorem Keyed.add (hk : h.Keyed) {c : Class} {n : UInt32} (hp : p.claims = []) :
    (h.add ⟨c, n, p⟩).Keyed := by
  intro o x inside hx hinside e he
  rw [get?_add] at hx
  split at hx
  · -- a new hash has no entries, since it has no claims
    obtain rfl := Option.some.inj hx
    change p = .hash inside at hinside
    have hmem : e.key ∈ p.claims := by
      rw [hinside]
      exact List.mem_flatMap.mpr ⟨e, he, List.mem_cons_self⟩
    rw [hp] at hmem
    cases hmem
  · exact (hk o x inside hx hinside e he).add _

/-- A payload that can be replaced is not that of a string. -/
theorem Rewrites.layout_ne {q : Payload} (hr : h.Rewrites q p) : q.layout ≠ .string := by
  cases hr <;> simp [Payload.layout]

theorem KeyAt.setPayload (hk : h.KeyAt k) (hx : h.get? o = some x) (hr : h.Rewrites x.payload p) :
    (h.setPayload o p).KeyAt k := by
  have hne : k ≠ o := by
    rintro rfl
    exact hr.layout_ne (hk.2 x hx).2
  refine ⟨?_, fun y hy => ?_⟩
  · unfold Used
    rw [length_setPayload]
    exact hk.1
  · rw [get?_setPayload, if_neg hne] at hy
    exact hk.2 y hy

theorem Keyed.setPayload (hk : h.Keyed) (hx : h.get? o = some x) (hr : h.Rewrites x.payload p) :
    (h.setPayload o p).Keyed := by
  intro q y inside hy hinside e he
  rw [get?_setPayload] at hy
  split at hy
  · -- the hash that is rewritten keeps its keys, or has got a string that is alive
    obtain ⟨z, hz, rfl⟩ := Option.map_eq_some_iff.mp hy
    obtain rfl := Option.some.inj (hx.symm.trans hz)
    change p = .hash inside at hinside
    subst hinside
    generalize hold : x.payload = old at hr
    cases hr with
    | hash hkeys =>
      have hrewrites : h.Rewrites x.payload (.hash inside) := hold ▸ .hash hkeys
      rcases hkeys e he with ⟨d, hd, hkey⟩ | ⟨text, hstring⟩
      · rw [← hkey]
        exact (hk o x _ hx hold d hd).setPayload hx hrewrites
      · exact (keyAt_of_string hstring).setPayload hx hrewrites
  · exact (hk q y inside hy hinside e he).setPayload hx hr

end Heap

/-! ## Orderly states -/

namespace Bridge

variable {b b' : Bridge}

/-- The objects of the bridge are of classes that definitions have made. -/
structure Classed (b : Bridge) : Prop where
  /-- the table of names has been filled by definitions and aliases -/
  table : ClassTable.Leads .initial b.classes
  /-- every object is of a class in the table -/
  classes : ∀ o x, b.heap.get? o = some x → x.cls ∈ b.classes.made

theorem Classed.grown (hb : b.Classed) : b.classes.Grown := ClassTable.Grown.initial.leads hb.table

theorem Classed.knows (hb : b.Classed) {c : Class} (hc : b.classes.Knows c) :
    c ∈ b.classes.made := by
  rcases hc with hbuiltin | ⟨name, hname⟩
  · exact hb.grown.builtins hbuiltin
  · exact hb.grown.bound name c hname

theorem Classed.fades (hb : b.Classed) (hclasses : b'.classes = b.classes)
    (hf : b.heap.Fades b'.heap) :
    b'.Classed where
  table := hclasses ▸ hb.table
  classes o y hy := by
    obtain ⟨x, hx, hcls, -⟩ := hf.from_old o y hy
    rw [hclasses, hcls]
    exact hb.classes o x hx

theorem Classed.change (hb : b.Classed) (hc : b.Change b') : b'.Classed := by
  cases hc with
  | aside hclasses hheap => exact ⟨hclasses ▸ hb.table, by rw [hclasses, hheap]; exact hb.classes⟩
  | table call hsubject hclasses hheap =>
    have hstep : ClassTable.Step b.classes b'.classes := ⟨call, hb.knows hsubject, hclasses⟩
    have hextends : b.classes.made <+: b'.classes.made :=
      ClassTable.Leads.made_extends (.single hstep)
    refine ⟨hb.table.tail hstep, fun o x hx => ?_⟩
    rw [hheap] at hx
    exact hextends.subset (hb.classes o x hx)
  | add c p hknown hp hclasses hheap =>
    refine ⟨hclasses ▸ hb.table, fun o x hx => ?_⟩
    rw [hheap, Heap.get?_add] at hx
    rw [hclasses]
    split at hx
    · obtain rfl := Option.some.inj hx
      exact hb.knows hknown
    · exact hb.classes o x hx
  | retain o hclasses hheap => exact hb.fades hclasses (hheap ▸ b.heap.fades_retain o)
  | rewrite o x p hx hp hclasses hheap =>
    refine ⟨hclasses ▸ hb.table, fun q y hy => ?_⟩
    rw [hheap, Heap.get?_setPayload] at hy
    rw [hclasses]
    split at hy
    · obtain ⟨z, hz, rfl⟩ := Option.map_eq_some_iff.mp hy
      exact hb.classes o z hz
    · exact hb.classes q y hy
  | sweep claims hclasses hheap => exact hb.fades hclasses (hheap ▸ b.heap.fades_sweep claims)

theorem Classed.leads (hb : b.Classed) (hl : b.Leads b') : b'.Classed := by
  induction hl with
  | refl => exact hb
  | tail _ hchange ih => exact ih.change hchange

/-- What holds of every state that calls lead to. -/
structure Orderly (b : Bridge) : Prop extends b.Classed where
  keys : b.heap.Keyed

theorem Orderly.change (hb : b.Orderly) (hc : b.Change b') : b'.Orderly := by
  refine ⟨hb.toClassed.change hc, ?_⟩
  cases hc with
  | aside _ hheap => exact hheap ▸ hb.keys
  | table _ _ _ hheap => exact hheap ▸ hb.keys
  | add c p _ hp _ hheap => exact hheap ▸ hb.keys.add hp
  | retain o _ hheap => exact hheap ▸ (b.heap.fades_retain o).keyed hb.keys
  | rewrite o x p hx hp _ hheap => exact hheap ▸ hb.keys.setPayload hx hp
  | sweep claims _ hheap => exact hheap ▸ (b.heap.fades_sweep claims).keyed hb.keys

theorem Orderly.leads (hb : b.Orderly) (hl : b.Leads b') : b'.Orderly := by
  induction hl with
  | refl => exact hb
  | tail _ hchange ih => exact ih.change hchange

theorem fresh_orderly (machine : Machine) : (Bridge.fresh machine).Orderly :=
  ⟨⟨.refl, nofun⟩, nofun⟩

theorem ready_orderly (machine : Machine) : (Bridge.ready machine).Orderly := by
  have hstarted : (Bridge.fresh machine).Leads (start.run (Bridge.fresh machine)).2 :=
    (moves_start (Bridge.fresh machine)).final
      (P := fun b : Bridge => (Bridge.fresh machine).Leads b)
  exact (fresh_orderly machine).leads (hstarted.tail (.aside rfl rfl))

/-- The state occurs in a run of some script on some machine, whatever has been journaled, at a
moment when the claims `host` are held outside of objects. -/
def Reached (b : Bridge) (host : Multiset ObjId) : Prop :=
  ∃ machine filter script m, LawfulRoutine script ∧
    ScriptPasses filter script (Session.new (Bridge.ready machine)) m ∧
    { m.session.bridge with journal := b.journal } = b ∧ m.claims = host

variable {host : Multiset ObjId}

theorem Reached.orderly (hr : b.Reached host) : b.Orderly := by
  obtain ⟨machine, filter, script, m, hl, hm, hb, -⟩ := hr
  rw [← hb]
  exact (ready_orderly machine).leads ((hm.leads hl).tail (.aside rfl rfl))

theorem Reached.books (hr : b.Reached host) : b.Books host := by
  obtain ⟨machine, filter, script, m, hl, hm, hb, rfl⟩ := hr
  rw [← hb]
  exact (hm.balanced hl (Session.new_books machine)).books.journal _

/-- A bridge is reached by its first start. -/
theorem start_reached (machine : Machine) : (start.run (Bridge.fresh machine)).2.Reached 0 :=
  ⟨machine, none, [], _, trivial, .here [] _, rfl, rfl⟩

end Bridge

/-- The state after all instructions of a script. -/
def Session.after (script : List Instruction) : Session :=
  ((script.mapM (Instruction.answer none)).run (Session.new (Bridge.ready .usual))).2

theorem ScriptPasses.all (filter : LogFilter) (script : List Instruction) (s : Session) :
    ScriptPasses filter script s ⟨((script.mapM (Instruction.answer filter)).run s).2,
      none, []⟩ := by
  induction script generalizing s with
  | nil => exact .here [] s
  | cons i rest ih =>
    have hstate : (((i :: rest).mapM (Instruction.answer filter)).run s).2 =
        ((rest.mapM (Instruction.answer filter)).run ((i.answer filter).run s).2).2 := by
      rw [List.mapM_cons]
      rfl
    rw [hstate]
    exact .later (ih _)

theorem Session.after_reached {script : List Instruction} (hl : LawfulRoutine script) :
    (Session.after script).bridge.Reached (Session.after script).claims :=
  ⟨.usual, none, script, _, hl, .all none script _, rfl, (zero_add _).trans (zero_add _)⟩

/-! ## The first call of a process -/

section FirstCall

variable {b b' : Bridge}

/-- Building an object starts the bridge if that has not been done. -/
theorem run_hostToForeign_start (v : Value) (required : Option Class) (nullable : Bool)
    (hstart : start.run b = (.ok (), b')) (hs : b'.started = true) :
    (hostToForeign v required nullable).run b = (hostToForeign v required nullable).run b' := by
  cases v <;> unfold hostToForeign <;> exact run_start_bind _ hstart hs

/-- Reading an object does not start the bridge; taking over the claim through which it is read
does. -/
theorem run_foreignToHost_start (o : ObjId) (hstart : start.run b = (.ok (), b')) :
    (do foreignToHost (some (← adopt o))).run b = (foreignToHost (some o)).run b' := by
  have hadopt : (adopt o).run b = (.ok o, b') := run_bind_of_ok hstart
  exact run_bind_of_ok hadopt

/-- A null handle is read without starting anything. -/
theorem run_foreignToHost_null (b : Bridge) : (foreignToHost none).run b = (.ok .null, b) := by
  have hnull (depth : Nat) : toHostWithin depth none = pure .null := by
    unfold toHostWithin
    cases depth <;> rfl
  unfold foreignToHost
  simp only [hnull]
  rfl

/-- The first conversion of a process is one from a reached state. -/
theorem hostToForeign_fresh (machine : Machine) (v : Value) (required : Option Class)
    (nullable : Bool) :
    ∃ b : Bridge, b.Reached 0 ∧ (hostToForeign v required nullable).run (.fresh machine) =
      (hostToForeign v required nullable).run b := by
  obtain ⟨_, b, hstart, hstarts⟩ := (ends_start_first (b := .fresh machine) rfl).returns
  have hreached := Bridge.start_reached machine
  rw [hstart] at hreached
  exact ⟨b, hreached, run_hostToForeign_start v required nullable hstart hstarts.started⟩

end FirstCall

end ObjectBridge
