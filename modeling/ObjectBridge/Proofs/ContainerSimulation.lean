import ObjectBridge.Proofs.HostContainers

set_option autoImplicit false

/-!
# Wrappers simulate host containers (SPEC §11.3, §12.2)

A program makes vectors and hashes, numbers them in the order in which it makes them, and calls them
in any order.  The same program can be run on lists and maps of host values.  The two runs are
compared step by step: after each step, what the handles are on stands for the lists and maps, as
`Stocked` says, and what the step answered is equal.
-/

namespace ObjectBridge

open Heap Bridge

namespace Container

/-! ## Programs -/

/-- A call on a vector. -/
inductive ListCall where
  | push (v : Value)
  | store (tick : Nat) (v : Value)
  | get (tick : Nat)
  | size

/-- A call on a hash. -/
inductive DictCall where
  | store (key : String) (v : Value)
  | get (key : String)
  | remove (key : String)
  | contains (key : String)
  | size

/-- A step of a program: it makes a container, or calls the one with the given number. -/
inductive Step where
  | makeList (capacity : Nat)
  | makeDict (capacity : Nat)
  | onList (i : Nat) (call : ListCall)
  | onDict (i : Nat) (call : DictCall)

/-- What a step answers; `absent` if there is no such container. -/
inductive Answer where
  | done (r : Except ConversionError Unit)
  | value (v : Value)
  | flag (b : Bool)
  | count (n : Nat)
  | absent

/-- Answers are the same if they are equal, and values if they compare equal both ways. -/
def Answer.Same : Answer → Answer → Prop
  | value v, value w => v.same w = true ∧ w.same v = true
  | a, a' => a = a'

/-- The container that a step calls. -/
def Step.target? : Step → Option Nat
  | makeList _ | makeDict _ => none
  | onList i _ | onDict i _ => some i

/-! ## Programs on wrappers -/

/-- The call, made on the vector `o`. -/
def ListCall.run (o : ObjId) : ListCall → Run Answer
  | push v => do return .done (← VectorObj.pushValue o v)
  | store tick v => do return .done (← VectorObj.storeValue o tick v)
  | get tick => do return .value (← VectorObj.getValue o tick)
  | size => do return .count (← VectorObj.size o)

/-- The call, made on the hash `o`. -/
def DictCall.run (o : ObjId) : DictCall → Run Answer
  | store key v => do return .done (← HashObj.storeValue o key v)
  | get key => do return .value (← HashObj.getValue o key)
  | remove key => do return .value (← HashObj.removeValue o key)
  | contains key => do return .flag (← HashObj.contains o key)
  | size => do return .count (← HashObj.size o)

/-- The step, with the handles on the containers before and after it. -/
def Step.run (handles : List ObjId) : Step → Run (Answer × List ObjId)
  | makeList capacity => do
    let o ← adopt (← VectorObj.new capacity)
    return (.done (.ok ()), handles ++ [o])
  | makeDict capacity => do
    let o ← adopt (← HashObj.withCapacity capacity)
    return (.done (.ok ()), handles ++ [o])
  | onList i call =>
    match handles[i]? with
    | some o => do return (← call.run o, handles)
    | none => return (.absent, handles)
  | onDict i call =>
    match handles[i]? with
    | some o => do return (← call.run o, handles)
    | none => return (.absent, handles)

/-- The steps in turn. -/
def runAll (handles : List ObjId) : List Step → Run (List Answer × List ObjId)
  | [] => return ([], handles)
  | s :: rest => do
    let first ← s.run handles
    let others ← runAll first.2 rest
    return (first.1 :: others.1, others.2)

/-! ## Programs on lists and maps -/

/-- What the call answers and does, said of a list. -/
def ListCall.meaning (items : List Value) : ListCall → Answer × List Value
  | push v => (.done (.ok ()), items ++ [v])
  | store tick v => (.done (.ok ()), putAt items tick v)
  | get tick => (.value (itemAt items tick), items)
  | size => (.count items.length, items)

/-- What the call answers and does, said of a map. -/
def DictCall.meaning (entries : ValueMap) : DictCall → Answer × ValueMap
  | store key v => (.done (.ok ()), entries.insert key v)
  | get key => (.value (entryOf entries key), entries)
  | remove key => (.value (entryOf entries key), entries.erase key)
  | contains key => (.flag (decide (key ∈ entries)), entries)
  | size => (.count entries.keys.card, entries)

/-- What the step answers and does, said of lists and maps. -/
def Step.meaning (cs : List Container) : Step → Answer × List Container
  | makeList _ => (.done (.ok ()), cs ++ [.list []])
  | makeDict _ => (.done (.ok ()), cs ++ [.dict ∅])
  | onList i call =>
    match cs[i]? with
    | some (.list items) => ((call.meaning items).1, cs.set i (.list (call.meaning items).2))
    | _ => (.absent, cs)
  | onDict i call =>
    match cs[i]? with
    | some (.dict entries) => ((call.meaning entries).1, cs.set i (.dict (call.meaning entries).2))
    | _ => (.absent, cs)

section Known

variable {handles : List ObjId} {cs : List Container} {i : Nat} {o : ObjId}

theorem Step.run_onList (ho : handles[i]? = some o) (call : ListCall) :
    (onList i call).run handles = do return (← call.run o, handles) := by
  simp only [Step.run, ho]

theorem Step.run_onDict (ho : handles[i]? = some o) (call : DictCall) :
    (onDict i call).run handles = do return (← call.run o, handles) := by
  simp only [Step.run, ho]

theorem Step.meaning_onList {items : List Value} (hc : cs[i]? = some (.list items))
    (call : ListCall) :
    (onList i call).meaning cs =
      ((call.meaning items).1, cs.set i (.list (call.meaning items).2)) := by
  simp only [Step.meaning, hc]

theorem Step.meaning_onDict {entries : ValueMap} (hc : cs[i]? = some (.dict entries))
    (call : DictCall) :
    (onDict i call).meaning cs =
      ((call.meaning entries).1, cs.set i (.dict (call.meaning entries).2)) := by
  simp only [Step.meaning, hc]

end Known

/-- What the steps answer and do in turn, said of lists and maps. -/
def meanings (cs : List Container) : List Step → List Answer × List Container
  | [] => ([], cs)
  | s :: rest =>
    ((s.meaning cs).1 :: (meanings (s.meaning cs).2 rest).1, (meanings (s.meaning cs).2 rest).2)

/-! ## Programs that are accepted -/

/-- All maps in the value have distinct keys, all sequences fit into storage, and no objects are in
it. -/
def Detached (v : Value) : Prop := v.WellFormed ∧ v.claims = []

/-- The value has no objects in it, and the vector has the index or can grow to it, where there is
storage as `allocates` says. -/
def ListCall.Accepted (allocates : Nat → Bool) (items : List Value) : ListCall → Prop
  | push v => Detached v
  | store tick v =>
    Detached v ∧ tick + 1 ≤ VectorObj.maxSize ∧ (tick < items.length ∨ allocates (tick + 1) = true)
  | get _ | size => True

/-- The value has no objects in it. -/
def DictCall.Accepted : DictCall → Prop
  | store _ v => Detached v
  | get _ | remove _ | contains _ | size => True

/-- There is room for a container that is made, and a container of the right kind for a call. -/
def Step.Accepted (allocates : Nat → Bool) (cs : List Container) : Step → Prop
  | makeList capacity => capacity ≤ VectorObj.maxSize
  | makeDict capacity => HashObj.hasRoom capacity = true
  | onList i call => ∃ items, cs[i]? = some (.list items) ∧ call.Accepted allocates items
  | onDict i call => ∃ entries, cs[i]? = some (.dict entries) ∧ call.Accepted

/-- Each step is accepted when its turn comes. -/
def Accepted (allocates : Nat → Bool) (cs : List Container) : List Step → Prop
  | [] => True
  | s :: rest => s.Accepted allocates cs ∧ Accepted allocates (s.meaning cs).2 rest

/-! ## One step -/

section Step

variable {allocates : Nat → Bool} {b b' : Bridge} {F host : Multiset ObjId} {handles : List ObjId}
  {cs : List Container} {i : Nat} {o : ObjId}
  {c : Container} {bad : Unwind → Bridge → Prop}

theorem ListCall.ends_run {items : List Value} (call : ListCall) (hb : b.Books F) (hu : b.Bounded)
    (ho : o ∈ F) (hm : b.Mirrors o (.list items)) (ha : call.Accepted b.allocates items) :
    Ends (call.run o) b
      (fun a b' => a.Same (call.meaning items).1 ∧
        Updated F 0 o (.list (call.meaning items).2) b b') bad := by
  cases call with
  | push v =>
    unfold ListCall.run
    rw [ends_bind]
    exact (ends_pushValue hb hu ho hm ha.1 ha.2).mono (fun _ _ h => ⟨congrArg Answer.done h.1, h.2⟩)
      (fun _ _ h => h)
  | store tick v =>
    obtain ⟨hv, hmax, hroom⟩ := ha
    unfold ListCall.run
    rw [ends_bind]
    exact (ends_storeValue hb hu ho hm hv.1 hv.2 hmax hroom).mono
      (fun _ _ h => ⟨congrArg Answer.done h.1, h.2⟩)
      (fun _ _ h => h)
  | get tick =>
    unfold ListCall.run
    rw [ends_bind]
    exact (ends_getValue_list hb hu hm tick).mono (fun _ _ h => h) (fun _ _ h => h)
  | size =>
    unfold ListCall.run
    rw [ends_bind]
    refine (ends_size_list hm).mono (fun n b' h => ?_) (fun _ _ h => h)
    obtain ⟨rfl, rfl⟩ := h
    exact ⟨rfl, updated_self hb hu hm⟩

theorem DictCall.ends_run {entries : ValueMap} (call : DictCall) (hb : b.Books F) (hu : b.Bounded)
    (ho : o ∈ F) (hm : b.Mirrors o (.dict entries)) (ha : call.Accepted) :
    Ends (call.run o) b
      (fun a b' => a.Same (call.meaning entries).1 ∧
        Updated F 0 o (.dict (call.meaning entries).2) b b') bad := by
  cases call with
  | store key v =>
    unfold DictCall.run
    rw [ends_bind]
    exact (ends_storeValue_dict hb hu ho hm ha.1 ha.2 key).mono
      (fun _ _ h => ⟨congrArg Answer.done h.1, h.2⟩)
      (fun _ _ h => h)
  | get key =>
    unfold DictCall.run
    rw [ends_bind]
    exact (ends_getValue_dict hb hu hm key).mono (fun _ _ h => h) (fun _ _ h => h)
  | remove key =>
    unfold DictCall.run
    rw [ends_bind]
    exact (ends_removeValue hb hu ho hm key).mono (fun _ _ h => h) (fun _ _ h => h)
  | contains key =>
    unfold DictCall.run
    rw [ends_bind]
    refine (ends_contains_dict hm key).mono (fun r b' h => ?_) (fun _ _ h => h)
    obtain ⟨rfl, rfl⟩ := h
    exact ⟨rfl, updated_self hb hu hm⟩
  | size =>
    unfold DictCall.run
    rw [ends_bind]
    refine (ends_size_dict hm).mono (fun n b' h => ?_) (fun _ _ h => h)
    obtain ⟨rfl, rfl⟩ := h
    exact ⟨rfl, updated_self hb hu hm⟩

/-- The host holds a claim on each container, besides the claims `host`, and what the handles are on
stands for the lists and maps.  There is storage as `allocates` says. -/
structure Stocked (allocates : Nat → Bool) (b : Bridge) (host : Multiset ObjId)
    (handles : List ObjId) (cs : List Container) : Prop where
  storage : b.allocates = allocates
  books : b.Books (handles + host)
  bounded : b.Bounded
  mirrors : List.Forall₂ b.Mirrors handles cs

namespace Stocked

theorem mirrors_at (hs : Stocked allocates b host handles cs) (hc : cs[i]? = some c) :
    ∃ o, handles[i]? = some o ∧ b.Mirrors o c := by
  obtain ⟨hi, rfl⟩ := List.getElem?_eq_some_iff.mp hc
  have hi' : i < handles.length := hs.mirrors.length_eq ▸ hi
  exact ⟨handles[i], List.getElem?_eq_getElem hi', hs.mirrors.get hi' hi⟩

/-- No two handles are on the same container. -/
theorem nodup (hs : Stocked allocates b host handles cs) : handles.Nodup := by
  rw [List.nodup_iff_count_le_one]
  intro o
  by_cases ho : o ∈ handles
  · obtain ⟨c, hc⟩ := exists_of_mem_right hs.mirrors.flip ho
    have hm : b.Mirrors o c := hc.2
    have hcount := (hm.alone (hs.books.sound hs.bounded) (Multiset.mem_add.mpr (.inl ho))).1
    rw [Multiset.count_add, Multiset.coe_count] at hcount
    omega
  · rw [List.count_eq_zero.mpr ho]
    exact Nat.zero_le 1

/-- A call on one container changes what that one stands for, and no other. -/
theorem updated (hs : Stocked allocates b host handles cs) (hi : handles[i]? = some o)
    (hup : Updated (handles + host) 0 o c b b') :
    Stocked allocates b' host handles (cs.set i c) := by
  refine ⟨(congrArg Machine.allocates hup.machine).trans hs.storage,
    zero_add (handles + host) ▸ hup.books, hup.bounded, ?_⟩
  obtain ⟨hilt, rfl⟩ := List.getElem?_eq_some_iff.mp hi
  refine List.forall₂_iff_get.mpr ⟨hs.mirrors.length_eq.trans List.length_set.symm,
    fun j hj hj' => ?_⟩
  rw [List.get_eq_getElem, List.get_eq_getElem]
  by_cases hji : j = i
  · subst hji
    rw [List.getElem_set_self]
    exact hup.mirrors
  · rw [List.getElem_set_ne (Ne.symm hji)]
    refine hup.others _ (Multiset.mem_add.mpr (.inl (List.getElem_mem hj))) ?_ _
      (hs.mirrors.get hj _)
    exact fun heq => hji (hs.nodup.getElem_inj_iff.mp heq)

/-- The host makes a container, and numbers it after the others. -/
theorem made {cls : Class} {payload : Payload} (hs : Stocked allocates b host handles cs)
    (hm : { b with heap := b.heap.add ⟨cls, 1, payload⟩ }.Mirrors b.heap.next c)
    (hrooted : cls.Rooted) (hclaims : payload.claims = []) :
    Stocked allocates { b with heap := b.heap.add ⟨cls, 1, payload⟩ } host
      (handles ++ [b.heap.next]) (cs ++ [c]) := by
  have hbooks : b.Books (payload.claims + (handles + host)) := by
    rw [hclaims, Multiset.coe_nil, zero_add]
    exact hs.books
  refine ⟨hs.storage, ?_, hs.bounded, List.rel_append ?_ (.cons hm .nil)⟩
  · have hnew := hbooks.add hrooted
    rw [← Multiset.cons_add, ← Multiset.singleton_add, add_comm {_}] at hnew
    rw [← Multiset.coe_add]
    exact hnew
  · exact hs.mirrors.imp fun p d hd => hd.add (hs.books.sound hs.bounded) _

end Stocked

theorem mirrors_new_list (b : Bridge) :
    { b with heap := b.heap.add ⟨.vector, 1, .vector []⟩ }.Mirrors b.heap.next (.list []) :=
  ⟨[], by rw [get?_add, if_pos rfl], .nil⟩

theorem mirrors_new_dict (b : Bridge) :
    { b with heap := b.heap.add ⟨.hash, 1, .hash .empty⟩ }.Mirrors b.heap.next (.dict ∅) := by
  refine ⟨.empty, ∅, by rw [get?_add, if_pos rfl], .of_pairs List.nodup_nil nofun nofun rfl,
    nofun, fun key => ?_⟩
  rw [Finmap.lookup_empty, Finmap.lookup_empty]
  exact .none

/-- A step that is accepted answers the same on wrappers as on lists and maps, and leaves them in
step. -/
theorem Step.ends_run (s : Step) (hs : Stocked allocates b host handles cs)
    (ha : s.Accepted allocates cs) :
    Ends (s.run handles) b
      (fun r b' => r.1.Same (s.meaning cs).1 ∧
        Stocked allocates b' host r.2 (s.meaning cs).2) bad := by
  cases s with
  | makeList capacity =>
    have hmade := hs.made (mirrors_new_list b) rfl rfl
    have hroom : ¬ VectorObj.maxSize < capacity := not_lt.mpr ha
    unfold Step.run VectorObj.new
    rw [ends_bind, if_neg hroom, ends_makeObj (by rfl), ends_bind, ends_adopt hmade.books.started]
    exact ⟨rfl, hmade⟩
  | makeDict capacity =>
    have hmade := hs.made (mirrors_new_dict b) rfl rfl
    have hroom : HashObj.hasRoom capacity = true := ha
    unfold Step.run HashObj.withCapacity HashObj.new
    rw [ends_bind, if_pos hroom, ends_makeObj (by rfl), ends_bind, ends_adopt hmade.books.started]
    exact ⟨rfl, hmade⟩
  | onList i call =>
    obtain ⟨items, hc, ha⟩ := ha
    obtain ⟨o, ho, hm⟩ := hs.mirrors_at hc
    have hmem : o ∈ (handles : Multiset ObjId) + host :=
      Multiset.mem_add.mpr (.inl (List.mem_of_getElem? ho))
    rw [Step.run_onList ho, Step.meaning_onList hc, ends_bind]
    rw [← hs.storage] at ha
    refine (call.ends_run hs.books hs.bounded hmem hm ha).mono (fun a b' hend => ?_)
      (fun _ _ hbad => hbad)
    exact ⟨hend.1, hs.updated ho hend.2⟩
  | onDict i call =>
    obtain ⟨entries, hc, ha⟩ := ha
    obtain ⟨o, ho, hm⟩ := hs.mirrors_at hc
    have hmem : o ∈ (handles : Multiset ObjId) + host :=
      Multiset.mem_add.mpr (.inl (List.mem_of_getElem? ho))
    rw [Step.run_onDict ho, Step.meaning_onDict hc, ends_bind]
    refine (call.ends_run hs.books hs.bounded hmem hm ha).mono (fun a b' hend => ?_)
      (fun _ _ hbad => hbad)
    exact ⟨hend.1, hs.updated ho hend.2⟩

/-! ## Programs -/

/-- All steps answer the same on wrappers as on lists and maps. -/
theorem ends_runAll (steps : List Step) (hs : Stocked allocates b host handles cs)
    (ha : Accepted allocates cs steps) :
    Ends (runAll handles steps) b
      (fun r b' => List.Forall₂ Answer.Same r.1 (meanings cs steps).1 ∧
        Stocked allocates b' host r.2 (meanings cs steps).2)
      bad := by
  induction steps generalizing b handles cs with
  | nil => exact ⟨.nil, hs⟩
  | cons s rest ih =>
    obtain ⟨hhead, htail⟩ := ha
    unfold runAll
    rw [ends_bind]
    refine (s.ends_run hs hhead).mono (fun first b₁ hfirst => ?_) (fun _ _ hbad => hbad)
    rw [ends_bind]
    refine (ih hfirst.2 htail).mono (fun others b₂ hothers => ?_) (fun _ _ hbad => hbad)
    exact ⟨.cons hfirst.1 hothers.1, hothers.2⟩

end Step

/-! ## Calls on other containers -/

section Others

variable {allocates : Nat → Bool} {cs ds : List Container} {s q : Step} {j : Nat}

/-- A step leaves alone the lists and maps that it does not call. -/
theorem meaning_other (ha : s.Accepted allocates cs) (hs : s.target? ≠ some j)
    (hj : j < cs.length) :
    (s.meaning cs).2[j]? = cs[j]? := by
  cases s with
  | makeList capacity | makeDict capacity => exact List.getElem?_append_left hj
  | onList i call =>
    obtain ⟨items, hc, -⟩ := ha
    rw [Step.meaning_onList hc]
    exact List.getElem?_set_ne fun heq => hs (congrArg some heq)
  | onDict i call =>
    obtain ⟨entries, hc, -⟩ := ha
    rw [Step.meaning_onDict hc]
    exact List.getElem?_set_ne fun heq => hs (congrArg some heq)

/-- What a call answers, and that it is accepted, is a matter of the container that it calls. -/
theorem meaning_congr (ha : q.Accepted allocates cs) (hq : q.target? = some j)
    (hd : ds[j]? = cs[j]?) :
    (q.meaning ds).1 = (q.meaning cs).1 ∧ q.Accepted allocates ds := by
  cases q with
  | makeList capacity | makeDict capacity => cases hq
  | onList i call =>
    cases hq
    obtain ⟨items, hc, ha⟩ := ha
    have hc' := hd.trans hc
    exact ⟨by rw [Step.meaning_onList hc, Step.meaning_onList hc'], items, hc', ha⟩
  | onDict i call =>
    cases hq
    obtain ⟨entries, hc, ha⟩ := ha
    have hc' := hd.trans hc
    exact ⟨by rw [Step.meaning_onDict hc, Step.meaning_onDict hc'], entries, hc', ha⟩

theorem lt_length_of_accepted (ha : q.Accepted allocates cs) (hq : q.target? = some j) :
    j < cs.length := by
  cases q with
  | makeList capacity | makeDict capacity => cases hq
  | onList i call | onDict i call =>
    cases hq
    obtain ⟨_, hc, -⟩ := ha
    exact (List.getElem?_eq_some_iff.mp hc).1

theorem accepted_append (before rest : List Step) :
    Accepted allocates cs (before ++ rest) ↔
      Accepted allocates cs before ∧ Accepted allocates (meanings cs before).2 rest := by
  induction before generalizing cs with
  | nil => exact ⟨fun h => ⟨trivial, h⟩, fun h => h.2⟩
  | cons s before ih =>
    rw [List.cons_append, Accepted, Accepted, ih, meanings, and_assoc]

theorem meanings_append (before rest : List Step) :
    (meanings cs (before ++ rest)).2 = (meanings (meanings cs before).2 rest).2 := by
  induction before generalizing cs with
  | nil => rfl
  | cons s before ih => exact ih

end Others

/-- What the call `q` answers after the steps `before`, if all of them return. -/
def answerAfter (b : Bridge) (before : List Step) (q : Step) : Option Answer :=
  match ((do q.run (← runAll [] before).2) : Run (Answer × List ObjId)).run b with
  | (.ok r, _) => some r.1
  | (.error _, _) => none

theorem Answer.Same.of_same {a a' r : Answer} (h : a.Same r) (h' : a'.Same r) : a.Same a' := by
  cases a with
  | value v =>
    cases r with
    | value w =>
      cases a' with
      | value v' => exact ⟨Value.same_trans h.1 h'.2, Value.same_trans h'.1 h.2⟩
      | done _ | flag _ | count _ | absent => cases h'
    | done _ | flag _ | count _ | absent => cases h
  | done _ | flag _ | count _ | absent =>
    cases h
    cases a' with
    | value v' => cases h'
    | done _ | flag _ | count _ | absent => exact Eq.symm h'

theorem answerAfter_same {b : Bridge} {host : Multiset ObjId} (hb : b.Books host) (hu : b.Bounded)
    {before : List Step} {q : Step} (ha : Accepted b.allocates [] before)
    (hq : q.Accepted b.allocates (meanings [] before).2) :
    ∃ a, answerAfter b before q = some a ∧ a.Same (q.meaning (meanings [] before).2).1 := by
  have hs : Stocked b.allocates b host [] [] := ⟨rfl, by simpa using hb, hu, .nil⟩
  have hends : Ends (do q.run (← runAll [] before).2) b
      (fun r _ => r.1.Same (q.meaning (meanings [] before).2).1) (fun _ _ => False) := by
    rw [ends_bind]
    refine (ends_runAll before hs ha).mono (fun r b₁ hr => ?_) (fun _ _ hbad => hbad)
    exact (q.ends_run hr.2 hq).mono (fun _ _ h => h.1) (fun _ _ hbad => hbad)
  obtain ⟨r, b', hrun, hsame⟩ := hends.returns
  refine ⟨r.1, ?_, hsame⟩
  unfold answerAfter
  rw [hrun]

/-- A program does the same on wrappers as on lists and maps of host values. -/
structure Simulated (b : Bridge) (steps : List Step) : Prop where
  /-- every step returns, with an answer equal to the one for lists and maps -/
  answers : ∃ answers handles b', (runAll [] steps).run b = (.ok (answers, handles), b') ∧
    List.Forall₂ Answer.Same answers (meanings [] steps).1
  /-- no step changes what a call on another container would answer -/
  independent : ∀ before s rest, steps = before ++ s :: rest → ∀ q j, q.target? = some j →
    s.target? ≠ some j →
    q.Accepted b.allocates (meanings [] before).2 →
    ∃ a a', answerAfter b before q = some a ∧ answerAfter b (before ++ [s]) q = some a' ∧ a.Same a'

/-- Whatever containers a program makes and whatever calls it makes on them, in any order, with
values that have no objects in them: it gets the answers that lists and maps of host values would
give, and a call on one container never changes what another one answers. -/
theorem containers_simulated {b : Bridge} {host : Multiset ObjId} (hb : b.Books host)
    (hu : b.Bounded) (steps : List Step) (ha : Accepted b.allocates [] steps) :
    Simulated b steps := by
  have hs : Stocked b.allocates b host [] [] := ⟨rfl, by simpa using hb, hu, .nil⟩
  have hall : Ends (runAll [] steps) b
      (fun r _ => List.Forall₂ Answer.Same r.1 (meanings [] steps).1)
      (fun _ _ => False) := (ends_runAll steps hs ha).mono (fun _ _ h => h.1) (fun _ _ hbad => hbad)
  obtain ⟨r, b', hrun, hsame⟩ := hall.returns
  refine ⟨⟨r.1, r.2, b', hrun, hsame⟩, ?_⟩
  rintro before s rest rfl q j hq hne hacc
  obtain ⟨hbefore, hstep, -⟩ := (accepted_append before (s :: rest)).mp ha
  have hj := lt_length_of_accepted hacc hq
  obtain ⟨hmeaning, hacc'⟩ := meaning_congr hacc hq (meaning_other hstep hne hj)
  obtain ⟨a, haft, hsa⟩ := answerAfter_same hb hu hbefore hacc
  have hafter : (meanings [] (before ++ [s])).2 = (s.meaning (meanings [] before).2).2 :=
    meanings_append before [s]
  have hprogram : Accepted b.allocates [] (before ++ [s]) :=
    (accepted_append before [s]).mpr ⟨hbefore, hstep, trivial⟩
  obtain ⟨a', haft', hsa'⟩ := answerAfter_same (q := q) hb hu hprogram (by rwa [hafter])
  rw [hafter, hmeaning] at hsa'
  exact ⟨a, a', haft, haft', hsa.of_same hsa'⟩

/-- A map with a list with a null and a NaN in it. -/
def nestedValue : Value := .map [("k", .seq [.null, .float 0x7ff8000000000001])]

theorem detached_nestedValue : Detached nestedValue := by
  refine ⟨⟨.map (by decide) ?_, .map ?_⟩, rfl⟩
  · simp only [List.forall_mem_singleton]
    exact .seq (List.forall_mem_cons.mpr ⟨.null, List.forall_mem_singleton.mpr (.float _)⟩)
  · simp only [List.forall_mem_singleton]
    exact .seq (by decide)
      (List.forall_mem_cons.mpr ⟨.null, List.forall_mem_singleton.mpr (.float _)⟩)

/-- Two vectors and a hash: a store beyond the end, a value that is replaced and taken out, and a
null that is bound. -/
def mixedSteps : List Step :=
  [.makeList 0, .makeDict 3, .makeList 2, .onList 0 (.store 2 nestedValue),
    .onDict 1 (.store "a" nestedValue), .onDict 1 (.store "b" .null),
    .onDict 1 (.store "a" (.text "x")), .onList 2 (.push nestedValue), .onDict 1 (.remove "a"),
    .onDict 1 (.contains "b"), .onDict 1 .size, .onDict 1 (.get "a"), .onList 0 (.get 2),
    .onList 0 .size, .onList 2 (.get 5)]

theorem accepted_mixedSteps : Accepted clashingBridge.allocates [] mixedSteps := by
  have hnested := detached_nestedValue
  have hnull : Detached .null := ⟨⟨.null, .null⟩, rfl⟩
  have htext : Detached (.text "x") := ⟨⟨.text _, .text _⟩, rfl⟩
  refine ⟨Nat.zero_le _, rfl, Nat.le_of_ble_eq_true rfl,
    ⟨_, rfl, hnested, by decide, .inr (by decide)⟩, ⟨_, rfl, hnested⟩, ⟨_, rfl, hnull⟩,
    ⟨_, rfl, htext⟩, ⟨_, rfl, hnested⟩, ⟨_, rfl, trivial⟩, ⟨_, rfl, trivial⟩, ⟨_, rfl, trivial⟩,
    ⟨_, rfl, trivial⟩, ⟨_, rfl, trivial⟩, ⟨_, rfl, trivial⟩, ⟨_, rfl, trivial⟩, trivial⟩

/-- All keys have one checksum here.  The value that was stored last is taken out, and the null
stays bound. -/
theorem containers_simulated_for_clashing_keys :
    Simulated clashingBridge mixedSteps ∧ (meanings [] mixedSteps).1.drop 8 =
      [.value (.text "x"), .flag true, .count 1, .value .null, .value nestedValue, .count 3,
        .value .null] :=
  ⟨containers_simulated clashingBridge_books (by decide) mixedSteps accepted_mixedSteps, by rfl⟩

end Container

end ObjectBridge
