import ObjectBridge.Proofs.ExactDispatch
import ObjectBridge.Proofs.Snapshots

set_option autoImplicit false

/-!
# Batches (SPEC §4.2, §12.2)

A batch binds pairs in turn and counts those whose key is unbound at that moment, in the map as it
is by then.  In the end the count does not depend on the turns: it is the number of different keys
that were unbound before the batch, and the map has grown by as many entries.  Wrappers are
registered in batches under the identities of their classes.
-/

namespace ObjectBridge

namespace Assoc

variable {K V : Type} [DecidableEq K] {pairs before after m : List (K × V)} {k : K} {v : V}

/-- A pair adds an entry exactly if its key is unbound. -/
theorem length_insert (k : K) (v : V) (m : List (K × V)) :
    (insert k v m).length = m.length + if (find? k m).isNone then 1 else 0 := by
  have hkeys (m : List (K × V)) : m.length = (keys m).length := (List.length_map _).symm
  rw [hkeys, hkeys m]
  by_cases hk : k ∈ keys m
  · have hsome : (find? k m).isNone = false := by
      rwa [← Bool.not_eq_true, Option.isNone_iff_eq_none, find?_eq_none_iff, not_not]
    rw [keys_insert_of_mem m k v hk, hsome]
    rfl
  · rw [keys_insert_of_not_mem m k v hk, (find?_eq_none_iff m k).mpr hk, List.length_append]
    rfl

theorem find?_insertAll_of_not_mem (hk : k ∉ keys pairs) :
    find? k (insertAll pairs m) = find? k m := by
  induction pairs generalizing m with
  | nil => rfl
  | cons p rest ih =>
    rw [keys, List.map_cons, List.mem_cons, not_or] at hk
    obtain ⟨hp, hrest⟩ := hk
    exact (ih hrest).trans ((find?_insert m p.1 k p.2).trans (if_neg (Ne.symm hp)))

/-- What comes before the last pair of a key makes no difference to the key. -/
theorem find?_insertAll_last (hk : k ∉ keys after) :
    find? k (insertAll (before ++ (k, v) :: after) m) = some v := by
  have hsplit : insertAll (before ++ (k, v) :: after) m =
      insertAll after (insert k v (insertAll before m)) :=
    List.foldl_append
  rw [hsplit, find?_insertAll_of_not_mem hk, find?_insert_self]

end Assoc

/-! ## Batches on a registry -/

namespace SnapshotRegistry

variable {K V ε : Type} [DecidableEq K] {r r' : SnapshotRegistry K V} {pairs : List (K × V)}
  {added : Nat}

/-- What a batch of pairs makes of a registry, and the count that it answers. -/
structure Batch (r : SnapshotRegistry K V) (pairs : List (K × V)) (added : Nat)
    (r' : SnapshotRegistry K V) : Prop where
  /-- the count is that of the different keys which were unbound before -/
  counted : added = {k ∈ (Assoc.keys pairs).toFinset | r.contains k = false}.card
  /-- the map has grown by the count -/
  size : r'.size = r.size + added
  /-- a key of the batch has the value of its last pair -/
  last : ∀ before k v after, pairs = before ++ (k, v) :: after → k ∉ Assoc.keys after →
    r'.get? k = some v
  /-- any other key keeps its value -/
  others : ∀ k, k ∉ Assoc.keys pairs → r'.get? k = r.get? k

/-- The running count is by how much the map grows. -/
theorem length_insertAll (pairs m : List (K × V)) :
    (Assoc.insertAll pairs m).length = m.length + countNew pairs m := by
  induction pairs generalizing m with
  | nil => rfl
  | cons p rest ih =>
    refine (ih (Assoc.insert p.1 p.2 m)).trans ?_
    rw [Assoc.length_insert, countNew, Nat.add_assoc]

theorem countNew_eq_filter (r : SnapshotRegistry K V) (pairs : List (K × V)) :
    countNew pairs r.current.entries =
      {k ∈ (Assoc.keys pairs).toFinset | r.contains k = false}.card := by
  rw [countNew_eq]
  congr 1
  ext k
  rw [Finset.mem_sdiff, Finset.mem_filter, Finmap.mem_keys, Assoc.mem_toMap, Bool.not_eq_true]
  exact Iff.rfl

theorem batch_insertAll (r : SnapshotRegistry K V) (pairs : List (K × V)) :
    r.Batch pairs (r.insertAll pairs).1 (r.insertAll pairs).2 where
  counted := r.countNew_eq_filter pairs
  size := length_insertAll pairs r.current.entries
  last before k v after heq hk := by
    subst heq
    exact Assoc.find?_insertAll_last hk
  others _ hk := Assoc.find?_insertAll_of_not_mem hk

omit [DecidableEq K] in
/-- A source that does not fail delivers all its items. -/
theorem collect_eq_ok_iff {source : List (Except ε (K × V))} :
    collect source = .ok pairs ↔ source = pairs.map .ok := by
  induction source generalizing pairs with
  | nil => cases pairs <;> simp [collect]
  | cons item rest ih =>
    cases item with
    | error e => cases pairs <;> simp [collect]
    | ok p =>
      rw [collect]
      cases pairs with
      | nil => cases collect rest <;> simp [Except.map]
      | cons q pairs =>
        rw [List.map_cons, List.cons.injEq, ← ih]
        cases collect rest <;> simp [Except.map]

/-- A batch comes to its end exactly if no item of its source is a failure. -/
theorem insertAllFrom_eq_ok_iff {source : List (Except ε (K × V))} :
    r.insertAllFrom source = (.ok added, r') ↔
      ∃ pairs, source = pairs.map .ok ∧ r.insertAll pairs = (added, r') := by
  rw [insertAllFrom_eq]
  cases hsource : collect source with
  | error e =>
    refine iff_of_false (by simp) ?_
    rintro ⟨pairs, hpairs, -⟩
    rw [collect_eq_ok_iff.mpr hpairs] at hsource
    cases hsource
  | ok pairs =>
    rw [collect_eq_ok_iff] at hsource
    subst hsource
    simp [List.map_inj_right, Prod.ext_iff]

end SnapshotRegistry

/-! ## Batches of wrappers -/

namespace Process

variable {p : Process} {entries : List (Class × Wrapper)} {c : Class}

theorem bridge_noting (p : Process) (entries : List (Class × Wrapper)) (b : Bridge) :
    (p.noting entries b).bridge = b := by
  unfold noting
  split <;> rfl

/-- The last wrapper of a class in a batch takes the place of the one before. -/
theorem Valid.wrapperOf_registerWrappers (hp : p.Valid)
    (hentries : ∀ e ∈ entries, e.1 ∈ p.bridge.classes.made) (hc : c ∈ p.bridge.classes.made) :
    ((registerWrappers entries).run p.bridge).2.wrapperOf c = (lastWrapper? entries c).or
      (p.bridge.wrapperOf c) := by
  have hadvance :
      p.Advance (p.noting entries ((registerWrappers entries).run p.bridge).2) entries :=
    advance_noting hp entries hentries rfl rfl rfl
  have hmade :
      c ∈ (p.noting entries ((registerWrappers entries).run p.bridge).2).bridge.classes.made := by
    rw [bridge_noting]
    exact hc
  have hwrapper := (hadvance.valid hp).wrapperOf hmade
  rw [bridge_noting, hadvance.registrations, lastWrapper?_append, ← hp.wrapperOf hc] at hwrapper
  exact hwrapper

/-- Classes have identities of their own, so that keys are counted as classes are. -/
theorem Valid.countNew_classes (hp : p.Valid)
    (hentries : ∀ e ∈ entries, e.1 ∈ p.bridge.classes.made) :
    SnapshotRegistry.countNew (entries.map fun e => (e.1.id, e)) p.bridge.wrappers.current.entries =
      {c ∈ (entries.map Prod.fst).toFinset | p.bridge.wrapperOf c = none}.card := by
  have hid : Set.InjOn Class.id
      ({c ∈ (entries.map Prod.fst).toFinset | p.bridge.wrapperOf c = none} : Finset Class) := by
    have hknown : ∀ c ∈ (entries.map Prod.fst).toFinset, c ∈ p.bridge.classes.made := by
      intro c hc
      obtain ⟨e, he, rfl⟩ := List.mem_map.mp (List.mem_toFinset.mp hc)
      exact hentries e he
    intro c hc d hd
    exact hp.ordered.eq_of_id (hknown c (Finset.mem_filter.mp hc).1)
      (hknown d (Finset.mem_filter.mp hd).1)
  have hnew : ∀ c : Class, p.bridge.wrappers.contains c.id = false ↔
      p.bridge.wrapperOf c = none := by
    intro c
    unfold Bridge.wrapperOf SnapshotRegistry.contains
    rw [Option.map_eq_none_iff, Option.isSome_eq_false_iff, Option.isNone_iff_eq_none]
  rw [SnapshotRegistry.countNew_eq_filter, ← Finset.card_image_of_injOn hid]
  congr 1
  ext k
  simp only [Finset.mem_filter, Finset.mem_image, List.mem_toFinset, Assoc.keys, List.map_map,
    List.mem_map, Function.comp_apply]
  constructor
  · rintro ⟨⟨e, he, rfl⟩, hk⟩
    exact ⟨e.1, ⟨⟨e, he, rfl⟩, (hnew e.1).mp hk⟩, rfl⟩
  · rintro ⟨_, ⟨⟨e, he, rfl⟩, hk⟩, rfl⟩
    exact ⟨⟨e, he, rfl⟩, (hnew e.1).mpr hk⟩

end Process

/-- A batch that comes to its end answers how many of its different keys were unbound, and that is
by how many entries the map has grown.  Each key has the value of its last pair, and keys that are
not in the batch keep theirs.  Hence a batch of wrappers answers how many different classes had
none. -/
theorem batch_counts_new_keys {K V ε : Type} [DecidableEq K] (r : SnapshotRegistry K V)
    {machine : Machine} {p : Process} (hl : Process.Leads (.new machine) p)
    (entries : List (Class × Wrapper)) (hentries : ∀ e ∈ entries, e.1 ∈ p.bridge.classes.made) :
    (∀ pairs : List (K × V), ∃ added r',
      r.insertAllFrom (pairs.map .ok : List (Except ε (K × V))) = (.ok added, r') ∧
      r.Batch pairs added r') ∧
    (∀ (source : List (Except ε (K × V))) (added : Nat) (r' : SnapshotRegistry K V),
      r.insertAllFrom source = (.ok added, r') → ∃ pairs : List (K × V), source = pairs.map .ok) ∧
    ∃ added b', (registerWrappers entries).run p.bridge = (.ok added, b') ∧
      added = {c ∈ (entries.map Prod.fst).toFinset | p.bridge.wrapperOf c = none}.card ∧
      ∀ c ∈ p.bridge.classes.made, b'.wrapperOf c = (lastWrapper? entries c).or
        (p.bridge.wrapperOf c) := by
  have hp := hl.valid (Process.valid_new machine)
  refine ⟨fun pairs => ?_, fun source added r' hrun => ?_, ?_⟩
  · exact ⟨_, _, SnapshotRegistry.insertAllFrom_eq_ok_iff.mpr ⟨pairs, rfl, rfl⟩,
      r.batch_insertAll pairs⟩
  · obtain ⟨pairs, hpairs, -⟩ := SnapshotRegistry.insertAllFrom_eq_ok_iff.mp hrun
    exact ⟨pairs, hpairs⟩
  · exact ⟨_, _, rfl, hp.countNew_classes hentries, fun c hc =>
      hp.wrapperOf_registerWrappers hentries hc⟩

/-- Wrappers for puppies, twice, and one for pets, which have one. -/
def repeatedWrappers : List (Class × Wrapper) :=
  [(puppyClass, petWrapper), (petClass, .object), (puppyClass, .object)]

/-- Two keys of four pairs are new, and the class of puppies is the only one that had no wrapper. -/
theorem batch_counts_new_keys_of_repeats :
    (∃ r', (SnapshotRegistry.empty.insert 1 "one").2.insertAllFrom
        ([(2, "two"), (1, "uno"), (2, "due"), (3, "tre")].map .ok : List
          (Except Unit (Nat × String))) = (.ok 2, r') ∧
      r'.size = 3 ∧ r'.get? 1 = some "uno" ∧ r'.get? 2 = some "due") ∧
    ∃ b', (registerWrappers repeatedWrappers).run petProcess.bridge = (.ok 1, b') ∧
      b'.wrapperOf puppyClass = some .object := by
  have hl : Process.Leads (.new .usual) petProcess :=
    (Process.leads_ready .usual).trans leads_petProcess
  obtain ⟨hpairs, -, added, b', hrun, hadded, hwrappers⟩ :=
    batch_counts_new_keys (ε := Unit) (SnapshotRegistry.empty.insert 1 "one").2 hl repeatedWrappers
      (by decide +kernel)
  constructor
  · obtain ⟨added, r', hrun, hbatch⟩ := hpairs [(2, "two"), (1, "uno"), (2, "due"), (3, "tre")]
    obtain rfl : added = 2 := hbatch.counted.trans (by decide +kernel)
    refine ⟨r', hrun, hbatch.size, ?_, ?_⟩
    · exact hbatch.last [(2, "two")] 1 "uno" _ rfl (by decide)
    · exact hbatch.last [(2, "two"), (1, "uno")] 2 "due" _ rfl (by decide)
  · obtain rfl : added = 1 := hadded.trans (by decide +kernel)
    exact ⟨b', hrun, (hwrappers puppyClass (by decide +kernel)).trans (by decide +kernel)⟩

end ObjectBridge
