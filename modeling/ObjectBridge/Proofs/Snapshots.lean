import ObjectBridge.SnapshotRegistry
import ObjectBridge.Proofs.ValueEquality
import Mathlib.Data.Finmap

set_option autoImplicit false

/-!
# A snapshot registry is a persistent map (SPEC §5, §8, §10)

A history of calls on a registry is compared with the same history on a finite map.
`Reference.call` says what each call means: which answer it gives, how it changes the map, and what
a snapshot holds.  Which map is published at a moment is no matter of contents, so it is compared
with the calls themselves: `Call.Publishes` says which of them put a new map in place.

One call is followed by `Readers.call_reference` and `Readers.stamp_call`; whole histories follow by
induction.

Left out: concurrent callers (SPEC §8).  A history is the order in which the lock lets them in.
-/

namespace ObjectBridge

/-- A finite map, whatever represents it. -/
abbrev FiniteMap (K V : Type) := Finmap fun _ : K => V

section Contents

variable {K V : Type} [DecidableEq K]

/-- The map that a list of pairs represents. -/
def Assoc.toMap (m : List (K × V)) : FiniteMap K V := (m.map Prod.toSigma).toFinmap

theorem Assoc.lookup_toMap (m : List (K × V)) (k : K) : (toMap m).lookup k = find? k m := by
  unfold toMap
  rw [Finmap.dlookup_list_toFinmap]
  induction m with
  | nil => rfl
  | cons p rest ih =>
    obtain ⟨a, v⟩ := p
    by_cases ha : a = k
    · subst ha
      rw [find?, if_pos rfl]
      exact List.dlookup_cons_eq ..
    · rw [find?, if_neg ha, ← ih]
      exact List.dlookup_cons_ne _ _ (Ne.symm ha)

theorem Assoc.mem_toMap {m : List (K × V)} {k : K} : k ∈ toMap m ↔ (find? k m).isSome = true := by
  rw [← Finmap.lookup_isSome, lookup_toMap]

theorem Assoc.toMap_insert (k : K) (v : V) (m : List (K × V)) :
    toMap (insert k v m) = (toMap m).insert k v := by
  refine Finmap.ext_lookup fun k' => ?_
  rw [lookup_toMap, find?_insert]
  split
  · rename_i hk
    rw [← hk, Finmap.lookup_insert]
  · rename_i hk
    rw [Finmap.lookup_insert_of_ne _ (Ne.symm hk), lookup_toMap]

/-- The map with every pair bound in turn. -/
def FiniteMap.insertAll (pairs : List (K × V)) (m : FiniteMap K V) : FiniteMap K V :=
  pairs.foldl (fun m p => m.insert p.1 p.2) m

theorem Assoc.toMap_insertAll (pairs m : List (K × V)) :
    toMap (insertAll pairs m) = (toMap m).insertAll pairs := by
  induction pairs generalizing m with
  | nil => rfl
  | cons p rest ih =>
    refine (ih (insert p.1 p.2 m)).trans ?_
    rw [toMap_insert]
    rfl

theorem Assoc.keys_toMap (m : List (K × V)) : (toMap m).keys = (keys m).toFinset := by
  ext k
  rw [Finmap.mem_keys, ← Finmap.lookup_isSome, lookup_toMap, List.mem_toFinset, ← not_iff_not,
    ← find?_eq_none_iff, Option.not_isSome_iff_eq_none]

/-- A list without repeated keys has as many pairs as the map has keys. -/
theorem Assoc.length_eq_card {m : List (K × V)} (hm : (keys m).Nodup) :
    m.length = (toMap m).keys.card := by
  rw [keys_toMap, List.toFinset_card_of_nodup hm, keys, List.length_map]

/-- The map that a snapshot holds. -/
def Snapshot.contents (s : Snapshot K V) : FiniteMap K V := Assoc.toMap s.entries

end Contents

namespace SnapshotRegistry

/-! ## Calls and their meaning -/

/-- A call on a registry.  The source of `insertAll` and the `make` of `getOrInsertWith` may fail,
and `make` may look at the map that it finds. -/
inductive Call (K V ε : Type) where
  | register (k : K) (v : V)
  | insert (k : K) (v : V)
  | insertAll (source : List (Except ε (K × V)))
  | getOrInsertWith (k : K) (make : FiniteMap K V → Except ε V)
  | get (k : K)
  | contains (k : K)
  | size
  | isEmpty
  | snapshot

/-- What a call answers. -/
inductive Answer (V ε : Type) where
  | flag (b : Bool)
  | count (n : Nat)
  | bound (v : Option V)
  | added (n : Except ε Nat)
  | value (v : Except ε V)
  | taken

/-- The answer of a call whose source or `make` failed. -/
def Answer.Failed {V ε : Type} : Answer V ε → Prop
  | .added (.error _) | .value (.error _) => True
  | _ => False

variable {K V ε : Type} [DecidableEq K]

/-- What a call answers and does, said of a finite map. -/
def Call.meaning (m : FiniteMap K V) : Call K V ε → Answer V ε × FiniteMap K V
  | .register k v => if k ∈ m then (.flag false, m) else (.flag true, m.insert k v)
  | .insert k v => (.bound (m.lookup k), m.insert k v)
  | .insertAll source =>
    match source.mapM id with
    | .error e => (.added (.error e), m)
    | .ok pairs => (.added (.ok ((pairs.map Prod.fst).toFinset \ m.keys).card), m.insertAll pairs)
  | .getOrInsertWith k make =>
    match m.lookup k with
    | some v => (.value (.ok v), m)
    | none =>
      match make m with
      | .ok v => (.value (.ok v), m.insert k v)
      | .error e => (.value (.error e), m)
  | .get k => (.bound (m.lookup k), m)
  | .contains k => (.flag (decide (k ∈ m)), m)
  | .size => (.count m.keys.card, m)
  | .isEmpty => (.flag (decide (m.keys = ∅)), m)
  | .snapshot => (.taken, m)

/-- The answers of calls that are made in turn, and the map that they leave. -/
def meanings (m : FiniteMap K V) : List (Call K V ε) → List (Answer V ε) × FiniteMap K V
  | [] => ([], m)
  | c :: rest =>
    ((c.meaning m).1 :: (meanings (c.meaning m).2 rest).1, (meanings (c.meaning m).2 rest).2)

/-- The calls that put a new map in place of the published one: every registration and insertion, a
batch that comes to its end, and a value that is made because there was none. -/
def Call.Publishes (m : FiniteMap K V) : Call K V ε → Prop
  | .register _ _ | .insert _ _ => True
  | .insertAll source => ∀ item ∈ source, item.isOk = true
  | .getOrInsertWith k make => k ∉ m ∧ (make m).isOk = true
  | _ => False

/-- A registry, and the snapshots that have been taken of it, the oldest first. -/
structure Readers (K V : Type) where
  registry : SnapshotRegistry K V := .empty
  taken : List (Snapshot K V) := []

/-- A call on the registry. -/
def Readers.call (s : Readers K V) : Call K V ε → Answer V ε × Readers K V
  | .register k v =>
    (.flag (s.registry.register k v).1, { s with registry := (s.registry.register k v).2 })
  | .insert k v =>
    (.bound (s.registry.insert k v).1, { s with registry := (s.registry.insert k v).2 })
  | .insertAll source =>
    (.added (s.registry.insertAllFrom source).1,
      { s with registry := (s.registry.insertAllFrom source).2 })
  | .getOrInsertWith k make =>
    let made := ((s.registry.getOrInsertWith k fun r => pure (make r.snapshot.contents)).run ()).1
    (.value made.1, { s with registry := made.2 })
  | .get k => (.bound (s.registry.get? k), s)
  | .contains k => (.flag (s.registry.contains k), s)
  | .size => (.count s.registry.size, s)
  | .isEmpty => (.flag s.registry.isEmpty, s)
  | .snapshot => (.taken, { s with taken := s.taken ++ [s.registry.snapshot] })

/-- The answers of calls that are made in turn, and what they leave. -/
def Readers.run (s : Readers K V) : List (Call K V ε) → List (Answer V ε) × Readers K V
  | [] => ([], s)
  | c :: rest => ((s.call c).1 :: ((s.call c).2.run rest).1, ((s.call c).2.run rest).2)

/-! ## One call -/

/-- All items of a source that may fail, or its first failure. -/
def collect : List (Except ε (K × V)) → Except ε (List (K × V))
  | [] => .ok []
  | .error e :: _ => .error e
  | .ok p :: rest => (collect rest).map (p :: ·)

omit [DecidableEq K] in
theorem collect_eq (source : List (Except ε (K × V))) : collect source = source.mapM id := by
  induction source with
  | nil => rfl
  | cons item rest ih =>
    rw [List.mapM_cons]
    cases item with
    | error e => rfl
    | ok p =>
      rw [collect, ih]
      cases rest.mapM id <;> rfl

omit [DecidableEq K] in
theorem isOk_collect (source : List (Except ε (K × V))) :
    (collect source).isOk = true ↔ ∀ item ∈ source, item.isOk = true := by
  induction source with
  | nil => simp [collect, Except.isOk, Except.toBool]
  | cons item rest ih =>
    rw [List.forall_mem_cons, ← ih]
    cases item with
    | error e => simp [collect, Except.isOk, Except.toBool]
    | ok p =>
      rw [collect]
      cases collect rest <;> simp [Except.map, Except.isOk, Except.toBool]

/-- To bind the items of a source one after the other is to read the source to its end and to bind
what it gave. -/
theorem fillFrom_eq (source : List (Except ε (K × V))) (m : List (K × V)) (added : Nat) :
    fillFrom source m added =
      (collect source).map fun pairs => (added + countNew pairs m, Assoc.insertAll pairs m) := by
  induction source generalizing m added with
  | nil => rfl
  | cons item rest ih =>
    cases item with
    | error e => rfl
    | ok p =>
      obtain ⟨k, v⟩ := p
      rw [fillFrom, ih, collect]
      cases collect rest with
      | error e => rfl
      | ok pairs =>
        have hadded : (if (Assoc.find? k m).isNone then added + 1 else added) +
            countNew pairs (Assoc.insert k v m) =
            added + countNew ((k, v) :: pairs) m := by
          rw [countNew]
          split <;> omega
        exact congrArg (fun n => Except.ok (n, Assoc.insertAll pairs (Assoc.insert k v m))) hadded

/-- A batch publishes what `insertAll` publishes for the pairs of its source, or nothing. -/
theorem insertAllFrom_eq (r : SnapshotRegistry K V) (source : List (Except ε (K × V))) :
    r.insertAllFrom source =
      match collect source with
      | .error e => (.error e, r)
      | .ok pairs => (.ok (r.insertAll pairs).1, (r.insertAll pairs).2) := by
  unfold insertAllFrom insertAll
  rw [fillFrom_eq]
  cases collect source with
  | error e => rfl
  | ok pairs => rw [Except.map, Nat.zero_add]

/-- The number of keys that were unbound does not depend on the order in which the pairs are bound.
-/
theorem countNew_eq (pairs m : List (K × V)) :
    countNew pairs m = ((pairs.map Prod.fst).toFinset \ (Assoc.toMap m).keys).card := by
  induction pairs generalizing m with
  | nil => simp [countNew]
  | cons p rest ih =>
    obtain ⟨k, v⟩ := p
    have hkeys : (Assoc.toMap (Assoc.insert k v m)).keys =
        Insert.insert k (Assoc.toMap m).keys := by
      ext k'
      rw [Assoc.toMap_insert, Finmap.mem_keys, Finmap.mem_insert, Finset.mem_insert,
        Finmap.mem_keys]
    rw [countNew, ih, hkeys, List.map_cons, List.toFinset_cons, Finset.sdiff_insert]
    by_cases hk : k ∈ (Assoc.toMap m).keys
    · have hsome : (Assoc.find? k m).isNone = false := by
        rw [Finmap.mem_keys, Assoc.mem_toMap] at hk
        rw [Option.isNone_eq_false_iff, hk]
      rw [hsome, Finset.insert_sdiff_of_mem _ hk, Finset.erase_eq_of_notMem fun h =>
        (Finset.mem_sdiff.mp h).2 hk]
      exact Nat.zero_add _
    · have hnone : (Assoc.find? k m).isNone = true := by
        rw [Finmap.mem_keys, Assoc.mem_toMap, Option.not_isSome_iff_eq_none] at hk
        rw [hk, Option.isNone_none]
      -- without `k` there are as many new keys among the others as before, whether or not one of
      -- them is `k` again
      have hcard :=
        Finset.card_erase_add_one
        (Finset.mem_insert_self k ((rest.map Prod.fst).toFinset \ (Assoc.toMap m).keys))
      rw [Finset.erase_insert_eq_erase] at hcard
      rw [hnone, if_pos rfl, Finset.insert_sdiff_of_notMem _ hk, ← hcard, Nat.add_comm]

/-- The published map of a registry is the map `m`. -/
structure Shows (r : SnapshotRegistry K V) (m : FiniteMap K V) : Prop where
  keys : (Assoc.keys r.current.entries).Nodup
  map : r.snapshot.contents = m

namespace Shows

variable {r : SnapshotRegistry K V} {m : FiniteMap K V}

theorem get? (h : r.Shows m) (k : K) : r.get? k = m.lookup k := by
  rw [← h.map]
  exact (Assoc.lookup_toMap r.current.entries k).symm

theorem contains (h : r.Shows m) (k : K) : r.contains k = decide (k ∈ m) := by
  unfold SnapshotRegistry.contains
  rw [h.get?, Bool.eq_iff_iff, decide_eq_true_iff]
  exact Finmap.lookup_isSome

theorem size (h : r.Shows m) : r.size = m.keys.card := by
  rw [← h.map]
  exact Assoc.length_eq_card h.keys

theorem isEmpty (h : r.Shows m) : r.isEmpty = decide (m.keys = ∅) := by
  rw [Bool.eq_iff_iff, decide_eq_true_iff, ← Finset.card_eq_zero, ← h.size]
  exact List.isEmpty_iff.trans List.length_eq_zero_iff.symm

theorem bind (h : r.Shows m) (k : K) (v : V) :
    (r.publish (Assoc.insert k v r.current.entries)).Shows (m.insert k v) := by
  refine ⟨Assoc.nodup_keys_insert _ k v h.keys, ?_⟩
  rw [← h.map]
  exact Assoc.toMap_insert k v r.current.entries

theorem bindAll (h : r.Shows m) (pairs : List (K × V)) :
    (r.publish (Assoc.insertAll pairs r.current.entries)).Shows (m.insertAll pairs) := by
  refine ⟨Assoc.nodup_keys_insertAll pairs _ h.keys, ?_⟩
  rw [← h.map]
  exact Assoc.toMap_insertAll pairs r.current.entries

end Shows

namespace Readers

variable {s : Readers K V} {m : FiniteMap K V}

/-- A call gives the answer that it has for the finite map, and leaves the map that it leaves there.
-/
theorem call_shows (h : s.registry.Shows m) (c : Call K V ε) :
    (s.call c).1 = (c.meaning m).1 ∧ (s.call c).2.registry.Shows (c.meaning m).2 := by
  cases c with
  | register k v =>
    simp only [call, Call.meaning, SnapshotRegistry.register, h.contains]
    by_cases hk : k ∈ m
    · rw [decide_eq_true hk, if_pos rfl, if_pos hk]
      exact ⟨rfl, h.keys, h.map⟩
    · rw [decide_eq_false hk, if_neg Bool.false_ne_true, if_neg hk]
      exact ⟨rfl, h.bind k v⟩
  | insert k v => exact ⟨congrArg Answer.bound (h.get? k), h.bind k v⟩
  | insertAll source =>
    simp only [call, Call.meaning, insertAllFrom_eq, collect_eq]
    cases source.mapM id with
    | error e => exact ⟨rfl, h⟩
    | ok pairs =>
      refine ⟨?_, h.bindAll pairs⟩
      rw [← h.map]
      exact congrArg (fun n => Answer.added (.ok n)) (countNew_eq pairs s.registry.current.entries)
  | getOrInsertWith k make =>
    simp only [call, Call.meaning, SnapshotRegistry.getOrInsertWith, h.get?, h.map]
    cases m.lookup k with
    | some v => exact ⟨rfl, h⟩
    | none =>
      cases make m with
      | error e => exact ⟨rfl, h⟩
      | ok v => exact ⟨rfl, h.bind k v⟩
  | get k => exact ⟨congrArg Answer.bound (h.get? k), h⟩
  | contains k => exact ⟨congrArg Answer.flag (h.contains k), h⟩
  | size => exact ⟨congrArg Answer.count h.size, h⟩
  | isEmpty => exact ⟨congrArg Answer.flag h.isEmpty, h⟩
  | snapshot => exact ⟨rfl, h⟩

/-- A failed call changes nothing. -/
theorem call_failed {c : Call K V ε} (hc : (s.call c).1.Failed) : (s.call c).2 = s := by
  cases c with
  | insertAll source =>
    simp only [call, insertAllFrom_eq] at hc ⊢
    cases hsource : collect source with
    | error e => rfl
    | ok pairs =>
      rw [hsource] at hc
      exact hc.elim
  | getOrInsertWith k make =>
    simp only [call, SnapshotRegistry.getOrInsertWith] at hc ⊢
    cases hk : s.registry.get? k with
    | some v => rfl
    | none =>
      cases hmake : make s.registry.snapshot.contents with
      | error e => rfl
      | ok v =>
        simp only [hk, hmake] at hc
        exact hc.elim
  | register | insert | get | contains | size | isEmpty | snapshot => exact hc.elim

/-- A call that publishes gives the published map a new stamp. -/
theorem stamp_call (h : s.registry.Shows m) {c : Call K V ε} (hc : c.Publishes m) :
    (s.call c).2.registry.current.stamp = s.registry.current.stamp + 1 := by
  cases c with
  | register k v =>
    simp only [call, SnapshotRegistry.register]
    split <;> rfl
  | insert k v => rfl
  | insertAll source =>
    have hok := (isOk_collect source).mpr hc
    simp only [call, insertAllFrom_eq]
    cases hsource : collect source with
    | error e =>
      rw [hsource] at hok
      cases hok
    | ok pairs => rfl
  | getOrInsertWith k make =>
    obtain ⟨hk, hmake⟩ := hc
    simp only [call, SnapshotRegistry.getOrInsertWith, h.get?, h.map, Finmap.lookup_eq_none.mpr hk]
    cases hv : make m with
    | error e =>
      rw [hv] at hmake
      cases hmake
    | ok v => rfl
  | get | contains | size | isEmpty | snapshot => exact hc.elim

/-- Any other call leaves the published map in place. -/
theorem registry_call (h : s.registry.Shows m) {c : Call K V ε} (hc : ¬ c.Publishes m) :
    (s.call c).2.registry = s.registry := by
  cases c with
  | register | insert => exact absurd trivial hc
  | insertAll source =>
    have hok := mt (isOk_collect source).mp hc
    simp only [call, insertAllFrom_eq]
    cases hsource : collect source with
    | error e => rfl
    | ok pairs =>
      rw [hsource] at hok
      exact absurd rfl hok
  | getOrInsertWith k make =>
    simp only [call, SnapshotRegistry.getOrInsertWith, h.get?, h.map]
    cases hk : m.lookup k with
    | some v => rfl
    | none =>
      cases hv : make m with
      | error e => rfl
      | ok v => exact absurd ⟨Finmap.lookup_eq_none.mp hk, by rw [hv]; rfl⟩ hc
  | get | contains | size | isEmpty | snapshot => rfl

/-- Snapshots that have been taken stay as they are. -/
theorem taken_call (s : Readers K V) (c : Call K V ε) : s.taken <+: (s.call c).2.taken := by
  cases c with
  | snapshot => exact List.prefix_append _ _
  | register | insert | insertAll | getOrInsertWith | get | contains | size | isEmpty =>
    exact List.prefix_refl _

/-! ## Histories -/

theorem run_append (s : Readers K V) (before rest : List (Call K V ε)) :
    s.run (before ++ rest) =
      ((s.run before).1 ++ ((s.run before).2.run rest).1, ((s.run before).2.run rest).2) := by
  induction before generalizing s with
  | nil => rfl
  | cons c before ih =>
    rw [List.cons_append, run, ih]
    rfl

theorem length_run (s : Readers K V) (calls : List (Call K V ε)) :
    (s.run calls).1.length = calls.length := by
  induction calls generalizing s with
  | nil => rfl
  | cons c rest ih => exact congrArg (· + 1) (ih _)

theorem taken_run (s : Readers K V) (calls : List (Call K V ε)) :
    s.taken <+: (s.run calls).2.taken := by
  induction calls generalizing s with
  | nil => exact List.prefix_refl _
  | cons c rest ih => exact (taken_call s c).trans (ih _)

theorem run_shows (h : s.registry.Shows m) (calls : List (Call K V ε)) :
    (s.run calls).1 = (meanings m calls).1 ∧ (s.run calls).2.registry.Shows
      (meanings m calls).2 := by
  induction calls generalizing s m with
  | nil => exact ⟨rfl, h⟩
  | cons c rest ih =>
    obtain ⟨hanswer, hnext⟩ := call_shows h c
    obtain ⟨hanswers, hend⟩ := ih hnext
    refine ⟨?_, hend⟩
    rw [run, meanings, hanswer, hanswers]

theorem stamp_le_run (h : s.registry.Shows m) (calls : List (Call K V ε)) :
    s.registry.current.stamp ≤ (s.run calls).2.registry.current.stamp := by
  induction calls generalizing s m with
  | nil => exact le_rfl
  | cons c rest ih =>
    refine le_trans ?_ (ih (call_shows h c).2)
    by_cases hc : c.Publishes m
    · rw [stamp_call h hc]
      exact Nat.le_succ _
    · rw [registry_call h hc]

/-- The published map is still in place as long as no call publishes. -/
theorem isCurrent_run (h : s.registry.Shows m) (calls : List (Call K V ε)) :
    (s.run calls).2.registry.isCurrent s.registry.snapshot = true ↔
      ∀ mid c tail, calls = mid ++ c :: tail → ¬ c.Publishes (meanings m mid).2 := by
  induction calls generalizing s m with
  | nil =>
    refine iff_of_true (beq_self_eq_true _) fun mid c tail heq => ?_
    cases mid <;> cases heq
  | cons c rest ih =>
    have hnext := (call_shows h c).2
    by_cases hc : c.Publishes m
    · -- from here on the stamp is higher
      refine iff_of_false (fun heq => ?_) fun hall => hall [] c rest rfl hc
      have hle := stamp_le_run hnext rest
      rw [stamp_call h hc] at hle
      exact absurd (beq_iff_eq.mp heq) (Nat.ne_of_gt hle)
    · have hsame : (s.call c).2.registry.snapshot = s.registry.snapshot :=
        congrArg snapshot (registry_call h hc)
      rw [run, ← hsame, ih hnext]
      constructor
      · intro hrest mid d tail heq
        cases mid with
        | nil =>
          cases heq
          exact hc
        | cons e mid =>
          obtain ⟨rfl, hmid⟩ := List.cons.inj heq
          exact hrest mid d tail hmid
      · rintro hall mid d tail rfl
        exact hall (c :: mid) d tail rfl

theorem shows_new : ({} : Readers K V).registry.Shows ∅ :=
  ⟨List.nodup_nil, Finmap.ext_lookup fun _ => rfl⟩

end Readers

theorem meanings_append (m : FiniteMap K V) (before rest : List (Call K V ε)) :
    meanings m (before ++ rest) =
      ((meanings m before).1 ++ (meanings (meanings m before).2 rest).1,
        (meanings (meanings m before).2 rest).2) := by
  induction before generalizing m with
  | nil => rfl
  | cons c before ih =>
    rw [List.cons_append, meanings, ih]
    rfl

end SnapshotRegistry

open SnapshotRegistry

/-- A history of calls goes as for a finite map that starts empty. -/
structure SnapshotRegistry.Faithful {K V ε : Type} [DecidableEq K] (calls : List (Call K V ε)) :
    Prop where
  answers : (Readers.run {} calls).1 = (meanings (∅ : FiniteMap K V) calls).1
  contents : (Readers.run {} calls).2.registry.snapshot.contents =
    (meanings (∅ : FiniteMap K V) calls).2
  /-- without a failed call the other answers and the end are the same -/
  failed : ∀ before c rest, calls = before ++ c :: rest →
    ((Readers.run {} before).2.call c).1.Failed →
    (Readers.run {} calls).1.eraseIdx before.length = (Readers.run {} (before ++ rest)).1 ∧
    (Readers.run {} calls).2 = (Readers.run {} (before ++ rest)).2
  /-- a snapshot holds in the end what the map was when it was taken, and it is the published map if
  and only if no call has published since -/
  taken : ∀ before rest, calls = before ++ .snapshot :: rest →
    ∃ s, (Readers.run {} calls).2.taken[(Readers.run {} before).2.taken.length]? = some s ∧
      s.contents = (meanings (∅ : FiniteMap K V) before).2 ∧
      ((Readers.run {} calls).2.registry.isCurrent s = true ↔
        ∀ mid c tail, rest = mid ++ c :: tail →
          ¬ c.Publishes (meanings (∅ : FiniteMap K V) (before ++ .snapshot :: mid)).2)

/-- Whatever calls are made on a registry, also such as fail half-way, it answers as a finite map
does, and each snapshot of it stays what it was. -/
theorem snapshotRegistry_faithful {K V ε : Type} [DecidableEq K]
    (calls : List (SnapshotRegistry.Call K V ε)) :
    SnapshotRegistry.Faithful calls := by
  have hrun (calls : List (Call K V ε)) := Readers.run_shows Readers.shows_new calls
  refine ⟨(hrun calls).1, (hrun calls).2.map, ?_, ?_⟩
  · rintro before c rest rfl hfailed
    rw [Readers.run_append, Readers.run_append, Readers.run, Readers.call_failed hfailed]
    refine ⟨?_, rfl⟩
    rw [← Readers.length_run {} before, List.eraseIdx_append_of_length_le le_rfl, Nat.sub_self,
      List.eraseIdx_cons_zero]
  · rintro before rest rfl
    have hbefore := (hrun before).2
    have hsnapshot := Readers.call_shows hbefore (.snapshot : Call K V ε)
    refine ⟨(Readers.run {} before).2.registry.snapshot, ?_, hbefore.map, ?_⟩
    · obtain ⟨later, hlater⟩ := Readers.taken_run ((Readers.run {} before).2.call .snapshot).2 rest
      rw [Readers.run_append, Readers.run, ← hlater]
      change (((Readers.run {} before).2.taken ++ [_]) ++ later)[_]? = _
      rw [List.append_assoc, List.getElem?_append_right le_rfl, Nat.sub_self]
      rfl
    · rw [Readers.run_append, Readers.run]
      refine (Readers.isCurrent_run hsnapshot.2 rest).trans ?_
      simp only [meanings_append, meanings]

end ObjectBridge
