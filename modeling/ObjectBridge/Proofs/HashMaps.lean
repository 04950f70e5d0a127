import ObjectBridge.Proofs.CrowdedStates
import ObjectBridge.Proofs.Histories
import ObjectBridge.Proofs.ReadingBack
import Mathlib.Data.Finmap

set_option autoImplicit false

/-!
# A hash is a finite map (SPEC §3, §11.3)

`Buckets.Shows` says which finite map the buckets of a hash stand for, and that they are in order:
one group for each checksum, no group empty, each entry in the group of its key's checksum, and no
key twice.  Nothing is assumed of checksums, which come from the state, so that any keys may share
one.

A history of calls on a hash is compared with the same calls on the finite map.  Each call is one
step lemma about the buckets, which does not look at claims, and one about the heap around them;
`HashObj.implements` puts them together.
-/

namespace ObjectBridge

open Heap

/-- A finite map from keys to objects or null. -/
abbrev KeyMap := Finmap fun _ : String => Option ObjId

/-! ## Finite maps by their entries -/

namespace KeyMap

variable {m : KeyMap} {key : String} {value : Option ObjId}

/-- What the map binds, as a list would show it. -/
def pairs (m : KeyMap) : Multiset (Option String × Option ObjId) :=
  m.entries.map fun e => (some e.1, e.2)

theorem entries_insert (m : KeyMap) (key : String) (value : Option ObjId) :
    (m.insert key value).entries = ⟨key, value⟩ ::ₘ (m.erase key).entries := by
  rw [← Finmap.entries_insert_of_notMem Finmap.notMem_erase_self]
  refine congrArg Finmap.entries (Finmap.ext_lookup fun k => ?_)
  by_cases hk : k = key
  · rw [hk, Finmap.lookup_insert, Finmap.lookup_insert]
  · rw [Finmap.lookup_insert_of_ne _ hk, Finmap.lookup_insert_of_ne _ hk, Finmap.lookup_erase_ne hk]

theorem pairs_insert (m : KeyMap) (key : String) (value : Option ObjId) :
    pairs (m.insert key value) = (some key, value) ::ₘ pairs (m.erase key) := by
  unfold pairs
  rw [entries_insert, Multiset.map_cons]

theorem pairs_of_lookup (hm : m.lookup key = some value) :
    pairs m = (some key, value) ::ₘ pairs (m.erase key) := by
  rw [← pairs_insert]
  refine congrArg pairs (Finmap.ext_lookup fun k => ?_)
  by_cases hk : k = key
  · rw [hk, hm, Finmap.lookup_insert]
  · rw [Finmap.lookup_insert_of_ne _ hk]

theorem erase_of_lookup {V : Type} {m : Finmap fun _ : String => V} (hm : m.lookup key = none) :
    m.erase key = m := by
  refine Finmap.ext_lookup fun k => ?_
  by_cases hk : k = key
  · rw [hk, hm, Finmap.lookup_erase]
  · rw [Finmap.lookup_erase_ne hk]

theorem mem_pairs : (some key, value) ∈ pairs m ↔ m.lookup key = some value := by
  unfold pairs
  rw [Finmap.lookup_eq_some_iff, Multiset.mem_map]
  constructor
  · rintro ⟨⟨k, v⟩, he, heq⟩
    cases heq
    exact he
  · exact fun he => ⟨_, he, rfl⟩

theorem nodup_pairs_keys (m : KeyMap) : ((pairs m).map Prod.fst).Nodup := by
  have hkeys : (m.entries.map Sigma.fst).Nodup := Multiset.nodup_keys.mpr m.nodupKeys
  have hmap := hkeys.map (Option.some_injective String)
  rw [Multiset.map_map] at hmap
  unfold pairs
  rw [Multiset.map_map]
  exact hmap

theorem card_pairs (m : KeyMap) : (pairs m).card = m.keys.card := by
  unfold pairs
  rw [Multiset.card_map]
  exact (Multiset.card_map _ _).symm

end KeyMap

/-! ## Groups -/

namespace Buckets

variable {b : Buckets} {groups : List (UInt64 × List HashEntry)} {g : UInt64 × List HashEntry}
  {sum : UInt64}
  {new : List HashEntry} {isKey : ObjId → Bool} {value : Option ObjId} {e : HashEntry}

theorem mem_setGroup (hg : g ∈ setGroup sum new groups) :
    g = (sum, new) ∧ new ≠ [] ∨ g ∈ groups := by
  induction groups with
  | nil =>
    unfold setGroup at hg
    split at hg
    · cases hg
    · rename_i hnew
      exact .inl ⟨List.mem_singleton.mp hg, mt List.isEmpty_iff.mpr hnew⟩
  | cons d rest ih =>
    unfold setGroup at hg
    split at hg
    · split at hg
      · exact .inr (List.mem_cons_of_mem _ hg)
      · rename_i hnew
        rcases List.mem_cons.mp hg with heq | hrest
        · exact .inl ⟨heq, mt List.isEmpty_iff.mpr hnew⟩
        · exact .inr (List.mem_cons_of_mem _ hrest)
    · rcases List.mem_cons.mp hg with heq | hrest
      · exact .inr (heq ▸ List.mem_cons_self)
      · exact (ih hrest).imp id (List.mem_cons_of_mem _)

/-- There stays one group for each checksum. -/
theorem nodup_setGroup (hn : (groups.map Prod.fst).Nodup) :
    ((setGroup sum new groups).map Prod.fst).Nodup := by
  induction groups with
  | nil =>
    unfold setGroup
    split
    · exact List.nodup_nil
    · exact List.nodup_singleton _
  | cons d rest ih =>
    obtain ⟨hd, hrest⟩ := List.nodup_cons.mp hn
    unfold setGroup
    split
    · rename_i hsum
      split
      · exact hrest
      · exact List.nodup_cons.mpr ⟨hsum ▸ hd, hrest⟩
    · rename_i hsum
      refine List.nodup_cons.mpr ⟨fun hmem => ?_, ih hrest⟩
      obtain ⟨g, hg, heq⟩ := List.mem_map.mp hmem
      rcases mem_setGroup hg with ⟨rfl, -⟩ | hg
      · exact hsum heq.symm
      · exact hd (List.mem_map.mpr ⟨g, hg, heq⟩)

theorem group_of_mem (hn : (b.groups.map Prod.fst).Nodup) (hg : g ∈ b.groups) :
    b.group g.1 = g.2 := by
  obtain ⟨groups⟩ := b
  unfold group
  dsimp only at hn hg ⊢
  induction groups with
  | nil => cases hg
  | cons d rest ih =>
    obtain ⟨hd, hrest⟩ := List.nodup_cons.mp hn
    rcases List.mem_cons.mp hg with rfl | hg
    · rw [List.find?_cons_of_pos (by simp)]
    · have hne : ¬ (d.1 == g.1) = true := by
        rw [beq_iff_eq]
        exact fun heq => hd (List.mem_map.mpr ⟨g, hg, heq.symm⟩)
      rw [List.find?_cons_of_neg (p := fun d : UInt64 × List HashEntry => d.1 == g.1) hne]
      exact ih hrest hg

theorem mem_of_group (he : e ∈ b.group sum) : ∃ g ∈ b.groups, g.1 = sum ∧ e ∈ g.2 := by
  unfold group at he
  split at he
  · rename_i g hg
    have hsum := List.find?_some (p := fun d : UInt64 × List HashEntry => d.1 == sum) hg
    exact ⟨g, List.mem_of_find?_eq_some hg, beq_iff_eq.mp hsum, he⟩
  · cases he

theorem mem_replaceIn {entries : List HashEntry} (he : e ∈ replaceIn isKey value entries) :
    ∃ d ∈ entries, d.key = e.key := by
  induction entries with
  | nil => cases he
  | cons d rest ih =>
    unfold replaceIn at he
    split at he
    · rcases List.mem_cons.mp he with rfl | he
      · exact ⟨d, List.mem_cons_self, rfl⟩
      · exact ⟨e, List.mem_cons_of_mem _ he, rfl⟩
    · rcases List.mem_cons.mp he with rfl | he
      · exact ⟨e, List.mem_cons_self, rfl⟩
      · obtain ⟨d', hd', hkey⟩ := ih he
        exact ⟨d', List.mem_cons_of_mem _ hd', hkey⟩

end Buckets

/-! ## Buckets that stand for a map -/

/-- The text of a string object. -/
def Heap.text (h : Heap) (o : ObjId) : Option String := (h.content o).bind fun x => x.2.string?

theorem Heap.text_of_content {h : Heap} {o : ObjId} {text : String}
    (ho : h.content o = some (.string, .string text)) :
    h.text o = some text := by
  unfold Heap.text
  rw [ho]
  rfl

theorem Heap.hasText_iff {h : Heap} {o : ObjId} {text : String} :
    h.hasText text o = true ↔ h.text o = some text := by
  unfold Heap.hasText Heap.text Heap.content
  rw [beq_iff_eq, Option.bind_map]
  rfl

/-- Key texts and values of the entries. -/
def Buckets.pairs (h : Heap) (inside : Buckets) : Multiset (Option String × Option ObjId) :=
  (members inside.groups).map fun e => (h.text e.key, e.value)

section Pairs

variable {h : Heap} {inside : Buckets} {sum : UInt64} {isKey : ObjId → Bool} {e : HashEntry}

theorem Buckets.pairs_replace (hf : inside.find? sum isKey = some e) (value : Option ObjId) :
    (inside.replace sum isKey value).pairs h + {(h.text e.key, e.value)} =
      inside.pairs h + {(h.text e.key, value)} := by
  have hmembers : members (inside.replace sum isKey value).groups + {e} =
      members inside.groups + {⟨e.key, value⟩} :=
    members_replace hf
  have hpairs := congrArg (Multiset.map fun e => (h.text e.key, e.value)) hmembers
  rwa [Multiset.map_add, Multiset.map_add] at hpairs

theorem Buckets.pairs_add (inside : Buckets) (sum : UInt64) (e : HashEntry) :
    (inside.add sum e).pairs h = inside.pairs h + {(h.text e.key, e.value)} := by
  unfold pairs
  rw [members_add, Multiset.map_add, Multiset.map_singleton]

theorem Buckets.pairs_erase (hf : inside.find? sum isKey = some e) :
    (inside.erase sum isKey).pairs h + {(h.text e.key, e.value)} = inside.pairs h := by
  unfold pairs
  rw [← members_erase hf, Multiset.map_add, Multiset.map_singleton]

end Pairs

/-- The buckets are in order and stand for the map `m`. -/
structure Buckets.Shows (b : Bridge) (inside : Buckets) (m : KeyMap) : Prop where
  sums : (inside.groups.map Prod.fst).Nodup
  nonempty : ∀ g ∈ inside.groups, g.2 ≠ []
  /-- a key is a string object, and its entry is in the group of its text's checksum -/
  placed : ∀ g ∈ inside.groups, ∀ e ∈ g.2, ∃ text,
    b.heap.content e.key = some (.string, .string text) ∧ b.keySum text = g.1
  distinct : ∀ g ∈ inside.groups, (g.2.map fun e => b.heap.text e.key).Nodup
  pairs : inside.pairs b.heap = m.pairs

namespace Buckets

variable {b b' : Bridge} {inside : Buckets} {m : KeyMap} {key : String} {value : Option ObjId}
  {e : HashEntry}

theorem mem_members {groups : List (UInt64 × List HashEntry)} :
    e ∈ members groups ↔ ∃ g ∈ groups, e ∈ g.2 :=
  List.mem_flatMap

/-- That no key is twice in a group need not be shown, since it follows from the map. -/
theorem Shows.of_pairs (hsums : (inside.groups.map Prod.fst).Nodup)
    (hnonempty : ∀ g ∈ inside.groups, g.2 ≠ []) (hplaced : ∀ g ∈ inside.groups, ∀ e ∈ g.2, ∃ text,
      b.heap.content e.key = some (.string, .string text) ∧ b.keySum text = g.1)
    (hpairs : inside.pairs b.heap = m.pairs) : inside.Shows b m := by
  refine ⟨hsums, hnonempty, hplaced, fun g hg => ?_, hpairs⟩
  have hkeys := m.nodup_pairs_keys
  rw [← hpairs, Buckets.pairs, Multiset.map_map] at hkeys
  have hlist : (inside.groups.flatMap fun g => g.2.map fun e => b.heap.text e.key).Nodup := by
    rw [← List.map_flatMap]
    exact hkeys
  exact (List.nodup_flatMap.mp hlist).1 g hg

/-- Only the texts of keys matter. -/
theorem Shows.congr (h : inside.Shows b m) (hsum : b'.keySum = b.keySum)
    (hkeys : ∀ e ∈ inside.entries, b'.heap.content e.key = b.heap.content e.key) :
    inside.Shows b' m := by
  refine .of_pairs h.sums h.nonempty (fun g hg e he => ?_) ?_
  · rw [hkeys e (mem_members.mpr ⟨g, hg, he⟩), hsum]
    exact h.placed g hg e he
  · rw [← h.pairs]
    refine Multiset.map_congr rfl fun e he => ?_
    unfold Heap.text
    rw [hkeys e he]

theorem Shows.content_key (h : inside.Shows b m) (he : e ∈ inside.entries) :
    ∃ text, b.heap.content e.key = some (.string, .string text) := by
  obtain ⟨g, hg, he⟩ := mem_members.mp he
  obtain ⟨text, htext, -⟩ := h.placed g hg e he
  exact ⟨text, htext⟩

/-- Looking a key up in its group finds what the map has for it. -/
theorem Shows.find? (h : inside.Shows b m) (key : String) :
    (HashObj.find? b inside key).map HashEntry.value = m.lookup key := by
  have hpairs : ∀ v, (some key, v) ∈ m.pairs ↔ m.lookup key = some v := fun v => KeyMap.mem_pairs
  unfold HashObj.find?
  cases hf : inside.find? (b.keySum key) (b.heap.hasText key) with
  | some e =>
    have htext : b.heap.text e.key = some key :=
      hasText_iff.mp (List.find?_some (p := fun d : HashEntry => b.heap.hasText key d.key) hf)
    refine ((hpairs e.value).mp ?_).symm
    rw [← h.pairs, ← htext]
    exact Multiset.mem_map.mpr ⟨e, mem_entries_of_find? hf, rfl⟩
  | none =>
    cases hm : m.lookup key with
    | none => rfl
    | some v =>
      -- an entry with this key would be in the group of its checksum
      have hmem := (hpairs v).mpr hm
      rw [← h.pairs] at hmem
      obtain ⟨e, he, heq⟩ := Multiset.mem_map.mp hmem
      obtain ⟨htext, -⟩ := Prod.mk.inj heq
      obtain ⟨g, hg, heg⟩ := mem_members.mp he
      obtain ⟨text, hcontent, hsum⟩ := h.placed g hg e heg
      rw [text_of_content hcontent, Option.some_inj] at htext
      subst htext
      have hgroup : e ∈ inside.group (b.keySum text) := by rwa [hsum, group_of_mem h.sums hg]
      have hkey := List.find?_eq_none.mp hf e hgroup
      exact absurd (hasText_iff.mpr (text_of_content hcontent)) hkey

theorem Shows.placed_group (h : inside.Shows b m) {sum : UInt64} (he : e ∈ inside.group sum) :
    ∃ text, b.heap.content e.key = some (.string, .string text) ∧ b.keySum text = sum := by
  obtain ⟨g, hg, rfl, heg⟩ := mem_of_group he
  exact h.placed g hg e heg

/-- Giving the group of a checksum new entries, all of them in their place. -/
theorem Shows.setGroup {m' : KeyMap} {sum : UInt64} {new : List HashEntry} (h : inside.Shows b m)
    (hnew : ∀ e ∈ new, ∃ text, b.heap.content e.key = some (.string, .string text) ∧
      b.keySum text = sum)
    (hpairs : Buckets.pairs b.heap ⟨Buckets.setGroup sum new inside.groups⟩ = m'.pairs) :
    (Buckets.mk (Buckets.setGroup sum new inside.groups)).Shows b m' := by
  refine .of_pairs (nodup_setGroup h.sums) (fun g hg => ?_) (fun g hg e he => ?_) hpairs
  · rcases mem_setGroup hg with ⟨rfl, hne⟩ | hg
    · exact hne
    · exact h.nonempty g hg
  · rcases mem_setGroup hg with ⟨rfl, -⟩ | hg
    · exact hnew e he
    · exact h.placed g hg e he

/-- An entry that is found has the key that was looked for. -/
theorem Shows.of_find? (h : inside.Shows b m) (hf : HashObj.find? b inside key = some e) :
    b.heap.text e.key = some key ∧ m.lookup key = some e.value := by
  refine ⟨hasText_iff.mp (List.find?_some (p := fun d : HashEntry => b.heap.hasText key d.key) hf),
    ?_⟩
  rw [← h.find? key, hf, Option.map_some]

theorem Shows.replace (h : inside.Shows b m) (hf : HashObj.find? b inside key = some e)
    (value : Option ObjId) :
    (inside.replace (b.keySum key) (b.heap.hasText key) value).Shows b (m.insert key value) := by
  obtain ⟨htext, hm⟩ := h.of_find? hf
  refine h.setGroup (fun d hd => ?_) ?_
  · obtain ⟨d', hd', hkey⟩ := mem_replaceIn hd
    rw [← hkey]
    exact h.placed_group hd'
  · have hpairs := pairs_replace (h := b.heap) hf value
    rw [htext, h.pairs, KeyMap.pairs_of_lookup hm, ← Multiset.singleton_add] at hpairs
    rw [KeyMap.pairs_insert, ← Multiset.singleton_add]
    apply add_right_cancel (b := ({(some key, e.value)} : Multiset (Option String × Option ObjId)))
    refine hpairs.trans ?_
    abel

theorem Shows.add (h : inside.Shows b m) {k : ObjId}
    (hk : b.heap.content k = some (.string, .string key)) (hm : m.lookup key = none)
    (value : Option ObjId) :
    (inside.add (b.keySum key) ⟨k, value⟩).Shows b (m.insert key value) := by
  refine h.setGroup (fun d hd => ?_) ?_
  · rcases List.mem_append.mp hd with hd | hd
    · exact h.placed_group hd
    · rw [List.mem_singleton.mp hd]
      exact ⟨key, hk, rfl⟩
  · refine (pairs_add inside (b.keySum key) ⟨k, value⟩).trans ?_
    rw [text_of_content hk, h.pairs, KeyMap.pairs_insert, KeyMap.erase_of_lookup hm,
      ← Multiset.singleton_add, add_comm]

theorem Shows.erase (h : inside.Shows b m) (hf : HashObj.find? b inside key = some e) :
    (inside.erase (b.keySum key) (b.heap.hasText key)).Shows b (m.erase key) := by
  obtain ⟨htext, hm⟩ := h.of_find? hf
  obtain ⟨i, hi, hgroups⟩ := erase_eq hf
  have heq : inside.erase (b.keySum key) (b.heap.hasText key) =
      ⟨Buckets.setGroup (b.keySum key)
        (swapRemove i (inside.group (b.keySum key))) inside.groups⟩ := by
    rw [← hgroups]
  have hpairs := pairs_erase (h := b.heap) hf
  rw [htext, h.pairs, KeyMap.pairs_of_lookup hm, ← Multiset.singleton_add, add_comm] at hpairs
  rw [heq] at hpairs ⊢
  refine h.setGroup (fun d hd => ?_) (add_left_cancel hpairs)
  have hmem : d ∈ (swapRemove i (inside.group (b.keySum key)) : Multiset HashEntry) + {e} :=
    Multiset.mem_add.mpr (.inl hd)
  rw [swapRemove_add _ i hi] at hmem
  exact h.placed_group hmem

end Buckets

/-! ## Hashes that stand for a map -/

section Content

variable {h : Heap} {o p : ObjId} {c : Class} {q q' : Payload}

theorem Heap.content_setPayload (ho : h.content o = some (c, q)) :
    (h.setPayload o q').content p = if p = o then some (c, q') else h.content p := by
  obtain ⟨x, hx, heq⟩ := Option.map_eq_some_iff.mp ho
  unfold Heap.content
  rw [get?_setPayload, hx]
  split
  · obtain ⟨rfl, -⟩ := Prod.mk.inj heq
    rfl
  · rfl

theorem Heap.content_add (h : Heap) (x : Obj) (p : ObjId) :
    (h.add x).content p = if p = h.next then some (x.cls, x.payload) else h.content p := by
  unfold Heap.content
  rw [get?_add]
  split <;> rfl

end Content

/-- The object is a hash, and its buckets stand for the map `m`. -/
def Bridge.Represents (b : Bridge) (hash : ObjId) (m : KeyMap) : Prop :=
  ∃ c inside, b.heap.content hash = some (c, .hash inside) ∧ c.isSubclassOf .hash = true ∧
    inside.Shows b m

/-- No object but the hash has other contents than before; it may be gone. -/
structure Bridge.Spared (hash : ObjId) (b b' : Bridge) : Prop where
  used : ∀ p, b.heap.Used p → b'.heap.Used p
  content : ∀ p, p ≠ hash → b.heap.Used p →
    b'.heap.content p = b.heap.content p ∨ b'.heap.content p = none

namespace Bridge

variable {b b' b'' : Bridge} {hash : ObjId} {m : KeyMap} {c : Class} {inside : Buckets}
  {F : Multiset ObjId}
  {claims : List ObjId}

theorem Spared.refl (hash : ObjId) (b : Bridge) : Spared hash b b :=
  ⟨fun _ h => h, fun _ _ _ => .inl rfl⟩

theorem Spared.trans (h : Spared hash b b') (h' : Spared hash b' b'') : Spared hash b b'' := by
  refine ⟨fun p hp => h'.used p (h.used p hp), fun p hne hp => ?_⟩
  rcases h'.content p hne (h.used p hp) with heq | hnone
  · rw [heq]
    exact h.content p hne hp
  · exact .inr hnone

theorem spared_setPayload (hx : b.heap.content hash = some (c, .hash inside)) (q : Payload) :
    Spared hash b { b with heap := b.heap.setPayload hash q } := by
  refine ⟨fun p hp => ?_, fun p hne _ => .inl ?_⟩
  · unfold Heap.Used
    rw [length_setPayload]
    exact hp
  · exact (content_setPayload hx).trans (if_neg hne)

theorem spared_add (hash : ObjId) (b : Bridge) (x : Obj) :
    Spared hash b { b with heap := b.heap.add x } := by
  refine ⟨fun p hp => (used_add b.heap x p).mpr (.inl hp), fun p _ hp => .inl ?_⟩
  refine (content_add b.heap x p).trans (if_neg ?_)
  rintro rfl
  exact not_used_next hp

theorem spared_swept (hash : ObjId) (b : Bridge) (claims : List ObjId) :
    Spared hash b (b.swept claims) := by
  refine ⟨fun p hp => (used_sweep b.heap claims).mpr hp, fun p _ _ => ?_⟩
  by_cases hl : (b.heap.sweep claims).heap.Live p
  · exact .inl (content_sweep_of_live hl)
  · exact .inr (content_eq_none_iff.mpr (not_live_iff.mp hl))

theorem spared_retainAll (hash : ObjId) (b : Bridge) (claims : List ObjId) (peak : Nat) :
    Spared hash b (b.grown (b.heap.retainAll claims) peak) :=
  ⟨fun p hp => (used_retainAll b.heap claims p).mpr hp, fun p _ _ =>
    .inl (congrFun (content_retainAll b.heap claims) p)⟩

/-- New buckets in the hash. -/
theorem Represents.setPayload (hx : b.heap.content hash = some (c, .hash inside))
    (hc : c.isSubclassOf .hash = true) {inside' : Buckets} (h : inside'.Shows b m) :
    { b with heap := b.heap.setPayload hash (.hash inside') }.Represents hash m := by
  refine ⟨c, inside', (content_setPayload hx).trans (if_pos rfl), hc, h.congr rfl fun e he => ?_⟩
  refine (content_setPayload hx).trans (if_neg fun heq => ?_)
  -- the hash is none of its own keys
  obtain ⟨text, htext⟩ := h.content_key he
  rw [heq, hx] at htext
  cases htext

/-- Claims may be given back that the hash does not need. -/
theorem Represents.swept (hr : b.Represents hash m) (hb : b.Books (claims + F)) (hu : b.Bounded)
    (ho : hash ∈ F) :
    (b.swept claims).Represents hash m := by
  obtain ⟨c, inside, hx, hc, h⟩ := hr
  have hafter : (b.swept claims).Books F := hb.sweep _
  have hlive : (b.swept claims).heap.Live hash := hafter.live ho hu
  have hx' : (b.swept claims).heap.content hash = some (c, .hash inside) :=
    (content_sweep_of_live hlive).trans hx
  refine ⟨c, inside, hx', hc, h.congr rfl fun e he => content_sweep_of_live ?_⟩
  obtain ⟨y, hy, heq⟩ := Option.map_eq_some_iff.mp hx'
  exact HashObj.live_of_mem_entries hafter hy (congrArg Prod.snd heq) he List.mem_cons_self hu

theorem Represents.congr (hr : b.Represents hash m) (hsum : b'.keySum = b.keySum)
    (hcontent : b'.heap.content = b.heap.content) : b'.Represents hash m := by
  obtain ⟨c, inside, hx, hc, h⟩ := hr
  exact ⟨c, inside, (congrFun hcontent hash).trans hx, hc, h.congr hsum fun e _ =>
    congrFun hcontent e.key⟩

end Bridge

/-! ## One call -/

namespace HashObj

/-- A call on a hash. -/
inductive Call where
  | store (key : String) (value : Option ObjId)
  | delete (key : String)
  | fetch (key : String)
  | contains (key : String)
  | size
  | entries

/-- What a call answers.  Keys are told by their texts. -/
inductive Answer where
  | done
  | value (v : Option ObjId)
  | flag (b : Bool)
  | count (n : Nat)
  | entries (es : Multiset (Option String × Option ObjId))

/-- The claims that the call takes over. -/
def Call.takes : Call → List ObjId
  | store _ value => value.toList
  | _ => []

/-- The call, with the claims that it gives. -/
def Call.run (hash : ObjId) : Call → Run (Answer × List ObjId)
  | store key value => do
    HashObj.store hash key value
    return (.done, [])
  | delete key => do
    let v ← HashObj.delete hash key
    return (.value v, v.toList)
  | fetch key => do
    let v ← HashObj.fetch hash key
    return (.value v, v.toList)
  | contains key => return (.flag (← HashObj.contains hash key), [])
  | size => return (.count (← HashObj.size hash), [])
  | entries => do
    let es ← HashObj.entries hash
    let b ← get
    return (.entries (es.map fun e => (b.heap.text e.key, e.value) : List _),
      es.flatMap HashEntry.claims)

/-- The claims that the call adds, if the buckets are these. -/
def Call.claims (b : Bridge) (inside : Buckets) : Call → List ObjId
  | fetch key => ((find? b inside key).bind HashEntry.value).toList
  | entries => (b.order.arrange inside.entries).flatMap HashEntry.claims
  | _ => []

/-- The calls on a hash. -/
def interface (hash : ObjId) : Interface Call Answer where
  takes := Call.takes
  run := Call.run hash
  adds c b :=
    ((b.heap.content hash).bind fun x => x.2.hash?).elim [] fun inside => c.claims b inside

/-- What the call answers and does, said of a finite map. -/
def Call.meaning (m : KeyMap) : Call → Answer × KeyMap
  | store key value => (.done, m.insert key value)
  | delete key => (.value (m.lookup key).join, m.erase key)
  | fetch key => (.value (m.lookup key).join, m)
  | contains key => (.flag (decide (key ∈ m)), m)
  | size => (.count m.keys.card, m)
  | entries => (.entries m.pairs, m)

/-- What calls on a hash that stands for a finite map mean: none of them raises, and no other object
is changed. -/
def keyMap (hash : ObjId) : Meaning Call Answer KeyMap where
  step m c := (.ok (c.meaning m).1, (c.meaning m).2)
  Shows b m := b.Represents hash m
  Effect _ _ _ b b' := b.Spared hash b'

theorem Call.run_transfers (hash : ObjId) (c : Call) :
    Transfers {hash} c.takes (c.run hash) (fun r => r.2) := by
  cases c with
  | store key value => exact (store_transfers hash key value).bind fun _ => .pure _ rfl
  | delete key => exact (delete_transfers hash key).bind fun _ => .pure _ rfl
  | fetch key => exact (fetch_transfers hash key).bind fun _ => .pure _ rfl
  | contains key => exact (contains_transfers hash key).bind fun _ => .pure _ rfl
  | size => exact (size_transfers hash).bind fun _ => .pure _ rfl
  | entries => exact (entries_transfers hash).bind fun _ _ _ _ hb => hb

section Step

variable {b : Bridge} {hash : ObjId} {m : KeyMap} {F : Multiset ObjId} {c : Class}
  {inside : Buckets}
  {bad : Unwind → Bridge → Prop}

theorem ends_buckets_known (hx : b.heap.content hash = some (c, .hash inside))
    (hc : c.isSubclassOf .hash = true) {ok : Buckets → Bridge → Prop} :
    Ends (buckets hash) b ok bad ↔ ok inside b := by
  obtain ⟨x, hget, heq⟩ := Option.map_eq_some_iff.mp hx
  obtain ⟨rfl, hp⟩ := Prod.mk.inj heq
  exact ends_certify_known hget hc (by rw [hp]; rfl)

theorem ends_store_represents (key : String) (value : Option ObjId)
    (hb : b.Books (value.toList + F)) (hu : b.Bounded) (ho : hash ∈ F) (hr : b.Represents hash m) :
    Ends (store hash key value) b
      (fun _ b' => b'.Represents hash (m.insert key value) ∧ b.Spared hash b' ∧
        b'.Bounded) bad := by
  obtain ⟨c, inside, hx, hc, h⟩ := hr
  obtain ⟨x, hget, heq⟩ := Option.map_eq_some_iff.mp hx
  have hp : x.payload = .hash inside := congrArg Prod.snd heq
  unfold store
  rw [ends_bind, ends_losing, ends_buckets_known hx hc, ends_bind, ends_get]
  cases hf : find? b inside key with
  | some e =>
    have hbooks := books_replace hb hget hp hf
    rw [ends_bind, ends_setPayload, ends_releaseAll_sound (hbooks.sound hu)]
    refine ⟨(Bridge.Represents.setPayload hx hc (h.replace hf value)).swept hbooks hu ho, ?_⟩
    exact ⟨(Bridge.spared_setPayload hx _).trans (Bridge.spared_swept hash _ _), hu⟩
  | none =>
    have hnext : hash ≠ b.heap.next := ne_next_of_get? hget
    have hkept : ∀ p, p ≠ b.heap.next →
        (b.heap.add ⟨.string, 1, .string key⟩).content p = b.heap.content p :=
      fun p hne => (content_add _ _ _).trans (if_neg hne)
    have hx' := (hkept hash hnext).trans hx
    -- the buckets stand for the same map while the new string is not among them yet
    have hshows : inside.Shows { b with heap := b.heap.add ⟨.string, 1, .string key⟩ } m := by
      refine h.congr rfl fun e he => hkept e.key ?_
      obtain ⟨text, htext⟩ := h.content_key he
      obtain ⟨y, hy, -⟩ := Option.map_eq_some_iff.mp htext
      exact ne_next_of_get? hy
    have hlookup : m.lookup key = none := by rw [← h.find? key, hf, Option.map_none]
    unfold StringObj.new
    rw [ends_bind, ends_makeObj (by rfl), ends_setPayload]
    refine ⟨Bridge.Represents.setPayload hx' hc (hshows.add ?_ hlookup value), ?_⟩
    · exact (content_add _ _ _).trans (if_pos rfl)
    · exact ⟨(Bridge.spared_add hash b _).trans (Bridge.spared_setPayload hx' _), hu⟩

theorem ends_delete_represents (key : String) (hb : b.Books F) (hu : b.Bounded) (ho : hash ∈ F)
    (hr : b.Represents hash m) :
    Ends (delete hash key) b
      (fun v b' => v = (m.lookup key).join ∧ b'.Represents hash (m.erase key) ∧ b.Spared hash b' ∧
        b'.Bounded) bad := by
  obtain ⟨c, inside, hx, hc, h⟩ := hr
  obtain ⟨x, hget, heq⟩ := Option.map_eq_some_iff.mp hx
  have hp : x.payload = .hash inside := congrArg Prod.snd heq
  unfold delete
  rw [ends_bind, ends_buckets_known hx hc, ends_bind, ends_get, ← h.find? key]
  cases hf : find? b inside key with
  | none =>
    have hlookup : m.lookup key = none := by rw [← h.find? key, hf, Option.map_none]
    rw [KeyMap.erase_of_lookup hlookup]
    exact ⟨rfl, ⟨c, inside, hx, hc, h⟩, .refl hash b, hu⟩
  | some e =>
    have hbooks := books_erase hb hget hp hf
    rw [ends_bind, ends_setPayload, ends_bind, ends_releaseAll_sound (hbooks.sound hu)]
    refine ⟨rfl, ?_, (Bridge.spared_setPayload hx _).trans (Bridge.spared_swept hash _ _), hu⟩
    exact (Bridge.Represents.setPayload hx hc (h.erase hf)).swept hbooks hu
      (Multiset.mem_add.mpr (.inr ho))

/-- The room for the claims that a call adds, said of the buckets. -/
theorem hasRoom_claims {call : Call} (hx : b.heap.content hash = some (c, .hash inside))
    (hroom : b.HasRoom ((interface hash).adds call b)) : b.HasRoom (call.claims b inside) := by
  have hadds : (interface hash).adds call b = call.claims b inside := by
    dsimp only [interface]
    rw [hx]
    rfl
  rwa [hadds] at hroom

theorem ends_fetch_represents (key : String) (hb : b.Books F) (hu : b.Bounded)
    (hroom : b.HasRoom ((interface hash).adds (.fetch key) b)) (hr : b.Represents hash m) :
    Ends (fetch hash key) b
      (fun v b' => v = (m.lookup key).join ∧ b'.Represents hash m ∧ b.Spared hash b' ∧ b'.Bounded)
      bad := by
  obtain ⟨c, inside, hx, hc, h⟩ := id hr
  obtain ⟨x, hget, heq⟩ := Option.map_eq_some_iff.mp hx
  have hp : x.payload = .hash inside := congrArg Prod.snd heq
  unfold fetch
  rw [ends_bind, ends_buckets_known hx hc, ends_bind, ends_get, ends_bind, ends_forM_retain_known]
  · refine ⟨?_, hr.congr rfl (content_retainAll _ _), Bridge.spared_retainAll hash b _ _,
      hu.retainAll (hasRoom_claims hx hroom)⟩
    rw [← h.find? key]
    cases find? b inside key <;> rfl
  · intro o hmem
    rw [Option.mem_toList, Option.bind_eq_some_iff] at hmem
    obtain ⟨e, he, hv⟩ := hmem
    refine live_of_mem_entries hb hget hp (Buckets.mem_entries_of_find? he) ?_ hu
    simp [HashEntry.claims, hv]

theorem ends_entries_represents (hb : b.Books F) (hu : b.Bounded)
    (hroom : b.HasRoom ((interface hash).adds .entries b)) (hr : b.Represents hash m) :
    Ends (entries hash) b (fun es b' =>
      ((es.map fun e => (b'.heap.text e.key, e.value) : List _) :
        Multiset (Option String × Option ObjId)) = m.pairs ∧
      b'.Represents hash m ∧ b.Spared hash b' ∧ b'.Bounded) bad := by
  obtain ⟨c, inside, hx, hc, h⟩ := id hr
  obtain ⟨x, hget, heq⟩ := Option.map_eq_some_iff.mp hx
  have hp : x.payload = .hash inside := congrArg Prod.snd heq
  unfold entries
  rw [ends_bind, ends_buckets_known hx hc, ends_bind, ends_get, ends_bind, ends_forM_retain_known]
  · refine ⟨?_, hr.congr rfl (content_retainAll _ _), Bridge.spared_retainAll hash b _ _,
      hu.retainAll (hasRoom_claims hx hroom)⟩
    have hmet := (b.order.perm inside.entries).map fun e => (b.heap.text e.key, e.value)
    rw [← h.pairs]
    refine Eq.trans (congrArg Multiset.ofList (List.map_congr_left fun e _ => ?_))
      (Multiset.coe_eq_coe.mpr hmet)
    unfold Heap.text
    exact congrArg (fun o => (Option.bind o _, e.value)) (congrFun (content_retainAll _ _) e.key)
  · intro o hmem
    obtain ⟨e, he, ho⟩ := List.mem_flatMap.mp hmem
    exact live_of_mem_entries hb hget hp (EntryOrder.mem_arrange.mp he) ho hu

/-- A call on a hash that stands for a map. -/
theorem Call.meets (call : Call) (hb : b.Books (call.takes + F)) (hu : b.Bounded) (ho : hash ∈ F)
    (hroom : b.HasRoom ((interface hash).adds call b)) (hr : b.Represents hash m) :
    Ends (call.run hash) b (fun r b' => (keyMap hash).Meets m call F b (.ok r.1) b') bad := by
  cases call with
  | store key value =>
    unfold Call.run
    rw [ends_bind]
    refine (ends_store_represents key value hb hu ho hr).mono (fun _ b' h => ?_) (fun _ _ h => h)
    exact ⟨rfl, h.1, h.2.1, h.2.2⟩
  | delete key =>
    unfold Call.run
    rw [ends_bind]
    refine (ends_delete_represents key (by simpa [takes] using hb) hu ho hr).mono
      (fun v b' h => ?_) (fun _ _ h => h)
    exact ⟨congrArg (Except.ok ∘ Answer.value) h.1, h.2.1, h.2.2.1, h.2.2.2⟩
  | fetch key =>
    unfold Call.run
    rw [ends_bind]
    refine (ends_fetch_represents key (by simpa [takes] using hb) hu hroom hr).mono
      (fun v b' h => ?_) (fun _ _ h => h)
    exact ⟨congrArg (Except.ok ∘ Answer.value) h.1, h.2.1, h.2.2.1, h.2.2.2⟩
  | contains key =>
    obtain ⟨c, inside, hx, hc, h⟩ := id hr
    unfold Call.run HashObj.contains
    rw [ends_bind, ends_bind, ends_buckets_known hx hc, ends_bind, ends_get]
    refine ⟨congrArg (Except.ok ∘ Answer.flag) ?_, hr, .refl hash b, hu⟩
    rw [Bool.eq_iff_iff, decide_eq_true_iff, ← Finmap.lookup_isSome, ← h.find? key,
      Option.isSome_map]
  | size =>
    obtain ⟨c, inside, hx, hc, h⟩ := id hr
    unfold Call.run HashObj.size
    rw [ends_bind, ends_bind, ends_buckets_known hx hc]
    refine ⟨congrArg (Except.ok ∘ Answer.count) ?_, hr, .refl hash b, hu⟩
    rw [← KeyMap.card_pairs, ← h.pairs, Buckets.pairs, Multiset.card_map]
    rfl
  | entries =>
    unfold Call.run
    rw [ends_bind]
    refine (ends_entries_represents (by simpa [takes] using hb) hu hroom hr).mono
      (fun es b' h => ?_) (fun _ _ h => h)
    exact ⟨congrArg (Except.ok ∘ Answer.entries) h.1, h.2.1, h.2.2.1, h.2.2.2⟩

end Step

theorem implements (hash : ObjId) : (interface hash).Implements hash (keyMap hash) where
  transfers := Call.run_transfers hash
  meets c hb hu ho hroom hr := c.meets hb hu ho hroom hr

/-! ## Histories -/

end HashObj

/-- A script that makes a string and a hash, and puts the string into the hash. -/
def storeString : List Instruction :=
  [.act (.onObject (.new (.str "x"))) (some "s") none,
    .act (.onObject (.new (.hash 0))) (some "h") none,
    .act (.primitive "h" false (.hashStore "k" (some "s"))) none none]

/-- The bridge after that script, with as many claims on the string as can be counted. -/
def fullHashBridge : Bridge :=
  (Session.after storeString).crowdedBridge ⟨2⟩ ⟨.string, 2, .string "x"⟩ (2 ^ 32 - 4 + 1)

/-- Where a value of a hash has as many claims as can be counted, fetching it leaves none, and then
replacing it raises an exception. -/
theorem hash_raises_of_full_count :
    ∃ host, fullHashBridge.Reached host ∧ fullHashBridge.Bounded ∧ ⟨3⟩ ∈ host ∧
      ∃ b', (HashObj.fetch ⟨3⟩ "k").run fullHashBridge = (.ok (some ⟨2⟩), b') ∧
        ∃ b'', (HashObj.store ⟨3⟩ "k" none).run b' = (.error (.raised .bridge ⟨5⟩), b'') ∧
          b''.heap.content ⟨5⟩ = some (.err, .err (overdrawnMessage .string)) := by
  have hlawful : LawfulRoutine storeString := ⟨trivial, trivial, trivial, trivial⟩
  have hfound : (Assoc.find? "s" (Session.after storeString).slots).bind Slot.object? = some ⟨2⟩ ∧
      (Assoc.find? "crowd" (Session.after storeString).slots).isNone = true ∧
      (Session.after storeString).bridge.heap.get? ⟨2⟩ = some ⟨.string, 2, .string "x"⟩ ∧
      ⟨3⟩ ∈ (Session.after storeString).claims := by
    decide +kernel
  obtain ⟨hslot, hnew, hx, hhash⟩ := hfound
  obtain ⟨host, hreached, hheld⟩ := Session.reached_crowded hlawful hslot
    (Option.isNone_iff_eq_none.mp hnew) hx rfl (n := 2 ^ 32 - 4) (by decide)
  refine ⟨host, hreached, by decide +kernel, hheld _ hhash, ?_⟩
  exact exists_state (by decide +kernel) (exists_state (by decide +kernel) (by decide +kernel))

end ObjectBridge
