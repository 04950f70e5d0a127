import ObjectBridge.Heap.Buckets
import Mathlib.Data.Multiset.Bind
import Mathlib.Tactic.Abel

set_option autoImplicit false

/-!
# The entries of buckets (SPEC §11.3)

Which entries there are after an operation on buckets, and which claims these hold.  The order of
entries has no meaning, so both are stated for multisets; where an entry stands among the groups,
and which keys share a checksum, does not show in them.
-/

namespace ObjectBridge

namespace Buckets

variable {b : Buckets} {sum : UInt64} {isKey : ObjId → Bool} {e : HashEntry} {value : Option ObjId}

/-- The entries of some groups, without an order. -/
def members (groups : List (UInt64 × List HashEntry)) : Multiset HashEntry :=
  (groups.flatMap Prod.snd : List HashEntry)

theorem members_cons (g : UInt64 × List HashEntry) (rest : List (UInt64 × List HashEntry)) :
    members (g :: rest) = (g.2 : Multiset HashEntry) + members rest := by
  simp [members]

/-- A new list for one group takes the place of the old one. -/
theorem members_setGroup (b : Buckets) (sum : UInt64) (new : List HashEntry) :
    members (setGroup sum new b.groups) + (b.group sum : Multiset HashEntry) =
      members b.groups + new := by
  obtain ⟨groups⟩ := b
  induction groups with
  | nil =>
    cases new with
    | nil => rfl
    | cons e rest => simp [setGroup, group, members]
  | cons g rest ih =>
    by_cases hg : g.1 = sum
    · have hgroup : (Buckets.mk (g :: rest)).group sum = g.2 := by simp [group, hg]
      rw [hgroup, members_cons]
      unfold setGroup
      rw [if_pos hg]
      cases new with
      | nil => simp [add_comm]
      | cons e tail =>
        simp only [List.isEmpty_cons, Bool.false_eq_true, if_false, members_cons]
        abel
    · have hgroup : (Buckets.mk (g :: rest)).group sum = (Buckets.mk rest).group sum := by
        simp [group, hg]
      rw [hgroup, members_cons]
      unfold setGroup
      rw [if_neg hg, members_cons, add_assoc, add_assoc]
      congr 1

/-! ## Single groups -/

/-- The first entry with the key gets the value. -/
theorem replaceIn_add (entries : List HashEntry)
    (hf : entries.find? (fun e => isKey e.key) = some e) :
    (replaceIn isKey value entries : Multiset HashEntry) + {e} = entries + {⟨e.key, value⟩} := by
  induction entries with
  | nil => cases hf
  | cons d rest ih =>
    unfold replaceIn
    by_cases hd : isKey d.key = true
    · rw [List.find?_cons_of_pos (by exact hd)] at hf
      cases hf
      rw [if_pos hd, ← Multiset.cons_coe, ← Multiset.cons_coe, ← Multiset.singleton_add,
        ← Multiset.singleton_add]
      abel
    · rw [List.find?_cons_of_neg (by exact hd)] at hf
      rw [if_neg hd, ← Multiset.cons_coe, ← Multiset.cons_coe, Multiset.cons_add,
        Multiset.cons_add, ih hf]

/-- The entry at `i` goes, wherever the others end up. -/
theorem swapRemove_add (entries : List HashEntry) (i : Nat) (hi : entries[i]? = some e) :
    (swapRemove i entries : Multiset HashEntry) + {e} = entries := by
  obtain ⟨hlt, he⟩ := List.getElem?_eq_some_iff.mp hi
  have hne : entries ≠ [] := List.ne_nil_of_length_pos (by omega)
  have hset : entries.set i (entries.getLast hne) ≠ [] := by simpa using hne
  unfold swapRemove
  rw [List.getLast?_eq_some_getLast hne]
  dsimp only
  -- the last element of the list is the one that was put in at `i`, so the rest is a permutation of
  -- the others
  have hlast : (entries.set i (entries.getLast hne)).getLast hset = entries.getLast hne := by
    rw [List.getLast_eq_getElem, List.getElem_set]
    split
    · rfl
    · simp [List.getLast_eq_getElem]
  have hsplit : ((entries.set i (entries.getLast hne)).dropLast : Multiset HashEntry) +
      {entries.getLast hne} =
      (entries.set i (entries.getLast hne) : List HashEntry) := by
    conv_rhs => rw [← List.dropLast_append_getLast hset, hlast]
    rfl
  have hperm : (entries.set i (entries.getLast hne) : Multiset HashEntry) + {e} =
      entries + {entries.getLast hne} := by
    have herase := List.set_perm_cons_eraseIdx hlt (entries.getLast hne)
    have hback := List.getElem_cons_eraseIdx_perm hlt
    rw [Multiset.coe_eq_coe.mpr herase, ← Multiset.coe_eq_coe.mpr hback, he, ← Multiset.cons_coe,
      ← Multiset.cons_coe, ← Multiset.singleton_add, ← Multiset.singleton_add]
    abel
  apply add_right_cancel (b := ({entries.getLast hne} : Multiset HashEntry))
  rw [add_right_comm, hsplit, hperm]

/-! ## Buckets -/

theorem members_replace (hf : b.find? sum isKey = some e) :
    members (b.replace sum isKey value).groups + {e} = members b.groups + {⟨e.key, value⟩} := by
  apply add_right_cancel (b := (b.group sum : Multiset HashEntry))
  calc members (b.replace sum isKey value).groups + {e} + b.group sum
      = members (setGroup sum (replaceIn isKey value (b.group sum)) b.groups) + b.group sum + {e} :=
        add_right_comm _ _ _
    _ = members b.groups + (replaceIn isKey value (b.group sum) + {e}) := by
      rw [members_setGroup, add_assoc]
    _ = members b.groups + {⟨e.key, value⟩} + b.group sum := by rw [replaceIn_add _ hf]; abel

theorem members_add (b : Buckets) (sum : UInt64) (e : HashEntry) :
    members (b.add sum e).groups = members b.groups + {e} := by
  apply add_right_cancel (b := (b.group sum : Multiset HashEntry))
  calc members (b.add sum e).groups + b.group sum
      = members b.groups + (b.group sum ++ [e] : List HashEntry) := members_setGroup b sum _
    _ = members b.groups + {e} + b.group sum := by
      rw [← Multiset.coe_add, Multiset.coe_singleton]
      abel

/-- An entry that is found goes from its group. -/
theorem erase_eq (hf : b.find? sum isKey = some e) :
    ∃ i, (b.group sum)[i]? = some e ∧
      (b.erase sum isKey).groups = setGroup sum (swapRemove i (b.group sum)) b.groups := by
  obtain ⟨hkey, i, hi, he, hbefore⟩ := List.find?_eq_some_iff_getElem.mp hf
  have hidx : (b.group sum).findIdx? (fun e => isKey e.key) = some i := by
    refine List.findIdx?_eq_some_iff_getElem.mpr ⟨hi, he ▸ hkey, fun j hj => ?_⟩
    simpa using hbefore j hj
  refine ⟨i, by rw [List.getElem?_eq_getElem hi, he], ?_⟩
  unfold erase
  rw [hidx]

theorem members_erase (hf : b.find? sum isKey = some e) :
    members (b.erase sum isKey).groups + {e} = members b.groups := by
  obtain ⟨i, he, hgroups⟩ := erase_eq hf
  apply add_right_cancel (b := (b.group sum : Multiset HashEntry))
  calc members (b.erase sum isKey).groups + {e} + b.group sum
      = members (setGroup sum (swapRemove i (b.group sum)) b.groups) + b.group sum + {e} := by
        rw [hgroups, add_right_comm]
    _ = members b.groups + b.group sum := by rw [members_setGroup, add_assoc, swapRemove_add _ i he]

theorem mem_entries_of_find? (hf : b.find? sum isKey = some e) : e ∈ b.entries := by
  have hgroup : e ∈ b.group sum := List.mem_of_find?_eq_some hf
  unfold group at hgroup
  split at hgroup
  · rename_i g hg
    exact List.mem_flatMap.mpr ⟨g, List.mem_of_find?_eq_some hg, hgroup⟩
  · cases hgroup

theorem mem_entries_add {d : HashEntry} : d ∈ (b.add sum e).entries ↔ d ∈ b.entries ∨ d = e := by
  have hmem : d ∈ members (b.add sum e).groups ↔ d ∈ members b.groups + {e} := by rw [members_add]
  rwa [Multiset.mem_add, Multiset.mem_singleton] at hmem

theorem mem_entries_replace {d : HashEntry} (hf : b.find? sum isKey = some e)
    (hd : d ∈ (b.replace sum isKey value).entries) : ∃ e ∈ b.entries, e.key = d.key := by
  have hmem : d ∈ members (b.replace sum isKey value).groups + {e} := Multiset.mem_add.mpr (.inl hd)
  rw [members_replace hf, Multiset.mem_add, Multiset.mem_singleton] at hmem
  rcases hmem with hold | rfl
  · exact ⟨d, hold, rfl⟩
  · exact ⟨e, mem_entries_of_find? hf, rfl⟩

theorem mem_entries_erase {d : HashEntry} (hf : b.find? sum isKey = some e)
    (hd : d ∈ (b.erase sum isKey).entries) :
    d ∈ b.entries := by
  have hmem : d ∈ members (b.erase sum isKey).groups + {e} := Multiset.mem_add.mpr (.inl hd)
  rwa [members_erase hf] at hmem

/-- There is nothing to find if no entry has the key. -/
theorem find?_eq_none (hn : ∀ d ∈ b.entries, isKey d.key = false) : b.find? sum isKey = none := by
  cases hf : b.find? sum isKey with
  | none => rfl
  | some d =>
    have hkey : isKey d.key = true := List.find?_some (p := fun d : HashEntry => isKey d.key) hf
    rw [hn d (mem_entries_of_find? hf)] at hkey
    cases hkey

/-! ## Claims -/

theorem claims_eq (b : Buckets) :
    (b.claims : Multiset ObjId) = (members b.groups).bind fun e => (e.claims : Multiset ObjId) :=
  (Multiset.coe_bind _ _).symm

theorem claims_replace (hf : b.find? sum isKey = some e) :
    ((b.replace sum isKey value).claims : Multiset ObjId) + e.value.toList =
      b.claims + value.toList := by
  apply (Multiset.cons_inj_right e.key).mp
  calc e.key ::ₘ (((b.replace sum isKey value).claims : Multiset ObjId) + e.value.toList)
      = (b.replace sum isKey value).claims + e.claims := (Multiset.add_cons _ _ _).symm
    _ = (members (b.replace sum isKey value).groups + {e}).bind fun e =>
      (e.claims : Multiset ObjId) := by
      rw [Multiset.add_bind, Multiset.singleton_bind, claims_eq]
    _ = (members b.groups + {⟨e.key, value⟩}).bind fun e => (e.claims : Multiset ObjId) := by
      rw [members_replace hf]
    _ = b.claims + (⟨e.key, value⟩ : HashEntry).claims := by
      rw [Multiset.add_bind, Multiset.singleton_bind, claims_eq]
    _ = e.key ::ₘ (b.claims + value.toList) := Multiset.add_cons e.key b.claims value.toList

theorem claims_add (b : Buckets) (sum : UInt64) (e : HashEntry) :
    ((b.add sum e).claims : Multiset ObjId) = b.claims + e.claims := by
  rw [claims_eq, claims_eq, members_add, Multiset.add_bind, Multiset.singleton_bind]

theorem claims_erase (hf : b.find? sum isKey = some e) :
    ((b.erase sum isKey).claims : Multiset ObjId) + e.claims = b.claims := by
  rw [claims_eq, claims_eq, ← members_erase hf, Multiset.add_bind, Multiset.singleton_bind]

end Buckets

/-! ## The order in which entries are met -/

namespace EntryOrder

variable {order : EntryOrder} {es : List HashEntry} {e : HashEntry}

theorem mem_arrange : e ∈ order.arrange es ↔ e ∈ es := (order.perm es).mem_iff

end EntryOrder

end ObjectBridge
