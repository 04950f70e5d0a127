set_option autoImplicit false

/-!
# Association lists (SPEC §10, §11.2)

Finite maps as lists of key/value pairs with at most one pair per key.  `insert` keeps the place of
a key that is already bound and appends a new one, so the list order is the order in which keys were
first bound.  The lemmas say what each operation does to `find?` and to the keys.

They stand for the maps of the specification, which promises no order; the order of insertion is
kept here because it makes results definite.
-/

namespace ObjectBridge.Assoc

variable {K V : Type} [DecidableEq K]

/-- The value bound to `k`. -/
def find? (k : K) : List (K × V) → Option V
  | [] => none
  | (k', v) :: rest => if k' = k then some v else find? k rest

/-- Bind `k` to `v`, in place if `k` is bound already and at the end otherwise. -/
def insert (k : K) (v : V) : List (K × V) → List (K × V)
  | [] => [(k, v)]
  | (k', v') :: rest => if k' = k then (k, v) :: rest else (k', v') :: insert k v rest

/-- Drop the binding of `k`. -/
def erase (k : K) : List (K × V) → List (K × V)
  | [] => []
  | (k', v') :: rest => if k' = k then rest else (k', v') :: erase k rest

/-- The bound keys, in list order. -/
def keys (m : List (K × V)) : List K := m.map Prod.fst

/-- Bind every pair in turn, so that a later pair replaces an earlier one with the same key. -/
def insertAll (pairs : List (K × V)) (m : List (K × V)) : List (K × V) :=
  pairs.foldl (fun acc p => insert p.1 p.2 acc) m

/-- Inserting a key changes what is found at that key only. -/
theorem find?_insert (m : List (K × V)) (k k' : K) (v : V) :
    find? k' (insert k v m) = if k = k' then some v else find? k' m := by
  induction m with
  | nil => rfl
  | cons p rest ih =>
    obtain ⟨a, b⟩ := p
    by_cases h : a = k
    · subst h
      by_cases hk : a = k' <;> simp [insert, find?, hk]
    · by_cases ha : a = k'
      · subst ha
        have : ¬ k = a := fun e => h e.symm
        simp [insert, find?, h, this]
      · simp [insert, find?, h, ha, ih]

/-- An inserted key is found. -/
@[simp]
theorem find?_insert_self (m : List (K × V)) (k : K) (v : V) : find? k (insert k v m) = some v := by
  simp [find?_insert]

/-- Nothing is found exactly at the keys that are not there. -/
theorem find?_eq_none_iff (m : List (K × V)) (k : K) : find? k m = none ↔ k ∉ keys m := by
  induction m with
  | nil => simp [find?, keys]
  | cons p rest ih =>
    obtain ⟨a, b⟩ := p
    by_cases h : a = k
    · subst h
      simp [find?, keys]
    · have h' : ¬ k = a := fun e => h e.symm
      simpa [find?, keys, h, h'] using ih

/-- Inserting a key that is there keeps the keys and their order. -/
theorem keys_insert_of_mem (m : List (K × V)) (k : K) (v : V) (h : k ∈ keys m) :
    keys (insert k v m) = keys m := by
  induction m with
  | nil => simp [keys] at h
  | cons p rest ih =>
    obtain ⟨a, b⟩ := p
    by_cases ha : a = k
    · subst ha
      simp [insert, keys]
    · have hk : ¬ k = a := fun e => ha e.symm
      have hr : k ∈ keys rest := by simpa [keys, hk] using h
      have := ih hr
      simp only [keys] at this
      simp [insert, keys, ha, this]

/-- A key that is not there is inserted at the end. -/
theorem keys_insert_of_not_mem (m : List (K × V)) (k : K) (v : V) (h : k ∉ keys m) :
    keys (insert k v m) = keys m ++ [k] := by
  induction m with
  | nil => rfl
  | cons p rest ih =>
    obtain ⟨a, b⟩ := p
    have ha : ¬ a = k := fun e => h (by simp [keys, e])
    have hr : k ∉ keys rest := fun hr =>
      h (by simp only [keys, List.map_cons]; exact List.mem_cons_of_mem _ hr)
    have := ih hr
    simp only [keys] at this
    simp [insert, keys, ha, this]

/-- Inserting keeps the keys distinct. -/
theorem nodup_keys_insert (m : List (K × V)) (k : K) (v : V) (h : (keys m).Nodup) :
    (keys (insert k v m)).Nodup := by
  by_cases hk : k ∈ keys m
  · rw [keys_insert_of_mem m k v hk]
    exact h
  · rw [keys_insert_of_not_mem m k v hk, List.nodup_append]
    refine ⟨h, by simp, ?_⟩
    intro a ha b hb e
    simp only [List.mem_singleton] at hb
    exact hk (hb ▸ e ▸ ha)

end ObjectBridge.Assoc
