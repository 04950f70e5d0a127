import ObjectBridge.Proofs.DataClaims
import ObjectBridge.Proofs.UnsharedObjects

set_option autoImplicit false

/-!
# Typed data survives the round trip (SPEC §8, §12.3)

Data becomes a value, the value an object, and back.  `Passes t x v` says what is needed of the
value `v` in between: it stands for the data `x`, and every value equal to it reads as data equal to
`x`.  There is one lemma for each way of building a type, and the option under an option is the one
that has none: the two nulls become the same value.
-/

namespace ObjectBridge

theorem exists_forall₂ {α β : Type} {R : α → β → Prop} {xs : List α} (hall : ∀ x ∈ xs, ∃ y, R x y) :
    ∃ ys, List.Forall₂ R xs ys := by
  induction xs with
  | nil => exact ⟨[], .nil⟩
  | cons x rest ih =>
    obtain ⟨y, hy⟩ := hall x List.mem_cons_self
    obtain ⟨ys, hys⟩ := ih fun z hz => hall z (List.mem_cons_of_mem x hz)
    exact ⟨y :: ys, .cons hy hys⟩

/-- A map equal to another has its keys, and finds values equal to those of the other. -/
theorem Value.map_of_same {w : Value} {ps : List (String × Value)} (hkeys : (Assoc.keys ps).Nodup)
    (hd : w.Distinct) (hw : (Value.map ps).same w = true) :
    ∃ qs, w = .map qs ∧ (Assoc.keys qs).Perm (Assoc.keys ps) ∧
      ∀ q ∈ qs, q.2.Distinct ∧ ∃ v, Assoc.find? q.1 ps = some v ∧ v.same q.2 = true := by
  obtain ⟨qs, rfl, hlen, hfind⟩ := same_map_iff.mp hw
  have hperm := keys_perm_of_same hkeys hlen hfind
  cases hd with
  | map hnodup hdistinct =>
    refine ⟨qs, rfl, hperm.symm, fun q hq => ⟨hdistinct q hq, ?_⟩⟩
    obtain ⟨p, hp, hpq⟩ := List.mem_map.mp (hperm.mem_iff.mpr (List.mem_map.mpr ⟨q, hq, rfl⟩))
    obtain ⟨u, hu, hpu⟩ := hfind p hp
    rw [hpq, Assoc.find?_of_mem hnodup hq, Option.some_inj] at hu
    subst hu
    exact ⟨p.2, hpq ▸ Assoc.find?_of_mem hkeys hp, hpu⟩

/-! ## Data -/

namespace Ty

/-- The type is an option. -/
def IsOption : Ty → Prop
  | option _ => True
  | _ => False

/-- The type is built from integers, doubles, truth values, texts and byte strings by options, lists
and maps, and no option is one of an option. -/
def Plain : Ty → Prop
  | int _ | float64 | bool | text | bytes => True
  | float32 | value | claim | host => False
  | option t => t.Plain ∧ ¬ t.IsOption
  | list t | dict t | sortedDict t => t.Plain

/-- What all data of the host is like: lists fit into storage, maps have distinct keys, and maps in
key order have them in order. -/
def WellFormed : (t : Ty) → t.Carrier → Prop
  | option t, (x : Option t.Carrier) => ∀ y ∈ x, t.WellFormed y
  | list t, (xs : List t.Carrier) => xs.length ≤ VectorObj.maxSize ∧ ∀ y ∈ xs, t.WellFormed y
  | dict t, (es : List (String × t.Carrier)) => (Assoc.keys es).Nodup ∧ ∀ e ∈ es, t.WellFormed e.2
  | sortedDict t, (es : List (String × t.Carrier)) =>
    (Assoc.keys es).Pairwise (· < ·) ∧ ∀ e ∈ es, t.WellFormed e.2
  | int _, _ | float32, _ | float64, _ | bool, _ | text, _ | bytes, _ | value, _ | claim,
      _ | host, _ => True

/-- Well-formedness is decided member by member. -/
instance decidableWellFormed : (t : Ty) → (x : t.Carrier) → Decidable (t.WellFormed x)
  | option t, (x : Option t.Carrier) =>
    have := t.decidableWellFormed
    inferInstanceAs (Decidable (∀ y ∈ x, t.WellFormed y))
  | list t, (xs : List t.Carrier) =>
    have := t.decidableWellFormed
    inferInstanceAs (Decidable (xs.length ≤ VectorObj.maxSize ∧ ∀ y ∈ xs, t.WellFormed y))
  | dict t, (es : List (String × t.Carrier)) =>
    have := t.decidableWellFormed
    inferInstanceAs (Decidable ((Assoc.keys es).Nodup ∧ ∀ e ∈ es, t.WellFormed e.2))
  | sortedDict t, (es : List (String × t.Carrier)) =>
    have := t.decidableWellFormed
    inferInstanceAs (Decidable ((Assoc.keys es).Pairwise (· < ·) ∧ ∀ e ∈ es, t.WellFormed e.2))
  | int _, _ | float32, _ | float64, _ | bool, _ | text, _ | bytes, _ | value, _ | claim, _ | host,
      _ => .isTrue trivial

/-- All integers in the data are numbers that a value can hold. -/
def InRange : (t : Ty) → t.Carrier → Prop
  | int _, n => IntType.value.Fits n.1
  | option t, (x : Option t.Carrier) => ∀ y ∈ x, t.InRange y
  | list t, (xs : List t.Carrier) => ∀ y ∈ xs, t.InRange y
  | dict t, (es : List (String × t.Carrier)) => ∀ e ∈ es, t.InRange e.2
  | sortedDict t, (es : List (String × t.Carrier)) => ∀ e ∈ es, t.InRange e.2
  | float32, _ | float64, _ | bool, _ | text, _ | bytes, _ | value, _ | claim, _ | host, _ => True

/-- Being in range is decided member by member. -/
instance decidableInRange : (t : Ty) → (x : t.Carrier) → Decidable (t.InRange x)
  | int _, n => inferInstanceAs (Decidable (IntType.value.Fits n.1))
  | option t, (x : Option t.Carrier) =>
    have := t.decidableInRange
    inferInstanceAs (Decidable (∀ y ∈ x, t.InRange y))
  | list t, (xs : List t.Carrier) =>
    have := t.decidableInRange
    inferInstanceAs (Decidable (∀ y ∈ xs, t.InRange y))
  | dict t, (es : List (String × t.Carrier)) =>
    have := t.decidableInRange
    inferInstanceAs (Decidable (∀ e ∈ es, t.InRange e.2))
  | sortedDict t, (es : List (String × t.Carrier)) =>
    have := t.decidableInRange
    inferInstanceAs (Decidable (∀ e ∈ es, t.InRange e.2))
  | float32, _ | float64, _ | bool, _ | text, _ | bytes, _ | value, _ | claim, _ | host, _ =>
    .isTrue trivial

/-- Data is equal by content: floats bit for bit, lists member by member, and maps by key. -/
def Same : (t : Ty) → t.Carrier → t.Carrier → Prop
  | option t, (x : Option t.Carrier), (y : Option t.Carrier) => Option.Rel t.Same x y
  | list t, (xs : List t.Carrier), (ys : List t.Carrier) => List.Forall₂ t.Same xs ys
  | dict t, (es : List (String × t.Carrier)), (fs : List (String × t.Carrier)) =>
    ∀ k, Option.Rel t.Same (Assoc.find? k es) (Assoc.find? k fs)
  | sortedDict t, (es : List (String × t.Carrier)), (fs : List (String × t.Carrier)) =>
    List.Forall₂ (fun e f => f.1 = e.1 ∧ t.Same e.2 f.2) es fs
  | int _, x, y => x = y
  | float32, x, y => x = y
  | float64, x, y => x = y
  | bool, x, y => x = y
  | text, x, y => x = y
  | bytes, x, y => x = y
  | value, x, y => x = y
  | claim, x, y => x = y
  | host, x, y => x = y

/-! ## Lists and maps of data -/

section Lists

variable {α β : Type}

theorem run_encodeAll {enc : α → Run (Except RangeError β)} {dropItem : α → Run Unit}
    {dropResult : β → Run Unit} {b : Bridge} {xs : List α} {ys : List β}
    (hall : List.Forall₂ (fun x y => (enc x).run b = (.ok (.ok y), b)) xs ys) :
    (encodeAll enc dropItem dropResult xs).run b = (.ok (.ok ys), b) := by
  induction hall with
  | nil => rfl
  | @cons x y xs ys hxy _ ih =>
    unfold encodeAll
    rw [run_bind_of_ok (run_onUnwind_of_ok _ hxy)]
    exact run_bind_of_ok (run_onUnwind_of_ok _ ih)

theorem yields_encodeAll {enc : α → Run (Except RangeError β)} {dropItem : α → Run Unit}
    {dropResult : β → Run Unit} {xs : List α} {ys : List β}
    (hall : List.Forall₂ (fun x y => Yields (enc x) (.ok y)) xs ys) :
    Yields (encodeAll enc dropItem dropResult xs) (.ok ys) :=
  fun b => run_encodeAll (hall.imp fun _ _ hxy => hxy b)

theorem yields_decodeAll {dec : α → Run (Except BridgeError β)} {dropItem : β → Run Unit}
    {xs : List α} {ys : List β} (hall : List.Forall₂ (fun x y => Yields (dec x) (.ok y)) xs ys) :
    Yields (decodeAll dec dropItem xs) (.ok ys) := by
  induction hall with
  | nil => exact .pure _
  | @cons x y xs ys hxy _ ih =>
    unfold decodeAll
    exact hxy.bind ((ih.onUnwind _).bind (.pure _))

theorem run_withKey {ε : Type} {f : α → Run (Except ε β)} {e : String × α} {y : String × β}
    {b b' : Bridge} (hkey : y.1 = e.1) (hf : (f e.2).run b = (.ok (.ok y.2), b')) :
    (withKey f e).run b = (.ok (.ok y), b') := by
  have hpair : (e.1, y.2) = y := by rw [← hkey]
  unfold withKey
  rw [run_bind_of_ok hf, ← hpair]
  rfl

theorem yields_withKey {ε : Type} {f : α → Run (Except ε β)} {e : String × α} {y : String × β}
    (hf : y.1 = e.1 ∧ Yields (f e.2) (.ok y.2)) : Yields (withKey f e) (.ok y) :=
  fun b => run_withKey hf.1 (hf.2 b)

end Lists

/-! ## Values that stand for data -/

/-- The value stands for the data: the data becomes this value, and whatever is equal to the value
reads as data equal to this.  It holds no objects, and only data of an option may be null. -/
structure Passes (t : Ty) (x : t.Carrier) (v : Value) : Prop where
  encodes : Yields (t.encode x) (.ok v)
  wellFormed : v.WellFormed
  free : v.claims = []
  present : ¬ t.IsOption → v ≠ .null
  decodes : ∀ w : Value, w.Distinct → v.same w = true →
    ∃ y, Yields (t.decode w) (.ok y) ∧ t.WellFormed y ∧ t.Same x y

variable {t : Ty} {v : Value}

/-- A scalar is read as it was written. -/
theorem Passes.of_scalar {x : t.Carrier} (hscalar : v.IsScalar) (henc : Yields (t.encode x) (.ok v))
    (hwf : v.WellFormed) (hfree : v.claims = []) (hnull : v ≠ .null)
    (hdec : Yields (t.decode v) (.ok x)) (hx : t.WellFormed x) (hsame : t.Same x x) :
    Passes t x v := by
  refine ⟨henc, hwf, hfree, fun _ => hnull, fun w _ hw => ⟨x, ?_, hx, hsame⟩⟩
  rw [← (Value.same_scalar_iff hscalar).mp hw]
  exact hdec

theorem toInt_ofInt {n : Int} (hn : IntType.value.Fits n) : (Int64.ofInt n).toInt = n := by
  obtain ⟨hlow, hhigh⟩ := hn
  have hlow' : -(2 ^ 63 : Int) ≤ n := hlow
  have hhigh' : n ≤ 2 ^ 63 - 1 := hhigh
  exact Int64.toInt_ofInt_of_le (by omega) (by omega)

theorem passes_int {i : IntType} (x : (Ty.int i).Carrier) (hx : (Ty.int i).InRange x) :
    Passes (.int i) x (.int (Int64.ofInt x.1)) := by
  have hback : (Int64.ofInt x.1).toInt = x.1 := toInt_ofInt hx
  refine .of_scalar trivial ?_ ⟨.int _, .int _⟩ rfl nofun ?_ trivial rfl
  · have henc : encodeInt i x.1 = .ok (.int (Int64.ofInt x.1)) := encodeInt_of_fits x.2 hx
    unfold encode
    rw [henc]
    exact .pure _
  · have hfits : i.Fits (Int64.ofInt x.1).toInt := by
      rw [hback]
      exact x.2
    have hdec : decodeInt i (.int (Int64.ofInt x.1)) = .ok x := by
      unfold decodeInt
      simp only [hfits, ↓reduceDIte]
      congr 1
      exact Subtype.ext hback
    unfold decode
    rw [hdec]
    exact .pure _

theorem passes_option (hplain : ¬ t.IsOption) (x : Option t.Carrier)
    (hx : ∀ y ∈ x, ∃ v, Passes t y v) :
    ∃ v, Passes (.option t) x v := by
  cases x with
  | none =>
    refine ⟨.null, .pure _, ⟨.null, .null⟩, rfl, fun hnot => absurd trivial hnot, fun w _ hw =>
      ⟨none, ?_, nofun, .none⟩⟩
    rw [← (Value.same_scalar_iff (a := .null) trivial).mp hw]
    exact .pure _
  | some y =>
    obtain ⟨v, hv⟩ := hx y rfl
    refine ⟨v, hv.encodes, hv.wellFormed, hv.free, fun hnot =>
      absurd trivial hnot, fun w hd hw => ?_⟩
    obtain ⟨z, hdec, hwf, hsame⟩ := hv.decodes w hd hw
    refine ⟨some z, ?_, fun u hu => Option.some.inj hu ▸ hwf, .some hsame⟩
    have hnull : w ≠ .null := by
      rintro rfl
      have hback := Value.same_symm hv.wellFormed.distinct hw
      exact hv.present hplain ((Value.same_scalar_iff (a := .null) trivial).mp hback).symm
    unfold decode
    split
    · exact absurd rfl hnull
    · exact hdec.bind (.pure _)

/-- Members of a list that stand for data are read in turn. -/
theorem exists_decoded {xs : List t.Carrier} {vs ws : List Value}
    (hall : List.Forall₂ (Passes t) xs vs) (hsame : List.Forall₂ (fun v w => v.same w = true) vs ws)
    (hd : ∀ w ∈ ws, w.Distinct) :
    ∃ ys, List.Forall₂ (fun w y => Yields (t.decode w) (.ok y)) ws ys ∧ (∀ y ∈ ys, t.WellFormed y) ∧
      List.Forall₂ t.Same xs ys := by
  induction hall generalizing ws with
  | nil =>
    cases hsame
    exact ⟨[], .nil, nofun, .nil⟩
  | @cons x v xs vs hx _ ih =>
    cases hsame with
    | @cons _ w _ ws hw hws =>
      obtain ⟨y, hdec, hwf, heq⟩ := hx.decodes w (hd w List.mem_cons_self) hw
      obtain ⟨ys, hdecs, hwfs, heqs⟩ := ih hws fun u hu => hd u (List.mem_cons_of_mem w hu)
      exact ⟨y :: ys, .cons hdec hdecs, List.forall_mem_cons.mpr ⟨hwf, hwfs⟩, .cons heq heqs⟩

theorem passes_list (xs : List t.Carrier) (hlen : xs.length ≤ VectorObj.maxSize)
    (hx : ∀ y ∈ xs, ∃ v, Passes t y v) :
    ∃ v, Passes (.list t) xs v := by
  obtain ⟨vs, hall⟩ := exists_forall₂ hx
  refine ⟨.seq vs, ?_, ⟨.seq fun v hv => ?_, .seq (hall.length_eq ▸ hlen) fun v hv => ?_⟩,
    ?_, fun _ => nofun, ?_⟩
  · exact (yields_encodeAll (hall.imp fun _ _ h => h.encodes)).bind (.pure _)
  · obtain ⟨y, -, hy⟩ := exists_of_mem_right hall hv
    exact hy.wellFormed.distinct
  · obtain ⟨y, -, hy⟩ := exists_of_mem_right hall hv
    exact hy.wellFormed.fits
  · rw [Value.claims, Value.claimsOfItems_eq, List.flatMap_eq_nil_iff]
    intro v hv
    obtain ⟨y, -, hy⟩ := exists_of_mem_right hall hv
    exact hy.free
  · intro w hd hw
    obtain ⟨ws, rfl, hsame⟩ := Value.same_seq_iff.mp hw
    cases hd with
    | seq hdistinct =>
      obtain ⟨ys, hdec, hwf, heq⟩ := exists_decoded hall hsame hdistinct
      exact ⟨ys, yields_decodeAll hdec, ⟨heq.length_eq ▸ hlen, hwf⟩, heq⟩

/-- The entries `ps` stand for the data of the entries `es`. -/
def PassEntries (t : Ty) (es : List (String × t.Carrier)) (ps : List (String × Value)) : Prop :=
  List.Forall₂ (fun e p => p.1 = e.1 ∧ Passes t e.2 p.2) es ps

section Entries

variable {es : List (String × t.Carrier)} {ps : List (String × Value)}

theorem exists_passEntries (hes : ∀ e ∈ es, ∃ v, Passes t e.2 v) : ∃ ps, PassEntries t es ps := by
  refine exists_forall₂ fun e he => ?_
  obtain ⟨v, hv⟩ := hes e he
  exact ⟨(e.1, v), rfl, hv⟩

namespace PassEntries

theorem keys_eq (hall : PassEntries t es ps) : Assoc.keys ps = Assoc.keys es :=
  Assoc.keys_eq_of_forall₂ hall fun _ _ h => h.1

theorem of_mem (hall : PassEntries t es ps) {p : String × Value} (hp : p ∈ ps) :
    ∃ y, Passes t y p.2 := by
  obtain ⟨e, -, -, hpass⟩ := exists_of_mem_right hall hp
  exact ⟨e.2, hpass⟩

theorem encodes (hall : PassEntries t es ps) :
    Yields (encodeEntries t.encode t.drop es) (.ok (.map ps)) := by
  have hentries : List.Forall₂ (fun e p => Yields (withKey t.encode e) (.ok p)) es ps :=
    hall.imp fun _ _ h => yields_withKey ⟨h.1, h.2.encodes⟩
  exact (yields_encodeAll hentries).bind (.pure _)

theorem wellFormed (hall : PassEntries t es ps) (hkeys : (Assoc.keys es).Nodup) :
    (Value.map ps).WellFormed := by
  refine ⟨.map (hall.keys_eq ▸ hkeys) fun p hp => ?_, .map fun p hp => ?_⟩
  · obtain ⟨y, hy⟩ := hall.of_mem hp
    exact hy.wellFormed.distinct
  · obtain ⟨y, hy⟩ := hall.of_mem hp
    exact hy.wellFormed.fits

theorem free (hall : PassEntries t es ps) : (Value.map ps).claims = [] := by
  rw [Value.claims, Value.claimsOfEntries_eq, List.flatMap_eq_nil_iff]
  intro p hp
  obtain ⟨y, hy⟩ := hall.of_mem hp
  exact hy.free

/-- A map equal to the one that stands for the data is read in its own order, and finds what the
data finds. -/
theorem decodes (hall : PassEntries t es ps) (hnodup : (Assoc.keys es).Nodup) {w : Value}
    (hd : w.Distinct) (hw : (Value.map ps).same w = true) :
    ∃ zs, Yields (decodeEntries t.decode t.drop w) (.ok zs) ∧ (Assoc.keys zs).Nodup ∧
      (Assoc.keys zs).Perm (Assoc.keys es) ∧ (∀ z ∈ zs, t.WellFormed z.2) ∧
      ∀ k, Option.Rel t.Same (Assoc.find? k es) (Assoc.find? k zs) := by
  obtain ⟨qs, rfl, hperm, hfind⟩ := Value.map_of_same (hall.keys_eq ▸ hnodup) hd hw
  rw [hall.keys_eq] at hperm
  have hone : ∀ q ∈ qs, ∃ z : String × t.Carrier, z.1 = q.1 ∧ Yields (t.decode q.2) (.ok z.2) ∧
      t.WellFormed z.2 ∧
      ∃ x, Assoc.find? q.1 es = some x ∧ t.Same x z.2 := by
    intro q hq
    obtain ⟨hdistinct, v, hv, hsame⟩ := hfind q hq
    have hrel := Assoc.find?_rel (R := fun _ => Passes t) hall q.1
    rw [hv] at hrel
    cases hx : Assoc.find? q.1 es with
    | none =>
      rw [hx] at hrel
      cases hrel
    | some x =>
      rw [hx] at hrel
      cases hrel with
      | some hpass =>
        obtain ⟨y, hdec, hwf, heq⟩ := hpass.decodes q.2 hdistinct hsame
        exact ⟨(q.1, y), rfl, hdec, hwf, x, rfl, heq⟩
  obtain ⟨zs, hzs⟩ := exists_forall₂ hone
  have hkeys : Assoc.keys zs = Assoc.keys qs := Assoc.keys_eq_of_forall₂ hzs fun _ _ h => h.1
  have hdec : List.Forall₂ (fun q z => Yields (withKey t.decode q) (.ok z)) qs zs :=
    hzs.imp fun _ _ h => yields_withKey ⟨h.1, h.2.1⟩
  refine ⟨zs, yields_decodeAll hdec, hkeys ▸ hperm.nodup_iff.mpr hnodup, hkeys ▸ hperm, fun z hz =>
    ?_, fun k => ?_⟩
  · obtain ⟨q, -, -, -, hwf, -⟩ := exists_of_mem_right hzs hz
    exact hwf
  · have hrel := Assoc.find?_rel (R := fun k _ y => ∃ x, Assoc.find? k es = some x ∧ t.Same x y)
      (hzs.imp fun _ _ h => ⟨h.1, h.2.2.2⟩) k
    cases hq : Assoc.find? k qs with
    | none =>
      rw [hq] at hrel
      have hes : Assoc.find? k es = none := by
        rw [Assoc.find?_eq_none_iff] at hq ⊢
        exact fun hmem => hq (hperm.mem_iff.mpr hmem)
      rw [hes]
      cases hz : Assoc.find? k zs with
      | none => exact .none
      | some z =>
        rw [hz] at hrel
        cases hrel
    | some u =>
      rw [hq] at hrel
      cases hz : Assoc.find? k zs with
      | none =>
        rw [hz] at hrel
        cases hrel
      | some z =>
        rw [hz] at hrel
        cases hrel with
        | some hx =>
          obtain ⟨x, hx, hsame⟩ := hx
          rw [hx]
          exact .some hsame

end PassEntries

theorem passes_dict (hkeys : (Assoc.keys es).Nodup) (hes : ∀ e ∈ es, ∃ v, Passes t e.2 v) :
    ∃ v, Passes (.dict t) es v := by
  obtain ⟨ps, hall⟩ := exists_passEntries hes
  refine ⟨.map ps, hall.encodes, hall.wellFormed hkeys, hall.free, fun _ =>
    nofun, fun w hd hw => ?_⟩
  obtain ⟨zs, hdec, hnodup, -, hwf, hsame⟩ := hall.decodes hkeys hd hw
  exact ⟨zs, hdec, ⟨hnodup, hwf⟩, hsame⟩

theorem pairwise_sortByKey {α : Type} (zs : List (String × α)) :
    (Assoc.keys (sortByKey zs)).Pairwise (· ≤ ·) := by
  have hsorted : (sortByKey zs).Pairwise fun a b => decide (a.1 ≤ b.1) = true := by
    refine List.pairwise_mergeSort (fun a b c hab hbc => ?_) (fun a b => ?_) zs
    · exact decide_eq_true (String.le_trans (of_decide_eq_true hab) (of_decide_eq_true hbc))
    · rw [Bool.or_eq_true, decide_eq_true_iff, decide_eq_true_iff]
      exact String.le_total a.1 b.1
  exact List.pairwise_map.mpr (hsorted.imp of_decide_eq_true)

theorem passes_sortedDict (hkeys : (Assoc.keys es).Pairwise (· < ·))
    (hes : ∀ e ∈ es, ∃ v, Passes t e.2 v) :
    ∃ v, Passes (.sortedDict t) es v := by
  have hnodup : (Assoc.keys es).Nodup := hkeys.imp fun hab => by
    rintro rfl
    exact String.lt_irrefl _ hab
  obtain ⟨ps, hall⟩ := exists_passEntries hes
  refine ⟨.map ps, hall.encodes, hall.wellFormed hnodup, hall.free, fun _ =>
    nofun, fun w hd hw => ?_⟩
  obtain ⟨zs, hdec, hnodup', hperm, hwf, hsame⟩ := hall.decodes hnodup hd hw
  have hsort := sortByKey_perm zs
  -- both lists of keys are in order, so they are the same
  have hsorted : Assoc.keys (sortByKey zs) = Assoc.keys es :=
    List.Perm.eq_of_pairwise
      (fun _ _ _ _ hab hba => String.le_antisymm hab hba) (pairwise_sortByKey zs)
      (hkeys.imp fun hab => String.not_lt.mp (String.lt_asymm hab))
      ((hsort.map Prod.fst).trans hperm)
  refine ⟨sortByKey zs, hdec.bind (.pure _),
    ⟨hsorted ▸ hkeys, fun z hz => hwf z (hsort.mem_iff.mp hz)⟩, ?_⟩
  refine Assoc.forall₂_of_find? hnodup hsorted fun k => ?_
  rw [Assoc.find?_of_perm hsort hnodup']
  exact hsame k

end Entries

/-- Data of a plain type whose integers are in range has a value that stands for it. -/
theorem exists_passes (ht : t.Plain) (x : t.Carrier) (hx : t.WellFormed x) (hr : t.InRange x) :
    ∃ v, Passes t x v := by
  induction t with
  | int i => exact ⟨_, passes_int x hr⟩
  | float64 =>
    exact ⟨.float x, .of_scalar trivial (.pure _) ⟨.float _, .float _⟩ rfl nofun
      (.pure _) trivial rfl⟩
  | bool =>
    exact ⟨.bool x, .of_scalar trivial (.pure _) ⟨.bool _, .bool _⟩ rfl nofun (.pure _) trivial rfl⟩
  | text =>
    exact ⟨.text x, .of_scalar trivial (.pure _) ⟨.text _, .text _⟩ rfl nofun (.pure _) trivial rfl⟩
  | bytes =>
    exact ⟨.bytes x, .of_scalar trivial (.pure _) ⟨.bytes _, .bytes _⟩ rfl nofun
      (.pure _) trivial rfl⟩
  | float32 | value | claim | host => exact ht.elim
  | option t ih => exact passes_option ht.2 x fun y hy => ih ht.1 y (hx y hy) (hr y hy)
  | list t ih => exact passes_list x hx.1 fun y hy => ih ht y (hx.2 y hy) (hr y hy)
  | dict t ih => exact passes_dict hx.1 fun e he => ih ht e.2 (hx.2 e he) (hr e he)
  | sortedDict t ih => exact passes_sortedDict hx.1 fun e he => ih ht e.2 (hx.2 e he) (hr e he)

/-! ## There and back -/

section RoundTrip

variable {b : Bridge} {host : Multiset ObjId} {truths : ObjId × ObjId} {x : t.Carrier}

theorem Passes.run_toForeign (hp : Passes t x v) (hb : b.Books host) (hu : b.Bounded)
    (ht : b.truths = some truths) :
    (t.toForeign x none true).run b =
      (.ok (.ok (v.root truths b.heap.slots.length)), b.built truths v) := by
  have hbuild := Bridge.run_hostToForeign hb hu ht hp.wellFormed (held_of_free hp.free)
  apply Ends.run_ok
  unfold toForeign
  rw [ends_bind, ends_of_run_ok (hp.encodes b), ends_bind, ends_onUnwind, ends_of_run_ok hbuild,
    ends_bind, ends_of_run_ok (yields_drop hp.free _)]
  exact ⟨rfl, rfl⟩

theorem Passes.copies_fromForeign (hp : Passes t x v) (hb : b.Books host) (hu : b.Bounded)
    (ht : b.truths = some truths) :
    ∃ y, Copies (b.built truths v) (b.built truths v).heap
      (t.fromForeign (v.root truths b.heap.slots.length)) (.ok y) ∧
      t.WellFormed y ∧ t.Same x y := by
  obtain ⟨w, hback, hd, hfree, hsame⟩ := Bridge.copies_built hb hu ht hp.wellFormed hp.free
  obtain ⟨y, hdec, hwf, heq⟩ := hp.decodes w hd (Value.same_symm hd hsame)
  refine ⟨y, ?_, hwf, heq⟩
  exact hback.bind ((hdec.copies.onUnwind _).bind ((yields_drop hfree).copies.bind (.pure _)))

/-- Data of a plain type whose integers are in range becomes an object, and the object is read back
at the same type as data that is equal by content. -/
theorem typed_round_trip (hb : b.Books host) (hu : b.Bounded) (t : Ty) (ht : t.Plain)
    (x : t.Carrier) (hx : t.WellFormed x) (hr : t.InRange x) :
    ∃ r b₁ y b₂, (t.toForeign x none true).run b = (.ok (.ok r), b₁) ∧
    (t.fromForeign r).run b₁ = (.ok (.ok y), b₂) ∧
      t.WellFormed y ∧ t.Same x y := by
  obtain ⟨truths, htruths⟩ := Option.isSome_iff_exists.mp hb.truths
  obtain ⟨v, hp⟩ := exists_passes ht x hx hr
  obtain ⟨y, hback, hwf, hsame⟩ := hp.copies_fromForeign hb hu htruths
  obtain ⟨_, b₂, hrun, rfl, -⟩ := (hback _ (hu.built_free (t := truths) hp.free)).returns
  exact ⟨_, _, y, b₂, hp.run_toForeign hb hu htruths, hrun, hwf, hsame⟩

/-- Maps in key order of unsigned numbers, in lists with gaps, in a map. -/
def nestedType : Ty := .dict (.list (.option (.sortedDict (.int ⟨false, .bits64⟩))))

/-- A gap, an empty map, and the least and the greatest number that can pass. -/
def nestedData : nestedType.Carrier :=
  [("b", [none, some []]),
    ("a", [some [("x", ⟨0, by decide⟩), ("y", ⟨2 ^ 63 - 1, by decide⟩)], none]), ("", [])]

/-- Nested data passes a bridge in which all keys have one checksum. -/
theorem typed_round_trip_of_nested_data :
    ∃ r b₁ y b₂, (nestedType.toForeign nestedData none true).run clashingBridge =
      (.ok (.ok r), b₁) ∧
      (nestedType.fromForeign r).run b₁ = (.ok (.ok y), b₂) ∧ nestedType.WellFormed y ∧
      nestedType.Same nestedData y :=
  typed_round_trip clashingBridge_books (by decide) nestedType ⟨trivial, id⟩ nestedData
    (by decide +kernel)
    (by decide +kernel)

end RoundTrip

end Ty

end ObjectBridge
