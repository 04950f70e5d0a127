import ObjectBridge.Proofs.ClassHierarchy
import ObjectBridge.Proofs.Copying
import ObjectBridge.Proofs.Reachability
import ObjectBridge.Proofs.ReadingRoom
import Mathlib.Data.Finset.Card

set_option autoImplicit false

/-!
# Which objects can be read (SPEC §4.3, §12.3)

Reading an object reads the elements of vectors and the values of hashes as well, through as many
levels as there are. Of each object that it comes to it asks the same: below a class whose objects
are copied the object has to carry what that class does, and below none of them its own class needs
a wrapper.  Reading gives a value exactly if that holds of all the objects that it comes to.
Otherwise it complains about one of them, and if there is no ring among them it has no other way to
end.
-/

namespace ObjectBridge

open Relation

/-! ## The objects that reading comes to -/

/-- Reading the first object reads the second one. -/
inductive Heap.Feeds (h : Heap) (o p : ObjId) : Prop
  /-- it is an element of a vector -/
  | element {x : Obj} {elems : List (Option ObjId)} (hx : h.get? o = some x)
    (hc : Class.vector ∈ x.cls.ancestors) (hq : x.payload = .vector elems) (hp : some p ∈ elems)
  /-- it is a value of a hash -/
  | value {x : Obj} {inside : Buckets} {e : HashEntry} (hx : h.get? o = some x)
    (hc : Class.hash ∈ x.cls.ancestors) (hq : x.payload = .hash inside) (he : e ∈ inside.entries)
    (hv : e.value = some p)

/-- Nothing that the object leads to leads back to itself. -/
def Heap.Ringless (h : Heap) (o : ObjId) : Prop :=
  ∀ p, ReflTransGen h.Feeds o p → ¬ TransGen h.Feeds p p

namespace Heap

variable {h : Heap} {out : Multiset ObjId} {o p : ObjId}

theorem Feeds.holds (hf : h.Feeds o p) : h.Holds o p := by
  cases hf with
  | element hx _ hq hp => exact ⟨_, hx, hq ▸ Payload.mem_claims_vector.mpr hp⟩
  | value hx _ hq he hv => exact ⟨_, hx, hq ▸ Payload.mem_claims_hash.mpr ⟨_, he, .inr hv⟩⟩

theorem Acyclic.ringless (ha : h.Acyclic) (o : ObjId) : h.Ringless o :=
  fun p _ hp => ha p (TransGen.mono (fun _ _ => Feeds.holds) p p hp)

theorem Ringless.feeds (hr : h.Ringless o) (hf : h.Feeds o p) :
    h.Ringless p := fun q hq => hr q (hq.head hf)

/-- Going from objects to what they feed on comes to an end. -/
theorem Ringless.acc (hr : h.Ringless o) (hcounted : h.Counted out) (hl : h.Live o) :
    Acc (fun q p => h.Feeds p q) o := by
  let below (q p : {q // ReflTransGen h.Feeds o q}) : Prop := TransGen h.Feeds p.1 q.1
  have hlive (q : {q // ReflTransGen h.Feeds o q}) : h.Live q.1 :=
    hcounted.live_of_reaches hl (ReflTransGen.mono (fun _ _ => Feeds.holds) o q.1 q.2)
  have hfinite : Finite {q // ReflTransGen h.Feeds o q} :=
    Finite.of_injective (fun q => (⟨q.1, hlive q⟩ : {q // h.Live q})) fun _ _ heq =>
      Subtype.ext (congrArg (·.1) heq)
  have htrans : IsTrans _ below := ⟨fun _ _ _ hqp hpr => TransGen.trans hpr hqp⟩
  have hirrefl : Std.Irrefl below := ⟨fun q hq => hr q.1 q.2 hq⟩
  have hwf : WellFounded below := Finite.wellFounded_of_trans_of_irrefl below
  suffices hall : ∀ q : {q // ReflTransGen h.Feeds o q},
      Acc (fun q p => h.Feeds p q) q.1 from hall ⟨o, .refl⟩
  intro q
  induction q using hwf.induction with
  | _ q ih => exact ⟨_, fun p hp => ih ⟨p, q.2.tail hp⟩ (.single hp)⟩

end Heap

/-! ## What is asked of an object -/

namespace Bridge

/-- The object is copied and carries what its kind of copy asks for, or it is wrapped and its class
has a wrapper. -/
def Readable (b : Bridge) (o : ObjId) : Prop :=
  ∃ x, b.heap.get? o = some x ∧
    ((∃ k : CopyKind, k.cls ∈ x.cls.ancestors ∧ x.payload.layout = k.layout) ∨
      (∀ k : CopyKind, k.cls ∉ x.cls.ancestors) ∧ (b.wrapperOf x.cls).isSome)

/-- What is wrong with an object, and the complaint about it. -/
inductive Offends (b : Bridge) (o : ObjId) : Complaint → Prop
  /-- the object is copied and carries something else -/
  | layout {x : Obj} (k : CopyKind) (hx : b.heap.get? o = some x) (hc : k.cls ∈ x.cls.ancestors)
    (hq : x.payload.layout ≠ k.layout) :
    Offends b o (.raised (some s!"{x.cls.name} object has an incompatible layout for {k.cls.name}"))
  /-- the object is wrapped and its class has no wrapper -/
  | wrapper {x : Obj} (hx : b.heap.get? o = some x) (hc : ∀ k : CopyKind, k.cls ∉ x.cls.ancestors)
    (hw : b.wrapperOf x.cls = none) : Offends b o (.fault (lookupMessage x.cls))

section Classes

variable {b : Bridge} {o : ObjId} {x : Obj} {c : Complaint}

theorem Classed.isSubclassOf_iff (hb : b.Classed) (hx : b.heap.get? o = some x) (k : CopyKind) :
    x.cls.isSubclassOf k.cls = true ↔ k.cls ∈ x.cls.ancestors :=
  hb.grown.isSubclassOf_iff (hb.classes o x hx) (hb.grown.builtins k.cls_mem_builtins)

theorem Classed.eq_of_ancestors (hb : b.Classed) (hx : b.heap.get? o = some x) {k l : CopyKind}
    (hk : k.cls ∈ x.cls.ancestors) (hl : l.cls ∈ x.cls.ancestors) : k = l :=
  hb.grown.copyKind_unique (hb.classes o x hx) ((hb.isSubclassOf_iff hx k).mpr hk)
    ((hb.isSubclassOf_iff hx l).mpr hl)

theorem Offends.not_readable (ho : b.Offends o c) (hb : b.Classed) : ¬ b.Readable o := by
  rintro ⟨y, hy, hread⟩
  cases ho with
  | layout k hx hc hq =>
    obtain rfl := Option.some.inj (hx.symm.trans hy)
    rcases hread with ⟨l, hl, hlayout⟩ | ⟨hnone, -⟩
    · exact hq (hb.eq_of_ancestors hx hc hl ▸ hlayout)
    · exact hnone k hc
  | wrapper hx hc hw =>
    obtain rfl := Option.some.inj (hx.symm.trans hy)
    rcases hread with ⟨l, hl, -⟩ | ⟨-, hsome⟩
    · exact hc l hl
    · rw [hw] at hsome
      cases hsome

end Classes

end Bridge

/-! ## What has been read is readable -/

section Reader

variable {look : ObjId → Option Content} {order : EntryOrder} {wrap : Class → Option Wrapper}
  {inner : Option ObjId → Option Value} {o : ObjId} {x : Content}

/-- What reading makes of the payload of an object of the kind. -/
def CopyKind.read (look : ObjId → Option Content) (order : EntryOrder)
    (inner : Option ObjId → Option Value) (q : Payload) : CopyKind → Option Value
  | string => q.string?.map .text
  | blob => q.blob?.map .bytes
  | byteBuf => q.byteBuf?.map .bytes
  | vector => q.vector?.bind fun elems => (elems.mapM inner).map .seq
  | hash => q.hash?.bind fun inside =>
      ((order.arrange inside.entries).mapM (readEntry look inner)).map fun pairs =>
        .map (Assoc.insertAll pairs [])
  | float => q.float?.map .float
  | boolean => q.boolean?.map .bool
  | integer => q.integer?.map .int

theorem readContent_of_kind {k : CopyKind} (hk : x.1.isSubclassOf k.cls = true)
    (hunique : ∀ l : CopyKind, x.1.isSubclassOf l.cls = true → l = k) :
    readContent look order wrap inner o x = k.read look order inner x.2 := by
  have hother (l : CopyKind) (hl : l ≠ k) : ¬ x.1.isSubclassOf l.cls = true := fun h =>
    hl (hunique l h)
  unfold readContent
  cases k
  case string => exact if_pos hk
  all_goals refine (if_neg (hother .string nofun)).trans ?_
  case blob => exact if_pos hk
  all_goals refine (if_neg (hother .blob nofun)).trans ?_
  case byteBuf => exact if_pos hk
  all_goals refine (if_neg (hother .byteBuf nofun)).trans ?_
  case vector => exact if_pos hk
  all_goals refine (if_neg (hother .vector nofun)).trans ?_
  case hash => exact if_pos hk
  all_goals refine (if_neg (hother .hash nofun)).trans ?_
  case float => exact if_pos hk
  all_goals refine (if_neg (hother .float nofun)).trans ?_
  case boolean => exact if_pos hk
  all_goals refine (if_neg (hother .boolean nofun)).trans ?_
  exact if_pos hk

theorem readContent_of_no_kind (hnone : ∀ k : CopyKind, ¬ x.1.isSubclassOf k.cls = true) :
    readContent look order wrap inner o x = (wrap x.1).map fun w => .object ⟨w, o⟩ := by
  unfold readContent
  refine (if_neg (hnone .string)).trans
    ((if_neg (hnone .blob)).trans ((if_neg (hnone .byteBuf)).trans ?_))
  refine (if_neg (hnone .vector)).trans ((if_neg (hnone .hash)).trans ?_)
  exact (if_neg (hnone .float)).trans ((if_neg (hnone .boolean)).trans (if_neg (hnone .integer)))

theorem CopyKind.shows_of_read {k : CopyKind} {q : Payload} {v : Value}
    (hr : k.read look order inner q = some v) :
    k.shows q = true := by
  cases k
  case vector | hash =>
    obtain ⟨_, hview, -⟩ := Option.bind_eq_some_iff.mp hr
    exact Option.isSome_of_eq_some hview
  all_goals
    obtain ⟨_, hview, -⟩ := Option.map_eq_some_iff.mp hr
    exact Option.isSome_of_eq_some hview

end Reader

namespace Bridge

variable {b : Bridge} {o p : ObjId} {x : Obj} {depth : Nat} {v : Value}

theorem read_succ (hx : b.heap.get? o = some x) :
    b.read (depth + 1) (some o) =
      readContent b.heap.content b.order b.wrapperOf (b.read depth) o (x.cls, x.payload) :=
  readWithin_known (Heap.content_of_get? hx)

/-- The object of a kind that has been read carries what the kind asks for. -/
theorem Classed.read_of_kind (hb : b.Classed) (hx : b.heap.get? o = some x) {k : CopyKind}
    (hk : k.cls ∈ x.cls.ancestors) :
    b.read (depth + 1) (some o) = k.read b.heap.content b.order (b.read depth) x.payload := by
  refine (read_succ hx).trans (readContent_of_kind ((hb.isSubclassOf_iff hx k).mpr hk)
    fun l hl => ?_)
  exact hb.eq_of_ancestors hx ((hb.isSubclassOf_iff hx l).mp hl) hk

/-- An object that has been read is readable. -/
theorem Classed.readable_of_read (hb : b.Classed) (hr : b.read depth (some o) = some v) :
    b.Readable o := by
  cases depth with
  | zero => cases hr
  | succ depth =>
    obtain ⟨c, hc, -⟩ := Option.bind_eq_some_iff.mp hr
    obtain ⟨x, hx, -⟩ := Option.map_eq_some_iff.mp hc
    by_cases hkind : ∃ k : CopyKind, k.cls ∈ x.cls.ancestors
    · obtain ⟨k, hk⟩ := hkind
      rw [hb.read_of_kind hx hk] at hr
      exact ⟨x, hx, .inl ⟨k, hk, (k.shows_iff _).mp (CopyKind.shows_of_read hr)⟩⟩
    · have hnone (k : CopyKind) : k.cls ∉ x.cls.ancestors := fun hk => hkind ⟨k, hk⟩
      rw [read_succ hx, readContent_of_no_kind fun k hk =>
        hnone k ((hb.isSubclassOf_iff hx k).mp hk)] at hr
      obtain ⟨w, hw, -⟩ := Option.map_eq_some_iff.mp hr
      exact ⟨x, hx, .inr ⟨hnone, Option.isSome_of_eq_some hw⟩⟩

/-- Reading an object reads what it feeds on, through one level less. -/
theorem Classed.read_of_feeds (hb : b.Classed) (hr : b.read depth (some o) = some v)
    (hf : b.heap.Feeds o p) :
    ∃ w, b.read (depth - 1) (some p) = some w := by
  cases depth with
  | zero => cases hr
  | succ depth =>
    cases hf with
    | element hx hc hq hp =>
      rw [hb.read_of_kind (k := .vector) hx hc, hq] at hr
      obtain ⟨vs, hvs, -⟩ := Option.map_eq_some_iff.mp hr
      exact Option.isSome_iff_exists.mp (isSome_of_mapM hvs hp)
    | value hx hc hq he hv =>
      rw [hb.read_of_kind (k := .hash) hx hc, hq] at hr
      obtain ⟨pairs, hpairs, -⟩ := Option.map_eq_some_iff.mp hr
      obtain ⟨y, hy⟩ :=
        Option.isSome_iff_exists.mp (isSome_of_mapM hpairs (EntryOrder.mem_arrange.mpr he))
      obtain ⟨key, -, hvalue⟩ := Option.bind_eq_some_iff.mp hy
      obtain ⟨w, hw, -⟩ := Option.map_eq_some_iff.mp hvalue
      exact ⟨w, hv ▸ hw⟩

theorem Classed.readable_of_reaches (hb : b.Classed) (hr : b.read depth (some o) = some v)
    (hp : ReflTransGen b.heap.Feeds o p) : b.Readable p := by
  induction hp using ReflTransGen.head_induction_on generalizing depth v with
  | refl => exact hb.readable_of_read hr
  | head hf _ ih =>
    obtain ⟨w, hw⟩ := hb.read_of_feeds hr hf
    exact ih hw

end Bridge

/-! ## Complaints are about objects that cannot be read -/

theorem Heap.card_le_of_used {h : Heap} {seen : Finset ObjId} (hused : ∀ p ∈ seen, h.Used p) :
    seen.card ≤ h.slots.length := by
  have hinjective : Function.Injective ObjId.index := fun _ _ => congrArg ObjId.mk
  have hsub : seen.image ObjId.index ⊆ Finset.range h.slots.length := by
    intro i hi
    obtain ⟨p, hp, rfl⟩ := Finset.mem_image.mp hi
    exact Finset.mem_range.mpr (hused p hp)
  calc seen.card = (seen.image ObjId.index).card :=
    (Finset.card_image_of_injective seen hinjective).symm
    _ ≤ (Finset.range h.slots.length).card := Finset.card_le_card hsub
    _ = h.slots.length := Finset.card_range _

namespace Bridge

variable {b : Bridge} {o : ObjId} {depth : Nat} {c : Complaint} {out : Multiset ObjId}

/-- The levels are used up, or the object is to blame itself, or one that it feeds on is. -/
theorem Blames.offends_or_feeds (hblame : b.Blames depth o c) (hb : b.Orderly) :
    depth = 0 ∨ b.Offends o c ∨ ∃ p, b.heap.Feeds o p ∧ b.Blames (depth - 1) p c := by
  cases hblame with
  | endless => exact .inl rfl
  | layout k hx hc hq =>
    obtain ⟨x, hget, rfl⟩ := Option.map_eq_some_iff.mp hx
    refine .inr (.inl ?_)
    rw [Content.complaint, if_pos hc]
    refine .layout k hget ((hb.isSubclassOf_iff hget k).mp hc) fun hlayout => ?_
    rw [(k.shows_iff _).mpr hlayout] at hq
    cases hq
  | wrapper hx hc hw =>
    obtain ⟨x, hget, rfl⟩ := Option.map_eq_some_iff.mp hx
    refine .inr (.inl (.wrapper hget (fun k hk => ?_) hw))
    have hsub := (hb.isSubclassOf_iff hget k).mpr hk
    rw [hc k] at hsub
    cases hsub
  | key hx hq he hy hkey =>
    -- keys are strings
    obtain ⟨x, hget, rfl⟩ := Option.map_eq_some_iff.mp hx
    obtain ⟨y, hget', rfl⟩ := Option.map_eq_some_iff.mp hy
    obtain ⟨hcls, hlayout⟩ := (hb.keys o x _ hget hq _ he).2 y hget'
    have hshows := (CopyKind.string.shows_iff y.payload).mpr hlayout
    rw [Content.certified, hcls, if_pos (by rfl)] at hkey
    rw [CopyKind.shows, hkey] at hshows
    cases hshows
  | element hx hc hq he hp =>
    obtain ⟨x, hget, rfl⟩ := Option.map_eq_some_iff.mp hx
    exact .inr (.inr ⟨_, .element hget ((hb.isSubclassOf_iff hget .vector).mp hc) hq he, hp⟩)
  | value hx hc hq he hv hp =>
    obtain ⟨x, hget, rfl⟩ := Option.map_eq_some_iff.mp hx
    exact .inr (.inr ⟨_, .value hget ((hb.isSubclassOf_iff hget .hash).mp hc) hq he hv, hp⟩)

/-- Where there is no ring, levels for all objects suffice, and some object is to blame.  The
objects on the way, `seen`, are different from each other and from those that are still to come. -/
theorem Blames.offender (hblame : b.Blames depth o c) (hb : b.Orderly)
    (hcounted : b.heap.Counted out) (hl : b.heap.Live o) (hring : b.heap.Ringless o)
    (seen : Finset ObjId) (hseen : ∀ p ∈ seen, b.heap.Used p ∧ TransGen b.heap.Feeds p o)
    (hdepth : b.heap.slots.length ≤ seen.card + depth) :
    ∃ p, ReflTransGen b.heap.Feeds o p ∧ b.Offends p c := by
  have hnew : o ∉ seen := fun hmem => hring o .refl (hseen o hmem).2
  have hcard : (insert o seen).card = seen.card + 1 := Finset.card_insert_of_notMem hnew
  induction depth generalizing o seen with
  | zero =>
    have hused : ∀ p ∈ insert o seen, b.heap.Used p := by
      intro p hp
      rcases Finset.mem_insert.mp hp with rfl | hp
      · exact hl.used
      · exact (hseen p hp).1
    have hle := Heap.card_le_of_used hused
    omega
  | succ depth ih =>
    rcases hblame.offends_or_feeds hb with hzero | hoffends | ⟨p, hfeeds, hp⟩
    · cases hzero
    · exact ⟨o, .refl, hoffends⟩
    · have hseen' : ∀ q ∈ insert o seen, b.heap.Used q ∧ TransGen b.heap.Feeds q p := by
        intro q hq
        rcases Finset.mem_insert.mp hq with rfl | hq
        · exact ⟨hl.used, .single hfeeds⟩
        · exact ⟨(hseen q hq).1, (hseen q hq).2.tail hfeeds⟩
      have hnew' : p ∉ insert o seen := fun hmem => hring p (.single hfeeds) (hseen' p hmem).2
      obtain ⟨q, hq, hoffends⟩ :=
        ih hp (hcounted.live_of_reaches hl (.single hfeeds.holds)) (hring.feeds hfeeds) _ hseen'
        (by omega) hnew' (Finset.card_insert_of_notMem hnew')
      exact ⟨q, hq.head hfeeds, hoffends⟩

/-- How reading an object ends: `result` is what it gives and the state that it leaves. -/
structure ReadOutcome (b : Bridge) (o : ObjId) (result : Except Unwind Value × Bridge) : Prop where
  /-- going from containers to what is in them comes to an end -/
  ends : Acc (fun q p => b.heap.Feeds p q) o
  /-- there is a value if all objects that reading comes to are readable, and only then -/
  succeeds : (∃ v, result.1 = .ok v) ↔ ∀ p, ReflTransGen b.heap.Feeds o p → b.Readable p
  /-- otherwise one of them is not, and the complaint is about that one -/
  fails : ∀ u, result.1 = .error u → ∃ p, ReflTransGen b.heap.Feeds o p ∧
    b.Offends p (u.complaint result.2.heap)

end Bridge

/-- In every state that a script reaches, reading an object of the host that leads to no ring gives
a value exactly if all objects that it comes to are readable, and otherwise complains about one of
them.  The counts have room for what reading claims on its way. -/
theorem read_outcome_of_ringless {b : Bridge} {host : Multiset ObjId} (hr : b.Reached host)
    (hu : b.Bounded) {o : ObjId} (ho : o ∈ host) (hring : b.heap.Ringless o)
    (hroom : b.RoomToRead (some o)) :
    b.ReadOutcome o ((foreignToHost (some o)).run b) := by
  have hb := hr.books
  have hmem : ((some o).toList : Multiset ObjId) ⊆ host := Multiset.singleton_subset.mpr ho
  have hcounted := (hb.sound hu).counted
  have hl : b.heap.Live o := hb.live ho hu
  have hends := foreignToHost_blames hb hu hmem
  have hu' := hu.foreignToHost hb hmem hroom
  have hacc := hring.acc hcounted hl
  cases hrun : (foreignToHost (some o)).run b with
  | mk result b' =>
    rw [hrun] at hu'
    cases result with
    | ok v =>
      have hread := (hends.of_ok hrun hu').2
      exact ⟨hacc, iff_of_true ⟨v, rfl⟩ fun p hp => hr.orderly.readable_of_reaches hread hp, nofun⟩
    | error u =>
      obtain ⟨-, -, p, hp, hblame⟩ := hends.of_error hrun hu'
      obtain rfl := Option.some.inj hp
      obtain ⟨q, hq, hoffends⟩ := hblame.offender hr.orderly hcounted hl hring ∅ nofun (by simp)
      refine ⟨hacc, iff_of_false nofun fun hall =>
        hoffends.not_readable hr.orderly.toClassed (hall q hq), ?_⟩
      intro u' heq
      obtain rfl := Except.error.inj heq
      exact ⟨q, hq, hoffends⟩

/-- A script that puts a vector into a hash, and that with a string of an odd layout into a vector,
and into another one an object of a class without a wrapper. -/
def fillVectors : List Instruction :=
  [.act (.onClass (.define "Odd" "Clownfish::String" .byte .none)) none none,
    .act (.onClass (.define "Plain" "Clownfish::Obj" .byte .none)) none none,
    .act (.onObject (.make "Odd" .byte)) (some "o") none,
    .act (.onObject (.make "Plain" .byte)) (some "p") none,
    .act (.onObject (.new (.str "x"))) (some "s") none,
    .act (.onObject (.new (.vector 0))) (some "v") none,
    .act (.primitive "v" true (.vectorPush (some "s"))) none none,
    .act (.primitive "v" true (.vectorPush none)) none none,
    .act (.onObject (.new (.hash 0))) (some "h") none,
    .act (.primitive "h" false (.hashStore "k" (some "v"))) none none,
    .act (.onObject (.new (.vector 0))) (some "w") none,
    .act (.primitive "w" false (.vectorPush (some "h"))) none none,
    .act (.primitive "w" true (.vectorPush (some "o"))) none none,
    .act (.onObject (.new (.vector 0))) (some "u") none,
    .act (.primitive "u" true (.vectorPush (some "p"))) none none]

/-- The bridge after that script. -/
def filledBridge : Bridge := (Session.after fillVectors).bridge

theorem filledBridge_acyclic : filledBridge.heap.Acyclic := by
  -- the key of the hash is the only object that is younger than its holder
  exact Heap.acyclic_of_slots (fun o => if o.index = 7 then 10
    else 10 - o.index) (by decide +kernel)

/-- The hash can be read.  The vector that it is in cannot, because of the other element, and
neither can the last one. -/
theorem read_outcome_of_filled_vectors :
    (∃ v b', (foreignToHost (some ⟨6⟩)).run filledBridge = (.ok v, b') ∧
      ∀ p, ReflTransGen filledBridge.heap.Feeds ⟨6⟩ p → filledBridge.Readable p) ∧
    (∃ b' p, (foreignToHost (some ⟨8⟩)).run filledBridge = (.error (.raised .bridge ⟨10⟩), b') ∧
      ReflTransGen filledBridge.heap.Feeds ⟨8⟩ p ∧
      filledBridge.Offends p
        (.raised (some "Odd object has an incompatible layout for Clownfish::String"))) ∧
    ∃ b' p, (foreignToHost (some ⟨9⟩)).run filledBridge =
        (.error (.fault "no wrap function registered for class Plain"), b') ∧
      ReflTransGen filledBridge.heap.Feeds ⟨9⟩ p ∧
      filledBridge.Offends p (.fault "no wrap function registered for class Plain") := by
  have hlawful : LawfulRoutine fillVectors := by
    simp only [fillVectors, LawfulRoutine, Instruction.Lawful, Action.Lawful, ObjectAction.Lawful]
    decide
  have hreached : filledBridge.Reached (Session.after fillVectors).claims := by
    dsimp only [filledBridge]
    exact Session.after_reached hlawful
  have hheld : ∀ o ∈ ([⟨6⟩, ⟨8⟩, ⟨9⟩] : List ObjId), o ∈ (Session.after fillVectors).claims ∧
      filledBridge.RoomToRead (some o) := by decide +kernel
  have outcome {o : ObjId} (ho : o ∈ ([⟨6⟩, ⟨8⟩, ⟨9⟩] : List ObjId)) :
      filledBridge.ReadOutcome o ((foreignToHost (some o)).run filledBridge) :=
    read_outcome_of_ringless hreached (by decide +kernel) (hheld o ho).1
      (filledBridge_acyclic.ringless o)
      (hheld o ho).2
  have failed {o : ObjId} (ho : o ∈ ([⟨6⟩, ⟨8⟩, ⟨9⟩] : List ObjId)) {u : Unwind} {c : Complaint}
      (hr : ((foreignToHost (some o)).run filledBridge).1.map Value.claims = .error u)
      (hc : u.complaint ((foreignToHost (some o)).run filledBridge).2.heap = c) :
      ∃ b' p, (foreignToHost (some o)).run filledBridge = (.error u, b') ∧
        ReflTransGen filledBridge.heap.Feeds o p ∧ filledBridge.Offends p c := by
    have hfails := (outcome ho).fails
    generalize (foreignToHost (some o)).run filledBridge = result at hr hc hfails ⊢
    obtain ⟨u' | v, b'⟩ := result
    · obtain rfl := Except.error.inj hr
      obtain ⟨p, hp, hoffends⟩ := hfails _ rfl
      exact ⟨b', p, rfl, hp, hc ▸ hoffends⟩
    · cases hr
  have hread : ∃ v b', (foreignToHost (some ⟨6⟩)).run filledBridge = (.ok v, b') ∧
      ∀ p, ReflTransGen filledBridge.heap.Feeds ⟨6⟩ p → filledBridge.Readable p := by
    have hsome : ((foreignToHost (some ⟨6⟩)).run filledBridge).1.toOption.isSome = true := by
      decide +kernel
    have hsucceeds := (outcome (o := ⟨6⟩) (by decide)).succeeds
    generalize (foreignToHost (some ⟨6⟩)).run filledBridge = result at hsome hsucceeds ⊢
    obtain ⟨u | v, b'⟩ := result
    · cases hsome
    · exact ⟨v, b', rfl, hsucceeds.mp ⟨v, rfl⟩⟩
  exact ⟨hread, failed (by decide) (by decide +kernel) (by decide +kernel),
    failed (by decide) (by decide +kernel) (by decide +kernel)⟩

/-- Where a string in a vector has as many claims as can be counted, the vector and the string are
readable, and yet reading the vector complains. -/
theorem read_outcome_of_full_count :
    ∃ host, fullBridge.Reached host ∧ fullBridge.Bounded ∧ ⟨3⟩ ∈ host ∧
      fullBridge.heap.Ringless ⟨3⟩ ∧
      (∀ p, ReflTransGen fullBridge.heap.Feeds ⟨3⟩ p → fullBridge.Readable p) ∧
      ∃ b', (foreignToHost (some ⟨3⟩)).run fullBridge = (.error (.raised .bridge ⟨4⟩), b') ∧
        b'.heap.content ⟨4⟩ = some (.err, .err (overdrawnMessage .string)) := by
  obtain ⟨host, hreached, -, hheld⟩ := fullBridge_reached
  refine ⟨host, hreached, fullBridge_bounded, hheld, fullBridge_acyclic.ringless _, ?_, ?_⟩
  · have hstring : fullBridge.Readable ⟨2⟩ :=
      ⟨_, get?_fullBridge, .inl ⟨.string, by decide +kernel, by decide +kernel⟩⟩
    have hvector : fullBridge.Readable ⟨3⟩ :=
      ⟨_, get?_fullBridge_vector, .inl ⟨.vector, by decide +kernel, by decide +kernel⟩⟩
    -- the string feeds on nothing
    have hreaches : ∀ p, ReflTransGen fullBridge.heap.Feeds ⟨3⟩ p → p = ⟨3⟩ ∨ p = ⟨2⟩ := by
      intro p hp
      induction hp with
      | refl => exact .inl rfl
      | tail _ hfeeds ih =>
        obtain ⟨x, hx, hq⟩ := hfeeds.holds
        rcases ih with rfl | rfl
        · obtain rfl := Option.some.inj (get?_fullBridge_vector.symm.trans hx)
          exact .inr (List.mem_singleton.mp hq)
        · obtain rfl := Option.some.inj (get?_fullBridge.symm.trans hx)
          cases hq
    intro p hp
    rcases hreaches p hp with rfl | rfl
    · exact hvector
    · exact hstring
  · exact exists_state_of_error Value.claims (by decide +kernel) (by decide +kernel)

end ObjectBridge
