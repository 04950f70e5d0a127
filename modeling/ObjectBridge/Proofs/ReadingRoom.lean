import ObjectBridge.Proofs.ConversionEffect

set_option autoImplicit false

/-!
# Room for reading (SPEC §4.3, §11.1)

While an object is read, each container on the way down holds a claim on everything in it, and the
values that have been read so far hold claims on the objects that they wrap.  `strainWithin` is the
largest number of claims on one object that are held in this way at a time; like `readWithin` it is
a function of what objects carry, and counts play no part in it.  A conversion that starts in a
state whose counts have room for that many claims keeps all counts below `2 ^ 32`.
-/

namespace ObjectBridge

open Heap

/-! ## Claims that are held at a time -/

section Strain

variable (p : ObjId)

/-- The most claims on `p` at a time while the members of a list are read in turn.  The claims of
what has been read stay while the rest is read, and the first member that cannot be read is the
last one. -/
def strainOfList {α β : Type} (claims : β → List ObjId) (read : α → Option β) (strain : α → Nat) :
    List α → Nat
  | [] => 0
  | x :: rest =>
    max (strain x)
      ((read x).elim 0 fun y => (claims y).count p + strainOfList claims read strain rest)

variable (look : ObjId → Option Content) (order : EntryOrder) (wrap : Class → Option Wrapper)

/-- The most claims on `p` at a time while an object with the given content is read. -/
def strainOfContent (inner : Option ObjId → Option Value) (strain : Option ObjId → Nat) (o : ObjId)
    (x : Content) : Nat :=
  if x.1.isSubclassOf .string then 0
  else if x.1.isSubclassOf .blob then 0
  else if x.1.isSubclassOf .byteBuf then 0
  else if x.1.isSubclassOf .vector then
    x.2.vector?.elim 0 fun elems =>
      (elems.filterMap id).count p + strainOfList p Value.claims inner strain elems
  else if x.1.isSubclassOf .hash then
    x.2.hash?.elim 0 fun inside =>
      ((order.arrange inside.entries).flatMap HashEntry.claims).count p +
        strainOfList p (fun y => y.2.claims) (readEntry look inner) (fun e => strain e.value)
          (order.arrange inside.entries)
  else if x.1.isSubclassOf .float then 0
  else if x.1.isSubclassOf .boolean then 0
  else if x.1.isSubclassOf .integer then 0
  else [o].count p

/-- The most claims on `p` at a time while an object, or a null handle, is read through at most
`depth` levels of containers. -/
def strainWithin : Nat → Option ObjId → Nat
  | _, none => 0
  | 0, some _ => 0
  | depth + 1, some o =>
    (look o).elim 0
      (strainOfContent p look order (readWithin look order wrap depth) (strainWithin depth) o)

variable {look order wrap}

theorem strainWithin_known {depth : Nat} {o : ObjId} {x : Content} (ho : look o = some x) :
    strainWithin p look order wrap (depth + 1) (some o) =
      strainOfContent p look order (readWithin look order wrap depth)
        (strainWithin p look order wrap depth) o x := by
  rw [strainWithin, ho, Option.elim_some]

end Strain

namespace Bridge

/-- The most claims on each object at a time while an object is read through at most `depth` levels
of containers. -/
def strain (b : Bridge) (depth : Nat) (o : Option ObjId) (p : ObjId) : Nat :=
  strainWithin p b.heap.content b.order b.wrapperOf depth o

/-- All counts have room for the claims that converting the object to a host value holds at a
time. -/
def RoomToRead (b : Bridge) (o : Option ObjId) : Prop :=
  b.HasRoomFor (b.strain b.heap.slots.length o)

instance (b : Bridge) (o : Option ObjId) : Decidable (b.RoomToRead o) :=
  inferInstanceAs (Decidable (b.HasRoomFor _))

/-- The counts would stay below `2 ^ 32` with so many claims of the host in place of the present
ones. -/
def Allows (b : Bridge) (claims : ObjId → Nat) : Prop :=
  ∀ p x, b.heap.get? p = some x → x.cls.isImmortal = false →
    (b.ledger.lost + b.heap.claims).count p + claims p < 2 ^ 32

variable {base b : Bridge} {host : Multiset ObjId} {claims : List ObjId} {n m : ObjId → Nat}

theorem Allows.mono (ha : base.Allows n) (hle : ∀ p, m p ≤ n p) : base.Allows m := by
  intro p x hx hm
  have hlt := ha p x hx hm
  have hp := hle p
  omega

/-- Room for the host's claims and some more is room for these in a state that has not changed. -/
theorem Allows.hasRoom (ha : base.Allows n) (hun : base.Unchanged b) (hs : b.Sound host)
    (hle : ∀ p, host.count p + claims.count p ≤ n p) : b.HasRoom claims := by
  intro p y hy hm
  obtain ⟨x, hx, hcls, -⟩ := sameAt_of_content hun.content.symm y hy
  have hlt := ha p x hx (hcls ▸ hm)
  have hcount := (hs.counted.exact hy hm).1
  rw [hun.lost, claims_of_content hun.content, add_assoc, Multiset.count_add] at hcount
  have hp := hle p
  omega

theorem RoomToRead.allows {o : Option ObjId} (hroom : b.RoomToRead o) (hs : b.Sound host) :
    b.Allows fun p => host.count p + b.strain b.heap.slots.length o p := by
  intro p x hx hm
  have hlt := hroom p x hx hm
  rw [(hs.counted.exact hx hm).1, add_assoc, Multiset.count_add] at hlt
  dsimp only
  omega

end Bridge

/-! ## Calls that have room -/

section Rules

variable {α β : Type} {base : Bridge} {B B₀ t K : Multiset ObjId} {r : Run α} {f : α → Run β}
  {g : α → Multiset ObjId} {e : Option α} {claims : List ObjId} {E : Complaint → Prop}
  {load load' : ObjId → Nat}

/-- A call that borrows `B` and takes `t`, and holds at most `load` more claims at a time.  Started
while `base` is unchanged, it leaves all counts below `2 ^ 32` if `base` allows that many. -/
def Affords (base : Bridge) (B t : Multiset ObjId) (r : Run α) (load : ObjId → Nat) : Prop :=
  ∀ b F, B ⊆ F → b.Books (t + F) → b.Bounded → base.Unchanged b →
    base.Allows (fun p => (t + F).count p + load p) →
      Ends r b (fun _ b' => b'.Bounded) (fun _ b' => b'.Bounded)

namespace Affords

theorem pure (a : α) : Affords base B t (pure a) load := fun _ _ _ _ hu _ _ => hu

theorem mono (hr : Affords base B t r load) (hle : ∀ p, load p ≤ load' p) :
    Affords base B t r load' := by
  intro b F hB hb hu hun ha
  exact hr b F hB hb hu hun (ha.mono fun p => Nat.add_le_add_left (hle p) _)

/-- What the first call answers is known, and the second one starts with the claims that it
gave. -/
theorem bind (hreads : Reads base B t r g e E) (hr : Affords base B t r load)
    (hf : ∀ a, e = some a → ∃ more, Affords base B (g a) (f a) more ∧
      ∀ p, (g a).count p + more p ≤ t.count p + load p) : Affords base B t (r >>= f) load := by
  intro b F hB hb hu hun ha
  rw [ends_bind]
  have hends := ((hr b F hB hb hu hun ha).and (hreads.reads b F hB hb hu hun)).and
    (hreads.transfers b F hB hb)
  refine hends.mono (fun a b' h => ?_) (fun _ _ h => h.1.1)
  obtain ⟨⟨hu', hread⟩, hbooks⟩ := h
  obtain ⟨hun', he⟩ := hread hu'
  obtain ⟨more, hmore, hle⟩ := hf a he
  refine hmore b' F hB hbooks hu' hun' (ha.mono fun p => ?_)
  have hp := hle p
  rw [Multiset.count_add, Multiset.count_add]
  omega

theorem map (hr : Affords base B t r load) (φ : α → β) :
    Affords base B t (do return φ (← r)) load := by
  intro b F hB hb hu hun ha
  rw [ends_bind]
  exact (hr b F hB hb hu hun ha).mono (fun _ _ hu' => hu') (fun _ _ hu' => hu')

theorem ite {c : Prop} [Decidable c] {r' : Run α} (hr : c → Affords base B t r load)
    (hr' : ¬ c → Affords base B t r' load') :
    Affords base B t (if c then r else r') (fun p => if c then load p else load' p) := by
  by_cases hc : c
  · simp only [if_pos hc]
    exact hr hc
  · simp only [if_neg hc]
    exact hr' hc

/-- Giving back claims asks for no room. -/
theorem release (claims : List ObjId) : Affords base B (claims + K) (releaseAll claims) load := by
  intro b F _ hb hu _ _
  rw [add_assoc] at hb
  rw [ends_releaseAll_sound (hb.sound hu)]
  exact hu

theorem guard (hreads : Reads base B 0 r g e E) (hr : Affords base B 0 r load)
    (claims : List ObjId) :
    Affords base B claims (onUnwind (releaseAll claims) r) load := by
  intro b F hB hb hu hun ha
  have hsub : B ⊆ claims + F := Multiset.Subset.trans hB (subset_add_right _ _)
  rw [← zero_add (_ + F)] at hb ha
  rw [ends_onUnwind]
  refine ((hr b _ hsub hb hu hun ha).and (hreads.transfers b _ hsub hb)).mono (fun _ _ h => h.1)
    (fun u b' h => ?_)
  have hbooks := h.2.books
  rw [← add_assoc, add_comm u.claims, add_assoc] at hbooks
  exact (ends_releaseAll_sound (hbooks.sound h.1)).mpr h.1

theorem lend (claims : List ObjId) (hreads : Reads base (claims + B) 0 r g e E)
    (hr : Affords base (claims + B) 0 r load) :
    Affords base B claims (withClaims claims r) load := by
  intro b F hB hb hu hun ha
  have hsub : claims + B ⊆ claims + F := add_subset_add hB
  rw [← zero_add (_ + F)] at hb ha
  rw [ends_withClaims]
  refine ((hr b _ hsub hb hu hun ha).and (hreads.transfers b _ hsub hb)).mono (fun a b' h => ?_)
    (fun u b' h => ?_)
  · have hbooks := h.2
    rw [add_left_comm] at hbooks
    exact (ends_releaseAll_sound (hbooks.sound h.1)).mpr h.1
  · have hbooks := h.2.books
    rw [← add_assoc, add_comm u.claims, add_assoc] at hbooks
    exact (ends_releaseAll_sound (hbooks.sound h.1)).mpr h.1

end Affords

end Rules

/-! ## Reading single objects -/

section Objects

variable {α : Type} {base : Bridge} {B B₀ : Multiset ObjId} {o : ObjId} {c : Class}
  {view : Payload → Option α} {load : ObjId → Nat}

theorem certify_affords (base : Bridge) (ho : o ∈ B) (c : Class) (view : Payload → Option α) :
    Affords base B 0 (certify o c view) load := by
  intro b F hB hb hu hun _
  rw [zero_add] at hb
  obtain ⟨x, hx, -⟩ := hun.known hb (hB ho) hu
  exact ends_certify_told hb.hooks hx (fun _ _ => hu) (fun _ _ => hu)

theorem elements_affords (base : Bridge) (ho : o ∈ B)
    (hload : ∀ elems, (base.heap.content o).bind (Content.certified .vector Payload.vector?) =
      some elems → ∀ p, (elems.filterMap id).count p ≤ load p) :
    Affords base B 0 (VectorObj.elements o) load := by
  intro b F hB hb hu hun ha
  rw [zero_add] at hb ha
  obtain ⟨x, hx, hcontent⟩ := hun.known hb (hB ho) hu
  unfold VectorObj.elements VectorObj.slots
  rw [ends_bind]
  refine ends_certify_told hb.hooks hx (fun elems helems => ?_) (fun _ _ => hu)
  rw [ends_bind]
  refine (ends_forM_retain_known fun p hp => ?_).mpr ?_
  · have hpayload : x.payload = .vector elems := Payload.eq_vector (Content.of_certified helems)
    refine hb.live_inside hx ?_ hu
    rw [hpayload]
    exact hp
  · refine claimPeak_lt hu le_rfl (ha.hasRoom hun (hb.sound hu) fun p => ?_)
    rw [hcontent, Option.bind_some] at hload
    exact Nat.add_le_add_left (hload elems helems p) _

theorem entries_affords (base : Bridge) (ho : o ∈ B)
    (hload : ∀ inside, (base.heap.content o).bind (Content.certified .hash Payload.hash?) =
      some inside →
        ∀ p, ((base.order.arrange inside.entries).flatMap HashEntry.claims).count p ≤ load p) :
    Affords base B 0 (HashObj.entries o) load := by
  intro b F hB hb hu hun ha
  rw [zero_add] at hb ha
  obtain ⟨x, hx, hcontent⟩ := hun.known hb (hB ho) hu
  unfold HashObj.entries HashObj.buckets
  rw [ends_bind]
  refine ends_certify_told hb.hooks hx (fun inside hinside => ?_) (fun _ _ => hu)
  rw [ends_bind, ends_get, ends_bind]
  refine (ends_forM_retain_known fun p hp => ?_).mpr ?_
  · obtain ⟨e, he, hpe⟩ := List.mem_flatMap.mp hp
    exact HashObj.live_of_mem_entries hb hx (Payload.eq_hash (Content.of_certified hinside))
      (EntryOrder.mem_arrange.mp he) hpe hu
  · refine claimPeak_lt hu le_rfl (ha.hasRoom hun (hb.sound hu) fun p => ?_)
    rw [hcontent, Option.bind_some] at hload
    rw [hun.order]
    exact Nat.add_le_add_left (hload inside hinside p) _

theorem share_affords (base : Bridge) (ho : o ∈ B) (hload : ∀ p, [o].count p ≤ load p) :
    Affords base B 0 (share o) load := by
  intro b F hB hb hu hun ha
  rw [zero_add] at hb ha
  obtain ⟨x, hx⟩ := hb.live (hB ho) hu
  have hroom : b.HasRoom [o] :=
    ha.hasRoom hun (hb.sound hu) fun p => Nat.add_le_add_left (hload p) _
  refine (ends_share_known hb.started hx).mpr ?_
  have hpeak := claimPeak_lt hu le_rfl hroom
  unfold claimPeak at hpeak
  rw [hx] at hpeak
  exact hpeak

theorem dispatch_affords (base : Bridge) (o : ObjId) : Affords base B {o} (dispatch o) load := by
  intro b F _ hb hu _ _
  obtain ⟨x, hx⟩ := hb.live (o := o) (by simp) hu
  unfold dispatch classOf
  rw [ends_bind, ends_start hb.started, ends_bind, ends_bind, ends_readObj_known hx, ends_pure,
    ends_bind, ends_wrapperFor?]
  cases b.wrapperOf x.cls with
  | some w => exact hu
  | none =>
    rw [ends_bind, ends_log, ends_bind]
    have hs : { b with journal := b.journal.push (.log .error (lookupMessage x.cls)) }.Sound
        (([o] : List ObjId) + F) := (hb.journal _).sound hu
    rw [ends_releaseAll_sound hs, ends_fault]
    exact hu

end Objects

/-! ## Reading lists of objects -/

section Lists

variable {α : Type} {base : Bridge} {B B₀ : Multiset ObjId} {E : Complaint → Prop}

theorem convertAll_affords (hbase : base.Sound B₀) (hB₀ : B₀ ⊆ B) {f : α → Run Value}
    {e : α → Option Value} {strain : α → ObjId → Nat} (xs : List α)
    (hf : ∀ x ∈ xs, Reads base B 0 (f x) (fun v => v.claims) (e x) E)
    (hs : ∀ x ∈ xs, Affords base B 0 (f x) (strain x)) :
    Affords base B 0 (convertAll f xs)
      (fun p => strainOfList p Value.claims e (fun x => strain x p) xs) := by
  induction xs with
  | nil => exact .pure []
  | cons x rest ih =>
    have hfrest := fun y hy => hf y (List.mem_cons_of_mem x hy)
    have hrest := ih hfrest fun y hy => hs y (List.mem_cons_of_mem x hy)
    have hreads := convertAll_reads hbase hB₀ rest hfrest
    unfold convertAll
    refine .bind (hf x List.mem_cons_self)
      ((hs x List.mem_cons_self).mono fun p => le_max_left _ _) fun v hv => ?_
    refine ⟨_, (Affords.guard hreads hrest v.claims).map _, fun p => ?_⟩
    rw [strainOfList, hv, Option.elim_some, Multiset.count_zero, Multiset.coe_count, zero_add]
    exact le_max_right _ _

theorem convertEntries_affords (hbase : base.Sound B₀) (hB₀ : B₀ ⊆ B) {f : α → Run (String × Value)}
    {e : α → Option (String × Value)} {strain : α → ObjId → Nat} (xs : List α)
    (done : List (String × Value))
    (hf : ∀ x ∈ xs, Reads base B 0 (f x) (fun y => y.2.claims) (e x) E)
    (hs : ∀ x ∈ xs, Affords base B 0 (f x) (strain x)) :
    Affords base B (Value.claimsOfEntries done) (convertEntries f xs done)
      (fun p => strainOfList p (fun y => y.2.claims) e (fun x => strain x p) xs) := by
  induction xs generalizing done with
  | nil => exact .pure done
  | cons x rest ih =>
    have hrest := fun done => ih done (fun y hy => hf y (List.mem_cons_of_mem x hy))
      fun y hy => hs y (List.mem_cons_of_mem x hy)
    unfold convertEntries
    refine .bind ((hf x List.mem_cons_self).guard hbase hB₀ (Value.claimsOfEntries done))
      ((Affords.guard (hf x List.mem_cons_self) (hs x List.mem_cons_self) _).mono
        fun p => le_max_left _ _) fun y hy => ?_
    obtain ⟨key, v⟩ := y
    have hclaims := Value.claims_replaced key v done
    dsimp only
    refine ⟨fun p => strainOfList p (fun y => y.2.claims) e (fun x => strain x p) rest, ?_,
      fun p => ?_⟩
    · rw [hclaims]
      refine .bind (Reads.release (E := E) hbase hB₀ _) (.release _) fun _ _ => ?_
      refine ⟨_, hrest _, fun p => ?_⟩
      rw [Multiset.count_add]
      omega
    · rw [strainOfList, hy, Option.elim_some, Multiset.count_add, Multiset.coe_count,
        Multiset.coe_count, add_assoc]
      exact Nat.add_le_add_left (le_max_right _ _) _

end Lists

/-! ## Reading objects -/

section Objects

variable {base : Bridge} {B B₀ : Multiset ObjId} {o : ObjId} {x : Content} {E : Complaint → Prop}

theorem vector_affords (hbase : base.Sound B₀) (hB₀ : B₀ ⊆ B) (ho : o ∈ B)
    (hx : base.heap.content o = some x) (hc : x.1.isSubclassOf .vector = true)
    {inner : Option ObjId → Run Value} {e : Option ObjId → Option Value}
    {strain : Option ObjId → ObjId → Nat}
    (hi : ∀ el (B' : Multiset ObjId), B ⊆ B' → (el.toList : Multiset ObjId) ⊆ B' →
      Reads base B' 0 (inner el) (fun v => v.claims) (e el) (fun _ => True) ∧
        Affords base B' 0 (inner el) (strain el)) :
    Affords base B 0 (do
      let elems ← VectorObj.elements o
      withClaims (elems.filterMap id) do return Value.seq (← convertAll inner elems))
      (fun p => x.2.vector?.elim 0 fun elems => (elems.filterMap id).count p +
        strainOfList p Value.claims e (fun el => strain el p) elems) := by
  have hknown : (base.heap.content o).bind (Content.certified .vector Payload.vector?) =
      x.2.vector? := by
    rw [hx, Option.bind_some, Content.certified, if_pos hc]
  refine .bind (elements_reads (E := fun _ => True) base ho fun _ _ _ => trivial)
    (elements_affords base ho fun elems helems p => ?_) fun elems helems => ?_
  · rw [hknown] at helems
    rw [helems]
    exact Nat.le_add_right _ _
  · rw [hknown] at helems
    have hB₀' : B₀ ⊆ (elems.filterMap id : List ObjId) + B :=
      Multiset.Subset.trans hB₀ (subset_add_right _ _)
    have hin := fun el (hel : el ∈ elems) =>
      hi el _ (subset_add_right _ B) (toList_subset_filterMap hel)
    have hreads := convertAll_reads hbase hB₀' elems fun el hel => (hin el hel).1
    have hall := convertAll_affords hbase hB₀' elems (fun el hel => (hin el hel).1)
      fun el hel => (hin el hel).2
    refine ⟨_, .lend _ (hreads.map (k := fun v : Value => v.claims) Value.seq fun _ => rfl)
      (hall.map Value.seq), fun p => ?_⟩
    rw [helems, Option.elim_some, Multiset.count_zero, Multiset.coe_count, zero_add]

theorem hash_affords (hbase : base.Sound B₀) (hB₀ : B₀ ⊆ B) (ho : o ∈ B)
    (hx : base.heap.content o = some x) (hc : x.1.isSubclassOf .hash = true)
    {inner : Option ObjId → Run Value} {e : Option ObjId → Option Value}
    {strain : Option ObjId → ObjId → Nat}
    (hi : ∀ el (B' : Multiset ObjId), B ⊆ B' → (el.toList : Multiset ObjId) ⊆ B' →
      Reads base B' 0 (inner el) (fun v => v.claims) (e el) (fun _ => True) ∧
        Affords base B' 0 (inner el) (strain el)) :
    Affords base B 0 (do
      let entries ← HashObj.entries o
      withClaims (entries.flatMap HashEntry.claims) do
        let convert (d : HashEntry) : Run (String × Value) := do
          let key ← StringObj.text d.key
          return (key, ← inner d.value)
        return Value.map (← convertEntries convert entries []))
      (fun p => x.2.hash?.elim 0 fun inside =>
        ((base.order.arrange inside.entries).flatMap HashEntry.claims).count p +
          strainOfList p (fun y => y.2.claims) (readEntry base.heap.content e)
            (fun d => strain d.value p) (base.order.arrange inside.entries)) := by
  have hknown : (base.heap.content o).bind (Content.certified .hash Payload.hash?) = x.2.hash? := by
    rw [hx, Option.bind_some, Content.certified, if_pos hc]
  refine .bind (entries_reads (E := fun _ => True) base ho fun _ _ _ => trivial)
    (entries_affords base ho fun inside hinside p => ?_) fun entries hentries => ?_
  · rw [hknown] at hinside
    rw [hinside]
    exact Nat.le_add_right _ _
  · rw [hknown] at hentries
    obtain ⟨inside, hinside, rfl⟩ := Option.map_eq_some_iff.mp hentries
    generalize hes : base.order.arrange inside.entries = entries
    have hB₀' : B₀ ⊆ (entries.flatMap HashEntry.claims : List ObjId) + B :=
      Multiset.Subset.trans hB₀ (subset_add_right _ _)
    have hone : ∀ d ∈ entries, Reads base ((entries.flatMap HashEntry.claims : List ObjId) + B) 0
          (do
            let key ← StringObj.text d.key
            return (key, ← inner d.value)) (fun y : String × Value => y.2.claims)
          (readEntry base.heap.content e d) (fun _ => True) ∧
        Affords base ((entries.flatMap HashEntry.claims : List ObjId) + B) 0
          (do
            let key ← StringObj.text d.key
            return (key, ← inner d.value)) (strain d.value) := by
      intro d hd
      have hsub : (d.claims : Multiset ObjId) ⊆
          (entries.flatMap HashEntry.claims : List ObjId) + B :=
        claims_subset_flatMap hd
      have hkey := certify_reads (E := fun _ => True) base (hsub List.mem_cons_self) .string
        Payload.string? fun _ _ _ => trivial
      obtain ⟨hvalue, haffords⟩ := hi d.value _ (subset_add_right _ B) fun p hp =>
        hsub (List.mem_cons_of_mem _ hp)
      refine ⟨(hkey.imp fun _ _ => trivial).bind fun key =>
          (hvalue.map (fun v => (key, v)) fun _ => rfl).imp fun _ _ _ => trivial,
        .bind hkey (certify_affords base (hsub List.mem_cons_self) _ _) fun key _ => ?_⟩
      exact ⟨_, haffords.map fun v => (key, v), fun p => le_rfl⟩
    have hreads := convertEntries_reads hbase hB₀' entries [] fun d hd => (hone d hd).1
    have hall := convertEntries_affords hbase hB₀' entries [] (fun d hd => (hone d hd).1)
      fun d hd => (hone d hd).2
    refine ⟨_, .lend _ (hreads.map (k := fun v : Value => v.claims) Value.map fun _ => rfl)
      (hall.map Value.map), fun p => ?_⟩
    rw [hinside, Option.elim_some, hes, Multiset.count_zero, Multiset.coe_count, zero_add]

theorem wrapped_affords (ho : o ∈ B) :
    Affords base B 0 (do return Value.object (← dispatch (← share o))) (fun p => [o].count p) := by
  refine .bind (share_reads (E := fun _ => True) base ho)
    (share_affords base ho fun _ => le_rfl) fun q hq => ?_
  obtain rfl := Option.some.inj hq
  refine ⟨fun _ => 0, (dispatch_affords base o).map _, fun p => ?_⟩
  rw [Multiset.count_zero, zero_add, add_zero]
  exact (Multiset.coe_count p [o]).le

theorem toHostWithin_affords (hbase : base.Sound B₀) (hB₀ : B₀ ⊆ B) (depth : Nat)
    (o : Option ObjId) (ho : (o.toList : Multiset ObjId) ⊆ B) :
    Affords base B 0 (toHostWithin depth o) (base.strain depth o) := by
  induction depth generalizing o B with
  | zero =>
    cases o with
    | none => exact .pure _
    | some o => exact fun b F _ _ hu _ _ => hu
  | succ depth ih =>
    cases o with
    | none => exact .pure _
    | some o =>
      have hmem : o ∈ B := ho (List.mem_singleton_self o)
      intro b F hB hb hu hun ha
      obtain ⟨x, hx, hcontent⟩ := hun.known (o := o) (by simpa using hb) (hB hmem) hu
      have hinner : ∀ el (B' : Multiset ObjId), B ⊆ B' → (el.toList : Multiset ObjId) ⊆ B' →
          Reads base B' 0 (toHostWithin depth el) (fun v => v.claims) (base.read depth el)
              (fun _ => True) ∧
            Affords base B' 0 (toHostWithin depth el) (base.strain depth el) := by
        intro el B' hB' hel
        have hB₀' := Multiset.Subset.trans hB₀ hB'
        exact ⟨(toHostWithin_reads hbase hB₀' depth el hel).imp fun _ _ => trivial,
          ih hB₀' el hel⟩
      have hstrain : base.strain (depth + 1) (some o) = fun p =>
          strainOfContent p base.heap.content base.order (base.read depth)
            (fun el => base.strain depth el p) o (x.cls, x.payload) :=
        funext fun p => strainWithin_known p hcontent
      rw [hstrain] at ha
      unfold toHostWithin classOf
      rw [ends_bind, ends_bind, ends_readObj_known hx, ends_pure]
      refine Affords.mono (B := B) (t := 0) ?_ (fun p => le_rfl) b F hB hb hu hun ha
      have hscalar {α : Type} (c : Class) (view : Payload → Option α) (φ : α → Value) :
          Affords base B 0 (do return φ (← certify o c view)) (fun _ => 0) :=
        (certify_affords base hmem c view).map φ
      unfold strainOfContent
      refine .ite (fun _ => hscalar .string Payload.string? .text) fun _ => ?_
      refine .ite (fun _ => hscalar .blob Payload.blob? .bytes) fun _ => ?_
      refine .ite (fun _ => hscalar .byteBuf Payload.byteBuf? .bytes) fun _ => ?_
      refine .ite (fun hc => vector_affords hbase hB₀ hmem hcontent hc hinner) fun _ => ?_
      refine .ite (fun hc => hash_affords hbase hB₀ hmem hcontent hc hinner) fun _ => ?_
      refine .ite (fun _ => hscalar .float Payload.float? .float) fun _ => ?_
      refine .ite (fun _ => hscalar .boolean Payload.boolean? .bool) fun _ => ?_
      refine .ite (fun _ => hscalar .integer Payload.integer? .int) fun _ => ?_
      exact wrapped_affords hmem

end Objects

/-- Converting an object that the host holds keeps the counts below `2 ^ 32` if they have room for
what is claimed on the way. -/
theorem Bridge.Bounded.foreignToHost {b : Bridge} {host : Multiset ObjId} (hu : b.Bounded)
    (hb : b.Books host) {o : Option ObjId} (ho : (o.toList : Multiset ObjId) ⊆ host)
    (hroom : b.RoomToRead o) : ((foreignToHost o).run b).2.Bounded := by
  have haffords := toHostWithin_affords (hb.sound hu) (Multiset.Subset.refl host)
    b.heap.slots.length o ho
  have hends : Ends (ObjectBridge.foreignToHost o) b (fun _ b' => b'.Bounded)
      (fun _ b' => b'.Bounded) := by
    refine haffords b host (Multiset.Subset.refl host) (by rwa [zero_add]) hu (.refl b) ?_
    rw [zero_add]
    exact hroom.allows (hb.sound hu)
  exact hends.final

end ObjectBridge
