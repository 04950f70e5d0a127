import ObjectBridge.Proofs.ReadingRoom
import Mathlib.Data.List.Range

set_option autoImplicit false

/-!
# What converting an object does to the heap (SPEC §4.3)

A conversion of an object to a host value changes nothing but counts: each object has one claim more
for every time that the value holds it.  A conversion that unwinds has given back all claims that it
took on its way, however deep it was, and leaves the counts as they were.

The conversion goes through as many levels of containers as there are identities.  That suffices for
objects from which no ring can be reached, since a chain of holders without a ring meets no object
twice.
-/

namespace ObjectBridge

/-! ## Chains and rings -/

namespace Heap

variable {h : Heap} {out : Multiset ObjId} {o : ObjId} {n : Nat}

/-- A chain that meets no ring goes through different objects. -/
theorem Chain.distinct (hc : h.Chain n (some o))
    (hring : ∀ p, Relation.ReflTransGen h.Holds o p → ¬ Relation.TransGen h.Holds p p) :
    ∃ path : List ObjId, path.length = n + 1 ∧ path.Nodup ∧
    ∀ p ∈ path, Relation.ReflTransGen h.Holds o p := by
  induction n generalizing o with
  | zero =>
    refine ⟨[o], rfl, List.nodup_singleton o, fun p hp => ?_⟩
    rw [List.mem_singleton.mp hp]
  | succ n ih =>
    obtain ⟨q, hq, hrest⟩ := hc
    obtain ⟨path, hlength, hnodup, hreach⟩ := ih hrest fun p hp => hring p (hp.head hq)
    refine ⟨o :: path, congrArg (· + 1) hlength,
      List.nodup_cons.mpr ⟨fun hmem => ?_, hnodup⟩, fun p hp => ?_⟩
    · exact hring o .refl (Relation.TransGen.head' hq (hreach o hmem))
    · rcases List.mem_cons.mp hp with rfl | hp
      · exact .refl
      · exact (hreach p hp).head hq

/-- Without a ring, a chain is shorter than the heap. -/
theorem Chain.lt_length (hc : h.Chain n (some o)) (hcounted : h.Counted out) (hl : h.Live o)
    (hring : ∀ p, Relation.ReflTransGen h.Holds o p → ¬ Relation.TransGen h.Holds p p) :
    n < h.slots.length := by
  obtain ⟨path, hlength, hnodup, hreach⟩ := hc.distinct hring
  have hindices : (path.map ObjId.index).Nodup := hnodup.map fun _ _ => congrArg ObjId.mk
  have hsub : path.map ObjId.index ⊆ List.range h.slots.length := by
    intro i hi
    obtain ⟨p, hp, rfl⟩ := List.mem_map.mp hi
    exact List.mem_range.mpr (hcounted.live_of_reaches hl (hreach p hp)).used
  have hle := (hindices.subperm hsub).length_le
  rw [List.length_map, List.length_range, hlength] at hle
  exact hle

end Heap

namespace Bridge

variable {b b' : Bridge} {host : Multiset ObjId} {o err : ObjId} {v : Value} {u : Unwind}

/-! ## A value has been made -/

/-- One state is another with the claims of a value added, and nothing else changed. -/
structure Lends (b' b : Bridge) (v : Value) : Prop where
  /-- no object has been created -/
  used : ∀ p, b'.heap.Used p ↔ b.heap.Used p
  /-- no object is gone or carries anything else -/
  content : ∀ p, b'.heap.content p = b.heap.content p
  /-- a count has risen by the number of times that the value holds the object -/
  raised : ∀ p x y, b.heap.get? p = some x → b'.heap.get? p = some y → x.cls.isImmortal = false →
    y.count.toNat = x.count.toNat + v.claims.count p
  immortal : ∀ p x, b.heap.get? p = some x → x.cls.isImmortal = true → b'.heap.get? p = some x

theorem Unchanged.lends (hun : b.Unchanged b') (hs : b.Sound host)
    (hs' : b'.Sound (v.claims + host)) :
    b'.Lends b v := by
  refine ⟨hun.used, fun p => congrFun hun.content p, fun p x y hx hy hm => ?_, hun.immortal⟩
  have hcls : y.cls = x.cls := by
    have hcontent :=
      (Heap.content_of_get? hy).symm.trans
      ((congrFun hun.content p).trans (Heap.content_of_get? hx))
    exact congrArg Prod.fst (Option.some.inj hcontent)
  have hcount := (hs.counted.exact hx hm).1
  have hcount' := (hs'.counted.exact hy (hcls ▸ hm)).1
  rw [hun.lost, Heap.claims_of_content hun.content, add_assoc, add_assoc, Multiset.count_add,
    Multiset.coe_count, ← add_assoc, ← hcount, Nat.add_comm] at hcount'
  exact hcount'

/-- Dropping the value restores all objects with their counts. -/
theorem Unchanged.dropped (hun : b.Unchanged b') (hs : b.Sound host)
    (hs' : b'.Sound (v.claims + host)) :
    ∃ b'', v.drop.run b' = (.ok (), b'') ∧ ∀ p, b''.heap.get? p = b.heap.get? p := by
  have hends : Ends v.drop b' (fun _ b'' => ∀ p, b''.heap.get? p = b.heap.get? p)
      (fun _ _ => False) := by
    refine (ends_releaseAll_sound hs').mpr fun p => ?_
    have hun' := hun.swept hs (Multiset.Subset.refl host) hs'
    exact hs.restored (hs'.sweep _).2 hun'.lost hun'.content hun'.immortal p
  obtain ⟨_, b'', hrun, hget⟩ := hends.returns
  exact ⟨b'', hrun, hget⟩

/-! ## The conversion has unwound -/

/-- An error object holds nothing, so there are as many claims inside the heap as before. -/
theorem Aborted.claims (ha : b.Aborted b' u) : b'.heap.claims = b.heap.claims := by
  rw [Heap.claims_eq_sum (le_max_left b'.heap.slots.length b.heap.slots.length),
    Heap.claims_eq_sum (le_max_right b'.heap.slots.length _)]
  congr 2
  funext i
  by_cases hp : b.heap.Used ⟨i⟩
  · exact Heap.slotClaims_of_content (ha.content ⟨i⟩ hp)
  · rw [Heap.get?_of_not_used hp]
    cases hx : b'.heap.get? ⟨i⟩ with
    | none => rfl
    | some x =>
      obtain ⟨-, message, hcontent⟩ := ha.new ⟨i⟩ hp ⟨x, hx⟩
      rw [Heap.content_of_get? hx, Option.some_inj] at hcontent
      have hpay : x.payload = .err message := congrArg Prod.snd hcontent
      change (x.payload.claims : Multiset ObjId) = 0
      rw [hpay]
      rfl

theorem Aborted.restored (ha : b.Aborted b' u) (hs : b.Sound host)
    (hs' : b'.Sound (u.claims + host)) {p : ObjId} (hp : b.heap.Used p) :
    b'.heap.get? p = b.heap.get? p := by
  refine hs.restored_at hs' ?_ (ha.content p hp) (ha.immortal p)
  have hnone : u.claims.count p = 0 := by
    refine Multiset.count_eq_zero.mpr fun hmem => ?_
    cases u with
    | raised via err =>
      cases Multiset.mem_singleton.mp hmem
      exact ha.raised via p rfl hp
    | fault _ | dangling _ | endless => cases hmem
  rw [ha.lost, ha.claims, add_assoc, add_assoc, Multiset.count_add, hnone, Nat.zero_add, add_assoc]

/-- The error that is on its way is a new object with one claim. -/
theorem Aborted.error (ha : b.Aborted b' (.raised .bridge err)) (hs : b.Sound host)
    (hs' : b'.Sound ({err} + host)) :
    ∃ message, b'.heap.get? err = some ⟨.err, 1, .err message⟩ := by
  have hnew : ¬ b.heap.Used err := ha.raised .bridge err rfl
  obtain ⟨x, hx⟩ := hs'.counted.live_out (Multiset.mem_add.mpr (.inl (Multiset.mem_add.mpr (.inl
    (Multiset.mem_singleton_self err)))))
  obtain ⟨-, message, hcontent⟩ := ha.new err hnew ⟨x, hx⟩
  rw [Heap.content_of_get? hx, Option.some_inj] at hcontent
  obtain ⟨hcls, hpay⟩ := Prod.mk.inj hcontent
  have hmortal : x.cls.isImmortal = false := by
    rw [hcls]
    rfl
  have hcount := (hs'.counted.exact hx hmortal).1
  have hnone : (host + b.ledger.lost + b.heap.claims).count err = 0 :=
    Multiset.count_eq_zero.mpr fun hmem => hnew (hs.counted.live hmem).used
  rw [ha.lost, ha.claims, add_assoc, add_assoc, Multiset.count_add, Multiset.count_singleton_self,
    ← add_assoc, hnone]
    at hcount
  have hone : x.count = 1 := UInt32.toNat_inj.mp hcount
  refine ⟨message, hx.trans (congrArg some ?_)⟩
  rw [← hcls, ← hpay, ← hone]

/-- All objects are as they were, and the only new one is the error on its way. -/
structure Restored (b' b : Bridge) (u : Unwind) : Prop where
  old : ∀ p, b.heap.Used p → b'.heap.get? p = b.heap.get? p
  new : ∀ p x, ¬ b.heap.Used p → b'.heap.get? p = some x →
    u = .raised .bridge p ∧ ∃ message, x = ⟨.err, 1, .err message⟩

theorem Aborted.restores (ha : b.Aborted b' u) (hs : b.Sound host)
    (hs' : b'.Sound (u.claims + host)) :
    b'.Restored b u := by
  refine ⟨fun p hp => ha.restored hs hs' hp, fun p x hp hx => ?_⟩
  obtain ⟨rfl, -⟩ := ha.new p hp ⟨x, hx⟩
  obtain ⟨message, herr⟩ := ha.error hs hs'
  exact ⟨rfl, message, Option.some.inj (hx.symm.trans herr)⟩

end Bridge

/-- Converting an object that the host holds, and from which no ring can be reached, either gives a
value and adds its claims, which dropping the value takes back, or unwinds with an exception or for
want of a wrapper, and then all counts are as they were.  The counts have room for what reading
claims on its way. -/
theorem reading_effect {b b' : Bridge} {host : Multiset ObjId} (hb : b.Books host) (hu : b.Bounded)
    {o : ObjId} (ho : o ∈ host)
    (hring : ∀ p, Relation.ReflTransGen b.heap.Holds o p → ¬ Relation.TransGen b.heap.Holds p p)
    (hroom : b.RoomToRead (some o)) {result : Except Unwind Value}
    (hrun : (foreignToHost (some o)).run b = (result, b')) :
    (∀ v, result = .ok v →
      b'.Lends b v ∧ ∃ b'', v.drop.run b' = (.ok (), b'') ∧ ∀ p, b''.heap.get? p = b.heap.get? p) ∧
    (∀ u, result = .error u →
      b'.Restored b u ∧ ((∃ c, u = .fault (lookupMessage c)) ∨
        ∃ err, u = .raised .bridge err ∧ ¬ b.heap.Used err ∧ b'.heap.Live err)) := by
  have hs := hb.sound hu
  have hmem : ((some o).toList : Multiset ObjId) ⊆ host := Multiset.singleton_subset.mpr ho
  have hu' : b'.Bounded := by
    have hfinal := hu.foreignToHost hb hmem hroom
    rwa [hrun] at hfinal
  have hends := foreignToHost_ends hb hu hmem
  have hclaims := foreignToHost_transfers (some o) b host hmem (by rwa [zero_add])
  constructor
  · rintro v rfl
    have hun := (hends.of_ok hrun hu').1
    have hs' := (hclaims.of_ok hrun).sound hu'
    exact ⟨hun.lends hs hs', hun.dropped hs hs'⟩
  · rintro u rfl
    obtain ⟨-, ha, hend⟩ := hends.of_error hrun hu'
    have hw := hclaims.of_error hrun
    refine ⟨ha.restores hs (hw.books.sound hu'), ?_⟩
    have hsane := hw.sane hu'
    cases u with
    | raised via err =>
      obtain ⟨rfl, x, message, hx, -⟩ := hsane
      exact .inr ⟨err, rfl, ha.raised .bridge err rfl, x, hx⟩
    | fault message =>
      obtain ⟨c, rfl⟩ := ha.fault message rfl
      exact .inl ⟨c, rfl⟩
    | dangling p => exact hsane.elim
    | endless =>
      -- a chain as long as the heap would have met a ring
      exact absurd ((hend rfl).lt_length hs.counted (hb.live ho hu) hring) (lt_irrefl _)

/-- A bridge with a vector that holds an error object and a null. -/
def vectorBridge : Bridge :=
  { sharingBridge with heap := sharingBridge.heap.add ⟨.vector, 1, .vector [some ⟨2⟩, none]⟩ }

theorem vectorBridge_books : vectorBridge.Books (⟨3⟩ ::ₘ 0) :=
  Bridge.Books.add (q := .vector [some ⟨2⟩, none]) (c := .vector) sharingBridge_books rfl

/-- A class below the strings whose objects carry a byte and no text. -/
def oddString : Class := .child ⟨⟨10⟩, "Odd", .none, Layout.byte.size⟩ .string

/-- That vector, and after it such a string, in a vector. -/
def oddBridge : Bridge :=
  { vectorBridge with
    heap := (vectorBridge.heap.add ⟨oddString, 1, .byte⟩).add
      ⟨.vector, 1, .vector [some ⟨3⟩, some ⟨4⟩]⟩ }

theorem oddBridge_books : oddBridge.Books (⟨5⟩ ::ₘ 0) := by
  have hvector := vectorBridge_books
  rw [← zero_add (_ ::ₘ _)] at hvector
  have hodd := hvector.add (q := .byte) (c := oddString) rfl
  have hclaims : ((Payload.vector [some ⟨3⟩, some ⟨4⟩]).claims : Multiset ObjId) + 0 =
      ⟨4⟩ ::ₘ ⟨3⟩ ::ₘ 0 := by
    decide +kernel
  exact Bridge.Books.add (c := .vector) (hclaims ▸ hodd) rfl

theorem vectorBridge_acyclic : vectorBridge.heap.Acyclic :=
  Heap.acyclic_of_slots (5 - ObjId.index ·) (by decide +kernel)

theorem oddBridge_acyclic : oddBridge.heap.Acyclic :=
  Heap.acyclic_of_slots (5 - ObjId.index ·) (by decide +kernel)

/-- The first of the two vectors converts, with a new claim on the error object that dropping the
sequence gives back. The second one does not: by then its first element has been converted, and
nothing of that is left. -/
theorem reading_effect_of_odd_string :
    (∃ v b' b'', (foreignToHost (some ⟨3⟩)).run vectorBridge = (.ok v, b') ∧ v.claims = [⟨2⟩] ∧
      b'.heap.get? ⟨2⟩ = some ⟨.err, 2, .err "boom"⟩ ∧ v.drop.run b' = (.ok (), b'') ∧
      b''.heap.get? ⟨2⟩ = some ⟨.err, 1, .err "boom"⟩) ∧
    ∃ b', (foreignToHost (some ⟨5⟩)).run oddBridge = (.error (.raised .bridge ⟨6⟩), b') ∧
      b'.Restored oddBridge (.raised .bridge ⟨6⟩) := by
  constructor
  · have hr : ((foreignToHost (some ⟨3⟩)).run vectorBridge).1.map Value.claims = .ok [⟨2⟩] := by
      decide +kernel
    have hcount : ((foreignToHost (some ⟨3⟩)).run vectorBridge).2.heap.get? ⟨2⟩ =
        some ⟨.err, 2, .err "boom"⟩ := by
      decide +kernel
    cases hv : ((foreignToHost (some ⟨3⟩)).run vectorBridge).1 with
    | error u =>
      rw [hv] at hr
      cases hr
    | ok v =>
      rw [hv] at hr
      obtain ⟨-, b'', hdrop, hget⟩ :=
        (reading_effect vectorBridge_books (by decide) (Multiset.mem_cons_self _ _)
        (fun p _ => vectorBridge_acyclic p) (by decide +kernel) rfl).1 v hv
      exact ⟨v, _, b'', Prod.ext hv rfl, Except.ok.inj hr, hcount, hdrop, hget ⟨2⟩⟩
  · have hr : ((foreignToHost (some ⟨5⟩)).run oddBridge).1.map Value.claims =
        .error (.raised .bridge ⟨6⟩) := by
      decide +kernel
    obtain ⟨b', hrun, -⟩ := exists_state_of_error (P := fun _ => True) Value.claims hr trivial
    exact ⟨b', hrun, ((reading_effect oddBridge_books (by decide) (Multiset.mem_cons_self _ _)
      (fun p _ => oddBridge_acyclic p) (by decide +kernel) hrun).2 _ rfl).1⟩

/-- Where a string in a vector has as many claims as can be counted, reading the vector unwinds, and
the string is left without a claim. -/
theorem reading_effect_of_full_count :
    ∃ host, fullBridge.Reached host ∧ fullBridge.Bounded ∧ ⟨3⟩ ∈ host ∧ fullBridge.heap.Acyclic ∧
      ∃ b', (foreignToHost (some ⟨3⟩)).run fullBridge = (.error (.raised .bridge ⟨4⟩), b') ∧
        b'.heap.get? ⟨2⟩ = some ⟨.string, 0, .string "x"⟩ ∧
        ¬ b'.Restored fullBridge (.raised .bridge ⟨4⟩) := by
  obtain ⟨host, hreached, -, hheld⟩ := fullBridge_reached
  refine ⟨host, hreached, fullBridge_bounded, hheld, fullBridge_acyclic, ?_⟩
  have hcount : ((foreignToHost (some ⟨3⟩)).run fullBridge).2.heap.get? ⟨2⟩ =
      some ⟨.string, 0, .string "x"⟩ := by decide +kernel
  refine exists_state_of_error Value.claims (by decide +kernel) ⟨hcount, fun hrestored => ?_⟩
  have hold := hrestored.old ⟨2⟩ (Heap.used_of_get? get?_fullBridge)
  exact absurd ((hcount.symm.trans hold).trans get?_fullBridge) (by decide +kernel)

end ObjectBridge
