import ObjectBridge.Proofs.Lending
import ObjectBridge.Proofs.ReadingEffect

set_option autoImplicit false

/-!
# Copies of values (SPEC §12.1, §12.3)

A copy of a value claims every object in it once more and wraps it anew.  It goes through the
objects in the order in which the value claims them, and the first one whose class has no wrapper
ends it.  By then the objects before have been claimed, at any depth; all of these claims are given
back on the way out.
-/

namespace ObjectBridge

/-! ## Objects that cannot be wrapped -/

namespace Bridge

variable {b : Bridge} {o : ObjId} {w : Wrapper} {c : Class} {claims more taken : List ObjId}

/-- The wrapper that is registered for exactly the class of an object. -/
def wrapperAt (b : Bridge) (o : ObjId) : Option Wrapper :=
  (b.heap.get? o).bind fun x => b.wrapperOf x.cls

theorem wrapsWith_iff : b.WrapsWith o w ↔ b.started = true ∧ b.wrapperAt o = some w := by
  unfold WrapsWith wrapperAt
  rw [Option.bind_eq_some_iff]

theorem wrappable_iff (hs : b.started = true) :
    b.Wrappable claims ↔ ∀ o ∈ claims, (b.wrapperAt o).isSome = true := by
  refine forall₂_congr fun o _ => ?_
  rw [Option.isSome_iff_exists]
  exact exists_congr fun w => wrapsWith_iff.trans (and_iff_right hs)

/-- More claims do not change how objects are wrapped. -/
theorem wrapperAt_lent (b : Bridge) (claims : List ObjId) (o : ObjId) :
    (b.lent claims).wrapperAt o = b.wrapperAt o := by
  unfold wrapperAt
  rw [get?_lent]
  cases b.heap.get? o with
  | none => rfl
  | some x =>
    rw [Option.map_some, Option.bind_some, Option.bind_some, Heap.cls_iterate_retained]
    rfl

theorem live_lent (hl : ∀ o ∈ more, b.heap.Live o) : ∀ o ∈ more, (b.lent claims).heap.Live o := by
  intro o ho
  obtain ⟨x, hx⟩ := hl o ho
  exact ⟨_, get?_lent_of_some hx claims⟩

/-- Objects are claimed in turn.  The last that is claimed is the first whose class, `c`, has no
wrapper. -/
inductive StopsAt (b : Bridge) (c : Class) : List ObjId → List ObjId → Prop
  | here {o : ObjId} {x : Obj} {rest : List ObjId} (hx : b.heap.get? o = some x) (hc : x.cls = c)
    (hw : b.wrapperOf c = none) : StopsAt b c (o :: rest) [o]
  | later {o : ObjId} {rest taken : List ObjId} (ho : (b.wrapperAt o).isSome = true)
    (hrest : StopsAt b c rest taken) :
    StopsAt b c (o :: rest) (o :: taken)

namespace StopsAt

theorem lent (hstops : b.StopsAt c more taken) (claims : List ObjId) :
    (b.lent claims).StopsAt c more taken := by
  induction hstops with
  | @here o x rest hx hc hw =>
    exact .here (get?_lent_of_some hx claims) ((Heap.cls_iterate_retained x _).trans hc) hw
  | later ho _ ih => exact .later (by rwa [wrapperAt_lent]) ih

/-- It stops in the first of two lists, or in the second after all of the first has been claimed. -/
theorem of_append (hstops : b.StopsAt c (claims ++ more) taken) :
    b.StopsAt c claims taken ∨
      (∀ o ∈ claims, (b.wrapperAt o).isSome = true) ∧ ∃ rest, taken = claims ++ rest ∧
      b.StopsAt c more rest := by
  induction claims generalizing taken with
  | nil => exact .inr ⟨List.forall_mem_nil _, taken, rfl, hstops⟩
  | cons o claims ih =>
    cases hstops with
    | here hx hc hw => exact .inl (.here hx hc hw)
    | later ho hrest =>
      rcases ih hrest with hfirst | ⟨hall, rest, rfl, hsecond⟩
      · exact .inl (.later ho hfirst)
      · exact .inr ⟨List.forall_mem_cons.mpr ⟨ho, hall⟩, rest, rfl, hsecond⟩

theorem exists_split (hstops : b.StopsAt c claims taken) :
    ∃ before o after x, claims = before ++ o :: after ∧ taken = before ++ [o] ∧
      (∀ p ∈ before, (b.wrapperAt p).isSome = true) ∧ b.heap.get? o = some x ∧ x.cls = c ∧
      b.wrapperOf c = none := by
  induction hstops with
  | here hx hc hw => exact ⟨[], _, _, _, rfl, rfl, List.forall_mem_nil _, hx, hc, hw⟩
  | @later o rest taken ho _ ih =>
    obtain ⟨before, p, after, x, rfl, rfl, hbefore, hp⟩ := ih
    exact ⟨o :: before, p, after, x, rfl, rfl, List.forall_mem_cons.mpr ⟨ho, hbefore⟩, hp⟩

end StopsAt

theorem exists_stopsAt (hl : ∀ o ∈ claims, b.heap.Live o) (ho : o ∈ claims)
    (hnone : b.wrapperAt o = none) :
    ∃ c taken, b.StopsAt c claims taken := by
  induction claims with
  | nil => cases ho
  | cons p rest ih =>
    obtain ⟨⟨x, hx⟩, hrest⟩ := List.forall_mem_cons.mp hl
    have hwrapper : b.wrapperAt p = b.wrapperOf x.cls := by
      unfold wrapperAt
      rw [hx, Option.bind_some]
    cases hw : b.wrapperOf x.cls with
    | none => exact ⟨x.cls, [p], .here hx rfl hw⟩
    | some w =>
      rw [hw] at hwrapper
      rcases List.mem_cons.mp ho with rfl | ho
      · rw [hwrapper] at hnone
        cases hnone
      · obtain ⟨c, taken, hstops⟩ := ih hrest ho
        exact ⟨c, p :: taken, .later (by rw [hwrapper]; rfl) hstops⟩

/-- The bridge after a refusal.  The fault is in the journal, and the ledger knows of claims that
are there no more. -/
def refused (b : Bridge) (c : Class) (peak : Nat) : Bridge :=
  { b.grown b.heap peak with journal := b.journal.push (.log .error (lookupMessage c)) }

/-- Claims that were lent are given back after a refusal. -/
theorem Spare.run_releaseAll_refused (hs : b.Spare claims) (hl : ∀ o ∈ claims, b.heap.Live o)
    (peak : Nat) :
    (releaseAll claims).run ((b.lent claims).refused c peak) = (.ok (), b.refused c peak) :=
  -- giving back claims does not read the journal
  Spare.run_releaseAll (b := { b with journal := b.journal.push (.log .error (lookupMessage c)) })
  hs hl (.refl claims)
    peak

end Bridge

/-! ## Copies that are refused -/

/-- The call claims objects in turn.  Where it stops at one without a wrapper, it ends in the fault
about the class, with all objects as they were. -/
def Refuses {α : Type} (claims : List ObjId) (r : Run α) : Prop :=
  ∀ (b : Bridge) (c : Class) (taken : List ObjId), b.started = true →
    (∀ o ∈ claims, b.heap.Live o) →
    b.StopsAt c claims taken → b.Spare taken →
    ∃ peak, r.run b = (.error (.fault (lookupMessage c)), b.refused c peak)

section Refusals

open Bridge

variable {α β : Type} {claims more : List ObjId} {r : Run α}

theorem refuses_nil (r : Run α) : Refuses [] r := by
  intro b c taken _ _ hstops
  cases hstops

theorem Refuses.bind (hr : Refuses claims r) (f : α → Run β) : Refuses claims (r >>= f) := by
  intro b c taken hs hl hstops hspare
  obtain ⟨peak, hrun⟩ := hr b c taken hs hl hstops hspare
  exact ⟨peak, run_bind_of_error hrun⟩

/-- An object whose class has no wrapper is claimed, and the claim is given back. -/
theorem refuses_share (h : HostRef) : Refuses [h.obj] h.share := by
  intro b c taken hs hl hstops hspare
  cases hstops with
  | later _ hrest => cases hrest
  | @here _ x _ hx hc hw =>
    subst hc
    have hy := get?_lent_of_some hx [h.obj]
    have hnone : (b.lent [h.obj]).wrapperOf (Obj.retained^[[h.obj].count h.obj] x).cls = none := by
      rw [Heap.cls_iterate_retained]
      exact hw
    have hback := hspare.run_releaseAll_refused (c := x.cls) hl (b.lent [h.obj]).ledger.peak
    refine ⟨(b.lent [h.obj]).ledger.peak,
      (run_bind_of_ok (run_share_live hs ⟨x, hx⟩)).trans (Ends.run_error ?_)⟩
    rw [ends_dispatch (b := b.lent [h.obj]) hs hy, hnone, Heap.cls_iterate_retained]
    exact (ends_of_run_ok hback).mpr ⟨rfl, rfl⟩

namespace Value

variable {v : Value}

/-- A value is copied, and then others.  If one of the others is refused, the copy is dropped. -/
theorem refuses_cons {rest : Run α} (hv : Refuses v.claims v.clone) (hrest : Refuses more rest)
    (g : Value → α → β) :
    Refuses (v.claims ++ more) (do
      let v' ← v.clone
      let others ← onUnwind v'.drop rest
      return g v' others) := by
  intro b c taken hs hl hstops hspare
  obtain ⟨hlv, hlmore⟩ := List.forall_mem_append.mp hl
  rcases hstops.of_append with hfirst | ⟨hall, taken, rfl, hsecond⟩
  · exact hv.bind _ b c taken hs hlv hfirst hspare
  · have hw := (wrappable_iff hs).mpr hall
    choose! f hf using hw
    obtain ⟨peak, hfault⟩ :=
      hrest (b.lent v.claims) c taken hs (live_lent hlmore) (hsecond.lent _) (hspare.right hlv)
    refine ⟨peak, (run_bind_of_ok (run_clone hf)).trans (run_bind_of_error (Ends.run_error ?_))⟩
    -- the copy claims what the value claims
    have hback := hspare.left.run_releaseAll_refused (c := c) hlv peak
    rw [ends_onUnwind, ends_of_run_error hfault, drop, claims_rewrap]
    exact (ends_of_run_ok hback).mpr ⟨rfl, rfl⟩

theorem refuses_cloneItems {items : List Value} (hitems : ∀ v ∈ items, Refuses v.claims v.clone) :
    Refuses (claimsOfItems items) (cloneItems items) := by
  induction items with
  | nil => exact refuses_nil _
  | cons v rest ih =>
    obtain ⟨hv, hrest⟩ := List.forall_mem_cons.mp hitems
    unfold cloneItems
    exact refuses_cons hv (ih hrest) List.cons

theorem refuses_cloneEntries {entries : List (String × Value)}
    (hentries : ∀ e ∈ entries, Refuses e.2.claims e.2.clone) :
    Refuses (claimsOfEntries entries) (cloneEntries entries) := by
  induction entries with
  | nil => exact refuses_nil _
  | cons e rest ih =>
    obtain ⟨he, hrest⟩ := List.forall_mem_cons.mp hentries
    unfold cloneEntries
    exact refuses_cons he (ih hrest) fun v others => (e.1, v) :: others

theorem refuses_clone (v : Value) : Refuses v.claims v.clone := by
  induction v using Value.induction with
  | seq items ih => exact (refuses_cloneItems ih).bind _
  | map entries ih => exact (refuses_cloneEntries ih).bind _
  | object h => exact (refuses_share h).bind _
  | _ => exact refuses_nil _

end Value

end Refusals

/-! ## What a copy is -/

namespace Bridge

variable {b b' : Bridge} {v w : Value}

/-- The claims of a value are lent, one for each time that it holds an object, as long as no count
runs over. -/
theorem lends_lent (hroom : b.HasRoom v.claims) : (b.lent v.claims).Lends b v where
  used := Heap.used_retainAll b.heap v.claims
  content o := congrFun (Heap.content_retainAll b.heap v.claims) o
  raised o x y hx hy hm := by
    rw [get?_lent_of_some hx, Option.some_inj] at hy
    rw [← hy, Heap.count_iterate_retained hm (hroom o x hx hm)]
  immortal o x hx hm := by
    rw [get?_lent_of_some hx, Heap.iterate_retained_of_immortal hm]

/-- In the state `b`, which became `b'`, the value `w` was made as a copy of `v`. -/
structure Copied (b b' : Bridge) (v w : Value) : Prop where
  equal : w.same v = true
  /-- it is the same value, with the wrapper around each object that is registered for exactly its
  class -/
  wrapped : ∃ f : ObjId → Wrapper, w = v.rewrap f ∧ ∀ o ∈ v.claims, b.wrapperAt o = some (f o)
  /-- each object has been claimed as often as the value holds it, and nothing else has happened to
  it -/
  claimed : ∀ o, b'.heap.get? o = (b.heap.get? o).map Obj.retained^[v.claims.count o]
  /-- counts have risen by as much, unless one runs past 32 bits -/
  lends : b.HasRoom v.claims → b'.Lends b v
  /-- and dropping the copy restores them -/
  dropped : b.HasRoom v.claims → ∃ b'', w.drop.run b' = (.ok (), b'') ∧ b''.heap = b.heap

theorem copied_rewrap {f : ObjId → Wrapper} (hv : v.Distinct) (hcounted : ∃ out, b.heap.Counted out)
    (hf : ∀ o ∈ v.claims, b.WrapsWith o (f o)) : b.Copied (b.lent v.claims) v (v.rewrap f) where
  equal := Value.rewrap_same hv f
  wrapped := ⟨f, rfl, fun o ho => (wrapsWith_iff.mp (hf o ho)).2⟩
  claimed := b.get?_lent v.claims
  lends := lends_lent
  dropped hroom := by
    have hspare : b.Spare v.claims := ⟨hcounted, hroom⟩
    have hl : ∀ o ∈ v.claims, b.heap.Live o := Wrappable.live fun o ho => ⟨f o, hf o ho⟩
    rw [Value.drop, Value.claims_rewrap]
    exact ⟨_, hspare.run_releaseAll hl (.refl _) (b.lent v.claims).ledger.peak, rfl⟩

end Bridge

/-- In an accounted state, a value that the host holds is copied if all objects in it are of classes
that have a wrapper; the copy has claims of its own, and dropping it takes them back.  Otherwise the
first object whose class has none ends the copy in a fault about that class, and all objects are as
they were.  The counts are the right ones as long as none runs over. -/
theorem clone_claims_objects {b : Bridge} {host : Multiset ObjId} (hb : b.Books host)
    (hu : b.Bounded) {v : Value} (hv : v.Distinct) (hheld : ∀ o ∈ v.claims, o ∈ host) :
    ((∀ o ∈ v.claims, (b.wrapperAt o).isSome = true) →
      ∃ w b', v.clone.run b = (.ok w, b') ∧ b.Copied b' v w) ∧
    ((∃ o ∈ v.claims, b.wrapperAt o = none) →
      ∃ before o after x, v.claims = before ++ o :: after ∧
      (∀ p ∈ before, (b.wrapperAt p).isSome = true) ∧
        b.heap.get? o = some x ∧ b.wrapperOf x.cls = none ∧
        (b.HasRoom (before ++ [o]) →
          ∃ b', v.clone.run b = (.error (.fault (lookupMessage x.cls)), b') ∧
          b'.heap = b.heap)) := by
  have hs := hb.started
  have hcounted : ∃ out, b.heap.Counted out := ⟨_, (hb.sound hu).counted⟩
  have hl : ∀ o ∈ v.claims, b.heap.Live o := fun o ho => hb.live (hheld o ho) hu
  constructor
  · intro hwrappers
    have hw := (Bridge.wrappable_iff hs).mpr hwrappers
    choose! f hf using hw
    exact ⟨_, _, Value.run_clone hf, Bridge.copied_rewrap hv hcounted hf⟩
  · rintro ⟨o, ho, hnone⟩
    obtain ⟨c, taken, hstops⟩ := Bridge.exists_stopsAt hl ho hnone
    obtain ⟨before, p, after, x, heq, rfl, hbefore, hx, rfl, hw⟩ := hstops.exists_split
    refine ⟨before, p, after, x, heq, hbefore, hx, hw, fun hroom => ?_⟩
    obtain ⟨peak, hrun⟩ := v.refuses_clone b x.cls _ hs hl hstops ⟨hcounted, hroom⟩
    exact ⟨_, hrun, rfl⟩

/-- A value with a pet in it twice, once in the wrapper for any object. -/
def petsValue : Value :=
  .seq [.map [("old", .object ⟨.object, ⟨2⟩⟩)], .null, .object ⟨petWrapper, ⟨2⟩⟩]

/-- The same value with the pet in the wrapper of pets. -/
def petsCopy : Value :=
  .seq [.map [("old", .object ⟨petWrapper, ⟨2⟩⟩)], .null, .object ⟨petWrapper, ⟨2⟩⟩]

/-- A value with a pet, and a puppy deeper in it. -/
def puppyValue : Value :=
  .seq [.object ⟨petWrapper, ⟨2⟩⟩, .map [("new", .seq [.object ⟨.object, ⟨3⟩⟩])]]

theorem petsValue_distinct : petsValue.Distinct := by
  refine .seq ?_
  simp only [List.forall_mem_cons]
  refine ⟨.map (by decide) ?_, .null, .object _, List.forall_mem_nil _⟩
  exact List.forall_mem_singleton.mpr (.object _)

theorem puppyValue_distinct : puppyValue.Distinct := by
  refine .seq ?_
  simp only [List.forall_mem_cons]
  refine ⟨.object _, .map (by decide) ?_, List.forall_mem_nil _⟩
  exact List.forall_mem_singleton.mpr (.seq (List.forall_mem_singleton.mpr (.object _)))

theorem petProcess_hasRoom {claims : List ObjId} (hclaims : claims.length < 100) :
    petProcess.bridge.HasRoom claims := by
  intro o x hx hm
  have hle : claims.count o ≤ claims.length := List.count_le_length
  have hone : x.count.toNat ≤ 1 := by
    have hall : ∀ s ∈ petProcess.bridge.heap.slots, ∀ y ∈ s, y.count.toNat ≤ 1 := by decide +kernel
    exact hall _ (List.mem_of_getElem? (Heap.slots_of_get? hx)) x rfl
  omega

/-- The copy has the pet twice in the wrapper of pets.  The value with the puppy is not copied, and
the claim on the pet that was taken before is given back. -/
theorem clone_claims_objects_of_pets :
    (∃ b' b'', petsValue.clone.run petProcess.bridge = (.ok petsCopy, b') ∧
      b'.heap.get? ⟨2⟩ = some ⟨petClass, 3, .unit⟩ ∧
      petsCopy.drop.run b' = (.ok (), b'') ∧ b''.heap = petProcess.bridge.heap) ∧
    ∃ b', puppyValue.clone.run petProcess.bridge =
      (.error (.fault "no wrap function registered for class Puppy"), b') ∧
      b'.heap = petProcess.bridge.heap := by
  constructor
  · obtain ⟨w, b', hrun, hcopied⟩ :=
      (clone_claims_objects petProcess_books (by decide +kernel) petsValue_distinct
      (by decide +kernel)).1 (by decide +kernel)
    obtain ⟨f, rfl, hf⟩ := hcopied.wrapped
    have hpet : f ⟨2⟩ = petWrapper := by
      have hregistered : petProcess.bridge.wrapperAt ⟨2⟩ = some petWrapper := by decide +kernel
      exact (Option.some.inj (hregistered.symm.trans (hf ⟨2⟩ (by decide +kernel)))).symm
    have hsame : petsValue.rewrap f = petsCopy := by
      change Value.seq [.map [("old", .object ⟨f ⟨2⟩, ⟨2⟩⟩)], .null, .object ⟨f ⟨2⟩, ⟨2⟩⟩] = _
      rw [hpet]
      rfl
    obtain ⟨b'', hdrop, hheap⟩ := hcopied.dropped (petProcess_hasRoom (by decide +kernel))
    rw [hsame] at hrun hdrop
    refine ⟨b', b'', hrun, ?_, hdrop, hheap⟩
    rw [hcopied.claimed]
    decide +kernel
  · obtain ⟨before, o, after, x, heq, hbefore, hx, hw, hrefused⟩ :=
      (clone_claims_objects petProcess_books
      (by decide +kernel) puppyValue_distinct (by decide +kernel)).2 ⟨⟨3⟩, by decide +kernel, by
        decide +kernel⟩
    have hroom : (before ++ [o]).length < 100 := by
      have hlength : puppyValue.claims.length = 2 := by decide +kernel
      rw [heq, List.length_append, List.length_cons] at hlength
      rw [List.length_append, List.length_singleton]
      omega
    obtain ⟨b', hrun, hheap⟩ := hrefused (petProcess_hasRoom hroom)
    have hfault : (puppyValue.clone.run petProcess.bridge).1.map (fun _ => ()) =
        .error (.fault "no wrap function registered for class Puppy") := by decide +kernel
    rw [hrun] at hfault
    have hmessage := Except.error.inj hfault
    exact ⟨b', by rw [hrun, hmessage], hheap⟩

/-- Where an object has as many claims as can be counted, a copy of a value with it is made, but the
count is zero then, and dropping the copy raises an exception. -/
theorem clone_claims_objects_of_full_count :
    ∃ host, fullBridge.Reached host ∧ fullBridge.Bounded ∧ stringRef.obj ∈ host ∧
      fullBridge.wrapperAt stringRef.obj = some .str ∧
      ∃ b', (Value.object stringRef).clone.run fullBridge = (.ok (.object stringRef), b') ∧
        b'.heap.get? stringRef.obj = some ⟨.string, 0, .string "x"⟩ ∧
        ∃ b'', (Value.object stringRef).drop.run b' = (.error (.raised .bridge ⟨4⟩), b'') := by
  obtain ⟨host, hreached, hheld, -⟩ := fullBridge_reached
  have hwrapper : fullBridge.wrapperAt stringRef.obj = some .str := by decide +kernel
  have hwraps : ∀ o ∈ (Value.object stringRef).claims, fullBridge.WrapsWith o .str := by
    intro o ho
    obtain rfl : o = stringRef.obj := List.mem_singleton.mp ho
    exact Bridge.wrapsWith_iff.mpr ⟨by decide +kernel, hwrapper⟩
  refine ⟨host, hreached, fullBridge_bounded, hheld, hwrapper, _, Value.run_clone hwraps, ?_, ?_⟩
  · decide +kernel
  · exact ⟨_, Prod.ext (by decide +kernel) rfl⟩

end ObjectBridge
