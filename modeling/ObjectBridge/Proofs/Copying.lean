import ObjectBridge.Proofs.CopyKinds
import ObjectBridge.Proofs.Reading

set_option autoImplicit false

/-!
# Conversion gives what can be read (SPEC §4.3)

`Reads base B t r g e E` says of a call that takes and gives claims as `Transfers` says, that
started while `base` can be read unchanged it answers what `e` says and leaves `base` as readable as
before.  It unwinds only if `e` is nothing; the objects of `base` are then as they were, and `E`
holds of the complaint that it unwinds with.  The conversion of an object to a host value is such a
call, with what `readWithin` gives and what `Blames` says.
-/

namespace ObjectBridge

open Heap

/-! ## What objects carry -/

namespace Heap

variable {h h' : Heap} {o : ObjId} {x : Obj}

theorem content_of_get? (hx : h.get? o = some x) : h.content o = some (x.cls, x.payload) := by
  unfold content
  rw [hx, Option.map_some]

theorem content_eq_none_iff : h.content o = none ↔ h.get? o = none := Option.map_eq_none_iff

theorem sameAt_of_content (he : h'.content = h.content) : SameAt h h' o := by
  intro x hx
  have hcontent := (congrFun he o).trans (content_of_get? hx)
  obtain ⟨y, hy, heq⟩ := Option.map_eq_some_iff.mp hcontent
  obtain ⟨hcls, hpay⟩ := Prod.mk.inj heq
  exact ⟨y, hy, hcls, hpay⟩

theorem content_of_sameAt (hs : SameAt h h' o) (hnone : h.get? o = none → h'.get? o = none) :
    h'.content o = h.content o := by
  cases hx : h.get? o with
  | none => rw [content_eq_none_iff.mpr hx, content_eq_none_iff.mpr (hnone hx)]
  | some x =>
    obtain ⟨y, hy, hcls, hpay⟩ := hs x hx
    rw [content_of_get? hx, content_of_get? hy, hcls, hpay]

theorem content_retainAll (h : Heap) (claims : List ObjId) :
    (h.retainAll claims).content = h.content := by
  funext o
  unfold content
  rw [get?_retainAll, Option.map_map]
  congr 1
  funext x
  exact Prod.ext (cls_iterate_retained x _) (payload_iterate_retained x _)

/-- What survives a sweep is as before. -/
theorem content_sweep_of_live {work : List ObjId} (hl : (h.sweep work).heap.Live o) :
    (h.sweep work).heap.content o = h.content o :=
  content_of_sameAt (sameAt_sweep work hl) get?_sweep_of_none

/-- Giving back claims that were added on top of those that a heap accounts for destroys nothing of
that heap. -/
theorem content_sweep {F out : Multiset ObjId} {work : List ObjId} (hc : h.Counted F)
    (hc' : h'.Counted (work + out)) (he : h'.content = h.content) (hF : F ⊆ out) :
    (h'.sweep work).heap.content = h.content := by
  funext o
  have hsame : ∀ p, SameAt h h' p := fun _ => sameAt_of_content he
  refine content_of_sameAt (sameAt_sweep_of_counted hc hc' hsame hF o) fun hnone =>
    get?_sweep_of_none ?_
  exact content_eq_none_iff.mp ((congrFun he o).trans (content_eq_none_iff.mpr hnone))

end Heap

namespace Bridge

/-- The wrapper that is registered for exactly the class. -/
def wrapperOf (b : Bridge) (c : Class) : Option Wrapper := (b.wrappers.get? c.id).map Prod.snd

/-- The host form of an object, read through at most `depth` levels of containers. -/
def read (b : Bridge) (depth : Nat) (o : Option ObjId) : Option Value :=
  readWithin b.heap.content b.order b.wrapperOf depth o

/-- Whatever can be read in one state reads the same in the other. -/
structure Unchanged (b b' : Bridge) : Prop where
  content : b'.heap.content = b.heap.content
  order : b'.order = b.order
  wrappers : b'.wrappers = b.wrappers
  lost : b'.ledger.lost = b.ledger.lost
  used : ∀ p, b'.heap.Used p ↔ b.heap.Used p
  immortal : ∀ p x, b.heap.get? p = some x → x.cls.isImmortal = true → b'.heap.get? p = some x

/-- A call has unwound, and the objects of the first state carry what they did.  The only new object
is the error that is on its way, and a fault is that of an object whose class has no wrapper. -/
structure Aborted (b b' : Bridge) (u : Unwind) : Prop where
  content : ∀ p, b.heap.Used p → b'.heap.content p = b.heap.content p
  new : ∀ p, ¬ b.heap.Used p → b'.heap.Live p →
    u = .raised .bridge p ∧ ∃ message, b'.heap.content p = some (.err, .err message)
  lost : b'.ledger.lost = b.ledger.lost
  immortal : ∀ p x, b.heap.get? p = some x → x.cls.isImmortal = true → b'.heap.get? p = some x
  raised : ∀ via err, u = .raised via err → ¬ b.heap.Used err
  fault : ∀ message, u = .fault message → ∃ c, message = lookupMessage c

variable {base b : Bridge} {host : Multiset ObjId} {claims : List ObjId} {u : Unwind}

theorem Unchanged.refl (b : Bridge) : b.Unchanged b :=
  ⟨rfl, rfl, rfl, rfl, fun _ => Iff.rfl, fun _ _ hx _ => hx⟩

theorem Unchanged.retainAll (hun : base.Unchanged b) (claims : List ObjId) (peak : Nat) :
    base.Unchanged (b.grown (b.heap.retainAll claims) peak) := by
  refine ⟨(content_retainAll b.heap claims).trans hun.content, hun.order, hun.wrappers, hun.lost,
    fun p => (used_retainAll b.heap claims p).trans (hun.used p), fun p x hx hm => ?_⟩
  refine (get?_retainAll b.heap claims p).trans ?_
  rw [hun.immortal p x hx hm, Option.map_some, iterate_retained_of_immortal hm]

/-- The state stays readable when claims are given back that it does not need. -/
theorem Unchanged.swept {B : Multiset ObjId} (hun : base.Unchanged b) (hbase : base.Sound B)
    (hB : B ⊆ host) (hs : b.Sound (claims + host)) : base.Unchanged (b.swept claims) := by
  refine ⟨?_, hun.order, hun.wrappers, hun.lost, fun p =>
    (used_sweep b.heap claims).trans (hun.used p), fun p x hx hm =>
      sweep_get?_of_immortal b.heap claims (hun.immortal p x hx hm) hm⟩
  have hcounted := hs.counted
  rw [add_assoc, hun.lost] at hcounted
  refine content_sweep hbase.counted hcounted hun.content fun o ho => ?_
  rcases Multiset.mem_add.mp ho with hmem | hlost
  · exact Multiset.mem_add.mpr (.inl (hB hmem))
  · exact Multiset.mem_add.mpr (.inr hlost)

/-- What unwinds without a change has kept all objects. -/
theorem Unchanged.aborted (hun : base.Unchanged b) (hr : ∀ via err, u ≠ .raised via err)
    (hf : ∀ message, u = .fault message → ∃ c, message = lookupMessage c) : base.Aborted b u := by
  refine ⟨fun p _ => congrFun hun.content p, fun p hp hl => ?_, hun.lost, hun.immortal,
    fun via err heq => absurd heq (hr via err), hf⟩
  exact absurd ((hun.used p).mp hl.used) hp

/-- An exception brings a new error object with it. -/
theorem Unchanged.raised (hun : base.Unchanged b) (message : String) (journal : Array Entry) :
    base.Aborted { b with heap := b.heap.add ⟨.err, 1, .err message⟩, journal := journal }
      (.raised .bridge b.heap.next) := by
  have hold : ∀ p, p ≠ b.heap.next → (b.heap.add ⟨.err, 1, .err message⟩).get? p = b.heap.get? p :=
    fun p hne => (get?_add b.heap _ p).trans (if_neg hne)
  have hne : ∀ p, base.heap.Used p → p ≠ b.heap.next := by
    rintro p hp rfl
    exact not_used_next ((hun.used _).mpr hp)
  refine ⟨fun p hp => ?_, fun p hp hl => ?_, hun.lost, fun p x hx hm => ?_, fun via err heq hp =>
    ?_, nofun⟩
  · refine Eq.trans ?_ (congrFun hun.content p)
    unfold Heap.content
    rw [hold p (hne p hp)]
  · by_cases heq : p = b.heap.next
    · rw [heq]
      refine ⟨rfl, message, content_of_get? (x := ⟨.err, 1, .err message⟩) ?_⟩
      exact (get?_add b.heap _ _).trans (if_pos rfl)
    · obtain ⟨x, hx⟩ := hl
      rw [hold p heq] at hx
      exact absurd ((hun.used p).mp (used_of_get? hx)) hp
  · exact (hold p (hne p (used_of_get? hx))).trans (hun.immortal p x hx hm)
  · cases heq
    exact hne _ hp rfl

/-- Giving back claims on the way does no harm either. -/
theorem Aborted.swept {B : Multiset ObjId} (ha : base.Aborted b u) (hbase : base.Sound B)
    (hB : B ⊆ host) (hs : b.Sound (claims + host)) : base.Aborted (b.swept claims) u := by
  have hcounted := hs.counted
  rw [add_assoc, ha.lost] at hcounted
  have hsame : ∀ p, SameAt base.heap b.heap p := by
    intro p x hx
    obtain ⟨y, hy, heq⟩ :=
      Option.map_eq_some_iff.mp ((ha.content p (used_of_get? hx)).trans (content_of_get? hx))
    obtain ⟨hcls, hpay⟩ := Prod.mk.inj heq
    exact ⟨y, hy, hcls, hpay⟩
  have hneeded : B + base.ledger.lost ⊆ host + base.ledger.lost := by
    intro o ho
    rcases Multiset.mem_add.mp ho with hmem | hlost
    · exact Multiset.mem_add.mpr (.inl (hB hmem))
    · exact Multiset.mem_add.mpr (.inr hlost)
  refine ⟨fun p hp => ?_, fun p hp hl => ?_, ha.lost, fun p x hx hm => ?_, ha.raised, ha.fault⟩
  · refine content_of_sameAt (sameAt_sweep_of_counted hbase.counted hcounted hsame hneeded p)
      fun hnone => ?_
    exact get?_sweep_of_none
      (content_eq_none_iff.mp ((ha.content p hp).trans (content_eq_none_iff.mpr hnone)))
  · obtain ⟨x, hx⟩ := id hl
    obtain ⟨y, hy, -⟩ := sweep_get? b.heap claims hx
    obtain ⟨hraised, message, hcontent⟩ := ha.new p hp ⟨y, hy⟩
    exact ⟨hraised, message, (content_sweep_of_live hl).trans hcontent⟩
  · exact sweep_get?_of_immortal b.heap claims (ha.immortal p x hx hm) hm

end Bridge

/-! ## Why calls unwind -/

/-- What is on its way to a trap, with the message of an exception in the place of its object. -/
inductive Complaint where
  | raised (message : Option String)
  | fault (message : String)
  | dangling (o : ObjId)
  | endless
  deriving DecidableEq, Repr

/-- What is on its way, as the heap tells it. -/
def Unwind.complaint (h : Heap) : Unwind → Complaint
  | .raised _ err => .raised ((h.content err).bind fun x => x.2.err?)
  | .fault message => .fault message
  | .dangling o => .dangling o
  | .endless => .endless

theorem Unwind.complaint_new (h : Heap) (via : Hooks) (message : String) :
    (Unwind.raised via h.next).complaint (h.add ⟨.err, 1, .err message⟩) = .raised
      (some message) := by
  have hnew : (h.add ⟨.err, 1, .err message⟩).get? h.next = some ⟨.err, 1, .err message⟩ :=
    (get?_add h _ _).trans (if_pos rfl)
  rw [Unwind.complaint, content_of_get? hnew]
  rfl

/-- Giving back claims on the way does not change the complaint. -/
theorem Bridge.Unwound.complaint_swept {b : Bridge} {u : Unwind} {host : Multiset ObjId}
    {claims : List ObjId} (hw : b.Unwound u (claims + host)) (hu : b.Bounded) :
    u.complaint (b.swept claims).heap = u.complaint b.heap := by
  cases u with
  | raised via err =>
    have hlive : (b.swept claims).heap.Live err := hw.swept.books.live (by simp [Unwind.claims]) hu
    have hcontent : (b.swept claims).heap.content err = b.heap.content err :=
      content_sweep_of_live hlive
    rw [Unwind.complaint, Unwind.complaint, hcontent]
  | fault message => rfl
  | dangling o => rfl
  | endless => rfl

/-! ## Calls that read -/

theorem ends_trivial {σ α : Type} (r : ExceptT Unwind (StateM σ) α) (s : σ) :
    Ends r s (fun _ _ => True) (fun _ _ => True) := by
  unfold Ends
  split <;> trivial

section Rules

variable {α β : Type} {base : Bridge} {B B' t K : Multiset ObjId} {r : Run α} {f : α → Run β}
  {g : α → Multiset ObjId} {k : β → Multiset ObjId} {e : Option α} {e' : α → Option β}
  {claims : List ObjId} {E E' : Complaint → Prop}

/-- A call that borrows `B`, takes `t` and gives `g`, and reads `e` off a state in which `base` is
unchanged.  If it unwinds, the objects of `base` are kept, and `E` holds of its complaint. -/
structure Reads (base : Bridge) (B t : Multiset ObjId) (r : Run α) (g : α → Multiset ObjId)
    (e : Option α) (E : Complaint → Prop) : Prop where
  transfers : Transfers B t r g
  reads : ∀ b F, B ⊆ F → b.Books (t + F) → b.Bounded → base.Unchanged b →
    Ends r b (fun a b' => b'.Bounded → base.Unchanged b' ∧ e = some a)
      (fun u b' => b'.Bounded → e = none ∧ base.Aborted b' u ∧ E (u.complaint b'.heap))

namespace Reads

theorem pure (a : α) (ht : t = g a) : Reads base B t (pure a) g (some a) E :=
  ⟨.pure a ht, fun _ _ _ _ _ hun _ => ⟨hun, rfl⟩⟩

theorem imp (hr : Reads base B t r g e E) (hE : ∀ c, E c → E' c) : Reads base B t r g e E' := by
  refine ⟨hr.transfers, fun b F hB hb hu hun => ?_⟩
  refine (hr.reads b F hB hb hu hun).mono (fun _ _ h => h) (fun u b' h hu' => ?_)
  obtain ⟨hnone, hkept, hwhy⟩ := h hu'
  exact ⟨hnone, hkept, hE _ hwhy⟩

theorem bind (hr : Reads base B t r g e E)
    (hf : ∀ a, Reads base B (g a) (f a) k (e' a) fun c => e = some a → E c) :
    Reads base B t (r >>= f) k (e.bind e') E := by
  refine ⟨hr.transfers.bind fun a => (hf a).transfers, fun b F hB hb hu hun => ?_⟩
  rw [ends_bind]
  refine ((hr.reads b F hB hb hu hun).and (hr.transfers b F hB hb)).mono (fun a b' h => ?_)
    (fun u b' h hu' => ?_)
  · obtain ⟨hread, hbooks⟩ := h
    by_cases hu' : b'.Bounded
    · obtain ⟨hun', he⟩ := hread hu'
      rw [he, Option.bind_some]
      exact ((hf a).imp fun _ hE => hE he).reads b' F hB hbooks hu' hun'
    · have hover := (hf a).transfers.overrun (hbooks.overrun hu')
      exact hover.mono (fun _ _ ho hu => absurd hu ho.unbounded)
        (fun _ _ ho hu => absurd hu ho.unbounded)
  · obtain ⟨hnone, hkept⟩ := h.1 hu'
    rw [hnone, Option.bind_none]
    exact ⟨rfl, hkept⟩

theorem map (hr : Reads base B t r g e E) (φ : α → β) (hk : ∀ a, g a = k (φ a)) :
    Reads base B t (do return φ (← r)) k (e.map φ) E := by
  rw [Option.map_eq_bind]
  exact hr.bind fun a => .pure (φ a) (hk a)

theorem ite {p : Prop} [Decidable p] {r' : Run α} {e₂ : Option α} (hr : p → Reads base B t r g e E)
    (hr' : ¬ p → Reads base B t r' g e₂ E) :
    Reads base B t (if p then r else r') g (if p then e else e₂) E := by
  by_cases hp : p
  · rw [if_pos hp, if_pos hp]
    exact hr hp
  · rw [if_neg hp, if_neg hp]
    exact hr' hp

variable {B₀ : Multiset ObjId}

/-- What a call that unwinds has kept is kept when its claims are given back. -/
theorem ends_release_aborted (hbase : base.Sound B₀) (hB₀ : B₀ ⊆ B) {b : Bridge} {u : Unwind}
    {F : Multiset ObjId} (hB : B ⊆ F) (hw : b.Unwound u (claims + F)) {P : Prop}
    (h : b.Bounded → P ∧ base.Aborted b u ∧ E (u.complaint b.heap)) :
    Ends (releaseAll claims) b
      (fun _ b' => b'.Bounded → P ∧ base.Aborted b' u ∧ E (u.complaint b'.heap))
      (fun _ b' => ¬ b'.Bounded) := by
  have hb := hw.books
  rw [← add_assoc, add_comm u.claims, add_assoc] at hb
  refine ends_releaseAll hb (fun _ hu => ?_) (fun _ _ ho => ho.unbounded)
  obtain ⟨hP, hkept, hwhy⟩ := h hu
  have hneeded : B₀ ⊆ u.claims + F :=
    Multiset.Subset.trans hB₀ (Multiset.Subset.trans hB (subset_add_right _ _))
  exact ⟨hP, hkept.swept hbase hneeded (hb.sound hu), (hw.complaint_swept hu).symm ▸ hwhy⟩

/-- A call reads past claims that are given back if it unwinds. -/
theorem guard (hbase : base.Sound B₀) (hB₀ : B₀ ⊆ B) (claims : List ObjId)
    (hr : Reads base B 0 r g e E) :
    Reads base B claims (onUnwind (releaseAll claims) r) (fun a => claims + g a) e E := by
  refine ⟨hr.transfers.guard claims, fun b F hB hb hu hun => ?_⟩
  have hsub : B ⊆ claims + F := Multiset.Subset.trans hB (subset_add_right _ _)
  rw [← zero_add (_ + F)] at hb
  rw [ends_onUnwind]
  refine ((hr.reads b _ hsub hb hu hun).and (hr.transfers b _ hsub hb)).mono (fun a b' h => h.1)
    (fun u b' h => ?_)
  exact (ends_release_aborted hbase hB₀ hB h.2 h.1).mono (fun _ _ h => h)
    (fun _ _ ho hu' => absurd hu' ho)

/-- Claims are given back that `base` does not need. -/
theorem release (hbase : base.Sound B₀) (hB₀ : B₀ ⊆ B) (claims : List ObjId) :
    Reads base B (claims + K) (releaseAll claims) (fun _ => K) (some ()) E := by
  have hrelease := ((releaseAll_succeeds claims).frame K (Multiset.zero_subset (K + B))).transfers
  refine ⟨hrelease.cast (add_comm _ _) fun _ => add_zero K, fun b F hB hb hu hun => ?_⟩
  rw [add_assoc] at hb
  rw [ends_releaseAll_sound (hb.sound hu)]
  intro _
  have hkept : B₀ ⊆ K + F :=
    Multiset.Subset.trans hB₀ (Multiset.Subset.trans hB (subset_add_right _ _))
  exact ⟨hun.swept hbase hkept (hb.sound hu), rfl⟩

/-- A call reads with claims that are lent to it. -/
theorem lend (hbase : base.Sound B₀) (hB₀ : B₀ ⊆ B) (claims : List ObjId)
    (hr : Reads base (claims + B) 0 r g e E) : Reads base B claims (withClaims claims r) g e E := by
  refine ⟨hr.transfers.lend claims, fun b F hB hb hu hun => ?_⟩
  rw [← zero_add (_ + F)] at hb
  have hsub : claims + B ⊆ claims + F := add_subset_add hB
  rw [ends_withClaims]
  refine ((hr.reads b _ hsub hb hu hun).and (hr.transfers b _ hsub hb)).mono (fun a b' h => ?_)
    (fun u b' h => ?_)
  · obtain ⟨hread, hbooks⟩ := h
    have hcomm : g a + ((claims : Multiset ObjId) + F) = claims + g a + F := by abel
    rw [hcomm] at hbooks
    by_cases hu' : b'.Bounded
    · obtain ⟨hun', he⟩ := hread hu'
      have hrelease : Reads base B (claims + g a) (releaseAll claims) (fun _ => g a) (some ()) E :=
        release hbase hB₀ claims
      refine (hrelease.reads b' F hB hbooks hu' hun').mono (fun _ b'' h hu'' => ⟨(h hu'').1, he⟩)
        (fun _ b'' h hu'' => ?_)
      cases (h hu'').1
    · have hover := (releaseAll_succeeds claims).transfers.overrun (hbooks.overrun hu')
      exact hover.mono (fun _ _ ho hu => absurd hu ho.unbounded)
        (fun _ _ ho hu => absurd hu ho.unbounded)
  · exact (ends_release_aborted hbase hB₀ hB h.2 h.1).mono (fun _ _ h => h)
      (fun _ _ ho hu' => absurd hu' ho)

end Reads

end Rules

/-! ## Reading single objects -/

section Objects

variable {α : Type} {base b : Bridge} {B B₀ : Multiset ObjId} {o : ObjId} {x : Obj} {c : Class}
  {view : Payload → Option α} {bad : Unwind → Bridge → Prop} {E : Complaint → Prop}

/-- What looking into an object complains about: an object of the class carries something else, or
it is of another class. -/
def Content.complaint (c : Class) (x : Content) : String :=
  if x.1.isSubclassOf c then s!"{x.1.name} object has an incompatible layout for {c.name}"
  else s!"Not a {c.name}: got {x.1.name}"

/-- Looking into an object that is known gives what it carries, and raises if that is of another
class or layout. -/
theorem ends_certify_told (hh : b.hooks = some .bridge) (hx : b.heap.get? o = some x)
    {ok : α → Bridge → Prop}
    (hok : ∀ a, Content.certified c view (x.cls, x.payload) = some a → ok a b)
    (hbad : Content.certified c view (x.cls, x.payload) = none → ∀ journal,
      bad (.raised .bridge b.heap.next)
        { b with
          heap := b.heap.add ⟨.err, 1, .err (Content.complaint c (x.cls, x.payload))⟩
          journal := journal }) :
    Ends (certify o c view) b ok bad := by
  unfold certify
  rw [ends_bind, ends_readObj_known hx]
  unfold Content.certified at hok hbad
  unfold Content.complaint at hbad
  cases hc : x.cls.isSubclassOf c with
  | false =>
    have hother : ¬ x.cls.isSubclassOf c = true := by simp [hc]
    rw [if_neg hother, if_neg hother] at hbad
    rw [if_neg (by simp), ends_raise hh]
    exact hbad rfl _
  | true =>
    rw [if_pos hc] at hok
    rw [if_pos hc, if_pos hc] at hbad
    rw [if_pos rfl]
    cases hv : view x.payload with
    | none =>
      rw [ends_raise hh]
      exact hbad hv _
    | some a => exact hok a hv

theorem ends_certify_content (hh : b.hooks = some .bridge) (hx : b.heap.get? o = some x)
    {ok : α → Bridge → Prop}
    (hok : ∀ a, Content.certified c view (x.cls, x.payload) = some a → ok a b)
    (hbad : Content.certified c view (x.cls, x.payload) = none → ∀ message journal,
      bad (.raised .bridge b.heap.next)
        { b with heap := b.heap.add ⟨.err, 1, .err message⟩, journal := journal }) :
    Ends (certify o c view) b ok bad :=
  ends_certify_told hh hx hok fun hnone journal => hbad hnone _ journal

/-- A claimed object is the same as in the state that is read. -/
theorem Bridge.Unchanged.known {F : Multiset ObjId} (hun : base.Unchanged b) (hb : b.Books F)
    (ho : o ∈ F) (hu : b.Bounded) :
    ∃ x, b.heap.get? o = some x ∧ base.heap.content o = some (x.cls, x.payload) := by
  obtain ⟨x, hx⟩ := hb.live ho hu
  exact ⟨x, hx, (congrFun hun.content o).symm.trans (content_of_get? hx)⟩

/-- An exception that says why an object could not be looked into. -/
theorem Bridge.Unchanged.complains (hun : base.Unchanged b) {y : Content}
    (hE : E (.raised (some (Content.complaint c y)))) (journal : Array Entry) :
    base.Aborted
      { b with heap := b.heap.add ⟨.err, 1, .err (Content.complaint c y)⟩, journal := journal }
        (.raised .bridge b.heap.next) ∧
      E ((Unwind.raised .bridge b.heap.next).complaint
        (b.heap.add ⟨.err, 1, .err (Content.complaint c y)⟩)) :=
  ⟨hun.raised _ journal, by rwa [Unwind.complaint_new]⟩

theorem certify_reads (base : Bridge) (ho : o ∈ B) (c : Class) (view : Payload → Option α)
    (hE : ∀ y, base.heap.content o = some y → y.certified c view = none →
      E (.raised (some (y.complaint c)))) :
    Reads base B 0 (certify o c view) (fun _ => 0)
      ((base.heap.content o).bind (Content.certified c view)) E := by
  refine ⟨(certify_transfers o c view).weaken (Multiset.singleton_subset.mpr ho),
    fun b F hB hb hu hun => ?_⟩
  rw [zero_add] at hb
  obtain ⟨x, hx, hcontent⟩ := hun.known hb (hB ho) hu
  rw [hcontent, Option.bind_some]
  exact ends_certify_told hb.hooks hx (fun a ha _ => ⟨hun, ha⟩)
    (fun hnone journal _ => ⟨hnone, hun.complains (hE _ hcontent hnone) journal⟩)

/-- Live objects are claimed in turn. -/
theorem ends_forM_retain_known {claims : List ObjId} (hl : ∀ p ∈ claims, b.heap.Live p)
    {ok : Unit → Bridge → Prop} :
    Ends (claims.forM retain) b ok bad ↔
      ok () (b.grown (b.heap.retainAll claims) (b.heap.claimPeak b.ledger.peak claims)) := by
  induction claims generalizing b with
  | nil => exact Iff.rfl
  | cons p rest ih =>
    obtain ⟨x, hx⟩ := hl p List.mem_cons_self
    have hrest : ∀ q ∈ rest, (b.heap.retain p).Live q := by
      intro q hq
      obtain ⟨y, hy⟩ := hl q (List.mem_cons_of_mem p hq)
      obtain ⟨z, hz, -⟩ := sameAt_retain p y hy
      exact ⟨z, hz⟩
    change Ends (retain p >>= fun _ => rest.forM retain) b _ _ ↔ _
    rw [ends_bind, ends_retain_known hx, ih (by exact hrest), Heap.claimPeak, hx]
    exact Iff.rfl

theorem elements_reads (base : Bridge) (ho : o ∈ B)
    (hE : ∀ y, base.heap.content o = some y → y.certified .vector Payload.vector? = none →
      E (.raised (some (y.complaint .vector)))) :
    Reads base B 0 (VectorObj.elements o) (fun es => es.filterMap id)
      ((base.heap.content o).bind (Content.certified .vector Payload.vector?)) E := by
  refine ⟨(VectorObj.elements_transfers o).weaken (Multiset.singleton_subset.mpr ho),
    fun b F hB hb hu hun => ?_⟩
  rw [zero_add] at hb
  obtain ⟨x, hx, hcontent⟩ := hun.known hb (hB ho) hu
  rw [hcontent, Option.bind_some]
  unfold VectorObj.elements VectorObj.slots
  rw [ends_bind]
  refine ends_certify_told hb.hooks hx (fun elems helems => ?_)
    (fun hnone journal _ => ⟨hnone, hun.complains (hE _ hcontent hnone) journal⟩)
  rw [ends_bind]
  refine (ends_forM_retain_known fun p hp => ?_).mpr fun _ => ⟨hun.retainAll _ _, helems⟩
  have hpayload : x.payload = .vector elems := Payload.eq_vector (Content.of_certified helems)
  refine hb.live_inside hx ?_ hu
  rw [hpayload]
  exact hp

theorem entries_reads (base : Bridge) (ho : o ∈ B)
    (hE : ∀ y, base.heap.content o = some y → y.certified .hash Payload.hash? = none →
      E (.raised (some (y.complaint .hash)))) :
    Reads base B 0 (HashObj.entries o) (fun es => (es.flatMap HashEntry.claims : List ObjId))
      (((base.heap.content o).bind (Content.certified .hash Payload.hash?)).map fun inside =>
        base.order.arrange inside.entries) E := by
  refine ⟨(HashObj.entries_transfers o).weaken (Multiset.singleton_subset.mpr ho),
    fun b F hB hb hu hun => ?_⟩
  rw [zero_add] at hb
  obtain ⟨x, hx, hcontent⟩ := hun.known hb (hB ho) hu
  rw [hcontent, Option.bind_some]
  unfold HashObj.entries HashObj.buckets
  rw [ends_bind]
  refine ends_certify_told hb.hooks hx (fun inside hinside => ?_)
    (fun hnone journal _ => ⟨by rw [hnone]; rfl, hun.complains (hE _ hcontent hnone) journal⟩)
  rw [ends_bind, ends_get, ends_bind]
  refine (ends_forM_retain_known fun p hp => ?_).mpr fun _ =>
    ⟨hun.retainAll _ _, by rw [hinside, hun.order]; rfl⟩
  obtain ⟨e, he, hpe⟩ := List.mem_flatMap.mp hp
  exact HashObj.live_of_mem_entries hb hx (Payload.eq_hash (Content.of_certified hinside))
    (EntryOrder.mem_arrange.mp he) hpe hu

theorem share_reads (base : Bridge) (ho : o ∈ B) :
    Reads base B 0 (share o) (fun p => {p}) (some o) E := by
  refine ⟨(share_succeeds o).transfers.weaken (Multiset.singleton_subset.mpr ho),
    fun b F hB hb hu hun => ?_⟩
  rw [zero_add] at hb
  obtain ⟨x, hx⟩ := hb.live (hB ho) hu
  exact (ends_share_known hb.started hx).mpr fun _ => ⟨hun.retainAll [o] _, rfl⟩

theorem ends_wrapperFor? {b : Bridge} (c : Class) {ok : Option Wrapper → Bridge → Prop}
    {bad : Unwind → Bridge → Prop} : Ends (wrapperFor? c) b ok bad ↔ ok (b.wrapperOf c) b := Iff.rfl

theorem dispatch_reads (hbase : base.Sound B₀) (hB₀ : B₀ ⊆ B) (o : ObjId)
    (hE : ∀ y, base.heap.content o = some y → base.wrapperOf y.1 = none →
      E (.fault (lookupMessage y.1))) :
    Reads base B {o} (dispatch o) (fun h => {h.obj})
      ((base.heap.content o).bind fun x => (base.wrapperOf x.1).map fun w => ⟨w, o⟩) E := by
  refine ⟨(dispatch_transfers o).weaken (Multiset.zero_subset B), fun b F hB hb hu hun => ?_⟩
  obtain ⟨x, hx, hcontent⟩ := hun.known (o := o) hb (by simp) hu
  have hwrapper : b.wrapperOf x.cls = base.wrapperOf x.cls := by
    unfold Bridge.wrapperOf
    rw [hun.wrappers]
  rw [hcontent, Option.bind_some, ← hwrapper]
  have hwhy : b.wrapperOf x.cls = none → E (.fault (lookupMessage x.cls)) := fun hnone =>
    hE _ hcontent (hwrapper ▸ hnone)
  unfold dispatch classOf
  rw [ends_bind, ends_start hb.started, ends_bind, ends_bind, ends_readObj_known hx, ends_pure,
    ends_bind, ends_wrapperFor?]
  cases hw : b.wrapperOf x.cls with
  | some w => exact fun _ => ⟨hun, rfl⟩
  | none =>
    rw [ends_bind, ends_log, ends_bind]
    have hs : { b with journal := b.journal.push (.log .error (lookupMessage x.cls)) }.Sound
      (([o] : List ObjId) + F) :=
      (hb.journal _).sound hu
    rw [ends_releaseAll_sound hs, ends_fault]
    have hun' :
        base.Unchanged { b with journal := b.journal.push (.log .error (lookupMessage x.cls)) } :=
      ⟨hun.content, hun.order, hun.wrappers, hun.lost, hun.used, hun.immortal⟩
    refine fun _ =>
      ⟨rfl, (hun'.swept hbase (Multiset.Subset.trans hB₀ hB) hs).aborted nofun ?_, hwhy hw⟩
    intro message heq
    exact ⟨x.cls, (Unwind.fault.inj heq).symm⟩

end Objects

/-! ## Reading lists of objects -/

section Lists

variable {α : Type} {base : Bridge} {B B₀ : Multiset ObjId} {E : Complaint → Prop}

theorem convertAll_reads (hbase : base.Sound B₀) (hB₀ : B₀ ⊆ B) {f : α → Run Value}
    {e : α → Option Value} (xs : List α)
    (hf : ∀ x ∈ xs, Reads base B 0 (f x) (fun v => v.claims) (e x) E) :
    Reads base B 0 (convertAll f xs) (fun vs => Value.claimsOfItems vs) (xs.mapM e) E := by
  induction xs with
  | nil => exact .pure [] rfl
  | cons x rest ih =>
    have hrest := ih fun y hy => hf y (List.mem_cons_of_mem x hy)
    rw [List.mapM_cons]
    unfold convertAll
    refine (hf x List.mem_cons_self).bind fun v => ?_
    refine ((hrest.guard hbase hB₀ v.claims).imp fun _ hE _ => hE).bind fun vs => .pure _ ?_
    exact Multiset.coe_add _ _

theorem Value.claims_replaced (key : String) (v : Value) (done : List (String × Value)) :
    (Value.claimsOfEntries done : Multiset ObjId) + v.claims =
      (((Assoc.find? key done).map Value.claims).getD [] : List ObjId) +
        Value.claimsOfEntries (Assoc.insert key v done) := by
  rw [Value.claimsOfEntries_eq, Value.claimsOfEntries_eq,
    ← Assoc.claims_insert Value.claims key v done, add_comm]

/-- Entries are bound in the order in which they are read; the claims of a value that is replaced
are given back. -/
theorem convertEntries_reads (hbase : base.Sound B₀) (hB₀ : B₀ ⊆ B) {f : α → Run (String × Value)}
    {e : α → Option (String × Value)} (xs : List α) (done : List (String × Value))
    (hf : ∀ x ∈ xs, Reads base B 0 (f x) (fun y => y.2.claims) (e x) E) :
    Reads base B (Value.claimsOfEntries done)
      (convertEntries f xs done) (fun es => Value.claimsOfEntries es)
      ((xs.mapM e).map fun pairs => Assoc.insertAll pairs done) E := by
  induction xs generalizing done with
  | nil => exact .pure done rfl
  | cons x rest ih =>
    have hrest := fun done => ih done fun y hy => hf y (List.mem_cons_of_mem x hy)
    have hexpected : ((x :: rest).mapM e).map (fun pairs => Assoc.insertAll pairs done) =
        (e x).bind fun y => (some ()).bind fun _ =>
          (rest.mapM e).map fun pairs => Assoc.insertAll pairs (Assoc.insert y.1 y.2 done) := by
      rw [List.mapM_cons]
      cases e x with
      | none => rfl
      | some y =>
        cases rest.mapM e with
        | none => rfl
        | some ys => rfl
    rw [hexpected]
    unfold convertEntries
    refine ((hf x List.mem_cons_self).guard hbase hB₀ (Value.claimsOfEntries done)).bind fun y => ?_
    obtain ⟨key, v⟩ := y
    dsimp only
    rw [Value.claims_replaced]
    exact (Reads.release hbase hB₀ _).bind fun _ => (hrest _).imp fun _ hE _ _ => hE

end Lists

/-! ## Reading objects -/

/-- A chain of `n` steps leads from the object through what objects hold. -/
def Heap.Chain (h : Heap) : Nat → Option ObjId → Prop
  | _, none => False
  | 0, some _ => True
  | n + 1, some o => ∃ p, h.Holds o p ∧ h.Chain n (some p)

/-- Why an object cannot be read through `depth` levels of containers. -/
inductive Bridge.Blames (b : Bridge) : Nat → ObjId → Complaint → Prop
  /-- there are more levels -/
  | endless (o : ObjId) : Blames b 0 o .endless
  /-- an object that is copied carries something else -/
  | layout {depth : Nat} {o : ObjId} {x : Content} (k : CopyKind) (hx : b.heap.content o = some x)
    (hc : x.1.isSubclassOf k.cls = true) (hq : k.shows x.2 = false) :
    Blames b (depth + 1) o (.raised (some (x.complaint k.cls)))
  /-- an object that is wrapped is of a class without a wrapper -/
  | wrapper {depth : Nat} {o : ObjId} {x : Content} (hx : b.heap.content o = some x)
    (hc : ∀ k : CopyKind, x.1.isSubclassOf k.cls = false) (hw : b.wrapperOf x.1 = none) :
    Blames b (depth + 1) o (.fault (lookupMessage x.1))
  /-- a hash has a key that is no string -/
  | key {depth : Nat} {o : ObjId} {x y : Content} {inside : Buckets} {e : HashEntry}
    (hx : b.heap.content o = some x) (hq : x.2 = .hash inside) (he : e ∈ inside.entries)
    (hy : b.heap.content e.key = some y) (hkey : y.certified .string Payload.string? = none) :
    Blames b (depth + 1) o (.raised (some (y.complaint .string)))
  | element {depth : Nat} {o p : ObjId} {x : Content} {elems : List (Option ObjId)} {c : Complaint}
    (hx : b.heap.content o = some x) (hc : x.1.isSubclassOf .vector = true)
    (hq : x.2 = .vector elems) (he : some p ∈ elems) (hp : Blames b depth p c) :
    Blames b (depth + 1) o c
  | value {depth : Nat} {o p : ObjId} {x : Content} {inside : Buckets} {e : HashEntry}
    {c : Complaint} (hx : b.heap.content o = some x) (hc : x.1.isSubclassOf .hash = true)
    (hq : x.2 = .hash inside) (he : e ∈ inside.entries) (hv : e.value = some p)
    (hp : Blames b depth p c) : Blames b (depth + 1) o c

section Objects

variable {base : Bridge} {B B₀ : Multiset ObjId} {o : ObjId} {x : Content} {E : Complaint → Prop}

theorem Heap.holds_of_content {h : Heap} {p : ObjId} (hx : h.content o = some x)
    (hp : p ∈ x.2.claims) :
    h.Holds o p := by
  obtain ⟨y, hy, rfl⟩ := Option.map_eq_some_iff.mp hx
  exact ⟨y, hy, hp⟩

/-- Levels do not suffice only where a chain is as long. -/
theorem Bridge.Blames.chain {depth : Nat} {c : Complaint} (hb : base.Blames depth o c)
    (hc : c = .endless) :
    base.heap.Chain depth (some o) := by
  induction hb with
  | endless o => trivial
  | layout | wrapper | key => cases hc
  | element hx _ hq he _ ih =>
    exact ⟨_, Heap.holds_of_content hx (hq ▸ Payload.mem_claims_vector.mpr he), ih hc⟩
  | value hx _ hq he hv _ ih =>
    exact ⟨_, Heap.holds_of_content hx (hq ▸ Payload.mem_claims_hash.mpr ⟨_, he, .inr hv⟩), ih hc⟩

/-- An object that is no container is copied. -/
theorem scalar_reads {α : Type} {c : Class} (ho : o ∈ B) (hx : base.heap.content o = some x)
    (hc : x.1.isSubclassOf c = true) (view : Payload → Option α) (φ : α → Value)
    (hφ : ∀ a, (φ a).claims = []) (hE : view x.2 = none → E (.raised (some (x.complaint c)))) :
    Reads base B 0 (do return φ (← certify o c view)) (fun v => v.claims) ((view x.2).map φ) E := by
  have hwhy : ∀ y, base.heap.content o = some y → y.certified c view = none →
      E (.raised (some (y.complaint c))) := by
    intro y hy hnone
    obtain rfl := Option.some.inj (hx.symm.trans hy)
    rw [Content.certified, if_pos hc] at hnone
    exact hE hnone
  have hcertify := (certify_reads base ho c view hwhy).map (k := fun v : Value => v.claims) φ
    fun a => by rw [hφ a]; rfl
  rw [hx, Option.bind_some, Content.certified, if_pos hc] at hcertify
  exact hcertify

/-- A vector is copied element by element. -/
theorem vector_reads (hbase : base.Sound B₀) (hB₀ : B₀ ⊆ B) (ho : o ∈ B)
    (hx : base.heap.content o = some x) (hc : x.1.isSubclassOf .vector = true)
    {inner : Option ObjId → Run Value} {e : Option ObjId → Option Value}
    {I : Option ObjId → Complaint → Prop}
    (hi : ∀ el (B' : Multiset ObjId), B ⊆ B' → (el.toList : Multiset ObjId) ⊆ B' →
      Reads base B' 0 (inner el) (fun v => v.claims) (e el) (I el))
    (hlayout : x.2.vector? = none → E (.raised (some (x.complaint .vector))))
    (hI : ∀ elems el c, x.2 = .vector elems → el ∈ elems → I el c → E c) :
    Reads base B 0 (do
      let elems ← VectorObj.elements o
      withClaims (elems.filterMap id) do return Value.seq (← convertAll inner elems))
        (fun v => v.claims)
      (x.2.vector?.bind fun elems => (elems.mapM e).map .seq) E := by
  have helements := elements_reads (E := E) base ho fun y hy hnone => by
    obtain rfl := Option.some.inj (hx.symm.trans hy)
    rw [Content.certified, if_pos hc] at hnone
    exact hlayout hnone
  rw [hx, Option.bind_some, Content.certified, if_pos hc] at helements
  refine helements.bind fun elems => Reads.lend hbase hB₀ _ ?_
  have hB₀' : B₀ ⊆ (elems.filterMap id : List ObjId) + B :=
    Multiset.Subset.trans hB₀ (subset_add_right _ _)
  refine (convertAll_reads hbase hB₀' elems fun el hel => ?_).map Value.seq fun _ => rfl
  refine (hi el _ (subset_add_right _ _) (toList_subset_filterMap hel)).imp
    fun c hinner helems => ?_
  exact hI elems el c (Payload.eq_vector helems) hel hinner

/-- A hash is copied entry by entry. -/
theorem hash_reads (hbase : base.Sound B₀) (hB₀ : B₀ ⊆ B) (ho : o ∈ B)
    (hx : base.heap.content o = some x) (hc : x.1.isSubclassOf .hash = true)
    {inner : Option ObjId → Run Value} {e : Option ObjId → Option Value}
    {I : Option ObjId → Complaint → Prop}
    (hi : ∀ el (B' : Multiset ObjId), B ⊆ B' → (el.toList : Multiset ObjId) ⊆ B' →
      Reads base B' 0 (inner el) (fun v => v.claims) (e el) (I el))
    (hlayout : x.2.hash? = none → E (.raised (some (x.complaint .hash))))
    (hkey : ∀ inside, ∀ d ∈ inside.entries, x.2 = .hash inside →
      ∀ y, base.heap.content d.key = some y →
      y.certified .string Payload.string? = none → E (.raised (some (y.complaint .string))))
    (hI : ∀ inside, ∀ d ∈ inside.entries, x.2 = .hash inside → ∀ c, I d.value c → E c) :
    Reads base B 0 (do
      let entries ← HashObj.entries o
      withClaims (entries.flatMap HashEntry.claims) do
        let convert (d : HashEntry) : Run (String × Value) := do
          let key ← StringObj.text d.key
          return (key, ← inner d.value)
        return Value.map (← convertEntries convert entries [])) (fun v => v.claims)
      (x.2.hash?.bind fun inside =>
        ((base.order.arrange inside.entries).mapM (readEntry base.heap.content e)).map fun pairs =>
          .map (Assoc.insertAll pairs [])) E := by
  have hentries := entries_reads (E := E) base ho fun y hy hnone => by
    obtain rfl := Option.some.inj (hx.symm.trans hy)
    rw [Content.certified, if_pos hc] at hnone
    exact hlayout hnone
  rw [hx, Option.bind_some, Content.certified, if_pos hc] at hentries
  have hexpected : (x.2.hash?.bind fun inside =>
        ((base.order.arrange inside.entries).mapM (readEntry base.heap.content e)).map fun pairs =>
          Value.map (Assoc.insertAll pairs [])) =
      (x.2.hash?.map fun inside => base.order.arrange inside.entries).bind fun entries =>
        (entries.mapM (readEntry base.heap.content e)).map fun pairs =>
          Value.map (Assoc.insertAll pairs []) := by
    cases x.2.hash? <;> rfl
  rw [hexpected]
  refine hentries.bind fun entries => Reads.lend hbase hB₀ _ ?_
  have hone : ∀ d ∈ entries, Reads base ((entries.flatMap HashEntry.claims : List ObjId) + B) 0
      (do
        let key ← StringObj.text d.key
        return (key, ← inner d.value))
          (fun y : String × Value => y.2.claims) (readEntry base.heap.content e d)
      (fun c => (x.2.hash?.map fun inside => base.order.arrange inside.entries) = some entries →
        E c) := by
    intro d hd
    have hsub : (d.claims : Multiset ObjId) ⊆ (entries.flatMap HashEntry.claims : List ObjId) + B :=
      claims_subset_flatMap hd
    have hinside : (x.2.hash?.map fun inside => base.order.arrange inside.entries) = some entries →
        ∃ inside, x.2 = .hash inside ∧ d ∈ inside.entries := by
      intro heq
      obtain ⟨inside, hinside, rfl⟩ := Option.map_eq_some_iff.mp heq
      exact ⟨inside, Payload.eq_hash hinside, EntryOrder.mem_arrange.mp hd⟩
    refine (certify_reads base (hsub List.mem_cons_self) .string Payload.string?
      fun y hy hnone heq => ?_).bind
      fun key => ?_
    · obtain ⟨inside, hq, hmem⟩ := hinside heq
      exact hkey inside d hmem hq y hy hnone
    · have hvalue :=
        hi d.value _ (subset_add_right _ B) fun p hp => hsub (List.mem_cons_of_mem _ hp)
      refine (hvalue.map (fun v => (key, v)) fun _ => rfl).imp fun c hinner _ heq => ?_
      obtain ⟨inside, hq, hmem⟩ := hinside heq
      exact hI inside d hmem hq c hinner
  have hall :=
    convertEntries_reads hbase (Multiset.Subset.trans hB₀ (subset_add_right _ _)) entries [] hone
  have hmap := hall.map (k := fun v : Value => v.claims) Value.map fun _ => rfl
  rw [Option.map_map] at hmap
  exact hmap

/-- Any other object is wrapped. -/
theorem wrapped_reads (hbase : base.Sound B₀) (hB₀ : B₀ ⊆ B) (ho : o ∈ B)
    (hx : base.heap.content o = some x)
    (hE : base.wrapperOf x.1 = none → E (.fault (lookupMessage x.1))) :
    Reads base B 0 (do return Value.object (← dispatch (← share o))) (fun v => v.claims)
      ((base.wrapperOf x.1).map fun w => .object ⟨w, o⟩) E := by
  have hdispatch : ∀ p, Reads base B {p} (do return Value.object (← dispatch p))
      (fun v => v.claims) _
      (fun c => some o = some p → E c) :=
    fun p => (dispatch_reads hbase hB₀ p fun y hy hnone heq => by
      obtain rfl := Option.some.inj heq
      obtain rfl := Option.some.inj (hx.symm.trans hy)
      exact hE hnone).map Value.object fun _ => rfl
  have hall := (share_reads base ho).bind hdispatch
  rw [Option.bind_some, hx, Option.bind_some, Option.map_map] at hall
  exact hall

theorem toHostWithin_reads (hbase : base.Sound B₀) (hB₀ : B₀ ⊆ B)
    (depth : Nat) (o : Option ObjId) (ho : (o.toList : Multiset ObjId) ⊆ B) :
    Reads base B 0 (toHostWithin depth o) (fun v => v.claims) (base.read depth o)
      (fun c => ∃ p ∈ o, base.Blames depth p c) := by
  induction depth generalizing o B with
  | zero =>
    cases o with
    | none => exact .pure _ rfl
    | some o =>
      refine ⟨(toHostWithin_transfers 0 (some o)).weaken ho, fun b F _ _ _ hun _ => ?_⟩
      exact ⟨rfl, hun.aborted nofun nofun, o, rfl, .endless o⟩
  | succ depth ih =>
    cases o with
    | none => exact .pure _ rfl
    | some o =>
      have hmem : o ∈ B := ho (List.mem_singleton_self o)
      refine ⟨(toHostWithin_transfers (depth + 1) (some o)).weaken ho, fun b F hB hb hu hun => ?_⟩
      obtain ⟨x, hx, hcontent⟩ := hun.known (o := o) (by simpa using hb) (hB hmem) hu
      have hinner : ∀ el (B' : Multiset ObjId), B ⊆ B' → (el.toList : Multiset ObjId) ⊆ B' →
          Reads base B' 0 (toHostWithin depth el) (fun v => v.claims) (base.read depth el)
            (fun c => ∃ p ∈ el, base.Blames depth p c) :=
        fun el B' hB' hel => ih (Multiset.Subset.trans hB₀ hB') el hel
      have hlayout (k : CopyKind) (hc : x.cls.isSubclassOf k.cls = true)
          (hq : k.shows x.payload = false) :
          ∃ p ∈ some o, base.Blames (depth + 1) p
          (.raised (some (Content.complaint k.cls (x.cls, x.payload)))) :=
        ⟨o, rfl, .layout k hcontent hc hq⟩
      unfold toHostWithin classOf
      rw [ends_bind, ends_bind, ends_readObj_known hx, ends_pure]
      unfold Bridge.read
      rw [readWithin_known hcontent]
      refine Reads.reads (g := fun v : Value => v.claims)
        (E := fun c => ∃ p ∈ some o, base.Blames (depth + 1) p c) ?_
        b F hB hb hu hun
      -- one case for each by-copy class, in the order in which they are asked for
      refine .ite (fun hc => scalar_reads hmem hcontent hc Payload.string? .text (fun _ => rfl)
        fun hq => hlayout .string hc (congrArg Option.isSome hq)) fun hstring => ?_
      refine .ite (fun hc => scalar_reads hmem hcontent hc Payload.blob? .bytes (fun _ => rfl)
        fun hq => hlayout .blob hc (congrArg Option.isSome hq)) fun hblob => ?_
      refine .ite (fun hc => scalar_reads hmem hcontent hc Payload.byteBuf? .bytes (fun _ => rfl)
        fun hq => hlayout .byteBuf hc (congrArg Option.isSome hq)) fun hbyteBuf => ?_
      refine .ite (fun hc => vector_reads hbase hB₀ hmem hcontent hc hinner
        (fun hq => hlayout .vector hc (congrArg Option.isSome hq)) ?_) fun hvector => ?_
      · rintro elems _ c hq hel ⟨p, rfl, hp⟩
        exact ⟨o, rfl, .element hcontent hc hq hel hp⟩
      refine .ite (fun hc => hash_reads hbase hB₀ hmem hcontent hc hinner
        (fun hq => hlayout .hash hc (congrArg Option.isSome hq))
        (fun inside d hd hq y hy hkey => ⟨o, rfl, .key hcontent hq hd hy hkey⟩) ?_) fun hhash => ?_
      · rintro inside d hd hq c ⟨p, hv, hp⟩
        exact ⟨o, rfl, .value hcontent hc hq hd hv hp⟩
      refine .ite (fun hc => scalar_reads hmem hcontent hc Payload.float? .float (fun _ => rfl)
        fun hq => hlayout .float hc (congrArg Option.isSome hq)) fun hfloat => ?_
      refine .ite (fun hc => scalar_reads hmem hcontent hc Payload.boolean? .bool (fun _ => rfl)
        fun hq => hlayout .boolean hc (congrArg Option.isSome hq)) fun hboolean => ?_
      refine .ite (fun hc => scalar_reads hmem hcontent hc Payload.integer? .int (fun _ => rfl)
        fun hq => hlayout .integer hc (congrArg Option.isSome hq)) fun hinteger => ?_
      refine wrapped_reads hbase hB₀ hmem hcontent fun hw =>
        ⟨o, rfl, .wrapper hcontent (fun k => ?_) hw⟩
      cases k <;> simp_all [CopyKind.cls]

/-- Converting an object that the host holds gives what can be read of it.  If it unwinds, the
objects are kept, and it says why. -/
theorem foreignToHost_blames {b : Bridge} {F : Multiset ObjId} (hb : b.Books F) (hu : b.Bounded)
    {o : Option ObjId} (ho : (o.toList : Multiset ObjId) ⊆ F) :
    Ends (foreignToHost o) b
      (fun v b' => b'.Bounded → b.Unchanged b' ∧ b.read b.heap.slots.length o = some v)
      (fun u b' => b'.Bounded → b.read b.heap.slots.length o = none ∧ b.Aborted b' u ∧
        ∃ p ∈ o, b.Blames b.heap.slots.length p (u.complaint b'.heap)) := by
  have hreads := toHostWithin_reads (hb.sound hu) (Multiset.Subset.refl F) b.heap.slots.length o ho
  exact hreads.reads b F (Multiset.Subset.refl F) (by rwa [zero_add]) hu (.refl b)

theorem foreignToHost_ends {b : Bridge} {F : Multiset ObjId} (hb : b.Books F) (hu : b.Bounded)
    {o : Option ObjId} (ho : (o.toList : Multiset ObjId) ⊆ F) :
    Ends (foreignToHost o) b
      (fun v b' => b'.Bounded → b.Unchanged b' ∧ b.read b.heap.slots.length o = some v)
      (fun u b' => b'.Bounded → b.read b.heap.slots.length o = none ∧ b.Aborted b' u ∧
        (u = .endless → b.heap.Chain b.heap.slots.length o)) := by
  refine (foreignToHost_blames hb hu ho).mono (fun _ _ h => h) (fun u b' h hu' => ?_)
  obtain ⟨hnone, hkept, p, rfl, hp⟩ := h hu'
  refine ⟨hnone, hkept, ?_⟩
  rintro rfl
  exact hp.chain rfl

theorem foreignToHost_reads {b : Bridge} {F : Multiset ObjId} (hb : b.Books F) (hu : b.Bounded)
    {o : Option ObjId} (ho : (o.toList : Multiset ObjId) ⊆ F) :
    Ends (foreignToHost o) b
      (fun v b' => b'.Bounded → b.Unchanged b' ∧ b.read b.heap.slots.length o = some v)
      (fun _ b' => b'.Bounded → b.read b.heap.slots.length o = none) :=
  (foreignToHost_ends hb hu ho).mono (fun _ _ h => h) (fun _ _ h hu' => (h hu').1)

end Objects

end ObjectBridge
