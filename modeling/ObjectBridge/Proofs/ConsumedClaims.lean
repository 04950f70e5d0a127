import ObjectBridge.Proofs.ReadingEffect

set_option autoImplicit false

/-!
# Claims that failing calls consume (SPEC §11.3, §11.4)

Putting a value into a container converts it first and hands the claim on its foreign form to the
container.  A call that fails because the container cannot grow so far gives that claim back, and
everything is as it was before.  A call that fails because the object is no such container does not:
what the conversion made stays, and nobody holds the claim on it.  Raising an object that is no
error object loses the claim on it in the same way.
-/

namespace ObjectBridge

/-! ## New exceptions -/

namespace Bridge

variable {b b' base : Bridge} {u : Unwind}

/-- A new exception is on its way, and all other objects are as they were. -/
structure Raised (b' b : Bridge) (u : Unwind) : Prop extends b'.Restored b u where
  raised : ∃ err message, u = .raised .bridge err ∧ ¬ b.heap.Used err ∧
    b'.heap.get? err = some ⟨.err, 1, .err message⟩

theorem raised_of_add {message : String} (hheap : b'.heap = b.heap.add ⟨.err, 1, .err message⟩) :
    b'.Raised b (.raised .bridge b.heap.next) := by
  refine ⟨⟨fun p hp => ?_, fun p y hp hy => ?_⟩, b.heap.next, message, rfl, Heap.not_used_next, ?_⟩
  · rw [hheap, Heap.get?_add, if_neg fun heq => Heap.not_used_next (heq ▸ hp)]
  · rw [hheap, Heap.get?_add] at hy
    split at hy
    · rename_i heq
      cases hy
      exact ⟨by rw [heq], message, rfl⟩
    · rw [Heap.get?_of_not_used hp] at hy
      cases hy
  · rw [hheap, Heap.get?_add, if_pos rfl]

/-- What was raised over a state was raised over any state with the same objects that has used no
more identities. -/
theorem Raised.rebase (hr : b'.Raised b u) (hget : ∀ p, b.heap.get? p = base.heap.get? p)
    (hused : ∀ p, base.heap.Used p → b.heap.Used p) : b'.Raised base u := by
  obtain ⟨err, message, rfl, hnew, herr⟩ := hr.raised
  refine ⟨⟨fun p hp => (hr.old p (hused p hp)).trans (hget p), fun p y hp hy => ?_⟩, err,
    message, rfl, fun hp => hnew (hused err hp), herr⟩
  refine hr.new p y (fun hp' => ?_) hy
  rw [hr.old p hp', hget, Heap.get?_of_not_used hp] at hy
  cases hy

end Bridge

/-- Whether an object is of a class, and its payload is one that the functions of the class can look
into. -/
def Obj.opensAs {α : Type} (x : Obj) (c : Class) (view : Payload → Option α) : Bool :=
  x.cls.isSubclassOf c && (view x.payload).isSome

theorem Obj.opensAs_eq {α : Type} (x : Obj) (c : Class) (view : Payload → Option α) :
    x.opensAs c view = (Content.certified c view (x.cls, x.payload)).isSome := by
  unfold opensAs Content.certified
  cases x.cls.isSubclassOf c <;> rfl

/-- Looking into an object with a claim in hand: it shows what it has, or the claim is lost. -/
theorem ends_losing_certify {α : Type} {b : Bridge} {o : ObjId} {x : Obj}
    (hh : b.hooks = some .bridge) (hx : b.heap.get? o = some x) (claims : List ObjId) (c : Class)
    (view : Payload → Option α) :
    Ends (losing claims (certify o c view)) b
      (fun a b' => b' = b ∧ view x.payload = some a ∧ x.opensAs c view = true)
      (fun u b' => x.opensAs c view = false ∧ b'.Raised b u ∧
        b'.ledger.lost = claims ++ b.ledger.lost) := by
  rw [ends_losing, x.opensAs_eq]
  refine ends_certify_content hh hx (fun a ha => ?_) (fun hnone message journal => ?_)
  · exact ⟨rfl, Content.of_certified ha, Option.isSome_of_eq_some ha⟩
  · exact ⟨by rw [hnone]; rfl, Bridge.raised_of_add rfl, rfl⟩

/-! ## Putting elements in -/

/-- A call that puts the foreign form of a value into a container. -/
inductive PutCall where
  /-- append it to a vector -/
  | push
  /-- put it into a vector at an index -/
  | store (tick : Nat)
  /-- bind a key of a hash to it -/
  | bind (key : String)
  deriving DecidableEq, Repr

namespace PutCall

/-- Make the call on the object `o`. -/
def run (c : PutCall) (o : ObjId) (v : Value) : Run (Except ConversionError Unit) :=
  match c with
  | push => VectorObj.pushValue o v
  | store tick => VectorObj.storeValue o tick v
  | bind key => HashObj.storeValue o key v

/-- What the call does once the value has been converted.  Consumes the claim on the element. -/
def put (c : PutCall) (o : ObjId) (elem : Option ObjId) : Run Unit :=
  match c with
  | push => VectorObj.push o elem
  | store tick => VectorObj.store o tick elem
  | bind key => HashObj.store o key elem

/-- Whether the call on the object `x` gives back the claim on its element if it fails: it does so
for indices that are out of reach, whatever the object is, and otherwise only after it has looked
into the object. -/
def releases (c : PutCall) (x : Obj) : Bool :=
  match c with
  | push => x.opensAs .vector Payload.vector?
  | store tick => decide (VectorObj.maxSize < tick + 1) || x.opensAs .vector Payload.vector?
  | bind _ => x.opensAs .hash Payload.hash?

variable {b : Bridge} {o : ObjId} {x : Obj} {host : Multiset ObjId} {elem : Option ObjId}

/-- The call converts the value and then puts it in. -/
theorem run_eq (c : PutCall) (o : ObjId) (v : Value) :
    c.run o v = do
      match ← hostToForeign v none true with
      | .ok elem => return .ok (← c.put o elem)
      | .error e => return .error e := by
  cases c <;> rfl

/-- How a call leaves a claim on an element that it had in the state `made` and could not put in:
given back, so that all objects are as in the state `old`, or lost, with all objects as in the state
`made`. -/
structure Fails (c : PutCall) (x : Obj) (elem : Option ObjId) (old made : Bridge) (u : Unwind)
    (b' : Bridge) :
    Prop where
  released : c.releases x = true → b'.Raised old u ∧ b'.ledger.lost = old.ledger.lost
  kept : c.releases x = false → b'.Raised made u ∧ b'.ledger.lost = elem.toList ++ old.ledger.lost

/-- An element that cannot be put in is given back. -/
theorem ends_overflow (hb : b.Books (elem.toList + host)) (hu : b.Bounded)
    {ok : Unit → Bridge → Prop} :
    Ends (VectorObj.overflow elem) b ok
      (fun u b' => b'.Raised (b.swept elem.toList) u ∧ b'.ledger.lost = b.ledger.lost) := by
  unfold VectorObj.overflow
  rw [ends_bind, ends_releaseAll_sound (hb.sound hu), ends_raise (by exact hb.hooks)]
  exact ⟨Bridge.raised_of_add rfl, rfl⟩

/-- Claims that the host holds are given back, and that does not fail. -/
theorem ends_releaseAll_done {claims : List ObjId} (hb : b.Books (claims + host)) (hu : b.Bounded)
    {bad : Unwind → Bridge → Prop} : Ends (releaseAll claims) b (fun _ _ => True) bad :=
  (ends_releaseAll_sound (hb.sound hu)).mpr trivial

theorem Fails.of_released {c : PutCall} {u : Unwind} {b' old : Bridge} (hc : c.releases x = true)
    (hr : b'.Raised old u ∧ b'.ledger.lost = old.ledger.lost) : c.Fails x elem old b u b' :=
  ⟨fun _ => hr, fun hc' => absurd (hc.symm.trans hc') (by simp)⟩

theorem Fails.of_kept {c : PutCall} {u : Unwind} {b' old : Bridge} (hc : c.releases x = false)
    (hr : b'.Raised b u ∧ b'.ledger.lost = elem.toList ++ old.ledger.lost) :
    c.Fails x elem old b u b' :=
  ⟨fun hc' => absurd (hc.symm.trans hc') (by simp), fun _ => hr⟩

theorem push_fails (hb : b.Books (elem.toList + host)) (hx : b.heap.get? o = some x) :
    Ends (VectorObj.push o elem) b (fun _ _ => True)
      (push.Fails x elem (b.swept elem.toList) b) := by
  unfold VectorObj.push VectorObj.slots
  rw [ends_bind]
  exact (ends_losing_certify hb.hooks hx _ _ _).mono (fun _ _ _ => trivial) fun _ _ h =>
    .of_kept h.1 h.2

theorem store_fails (tick : Nat) (hb : b.Books (elem.toList + host)) (hu : b.Bounded)
    (hx : b.heap.get? o = some x) :
    Ends (VectorObj.store o tick elem) b (fun _ _ => True)
      ((store tick).Fails x elem (b.swept elem.toList) b) := by
  unfold VectorObj.store VectorObj.slots
  split
  · rename_i hover
    exact (ends_overflow hb hu).mono (fun _ _ h => h) fun _ _ h =>
      .of_released (by simp [releases, hover]) h
  · rename_i hover
    rw [ends_bind]
    refine (ends_losing_certify hb.hooks hx _ _ _).mono ?_ fun _ _ h =>
      .of_kept (by simp [releases, hover, h.1]) h.2
    rintro elems _ ⟨rfl, hp, hopen⟩
    rw [ends_bind, ends_get]
    split
    · exact (ends_overflow hb hu).mono (fun _ _ h => h) fun _ _ h =>
        .of_released (by simp [releases, hopen]) h
    · rw [ends_bind, ends_setPayload]
      exact ends_releaseAll_done (VectorObj.books_store tick hb hx (Payload.eq_vector hp)) hu

theorem bind_fails (key : String) (hb : b.Books (elem.toList + host)) (hu : b.Bounded)
    (hx : b.heap.get? o = some x) :
    Ends (HashObj.store o key elem) b (fun _ _ => True)
      ((bind key).Fails x elem (b.swept elem.toList) b) := by
  unfold HashObj.store HashObj.buckets
  rw [ends_bind]
  refine (ends_losing_certify hb.hooks hx _ _ _).mono ?_ fun _ _ h => .of_kept h.1 h.2
  rintro inside _ ⟨rfl, hp, -⟩
  rw [ends_bind, ends_get]
  cases hf : HashObj.find? _ inside key with
  | some e =>
    rw [ends_bind, ends_setPayload]
    exact ends_releaseAll_done (HashObj.books_replace hb hx (Payload.eq_hash hp) hf) hu
  | none =>
    unfold StringObj.new
    rw [ends_bind, ends_makeObj (by rfl), ends_setPayload]
    trivial

theorem put_fails (c : PutCall) (hb : b.Books (elem.toList + host)) (hu : b.Bounded)
    (hx : b.heap.get? o = some x) :
    Ends (c.put o elem) b (fun _ _ => True) (c.Fails x elem (b.swept elem.toList) b) := by
  cases c with
  | push => exact push_fails hb hx
  | store tick => exact store_fails tick hb hu hx
  | bind key => exact bind_fails key hb hu hx

end PutCall

/-! ## Whole calls -/

namespace Bridge

variable {b : Bridge} {t : ObjId × ObjId} {v : Value} {host : Multiset ObjId}

/-- Giving back what a value was converted to restores all objects with their counts, also if that
is no object. -/
theorem get?_swept_root (hb : b.Books host) (hu : b.Bounded) (ht : b.truths = some t)
    (hv : v.WellFormed) (hheld : ∀ p ∈ v.claims, p ∈ host) (hroom : b.HasRoom v.claims)
    (p : ObjId) :
    ((b.built t v).swept (v.root t b.heap.slots.length).toList).heap.get? p = b.heap.get? p := by
  cases ho : v.root t b.heap.slots.length with
  | none =>
    have hnull : v = .null := by
      by_contra hne
      obtain ⟨o, ho'⟩ := Value.exists_root hne t b.heap.slots.length
      cases ho.symm.trans ho'
    subst hnull
    have hheap : (b.built t .null).heap = b.heap := by
      unfold Bridge.built
      rw [Value.forms, Heap.append_nil]
      rfl
    simp [swept, Heap.sweep, hheap]
  | some o =>
    have hs' := (hb.built hu ht hv hheld).sound (hu.built hroom)
    rw [ho] at hs'
    exact get?_swept_built (hb.sound hu) ht hheld hs' p

theorem used_swept_root {p : ObjId} (hp : b.heap.Used p) (claims : List ObjId) :
    ((b.built t v).swept claims).heap.Used p := by
  refine (Heap.used_sweep _ claims).mpr ?_
  unfold Heap.Used
  rw [length_built]
  exact Nat.lt_add_right _ hp

end Bridge

theorem PutCall.releases_congr (c : PutCall) {x y : Obj} (hcls : y.cls = x.cls)
    (hpay : y.payload = x.payload) :
    c.releases y = c.releases x := by
  cases c <;> simp only [releases, Obj.opensAs, hcls, hpay]

section Calls

variable {b : Bridge} {t : ObjId × ObjId} {v : Value} {host : Multiset ObjId} {o : ObjId} {x : Obj}

theorem PutCall.run_fails (c : PutCall) (hb : b.Books host) (hu : b.Bounded)
    (ht : b.truths = some t) (hx : b.heap.get? o = some x) (hv : v.WellFormed)
    (hheld : ∀ p ∈ v.claims, p ∈ host) (hroom : b.HasRoom v.claims) :
    Ends (c.run o v) b (fun r _ => r = .ok ())
      (c.Fails x (v.root t b.heap.slots.length) b (b.built t v)) := by
  rw [c.run_eq, ends_bind, ends_of_run_ok (Bridge.run_hostToForeign hb hu ht hv hheld), ends_bind]
  obtain ⟨y, hy, hcls, hpay⟩ := Bridge.sameAt_built o x hx
  refine (c.put_fails (hb.built hu ht hv hheld) (hu.built hroom) hy).mono (fun _ _ _ => rfl)
    fun u b' hfails => ?_
  have hsame := c.releases_congr hcls hpay
  refine ⟨fun hc => ?_, fun hc => hfails.kept (hsame.trans hc)⟩
  obtain ⟨hraised, hlost⟩ := hfails.released (hsame.trans hc)
  exact ⟨hraised.rebase (Bridge.get?_swept_root hb hu ht hv hheld hroom) fun p hp =>
    Bridge.used_swept_root hp _, hlost⟩

/-- Raising an object raises that object, or an exception about it, and then the claim on the object
is lost. -/
theorem throwErr_ends {α : Type} (hb : b.Books host) (hx : b.heap.get? o = some x) :
    Ends (throwErr o : Run α) b (fun _ _ => False) (fun u b' =>
      (x.opensAs .err Payload.err? = true → u = .raised .bridge o ∧ b'.heap = b.heap) ∧
      (x.opensAs .err Payload.err? = false → b'.Raised b u ∧
        b'.ledger.lost = o :: b.ledger.lost)) := by
  unfold throwErr ErrObj.throwObj ErrObj.message
  rw [ends_bind, ends_start hb.started, ends_bind]
  refine (ends_losing_certify hb.hooks hx _ _ _).mono ?_ fun u b' ⟨hc, hr⟩ => ?_
  · rintro message _ ⟨rfl, -, hc⟩
    unfold raiseWith
    rw [ends_bind, ends_get, hb.hooks]
    exact ⟨fun _ => ⟨rfl, rfl⟩, fun hc' => absurd (hc.symm.trans hc') (by simp)⟩
  · exact ⟨fun hc' => absurd (hc.symm.trans hc') (by simp), fun _ => hr⟩

end Calls

/-- A call that fails does so with a new exception.  If it releases the claim on its element then
nothing else is left of it; otherwise everything is as the conversion left it, and the claim on what
it answered, which would undo the conversion, is lost.  Raising an object raises that object, or
loses the claim on it if it is no error object. -/
theorem consumed_claims {α : Type} {b : Bridge} {host : Multiset ObjId} (hb : b.Books host)
    (hu : b.Bounded) {o : ObjId} {x : Obj} (hx : b.heap.get? o = some x) :
    (∀ (c : PutCall) (v : Value), v.WellFormed → (∀ p ∈ v.claims, p ∈ host) → b.HasRoom v.claims →
      ∃ elem b₁ b₂ result b', (hostToForeign v none true).run b = (.ok (.ok elem), b₁) ∧
        (releaseAll elem.toList).run b₁ = (.ok (), b₂) ∧ (∀ p, b₂.heap.get? p = b.heap.get? p) ∧
        (c.run o v).run b = (result, b') ∧ (∀ e, result ≠ .ok (.error e)) ∧
        ∀ u, result = .error u → c.Fails x elem b b₁ u b') ∧
    ∃ u b', (throwErr o : Run α).run b = (.error u, b') ∧
      (x.opensAs .err Payload.err? = true → u = .raised .bridge o ∧ b'.heap = b.heap) ∧
      (x.opensAs .err Payload.err? = false → b'.Raised b u ∧
        b'.ledger.lost = o :: b.ledger.lost) := by
  obtain ⟨t, ht⟩ := Option.isSome_iff_exists.mp hb.truths
  constructor
  · intro c v hwf hheld hroom
    have hs' := (hb.built hu ht hwf hheld).sound (hu.built hroom)
    have hback : Ends (releaseAll (v.root t b.heap.slots.length).toList) (b.built t v)
        (fun _ b₂ => ∀ p, b₂.heap.get? p = b.heap.get? p) (fun _ _ => False) :=
      (ends_releaseAll_sound hs').mpr (Bridge.get?_swept_root hb hu ht hwf hheld hroom)
    obtain ⟨_, b₂, hrun₂, hget⟩ := hback.returns
    have hends := c.run_fails hb hu ht hx hwf hheld hroom
    refine ⟨_, _, b₂, _, _, Bridge.run_hostToForeign hb hu ht hwf hheld, hrun₂, hget,
      rfl, fun e he => ?_, fun u hu => ?_⟩
    · cases hends.of_ok (Prod.ext he rfl)
    · exact hends.of_error (Prod.ext hu rfl)
  · exact (throwErr_ends hb hx).unwinds

/-- A class below the vectors whose objects carry a byte and no elements. -/
def oddVector : Class := .child ⟨⟨10⟩, "Odd", .none, Layout.byte.size⟩ .vector

/-- A bridge with an error object and such a vector, both held by the host. -/
def oddVectorBridge : Bridge :=
  { sharingBridge with heap := sharingBridge.heap.add ⟨oddVector, 1, .byte⟩ }

theorem oddVectorBridge_books : oddVectorBridge.Books (⟨3⟩ ::ₘ ⟨2⟩ ::ₘ 0) := by
  have herr := sharingBridge_books
  rw [← zero_add (_ ::ₘ _)] at herr
  exact herr.add (q := .byte) (c := oddVector) rfl

theorem oddVectorBridge_hasRoom : oddVectorBridge.HasRoom sharedValue.claims := by
  rintro ⟨i⟩ x hx -
  match i with
  | 0 | 1 | 2 | 3 =>
    obtain rfl := Option.some.inj hx
    decide +kernel
  | i + 4 => cases hx

/-- A claim that a failing call has consumed need not be given back: appending an error object to
the odd vector fails, and the error object has one claim more than before. -/
theorem failed_push_keeps_claim :
    oddVectorBridge.Books (⟨3⟩ ::ₘ ⟨2⟩ ::ₘ 0) ∧ oddVectorBridge.Bounded ∧
    ∃ b', (VectorObj.pushValue ⟨3⟩ (.object ⟨.errObj, ⟨2⟩⟩)).run oddVectorBridge =
        (.error (.raised .bridge ⟨4⟩), b') ∧ ¬ b'.Restored oddVectorBridge
          (.raised .bridge ⟨4⟩) := by
  have hr : ((VectorObj.pushValue ⟨3⟩ (.object ⟨.errObj, ⟨2⟩⟩)).run oddVectorBridge).1 =
      .error (.raised .bridge ⟨4⟩) := by decide +kernel
  refine ⟨oddVectorBridge_books, by decide, _, Prod.ext hr rfl, fun hrestored => ?_⟩
  exact absurd (hrestored.old ⟨2⟩ (by decide)) (by decide +kernel)

/-- Nothing is left of storing a sequence in the odd vector at an index out of reach.  If it is
appended, the vector that was made of it stays, and if the odd vector is raised as an exception then
the claim on it is lost. -/
theorem consumed_claims_of_odd_vector :
    (∃ b', ((PutCall.store (2 ^ 60)).run ⟨3⟩ sharedValue).run oddVectorBridge =
      (.error (.raised .bridge ⟨9⟩), b') ∧
      b'.Raised oddVectorBridge (.raised .bridge ⟨9⟩)) ∧
    (∃ b', (PutCall.push.run ⟨3⟩ sharedValue).run oddVectorBridge =
      (.error (.raised .bridge ⟨9⟩), b') ∧
      b'.ledger.lost = [⟨4⟩]) ∧
    ∃ b', (throwErr ⟨3⟩ : Run Unit).run oddVectorBridge = (.error (.raised .bridge ⟨4⟩), b') ∧
      b'.ledger.lost = [⟨3⟩] := by
  have hheld : ∀ p ∈ sharedValue.claims, p ∈ (⟨3⟩ ::ₘ ⟨2⟩ ::ₘ 0 : Multiset ObjId) := by
    decide +kernel
  obtain ⟨hput, u, b', hrun, -, hlost⟩ :=
    consumed_claims (α := Unit) oddVectorBridge_books (by decide) (o := ⟨3⟩) rfl
  refine ⟨?_, ?_, ?_⟩
  · obtain ⟨elem, b₁, b₂, result, b', -, -, -, hrun, -, hfails⟩ :=
      hput (.store (2 ^ 60)) sharedValue sharedValue_wellFormed hheld oddVectorBridge_hasRoom
    have hr : (((PutCall.store (2 ^ 60)).run ⟨3⟩ sharedValue).run oddVectorBridge).1 =
        .error (.raised .bridge ⟨9⟩) := by decide +kernel
    rw [hrun] at hr
    cases hr
    exact ⟨b', hrun, ((hfails _ rfl).released (by decide +kernel)).1⟩
  · obtain ⟨elem, b₁, b₂, result, b', hconv, -, -, hrun, -, hfails⟩ :=
      hput .push sharedValue sharedValue_wellFormed hheld oddVectorBridge_hasRoom
    have hr : ((PutCall.push.run ⟨3⟩ sharedValue).run oddVectorBridge).1 =
        .error (.raised .bridge ⟨9⟩) := by
      decide +kernel
    have helem : ((hostToForeign sharedValue none true).run oddVectorBridge).1 =
        .ok (.ok (some ⟨4⟩)) := by
      decide +kernel
    rw [hrun] at hr
    rw [hconv] at helem
    cases hr
    cases helem
    exact ⟨b', hrun, ((hfails _ rfl).kept (by decide +kernel)).2⟩
  · have hr : ((throwErr ⟨3⟩ : Run Unit).run oddVectorBridge).1 = .error (.raised .bridge ⟨4⟩) := by
      decide +kernel
    rw [hrun] at hr
    cases hr
    exact ⟨b', hrun, (hlost (by decide +kernel)).2⟩

end ObjectBridge
