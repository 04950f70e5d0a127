import ObjectBridge.Proofs.Counting
import ObjectBridge.Proofs.Ends

set_option autoImplicit false

/-!
# Books that balance (SPEC §3, §8)

`Bridge.Sound b host` says that the state accounts for every claim when the host holds the claims
`host`: the count of an object is the number of claims that the host, other objects and failed calls
hold on it.  A state whose counts have never run past 32 bits stays accounted for; `Bridge.Books`
states that condition once, so that the rules below need not repeat it.
-/

namespace ObjectBridge

open Heap

/-! ## Accounted states -/

/-- The class descends from the base class. -/
def Class.Rooted (c : Class) : Prop := c.isSubclassOf .obj = true

/-- All bound classes descend from the base class. -/
def ClassTable.Rooted (t : ClassTable) : Prop := ∀ name c, t.fetch name = some c → c.Rooted

/-- The object for a truth value. -/
def Heap.IsTruth (h : Heap) (o : ObjId) (value : Bool) : Prop :=
  ∃ x, h.get? o = some x ∧ x.cls = .boolean ∧ x.payload = .boolean value

/-- An object that can be raised. -/
def Heap.IsErr (h : Heap) (o : ObjId) : Prop :=
  ∃ x message, h.get? o = some x ∧ x.cls.isSubclassOf .err = true ∧ x.payload = .err message

namespace Bridge

/-- No object has ever had `2 ^ 32` claims at a time. -/
def Bounded (b : Bridge) : Prop := b.ledger.peak < 2 ^ 32

instance (b : Bridge) : Decidable b.Bounded := inferInstanceAs (Decidable (_ < _))

/-- Every claim is accounted for, if the host holds the claims `host`. -/
structure Sound (b : Bridge) (host : Multiset ObjId) : Prop where
  counted : b.heap.Counted (host + b.ledger.lost)
  truths : ∃ no yes, b.truths = some (no, yes) ∧ b.heap.IsTruth no false ∧ b.heap.IsTruth yes true
  rooted : ∀ o x, b.heap.get? o = some x → x.cls.Rooted
  /-- an object is destroyed once, and then its identity stays unused -/
  buried : ∀ o, b.ledger.destroyed.count o = if b.heap.Used o ∧ b.heap.get? o = none then 1 else 0

/-- The bridge has been started under its own hooks, and all classes descend from the base class. -/
structure Running (b : Bridge) : Prop where
  started : b.started = true
  hooks : b.hooks = some .bridge
  truths : b.truths.isSome = true
  classes : b.classes.Rooted

/-- A running bridge in which every claim is accounted for as long as the counts have room. -/
structure Books (b : Bridge) (host : Multiset ObjId) : Prop extends b.Running where
  sound : b.Bounded → b.Sound host

end Bridge

/-! ## The ledger -/

namespace Ledger

variable (l : Ledger) (x : Obj)

@[simp]
theorem noteClaim_lost : (l.noteClaim x).lost = l.lost := by
  unfold noteClaim
  split <;> rfl

@[simp]
theorem noteClaim_destroyed : (l.noteClaim x).destroyed = l.destroyed := by
  unfold noteClaim
  split <;> rfl

theorem peak_le_noteClaim : l.peak ≤ (l.noteClaim x).peak := by
  unfold noteClaim
  split
  · exact le_rfl
  · exact le_max_left _ _

theorem count_lt_noteClaim (hm : x.cls.isImmortal = false) :
    x.count.toNat + 1 ≤ (l.noteClaim x).peak := by
  unfold noteClaim
  rw [if_neg (by simp [hm])]
  exact le_max_right _ _

end Ledger

/-! ## Changes of an accounted state -/

namespace Heap

variable {h h' : Heap} {o : ObjId} {v : Bool}

/-- Nothing but counts has changed under an identity. -/
def SameAt (h h' : Heap) (o : ObjId) : Prop :=
  ∀ x, h.get? o = some x → ∃ y, h'.get? o = some y ∧ y.cls = x.cls ∧ y.payload = x.payload

theorem SameAt.of_eq (he : h'.get? o = h.get? o) : SameAt h h' o := by
  intro x hx
  exact ⟨x, he.trans hx, rfl, rfl⟩

theorem IsTruth.same (ht : h.IsTruth o v) (hs : SameAt h h' o) : h'.IsTruth o v := by
  obtain ⟨x, hx, hc, hp⟩ := ht
  obtain ⟨y, hy, hyc, hyp⟩ := hs x hx
  exact ⟨y, hy, hyc.trans hc, hyp.trans hp⟩

theorem IsErr.same (ht : h.IsErr o) (hs : SameAt h h' o) : h'.IsErr o := by
  obtain ⟨x, m, hx, hc, hp⟩ := ht
  obtain ⟨y, hy, hyc, hyp⟩ := hs x hx
  exact ⟨y, m, hy, hyc ▸ hc, hyp.trans hp⟩

theorem sameAt_add (x : Obj) : SameAt h (h.add x) o := by
  intro y hy
  exact ⟨y, by rw [get?_add, if_neg (ne_next_of_get? hy), hy], rfl, rfl⟩

theorem sameAt_retain (p : ObjId) : SameAt h (h.retain p) o := by
  intro y hy
  cases hp : h.get? p with
  | none =>
    have he : h.retain p = h := by simp [Heap.retain, hp]
    exact ⟨y, by rw [he, hy], rfl, rfl⟩
  | some x =>
    cases hm : x.cls.isImmortal with
    | true => exact ⟨y, by rw [retain_of_immortal hp hm, hy], rfl, rfl⟩
    | false =>
      rw [retain_eq hp hm, get?_set hp]
      by_cases hop : o = p
      · subst hop
        rw [hp] at hy
        cases hy
        exact ⟨_, if_pos rfl, rfl, rfl⟩
      · exact ⟨y, by rw [if_neg hop, hy], rfl, rfl⟩

/-- What survives a sweep has only a lower count. -/
theorem sameAt_sweep (work : List ObjId) (hl : (h.sweep work).heap.Live o) :
    SameAt h (h.sweep work).heap o := by
  intro x hx
  obtain ⟨y, hy⟩ := hl
  obtain ⟨z, hz, hcls, hpay, -⟩ := sweep_get? h work hy
  rw [hx] at hz
  cases hz
  exact ⟨y, hy, hcls, hpay⟩

/-- What a heap accounts for keeps itself claimed when more is claimed. -/
theorem Counted.supported {F out : Multiset ObjId} (hc : h.Counted F) (hsame : ∀ p, SameAt h h' p)
    (hF : F ⊆ out) :
    h'.Supported out h.Live := by
  constructor
  · rintro p ⟨x, hx⟩
    obtain ⟨y, hy, -⟩ := hsame p x hx
    exact ⟨y, hy⟩
  · intro p hl hm
    have hmortal : ¬ h.Immortal p := by
      rintro ⟨x, hx, hi⟩
      obtain ⟨y, hy, hcls, -⟩ := hsame p x hx
      exact hm ⟨y, hy, hcls ▸ hi⟩
    rcases hc.claimed hl hmortal with hout | ⟨q, x, hx, hmem⟩
    · exact .inl (hF hout)
    · obtain ⟨y, hy, -, hpay⟩ := hsame q x hx
      exact .inr ⟨q, ⟨x, hx⟩, y, hy, hpay ▸ hmem⟩

/-- Giving back claims that are on top of those that a heap accounts for destroys nothing of that
heap. -/
theorem sameAt_sweep_of_counted {F out : Multiset ObjId} {work : List ObjId} (hc : h.Counted F)
    (hc' : h'.Counted (work + out)) (hsame : ∀ p, SameAt h h' p) (hF : F ⊆ out) (p : ObjId) :
    SameAt h (h'.sweep work).heap p := by
  intro x hx
  have hlive := (hc.supported hsame hF).live_sweep hc' p ⟨x, hx⟩
  obtain ⟨w, hw, hcls, hpay⟩ := hsame p x hx
  obtain ⟨y, hy, hcls', hpay'⟩ := sameAt_sweep work hlive w hw
  exact ⟨y, hy, hcls'.trans hcls, hpay'.trans hpay⟩

theorem IsTruth.sweep (ht : h.IsTruth o v) (work : List ObjId) :
    (h.sweep work).heap.IsTruth o v := by
  obtain ⟨x, hx, hc, hp⟩ := ht
  have him : x.cls.isImmortal = true := by
    rw [hc]
    rfl
  exact ⟨x, sweep_get?_of_immortal h work hx him, hc, hp⟩

end Heap

namespace Bridge

variable {b : Bridge} {host : Multiset ObjId} {o : ObjId} {x : Obj} {q : Payload}

namespace Sound

theorem journal (hs : b.Sound host) (j : Array Entry) : { b with journal := j }.Sound host :=
  ⟨hs.counted, hs.truths, hs.rooted, hs.buried⟩

theorem tables (hs : b.Sound host) (t : ClassTable)
    (w : SnapshotRegistry ClassId (Class × Wrapper)) :
    { b with classes := t, wrappers := w }.Sound host :=
  ⟨hs.counted, hs.truths, hs.rooted, hs.buried⟩

/-- A new object is owned by the host, and its payload owns what the host gave for it. -/
theorem add {c : Class} (hs : b.Sound (q.claims + host)) (hc : c.Rooted) :
    { b with heap := b.heap.add ⟨c, 1, q⟩ }.Sound (b.heap.next ::ₘ host) := by
  refine ⟨?_, ?_, fun o x hx => ?_, fun o => ?_⟩
  · have hcounted := hs.counted
    rw [add_assoc] at hcounted
    rw [Multiset.cons_add]
    exact hcounted.add c
  · obtain ⟨no, yes, heq, hno, hyes⟩ := hs.truths
    exact ⟨no, yes, heq, hno.same (sameAt_add _), hyes.same (sameAt_add _)⟩
  · rw [get?_add] at hx
    split at hx
    · cases hx
      exact hc
    · exact hs.rooted o x hx
  · rw [hs.buried o, get?_add]
    by_cases ho : o = b.heap.next
    · subst ho
      simp [not_used_next]
    · simp [used_add, ho]

/-- One claim more for the host. -/
theorem retain (hs : b.Sound host) (hx : b.heap.get? o = some x)
    (hroom : x.cls.isImmortal = false → x.count.toNat + 1 < 2 ^ 32) :
    { b with heap := b.heap.retain o, ledger := b.ledger.noteClaim x }.Sound (o ::ₘ host) := by
  have hget : ∀ p, (b.heap.retain o).get? p = none ↔ b.heap.get? p = none := by
    intro p
    constructor
    · intro hp
      by_contra hne
      obtain ⟨y, hy⟩ := Option.ne_none_iff_exists'.mp hne
      obtain ⟨z, hz, -⟩ := sameAt_retain o y hy
      rw [hp] at hz
      cases hz
    · intro hp
      have hne : p ≠ o := fun e => by rw [e, hx] at hp; cases hp
      cases hm : x.cls.isImmortal with
      | true => rw [retain_of_immortal hx hm, hp]
      | false => rw [retain_eq hx hm, get?_set hx, if_neg hne, hp]
  have hused : ∀ p, (b.heap.retain o).Used p ↔ b.heap.Used p := by
    intro p
    cases hm : x.cls.isImmortal with
    | true => rw [retain_of_immortal hx hm]
    | false => rw [retain_eq hx hm, used_set]
  refine ⟨?_, ?_, fun p y hy => ?_, fun p => ?_⟩
  · simp only [Ledger.noteClaim_lost, Multiset.cons_add]
    exact hs.counted.retain hx hroom
  · obtain ⟨no, yes, heq, hno, hyes⟩ := hs.truths
    exact ⟨no, yes, heq, hno.same (sameAt_retain o), hyes.same (sameAt_retain o)⟩
  · have hsome : b.heap.get? p ≠ none := fun e => by rw [(hget p).mpr e] at hy; cases hy
    obtain ⟨z, hz⟩ := Option.ne_none_iff_exists'.mp hsome
    obtain ⟨w, hw, hcls, -⟩ := sameAt_retain o z hz
    rw [hy] at hw
    cases hw
    exact hcls ▸ hs.rooted p z hz
  · simp only [Ledger.noteClaim_destroyed, hget, hused]
    exact hs.buried p

/-- The host puts claims into an object and gets the claims that the object held before. -/
theorem setPayload {host' : Multiset ObjId} (hs : b.Sound host) (hx : b.heap.get? o = some x)
    (hb : x.payload.layout ≠ .boolean)
    (hq : (q.claims : Multiset ObjId) + host' = x.payload.claims + host) :
    { b with heap := b.heap.setPayload o q }.Sound host' := by
  have hset := setPayload_eq hx q
  have hother : ∀ {p v}, b.heap.IsTruth p v → SameAt b.heap (b.heap.setPayload o q) p := by
    rintro p v ⟨y, hy, -, hp⟩
    have hne : p ≠ o := by
      rintro rfl
      rw [hx] at hy
      cases hy
      rw [hp] at hb
      exact hb rfl
    exact .of_eq (by rw [hset, get?_set hx, if_neg hne])
  refine ⟨?_, ?_, fun p y hy => ?_, fun p => ?_⟩
  · refine hs.counted.setPayload hx ?_
    rw [← add_assoc, hq, add_assoc]
  · obtain ⟨no, yes, heq, hno, hyes⟩ := hs.truths
    exact ⟨no, yes, heq, hno.same (hother hno), hyes.same (hother hyes)⟩
  · change (b.heap.setPayload o q).get? p = some y at hy
    rw [hset, get?_set hx] at hy
    split at hy
    · cases hy
      exact hs.rooted o x hx
    · exact hs.rooted p y hy
  · rw [hs.buried p]
    simp only [hset, used_set, get?_set hx]
    by_cases hp : p = o
    · subst hp
      simp [hx]
    · simp [hp]

/-- The host gives claims back, which never fails. -/
theorem sweep {work : List ObjId} (hs : b.Sound (work + host)) (j : Array Entry) :
    (b.heap.sweep work).stop = none ∧
      { b with heap := (b.heap.sweep work).heap, journal := j,
               ledger :=
  b.ledger.noteDestroyed ((b.heap.sweep work).destroyed.map Prod.fst) }.Sound host := by
  have hcounted := hs.counted
  rw [add_assoc] at hcounted
  obtain ⟨hstop, hafter⟩ := sweep_counted b.heap work _ hcounted
  refine ⟨hstop, hafter, ?_, fun p y hy => ?_, fun p => ?_⟩
  · obtain ⟨no, yes, heq, hno, hyes⟩ := hs.truths
    exact ⟨no, yes, heq, hno.sweep work, hyes.sweep work⟩
  · obtain ⟨z, hz, hcls, -⟩ := sweep_get? b.heap work hy
    exact hcls ▸ hs.rooted p z hz
  · simp only [Ledger.noteDestroyed, List.count_append, hs.buried p, sweep_destroyed, used_sweep]
    cases hp : b.heap.get? p with
    | none =>
      simp [get?_sweep_of_none hp]
    | some y =>
      have hused := used_of_get? hp
      cases hq : (b.heap.sweep work).heap.get? p <;> simp [hused]

/-- Claims of the host that nobody will give back. -/
theorem lose {claims : List ObjId} (hs : b.Sound (claims + host)) :
    { b with ledger := b.ledger.noteLost claims }.Sound host := by
  refine ⟨?_, hs.truths, hs.rooted, hs.buried⟩
  have hcounted := hs.counted
  have heq : (claims : Multiset ObjId) + host + b.ledger.lost =
      host + (b.ledger.noteLost claims).lost := by
    simp only [Ledger.noteLost, ← Multiset.coe_add]
    abel
  rw [heq] at hcounted
  exact hcounted

end Sound

/-! ## Books -/

namespace Books

/-- Whatever the host claims lives. -/
theorem live (hb : b.Books host) (ho : o ∈ host) (hu : b.Bounded) : b.heap.Live o :=
  (hb.sound hu).counted.live_out (Multiset.mem_add.mpr (.inl ho))

/-- Whatever a live object claims lives. -/
theorem live_inside {p : ObjId} (hb : b.Books host) (hx : b.heap.get? p = some x)
    (ho : o ∈ x.payload.claims) (hu : b.Bounded) : b.heap.Live o :=
  (hb.sound hu).counted.live_inside hx ho

theorem journal (hb : b.Books host) (j : Array Entry) : { b with journal := j }.Books host :=
  ⟨⟨hb.started, hb.hooks, hb.truths, hb.classes⟩, fun hu => (hb.sound hu).journal j⟩

theorem withWrappers (hb : b.Books host) (w : SnapshotRegistry ClassId (Class × Wrapper)) :
    { b with wrappers := w }.Books host :=
  ⟨⟨hb.started, hb.hooks, hb.truths, hb.classes⟩, fun hu => (hb.sound hu).tables b.classes w⟩

theorem withClasses (hb : b.Books host) {t : ClassTable} (ht : t.Rooted) :
    { b with classes := t }.Books host :=
  ⟨⟨hb.started, hb.hooks, hb.truths, ht⟩, fun hu => (hb.sound hu).tables t b.wrappers⟩

theorem add {c : Class} (hb : b.Books (q.claims + host)) (hc : c.Rooted) :
    { b with heap := b.heap.add ⟨c, 1, q⟩ }.Books (b.heap.next ::ₘ host) :=
  ⟨⟨hb.started, hb.hooks, hb.truths, hb.classes⟩, fun hu => (hb.sound hu).add hc⟩

theorem retain (hb : b.Books host) (hx : b.heap.get? o = some x) :
    { b with heap := b.heap.retain o, ledger := b.ledger.noteClaim x }.Books (o ::ₘ host) := by
  refine ⟨⟨hb.started, hb.hooks, hb.truths, hb.classes⟩, fun hu => ?_⟩
  change (b.ledger.noteClaim x).peak < 2 ^ 32 at hu
  have hpeak : b.Bounded := (b.ledger.peak_le_noteClaim x).trans_lt hu
  exact (hb.sound hpeak).retain hx fun hm => (b.ledger.count_lt_noteClaim x hm).trans_lt hu

theorem setPayload {host' : Multiset ObjId} (hb : b.Books host) (hx : b.heap.get? o = some x)
    (hl : x.payload.layout ≠ .boolean)
    (hq : (q.claims : Multiset ObjId) + host' = x.payload.claims + host) :
    { b with heap := b.heap.setPayload o q }.Books host' :=
  ⟨⟨hb.started, hb.hooks, hb.truths, hb.classes⟩, fun hu => (hb.sound hu).setPayload hx hl hq⟩

theorem sweep {work : List ObjId} (hb : b.Books (work + host)) (j : Array Entry) :
    { b with heap := (b.heap.sweep work).heap, journal := j,
             ledger :=
  b.ledger.noteDestroyed ((b.heap.sweep work).destroyed.map Prod.fst) }.Books host :=
  ⟨⟨hb.started, hb.hooks, hb.truths, hb.classes⟩, fun hu => ((hb.sound hu).sweep j).2⟩

theorem lose {claims : List ObjId} (hb : b.Books (claims + host)) :
    { b with ledger := b.ledger.noteLost claims }.Books host :=
  ⟨⟨hb.started, hb.hooks, hb.truths, hb.classes⟩, fun hu => (hb.sound hu).lose⟩

/-- The objects for truth values may be claimed at any time. -/
theorem claim_truth {no yes : ObjId} (hb : b.Books host) (ht : b.truths = some (no, yes))
    (value : Bool) :
    b.Books ((if value then yes else no) ::ₘ host) := by
  refine ⟨⟨hb.started, hb.hooks, hb.truths, hb.classes⟩, fun hu => ?_⟩
  have hs := hb.sound hu
  obtain ⟨no', yes', heq, hno, hyes⟩ := hs.truths
  rw [ht] at heq
  cases heq
  have htruth : b.heap.IsTruth (if value then yes else no) value := by
    cases value
    · exact hno
    · exact hyes
  obtain ⟨x, hx, hc, -⟩ := htruth
  have him : x.cls.isImmortal = true := by
    rw [hc]
    rfl
  refine ⟨?_, hs.truths, hs.rooted, hs.buried⟩
  rw [Multiset.cons_add]
  exact (Heap.Counted.cons_immortal_iff hx him).mpr hs.counted

end Books

end Bridge

end ObjectBridge
