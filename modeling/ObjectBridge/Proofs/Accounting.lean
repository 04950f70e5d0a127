import ObjectBridge.Proofs.Scripts

set_option autoImplicit false

/-!
# Accounting over whole runs (SPEC §3, §8)

A run of a script passes through moments: the states between its steps, those inside the routines of
traps and loans, and those in which an exception is on its way to a trap.  At every moment all
claims are accounted for, as long as no object has ever had `2 ^ 32` claims at a time.

Left out: threads.  Every moment is one of a single caller.
-/

namespace ObjectBridge

open Heap

/-! ## The bridge before a run -/

/-- What a series of insertions binds is one of the values inserted or was bound before. -/
theorem Assoc.find?_insertAll {K V : Type} [DecidableEq K] {k : K} {v : V} {pairs m : List (K × V)}
    (hfind : Assoc.find? k (Assoc.insertAll pairs m) = some v) :
    v ∈ pairs.map Prod.snd ∨ Assoc.find? k m = some v := by
  induction pairs generalizing m with
  | nil => exact .inr hfind
  | cons p rest ih =>
    rcases ih hfind with hrest | hm
    · exact .inl (List.mem_cons_of_mem _ hrest)
    · rw [Assoc.find?_insert] at hm
      split at hm
      · cases hm
        exact .inl List.mem_cons_self
      · exact .inr hm

theorem ClassTable.initial_rooted : ClassTable.Rooted .initial := by
  intro name c hc
  have hbuiltin : ∀ d ∈ Class.builtins, d.isSubclassOf .obj = true := by decide
  rcases Assoc.find?_insertAll hc with hmem | hnone
  · rw [List.map_map] at hmem
    exact hbuiltin c (by simpa using hmem)
  · cases hnone

variable {machine : Machine}

/-- The heap of a bridge that has just been started holds the two truth values. -/
theorem Bridge.ready_heap :
    (Bridge.ready machine).heap =
      ⟨[some ⟨.boolean, 1, .boolean false⟩, some ⟨.boolean, 1, .boolean true⟩]⟩ := rfl

theorem Bridge.ready_get? {o : ObjId} {x : Obj} (hx : (Bridge.ready machine).heap.get? o = some x) :
    x.cls = .boolean := by
  have hmem := List.mem_of_getElem? (slots_of_get? hx)
  rw [Bridge.ready_heap] at hmem
  rcases List.mem_cons.mp hmem with heq | hrest
  · cases heq
    rfl
  · cases List.mem_singleton.mp hrest
    rfl

theorem Bridge.ready_sound (machine : Machine) : (Bridge.ready machine).Sound 0 := by
  refine ⟨fun o => ?_, ⟨⟨0⟩, ⟨1⟩, rfl, ⟨_, rfl, rfl, rfl⟩, ⟨_, rfl, rfl, rfl⟩⟩, fun o x hx =>
    ?_, fun o => ?_⟩
  · cases hx : (Bridge.ready machine).heap.get? o with
    | none => exact Multiset.count_zero o
    | some x =>
      intro hm
      rw [Bridge.ready_get? hx] at hm
      cases hm
  · rw [Bridge.ready_get? hx]
    rfl
  · have hlive :
        ¬ ((Bridge.ready machine).heap.Used o ∧ (Bridge.ready machine).heap.get? o = none) := by
      rintro ⟨hused, hnone⟩
      obtain ⟨i⟩ := o
      match i, hused with
      | 0, _ => cases hnone
      | 1, _ => cases hnone
    rw [if_neg hlive]
    rfl

/-- A bridge that has just been started accounts for all claims: nobody holds any. -/
theorem Bridge.ready_books (machine : Machine) : (Bridge.ready machine).Books 0 :=
  ⟨⟨rfl, rfl, rfl, ClassTable.initial_rooted⟩, fun _ => Bridge.ready_sound machine⟩

theorem Session.new_books (machine : Machine) : (Session.new (Bridge.ready machine)).Books 0 :=
  ⟨List.Pairwise.nil, Bridge.ready_books machine⟩

/-! ## Moments -/

/-- A point in a run. -/
structure Moment where
  session : Session
  /-- what is on its way to a trap, if a step has unwound -/
  flight : Option Unwind
  /-- the claims that are lent to the routines that are running -/
  lent : List ObjId

namespace Moment

/-- The claims on objects that are not held by objects: those of what is on its way, of the loans
and of the session. -/
def claims (m : Moment) : Multiset ObjId :=
  (m.flight.map Unwind.claims).getD 0 + (m.lent + m.session.claims)

/-- The moment right after a call. -/
def after {α : Type} (r : Walk α) (s : Session) : Moment :=
  match (r.run s : Except Unwind α × Session) with
  | (.ok _, s') => ⟨s', none, []⟩
  | (.error u, s') => ⟨s', some u, []⟩

/-- The moment while an object is lent to the routine that is running. -/
def lending (o : ObjId) (m : Moment) : Moment := { m with lent := o :: m.lent }

/-- All claims are accounted for, those that others hold included. -/
def Balanced (m : Moment) (F : Multiset ObjId) : Prop :=
  match m.flight with
  | none => m.session.Books (m.lent + F)
  | some u => m.session.Unwound u (m.lent + F)

theorem balanced_after {α : Type} {r : Walk α} {s : Session} {F : Multiset ObjId}
    (hr : Keeps 0 r (fun _ => 0)) (hs : s.Books F) : (after r s).Balanced F := by
  have hends := hr s F hs.zero
  unfold Ends at hends
  unfold after
  cases hrun : (r.run s : Except Unwind α × Session) with
  | mk result s' =>
    rw [hrun] at hends
    cases result with
    | ok a => exact hends
    | error u =>
      change s'.Unwound u (0 + F)
      rw [zero_add]
      exact hends

theorem Balanced.lending {m : Moment} {F : Multiset ObjId} {o : ObjId} (hm : m.Balanced ({o} + F)) :
    (m.lending o).Balanced F := by
  have hmove : ((o :: m.lent : List ObjId) : Multiset ObjId) + F = m.lent + ({o} + F) := by
    rw [← Multiset.cons_coe, ← Multiset.singleton_add]
    abel
  unfold Balanced at hm ⊢
  unfold Moment.lending
  dsimp only
  rw [hmove]
  exact hm

end Moment

/-- The session in which the routine of a trap starts. -/
def Session.enterTrap (s : Session) : Session :=
  { s with
    bridge := { s.bridge with
      journal := s.bridge.journal.push (.log .trace "entering trap boundary") } }

/-- The moments of a routine: before each of its steps, after each of them whether it returned or
unwound, and those of the routines of its traps and loans. -/
inductive RoutinePasses (filter : LogFilter) : List Instruction → Session → Moment → Prop
  | here (routine : List Instruction) (s : Session) : RoutinePasses filter routine s ⟨s, none, []⟩
  | ended (i : Instruction) (rest : List Instruction) (s : Session) :
    RoutinePasses filter (i :: rest) s (.after (i.run filter) s)
  | inside {byHooks : Bool} {routine rest : List Instruction} {result error : Option String}
    {s : Session} {m : Moment}
    (hm : RoutinePasses filter routine { s.enterTrap with finished := [] } m) :
    RoutinePasses filter (.trap byHooks routine result error :: rest) s m
  | lent {on : String} {move : Bool} {routine rest : List Instruction} {loan : Loan}
    {result error : Option String} {s s' : Session} {o : ObjId} {m : Moment}
    (ho : (ExceptT.run (claimObject on move)).run { s with finished := [] } = (.ok (.ok o), s'))
    (hm : RoutinePasses filter routine s' m) :
    RoutinePasses filter (.lend on move routine loan result error :: rest) s (m.lending o)
  | later {i : Instruction} {rest : List Instruction} {s : Session} {m : Moment}
    (hi : ((runRoutine filter [i]).run s).1 = .ok ())
    (hm : RoutinePasses filter rest ((runRoutine filter [i]).run s).2 m) :
    RoutinePasses filter (i :: rest) s m

/-- The moments of a script: before each of its instructions, within them, and after all variables
have been given back. -/
inductive ScriptPasses (filter : LogFilter) : List Instruction → Session → Moment → Prop
  | here (script : List Instruction) (s : Session) : ScriptPasses filter script s ⟨s, none, []⟩
  | within {i : Instruction} {rest : List Instruction} {s : Session} {m : Moment}
    (hm : RoutinePasses filter [i] s.enterTrap m) : ScriptPasses filter (i :: rest) s m
  | later {i : Instruction} {rest : List Instruction} {s : Session} {m : Moment}
    (hm : ScriptPasses filter rest ((i.answer filter).run s).2 m) :
    ScriptPasses filter (i :: rest) s m
  | dropped (s : Session) : ScriptPasses filter [] s (.after dropAll s)

section Runs

variable {filter : LogFilter} {routine script : List Instruction} {s : Session} {m : Moment}

/-- A claim on the object of a variable is the routine's while it is lent. -/
theorem books_claimObject {on : String} {move : Bool} {s' : Session} {o : ObjId}
    {F : Multiset ObjId} (ho : (ExceptT.run (claimObject on move)).run s = (.ok (.ok o), s'))
    (hs : s.Books F) :
    s'.Books ({o} + F) := by
  have hclaim := (claimObject_handles on move).keeps s F hs.zero
  exact hclaim.of_ok ho

theorem RoutinePasses.balanced {F : Multiset ObjId} (hm : RoutinePasses filter routine s m)
    (hl : LawfulRoutine routine) (hs : s.Books F) : m.Balanced F := by
  induction hm generalizing F with
  | here routine s => exact hs.zero
  | ended i rest s => exact Moment.balanced_after (i.run_keeps hl.1) hs
  | inside hm ih =>
    obtain ⟨htrap, -⟩ := hl
    exact ih htrap ((hs.journal _).withFinished [])
  | lent ho hm ih =>
    obtain ⟨hloan, -⟩ := hl
    exact (ih hloan (books_claimObject ho (hs.withFinished []))).lending
  | @later i rest s m hi hm ih =>
    obtain ⟨hi', hrest⟩ := hl
    have hkeeps : Keeps 0 (runRoutine filter [i]) (fun _ => 0) := by
      refine runRoutine_keeps [i] fun j hj => ?_
      rw [List.mem_singleton.mp hj]
      exact i.run_keeps hi'
    exact ih hrest ((hkeeps s F hs.zero).of_ok (Prod.ext hi rfl)).of_zero

theorem ScriptPasses.balanced (hm : ScriptPasses filter script s m) (hl : LawfulRoutine script)
    (hs : s.Books 0) : m.Balanced 0 := by
  induction hm with
  | here script s => exact hs.zero
  | within hm => exact hm.balanced ⟨hl.1, trivial⟩ (hs.journal _)
  | later hm ih => exact ih hl.2 (Instruction.answer_books _ hl.1 hs)
  | dropped s => exact Moment.balanced_after dropAll_saves.keeps hs

end Runs

/-! ## What holds at every moment -/

namespace Moment

variable {m : Moment}

theorem Balanced.books (hm : m.Balanced 0) : m.session.bridge.Books m.claims := by
  obtain ⟨s, flight, lent⟩ := m
  unfold Balanced at hm
  rw [add_zero] at hm
  unfold claims
  cases flight with
  | none =>
    rw [Option.map_none, Option.getD_none, zero_add]
    exact hm.bridge
  | some u => exact hm.bridge.books

/-- What is on its way is never the use of an object that is gone. -/
theorem Balanced.sane (hm : m.Balanced 0) (hu : m.session.bridge.Bounded) (o : ObjId) :
    m.flight ≠ some (.dangling o) := by
  obtain ⟨s, flight, lent⟩ := m
  rintro rfl
  exact hm.bridge.sane hu

/-- The state of a moment accounts for every claim. -/
structure Accounted (m : Moment) : Prop where
  /-- a count is the number of the claims that the session, the loans, what is on its way and live
  objects hold, and of those that failed calls have lost -/
  counts : ∀ o x, m.session.bridge.heap.get? o = some x → x.cls.isImmortal = false →
    x.count.toNat = (m.claims + m.session.bridge.heap.claims).count o +
    m.session.bridge.ledger.lost.count o
  /-- no claim is on an object that is gone -/
  live : ∀ o ∈ m.claims + m.session.bridge.heap.claims, m.session.bridge.heap.Live o
  /-- claims can be given back by whoever holds them, in any order and any number -/
  releasable : ∀ claims : List ObjId, (claims : Multiset ObjId) ≤ m.claims →
    ∃ b, (releaseAll claims).run m.session.bridge = (.ok (), b)
  /-- nothing that was used was gone -/
  sane : ∀ o, m.flight ≠ some (.dangling o)

theorem Balanced.accounted (hm : m.Balanced 0) (hu : m.session.bridge.Bounded) : m.Accounted := by
  have hsound := hm.books.sound hu
  refine ⟨fun o x hx hmortal => ?_, fun o ho => ?_, fun claims hle => ?_, hm.sane hu⟩
  · rw [(hsound.counted.exact hx hmortal).1, add_right_comm, Multiset.count_add, Multiset.coe_count]
  · refine hsound.counted.live ?_
    rw [add_right_comm]
    exact Multiset.mem_add.mpr (.inl ho)
  · obtain ⟨rest, hrest⟩ := Multiset.le_iff_exists_add.mp hle
    rw [hrest] at hsound
    have hends : Ends (releaseAll claims) m.session.bridge (fun _ _ => True) (fun _ _ => False) :=
      (ends_releaseAll_sound hsound).mpr trivial
    obtain ⟨_, b, hrun, -⟩ := hends.returns
    exact ⟨b, hrun⟩

end Moment

/-- However a script runs, every claim is accounted for at all of its moments, as long as no object
has ever had `2 ^ 32` claims at a time. -/
theorem claims_accounted {machine : Machine} (filter : LogFilter) (script : List Instruction)
    (hl : LawfulRoutine script) (m : Moment)
    (hm : ScriptPasses filter script (Session.new (Bridge.ready machine)) m)
    (hu : m.session.bridge.Bounded) :
    m.Accounted :=
  (hm.balanced hl (Session.new_books machine)).accounted hu

/-- A script in which a routine pushes one string twice, the second time with the variable's own
claim and while the vector is lent, and then raises. -/
def pushTwiceAndRaise : List Instruction :=
  [.act (.onObject (.new (.vector 2))) (some "v") none,
    .act (.onObject (.new (.str "x"))) (some "s") none,
    .trap false
      [.act (.primitive "v" false (.vectorPush (some "s"))) none none,
        .lend "v" false
          [.act (.primitive "v" true (.vectorPush (some "s"))) none none,
            .act (.onError (.throwRaw "boom")) none none]
          .look none none]
      none (some "e")]

/-- While the exception of that script is on its way, it, the string in the vector and the claim
that is lent are accounted for. -/
theorem claims_accounted_in_flight :
    ∃ m, ScriptPasses none pushTwiceAndRaise (Session.new (Bridge.ready .usual)) m ∧
      m.flight = some (.raised .bridge ⟨4⟩) ∧ m.lent = [⟨2⟩] ∧
      m.session.bridge.heap.get? ⟨3⟩ = some ⟨.string, 2, .string "x"⟩ ∧ m.session.bridge.Bounded ∧
      m.Accounted := by
  have hl : LawfulRoutine pushTwiceAndRaise :=
    ⟨trivial, trivial, ⟨trivial, ⟨trivial, trivial, trivial⟩, trivial⟩, trivial⟩
  obtain ⟨m, hm, hflight, hlent, hstring, hpeak⟩ :
      ∃ m, ScriptPasses none pushTwiceAndRaise (Session.new (Bridge.ready .usual)) m ∧
        m.flight = some (.raised .bridge ⟨4⟩) ∧ m.lent = [⟨2⟩] ∧
        m.session.bridge.heap.get? ⟨3⟩ = some ⟨.string, 2, .string "x"⟩ ∧
        m.session.bridge.ledger.peak = 2 :=
    ⟨_, .later (.later (.within (.inside (.later rfl (.lent rfl (.later rfl (.ended _ _ _))))))),
      rfl, rfl, rfl, rfl⟩
  have hu : m.session.bridge.Bounded := by
    unfold Bridge.Bounded
    rw [hpeak]
    decide
  exact ⟨m, hm, hflight, hlent, hstring, hu, claims_accounted none pushTwiceAndRaise hl m hm hu⟩

end ObjectBridge
