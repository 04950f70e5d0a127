import ObjectBridge.Proofs.Methods

set_option autoImplicit false

/-!
# Claims in scripts (SPEC §4.4, §12.1)

Instructions keep the books of a session: whatever they run and however it ends, all claims are
those of the session, of the exception that is on its way, and of others whose claims are lent
meanwhile.  A trap turns that exception into something that a variable can hold.
-/

namespace ObjectBridge

open Heap

/-! ## Keeping what a step leaves -/

/-- The counts of the session's bridge have run past 32 bits. -/
structure Session.Overrun (s : Session) : Prop where
  sorted : SortedSlots s.slots
  bridge : s.bridge.Overrun

theorem Session.Overrun.books {s : Session} {extra : Multiset ObjId} (ho : s.Overrun) :
    s.Books extra :=
  ⟨ho.sorted, ho.bridge.books⟩

theorem Session.Overrun.unwound {s : Session} {u : Unwind} {extra : Multiset ObjId}
    (ho : s.Overrun) :
    s.Unwound u extra := ⟨ho.sorted, ho.bridge.unwound⟩

section Walks

variable {α β : Type} {r : Walk α} {f : α → Walk β} {B t : Multiset ObjId} {g : α → Multiset ObjId}
  {k : β → Multiset ObjId}

/-- The call takes the claims `t` and gives `g`; if it unwinds, there is the claim of what is on its
way.  The claims `F` that others hold meanwhile stay as they are. -/
def Keeps (t : Multiset ObjId) (r : Walk α) (g : α → Multiset ObjId) : Prop :=
  ∀ (s : Session) (F : Multiset ObjId), s.Books (t + F) →
    Ends r s (fun a s' => s'.Books (g a + F)) (fun u s' => s'.Unwound u F)

/-- The call takes the claims `t` and gives `g`, and does not unwind. -/
def Saves (t : Multiset ObjId) (r : Walk α) (g : α → Multiset ObjId) : Prop :=
  ∀ (s : Session) (F : Multiset ObjId), s.Books (t + F) →
    Ends r s (fun a s' => s'.Books (g a + F)) (fun _ s' => s'.Overrun)

theorem Saves.keeps (hr : Saves t r g) : Keeps t r g :=
  fun s F hs => (hr s F hs).mono (fun _ _ h => h) (fun _ _ h => h.unwound)

theorem Keeps.bind (hr : Keeps t r g) (hf : ∀ a, Keeps (g a) (f a) k) : Keeps t (r >>= f) k := by
  intro s F hs
  rw [ends_bind]
  exact (hr s F hs).mono (fun a s' hs' => hf a s' F hs') (fun _ _ h => h)

theorem Saves.bind (hr : Saves t r g) (hf : ∀ a, Saves (g a) (f a) k) : Saves t (r >>= f) k := by
  intro s F hs
  rw [ends_bind]
  exact (hr s F hs).mono (fun a s' hs' => hf a s' F hs') (fun _ _ h => h)

theorem Saves.pure (a : α) (ht : t = g a) : Saves t (pure a) g := by
  intro s F hs
  rw [ht] at hs
  exact hs

/-- An action leaves the claims of its outcome or of its failure. -/
theorem Handles.keeps {r : Step α} (hr : Handles 0 t r g) :
    Keeps t (ExceptT.run r) (resultClaims (fun f => f.claims) g) := by
  intro s F hs
  refine Ends.mono (hr s F (Multiset.zero_subset F) hs) (fun result s' hs' => ?_)
    (fun u s' hs' => hs')
  cases result with
  | ok a => exact hs'
  | error f => exact hs'

theorem Keeps.handles (hr : Keeps t r g) : Handles B t (liftM r : Step α) g :=
  fun s F _ hs => (finishes_walk r).mpr (hr s F hs)

/-- Answers that are noted on the side hold no claims. -/
theorem Keeps.withAnswers (hr : Keeps t r g) : Keeps t (withAnswers r) (fun p => g p.1) := by
  intro s F hs
  unfold ObjectBridge.withAnswers
  rw [ends_bind, ends_get, ends_bind, ends_modify, ends_tryFinally']
  refine (hr _ F (hs.withFinished [])).mono (fun a s' hs' => ?_) (fun u s' hs' => ?_)
  · simp only [ends_bind, ends_get, ends_modify, ends_pure]
    exact hs'.withFinished _
  · simp only [ends_bind, ends_get, ends_modify, ends_pure]
    exact hs'.withFinished _

theorem releaseAll_saves (claims : List ObjId) :
    Saves claims (callBridge (releaseAll claims)) (fun _ => 0) := by
  intro s F hs
  have hb := hs.bridge
  rw [add_assoc] at hb
  rw [ends_callBridge]
  exact ends_releaseAll hb (fun h => Session.Books.zero ⟨hs.sorted, h⟩)
    (fun _ _ h => ⟨hs.sorted, h⟩)

/-- Binding a variable takes the claims of its content, and those of the old content are given back.
-/
theorem bind_saves (name : String) (x : Slot) : Saves x.claims (bind name x) (fun _ => 0) := by
  intro s F hs
  have hbound : { s with slots := bindSorted name x s.slots }.Books
      ((((Assoc.find? name s.slots).map Slot.claims).getD [] : List ObjId) + F) := by
    refine ⟨hs.sorted.bind name x, ?_⟩
    have hb := hs.bridge
    unfold Session.claims at hb
    rw [add_right_comm, ← add_assoc, ← slotsClaims_bind hs.sorted name x] at hb
    convert hb using 1
    unfold Session.claims
    abel
  unfold bind
  rw [ends_bind, ends_get, ends_bind]
  change Ends _ { s with slots := bindSorted name x s.slots } _ _
  cases hold : Assoc.find? name s.slots with
  | none =>
    rw [hold] at hbound
    exact hbound
  | some y =>
    rw [hold] at hbound
    exact releaseAll_saves y.claims _ F hbound

theorem keep_saves (name : Option String) (x : Slot) :
    Saves x.claims (keep name x) (fun _ => 0) := by
  cases name with
  | none => exact releaseAll_saves x.claims
  | some name => exact bind_saves name x

/-- What a step left is bound to a variable or given back. -/
theorem settle_saves (result error : Option String) (outcome : Except Failure Outcome) :
    Saves (resultClaims (fun f => f.claims) Outcome.claims outcome)
      (settle result error outcome) (fun _ => 0) := by
  cases outcome with
  | ok outcome =>
    obtain ⟨report, left⟩ := outcome
    cases left with
    | none => exact .pure _ rfl
    | some x => exact (keep_saves result x).bind fun _ => .pure _ rfl
  | error f => exact (keep_saves error (.error f)).bind fun _ => .pure _ rfl

end Walks

/-! ## Traps -/

/-- The message of an error object can be read. -/
theorem ends_message {b : Bridge} {host : Multiset ObjId} {err : ObjId} (hb : b.Books host)
    (he : b.Bounded → b.heap.IsErr err) :
    Ends (ErrObj.message err) b (fun _ b' => b' = b) (fun _ b' => b'.Overrun) := by
  have hover (h : Heap) (j : Array Entry) (hu : ¬ b.Bounded) :
      { b with heap := h, journal := j }.Overrun :=
    ⟨⟨hb.started, hb.hooks, hb.truths, hb.classes⟩, hu⟩
  unfold ErrObj.message certify readObj
  rw [ends_bind, ends_bind, ends_get]
  cases hx : b.heap.get? err with
  | none =>
    refine ⟨hb.toRunning, fun hu => ?_⟩
    obtain ⟨x, _, hx', -⟩ := he hu
    rw [hx] at hx'
    cases hx'
  | some x =>
    rw [ends_pure]
    by_cases hsub : x.cls.isSubclassOf .err = true
    · rw [if_pos hsub]
      cases hp : x.payload.err? with
      | some m => rfl
      | none =>
        refine (ends_raise hb.hooks _).mpr (hover _ _ fun hu => ?_)
        obtain ⟨y, m, hy, -, hpay⟩ := he hu
        rw [hx] at hy
        cases hy
        rw [hpay] at hp
        cases hp
    · rw [if_neg hsub]
      refine (ends_raise hb.hooks _).mpr (hover _ _ fun hu => hsub ?_)
      obtain ⟨y, m, hy, hcls, -⟩ := he hu
      rw [hx] at hy
      cases hy
      exact hcls

section Traps

variable {α : Type} {s : Session} {F : Multiset ObjId}

/-- The session accounts for an exception object that a trap has caught. -/
structure Session.Caught (s : Session) (err : ObjId) (F : Multiset ObjId) : Prop where
  books : s.Books ({err} + F)
  isErr : s.bridge.Bounded → s.bridge.heap.IsErr err

theorem Session.Books.journal {extra : Multiset ObjId} (hs : s.Books extra) (j : Array Entry) :
    { s with bridge := { s.bridge with journal := j } }.Books extra :=
  ⟨hs.sorted, hs.bridge.journal j⟩

theorem ends_log_walk (level : Level) (text : String) {ok : Unit → Session → Prop}
    {bad : Unwind → Session → Prop} :
    Ends (liftM (log level text) : Walk Unit) s ok bad ↔
      ok () { s with
          bridge := { s.bridge with journal := s.bridge.journal.push (.log level text) } } :=
  Iff.rfl

/-- Something has passed a trap, and it carries no claims. -/
structure Session.Passed (s : Session) (u : Unwind) (F : Multiset ObjId) : Prop where
  unwound : s.Unwound u F
  books : s.Books F

theorem Session.Overrun.passed {u : Unwind} (ho : s.Overrun) : s.Passed u F :=
  ⟨ho.unwound, ho.books⟩

/-- What is no exception of the bridge passes its trap. -/
theorem Session.Unwound.passed {u : Unwind} (hs : s.Unwound u F)
    (hu : ∀ err, u ≠ .raised .bridge err) :
    s.Passed u F := by
  refine ⟨hs, hs.sorted, hs.bridge.books.toRunning, fun hb => ?_⟩
  have hsane := hs.bridge.sane hb
  have hsound := hs.bridge.books.sound hb
  have hfree (hnone : u.claims = 0) : s.bridge.Sound (F + s.claims) := by
    rwa [hnone, zero_add] at hsound
  cases u with
  | raised via err =>
    obtain ⟨hvia, -⟩ := hsane
    exact absurd (congrArg (fun v => Unwind.raised v err) hvia) (hu err)
  | fault _ => exact hfree rfl
  | dangling _ => exact hfree rfl
  | endless => exact hfree rfl

/-- A trap catches the exceptions of the bridge. -/
theorem ends_catchForeign {routine : Walk α} {g : α → Multiset ObjId} (hs : s.Books F)
    (hr : Keeps 0 routine g) :
    Ends (catchForeign routine) s
      (fun result s' => match result with
        | .ok a => s'.Books (g a + F)
        | .error err => s'.Caught err F)
      (fun u s' => s'.Passed u F) := by
  unfold catchForeign
  rw [ends_bind, ends_log_walk, ends_tryCatchThe, ends_map]
  refine (hr _ F (hs.journal _).zero).mono (fun a s' hs' => hs') (fun u s' hs' => ?_)
  split
  · rename_i err
    rw [ends_bind, ends_log_walk, ends_pure]
    have hbooks := hs'.bridge.books
    rw [← add_assoc] at hbooks
    exact ⟨Session.Books.journal ⟨hs'.sorted, hbooks⟩ _, fun hu => (hs'.bridge.sane hu).2⟩
  · rename_i u hu
    rw [ends_throwThe]
    exact hs'.passed hu

/-- A caught exception is turned into its message and a claim on it. -/
theorem ends_message_walk {err : ObjId} (hs : s.Caught err F) :
    Ends (liftM (ErrObj.message err) : Walk String) s (fun _ s' => s'.Books ({err} + F))
      (fun _ s' => s'.Overrun) := by
  refine (ends_callBridge _).mpr ((ends_message hs.books.bridge hs.isErr).mono (fun _ b' hb => ?_)
    (fun _ b' ho => ?_))
  · rw [hb]
    exact hs.books
  · exact ⟨hs.books.sorted, ho⟩

/-- An exception that leaves a routine becomes an error of the host. -/
theorem ends_runTrapped {routine : Walk α} {g : α → Multiset ObjId} (hs : s.Books F)
    (hr : Keeps 0 routine g) :
    Ends (runTrapped routine) s
      (fun result s' => s'.Books (resultClaims (fun t => {t.err}) g result + F))
      (fun u s' => s'.Passed u F) := by
  unfold runTrapped
  rw [ends_bind]
  refine (ends_callBridge start).mpr ((ends_start hs.bridge.started).mpr ?_)
  rw [ends_bind]
  refine (ends_catchForeign hs hr).mono (fun result s' hs' => ?_) (fun _ _ h => h)
  cases result with
  | ok a => exact hs'
  | error err =>
    rw [ends_bind]
    exact (ends_message_walk hs').mono (fun _ _ h => h) (fun _ _ h => h.passed)

/-- The claims of what a trap leaves. -/
def caughtClaims (caught : Option (String × Slot)) : Multiset ObjId :=
  ((caught.map fun c => c.2.claims).getD [] : List ObjId)

/-- A trap leaves a claim on the exception that it caught. -/
theorem trapRoutine_keeps {routine : Walk Unit} (byHooks : Bool)
    (hr : Keeps 0 routine (fun _ => 0)) :
    Keeps 0 (trapRoutine byHooks routine) caughtClaims := by
  intro s F hs
  replace hs := hs.of_zero
  unfold trapRoutine
  cases byHooks with
  | true =>
    rw [if_pos rfl, ends_bind]
    unfold ObjectBridge.trap
    rw [ends_bind]
    refine (ends_callBridge get).mpr (ends_get.mpr ?_)
    rw [hs.bridge.hooks]
    dsimp only
    rw [ends_bind]
    refine (ends_catchForeign hs hr).mono (fun result s' hs' => ?_) (fun _ _ h => h.unwound)
    cases result with
    | ok _ => exact hs'
    | error err =>
      rw [ends_pure, ends_bind]
      exact (ends_message_walk hs').mono (fun _ _ h => h) (fun _ _ h => h.unwound)
  | false =>
    rw [if_neg (by simp), ends_bind]
    refine (ends_runTrapped hs hr).mono (fun result s' hs' => ?_) (fun _ _ h => h.unwound)
    cases result with
    | ok _ => exact hs'
    | error t => exact hs'

end Traps

/-! ## Instructions -/

/-- Induction on an instruction, with a hypothesis for each step of a routine. -/
theorem Instruction.induction {P : Instruction → Prop}
    (act : ∀ a result error, P (.act a result error))
    (trap : ∀ byHooks routine result error, (∀ i ∈ routine, P i) →
      P (.trap byHooks routine result error))
    (lend : ∀ on move routine loan result error, (∀ i ∈ routine, P i) →
      P (.lend on move routine loan result error)) :
    ∀ i, P i
  | .act a result error => act a result error
  | .trap byHooks routine result error =>
    trap byHooks routine result error fun i _ => induction act trap lend i
  | .lend on move routine loan result error =>
    lend on move routine loan result error fun i _ => induction act trap lend i
termination_by i => sizeOf i
decreasing_by
  all_goals
    rename_i hi
    have := List.sizeOf_lt_of_mem hi
    simp
    omega

mutual

/-- All actions of the instruction are lawful. -/
def Instruction.Lawful : Instruction → Prop
  | .act a _ _ => a.Lawful
  | .trap _ routine _ _ => LawfulRoutine routine
  | .lend _ _ routine _ _ _ => LawfulRoutine routine

/-- All instructions of a routine are lawful. -/
def LawfulRoutine : List Instruction → Prop
  | [] => True
  | i :: rest => i.Lawful ∧ LawfulRoutine rest

end

theorem LawfulRoutine.of_mem {routine : List Instruction} (hl : LawfulRoutine routine)
    {i : Instruction} (hi : i ∈ routine) : i.Lawful := by
  induction routine with
  | nil => cases hi
  | cons j rest ih =>
    unfold LawfulRoutine at hl
    rcases List.mem_cons.mp hi with rfl | hrest
    · exact hl.1
    · exact ih hl.2 hrest

section Instructions

variable {filter : LogFilter}

/-- The end of a step in a routine: its answer is noted, together with the journal. -/
theorem noteAnswer_keeps (r : Report) :
    Keeps 0 (do noteAnswer (r.extend (← takeJournal filter)) : Walk Unit) (fun _ => 0) :=
  fun _ _ hs => (hs.journal _).withFinished _

theorem runRoutine_keeps (routine : List Instruction)
    (hi : ∀ i ∈ routine, Keeps 0 (i.run filter) (fun _ => 0)) :
    Keeps 0 (runRoutine filter routine) (fun _ => 0) := by
  induction routine with
  | nil =>
    unfold runRoutine
    exact fun _ _ hs => hs
  | cons i rest ih =>
    have hrest := ih fun j hj => hi j (List.mem_cons_of_mem i hj)
    unfold runRoutine
    refine (hi i List.mem_cons_self).bind fun r => ?_
    rw [← bind_assoc]
    exact (noteAnswer_keeps r).bind fun _ => hrest

theorem Loan.finish_handles {B : Multiset ObjId} {o : ObjId} (loan : Loan) (ho : {o} ⊆ B) :
    Handles B 0 (loan.finish o) Outcome.claims := by
  cases loan with
  | look => exact ((brief_succeeds o).transfers.weaken ho).handles.bind fun r => .pure _ rfl
  | raise message => exact (throwForeign_transfers message _).handles
  | fault message => exact (fault_transfers message _).handles
  | fail => exact .throw _ rfl

/-- A claim that is lent is there while the routine runs and while the object is used, and is given
back. -/
theorem lendRoutine_handles (on : String) (move : Bool) {routine : Walk Unit} (loan : Loan)
    (hr : Keeps 0 routine (fun _ => 0)) :
    Handles 0 0 (lendRoutine on move routine loan) Outcome.claims := by
  refine (claimObject_handles on move).bind fun o => Handles.lend [o] ?_
  exact hr.handles.bind fun _ => loan.finish_handles (by simp)

/-- Whatever an instruction does and however it ends, all claims are accounted for. -/
theorem Instruction.run_keeps (i : Instruction) (hl : i.Lawful) :
    Keeps 0 (i.run filter) (fun _ => 0) := by
  induction i using Instruction.induction with
  | act a result error =>
    unfold Instruction.Lawful at hl
    unfold Instruction.run
    exact (a.run_handles hl).keeps.bind fun outcome => (settle_saves result error outcome).keeps
  | trap byHooks routine result error ih =>
    unfold Instruction.Lawful at hl
    have hroutine := runRoutine_keeps routine fun i hi => ih i hi (hl.of_mem hi)
    unfold Instruction.run
    refine (trapRoutine_keeps byHooks hroutine).withAnswers.bind fun p s F hs => ?_
    refine (settle_saves result error (.ok ⟨_, p.1.map Prod.snd⟩)).keeps s F ?_
    change s.Books ((((p.1.map Prod.snd).map Slot.claims).getD [] : List ObjId) + F)
    rw [Option.map_map]
    exact hs
  | lend on move routine loan result error ih =>
    unfold Instruction.Lawful at hl
    have hroutine := runRoutine_keeps routine fun i hi => ih i hi (hl.of_mem hi)
    unfold Instruction.run
    refine (lendRoutine_handles on move loan hroutine).keeps.withAnswers.bind fun p => ?_
    obtain ⟨outcome, inner⟩ := p
    exact (settle_saves result error outcome).keeps.bind fun _ => (Saves.pure _ rfl).keeps

/-- A top-level instruction leaves the claims of the session and no others. -/
theorem Instruction.guarded_books (i : Instruction) (hl : i.Lawful) {s : Session} (hs : s.Books 0) :
    Ends (i.guarded filter) s (fun _ s' => s'.Books 0) (fun _ s' => s'.Books 0) := by
  unfold Instruction.guarded
  rw [ends_bind]
  refine (ends_runTrapped hs (i.run_keeps hl)).mono (fun result s' hs' => ?_)
    (fun u s' hs' => hs'.books)
  cases result with
  | ok r => exact hs'
  | error t =>
    exact (settle_saves none i.errorName (.error (.bridge (.trapped t))) s' 0 hs').mono
      (fun _ _ h => h)
      (fun _ _ h => h.books)

/-- A session accounts for its claims after a top-level instruction, however it ended. -/
theorem Instruction.answer_books (i : Instruction) (hl : i.Lawful) {s : Session} (hs : s.Books 0) :
    ((i.answer filter).run s).2.Books 0 := by
  have hends : Ends (i.guarded filter) s (fun _ s' => s'.Books 0) (fun _ s' => s'.Books 0) :=
    i.guarded_books hl hs
  exact (hends.final.withFinished []).journal #[]

/-- At the end all variables are given back. -/
theorem dropAll_saves : Saves 0 dropAll (fun _ => 0) := by
  intro s F hs
  unfold dropAll
  rw [ends_bind, ends_get, ends_bind, ends_set, ends_callBridge]
  have hbridge := hs.bridge
  unfold Session.claims at hbridge
  rw [zero_add, add_left_comm] at hbridge
  refine (forM_succeeds (fun e => releaseAll_succeeds _) s.slots s.bridge _ (Multiset.zero_subset _)
    hbridge).mono (fun _ b' hb => ⟨List.Pairwise.nil, ?_⟩) (fun _ b' ho => ⟨List.Pairwise.nil, ho⟩)
  change b'.Books (0 + F + (0 + (s.bare : Multiset ObjId)))
  rw [add_assoc, zero_add (s.bare : Multiset ObjId)]
  exact hb

end Instructions

end ObjectBridge
