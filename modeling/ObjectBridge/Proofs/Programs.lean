import ObjectBridge.Proofs.Building
import ObjectBridge.Proofs.Scripts

set_option autoImplicit false

/-!
# Programs of nested traps (SPEC §4.4, §12.1, §12.4)

A `Program` is what a host program does with the bridge: calls, claims lent to routines, claims held
while a routine runs, and routines under the two kinds of trap, nested in any way.  `Program.run`
runs it by the functions of the bridge. `Program.ending` says what should come of it without using
any of these: a raise or a fault stops the routines around it up to the innermost trap that takes
it, and remembers the state in which it happened and the claims of the routines that it stopped.

`Owns` says which claims a program uses, takes over and answers with.  It is the discipline by which
no claim is used after it was given away and none is forgotten.  `HasRoom` says that the counts have
room for the claims that each call adds when its turn comes; a program that adds none always has
room.
-/

namespace ObjectBridge

open Heap

/-- A host program.  A call may be any work on objects, a raise or a fault; it is noted how many
claims on each object it adds to those that are counted. -/
inductive Program : Type → Type 1 where
  | done {α : Type} (a : α) : Program α
  | call {α β : Type} (r : Run β) (adds : Bridge → ObjId → Nat) (next : β → Program α) : Program α
  /-- lend the claim on an object to a routine, and give it back on every way out -/
  | lending {α β : Type} (o : ObjId) (routine : Program β) (next : β → Program α) : Program α
  /-- keep claims while a routine runs, and give them back if it does not return -/
  | holding {α β : Type} (claims : List ObjId) (routine : Program β)
    (next : β → Program α) : Program α
  | runTrapped {α β : Type} (routine : Program β)
    (next : Except TrappedError β → Program α) : Program α
  | trap {α : Type} (routine : Program Unit) (next : Option ObjId → Program α) : Program α

/-- How a program ends: it returns, or something stopped it in some state, in which the stopped
routines still had their claims, listed from the innermost routine outwards. -/
inductive Ending (α : Type) where
  | returned (a : α) (b : Bridge)
  | stopped (u : Unwind) (b : Bridge) (frames : List ObjId)

namespace Bridge

/-- A trap notes that it is entered. -/
def entering (b : Bridge) : Bridge :=
  { b with journal := b.journal.push (.log .trace "entering trap boundary") }

/-- A trap notes that it has taken an exception. -/
def trapping (b : Bridge) : Bridge :=
  { b with journal := b.journal.push (.log .trace "trapped clownfish exception") }

/-- The state in which an exception arrives at its trap: the routines on the way have given back
their claims. -/
def delivered (b : Bridge) (frames : List ObjId) : Bridge := (b.swept frames).trapping

/-- The message that an error object has at the moment. -/
def messageOf (b : Bridge) (err : ObjId) : String :=
  ((b.heap.get? err).bind fun x => x.payload.err?).getD ""

end Bridge

/-- What becomes of an ending at a trap.  The exception arrives when the stopped routines have given
back their claims; whatever is no exception of the bridge passes. -/
def Ending.atTrap {α β : Type} (e : Ending β) (returns : β → Bridge → Ending α)
    (catches : ObjId → Bridge → Ending α) :
    Ending α :=
  match e with
  | returned a b => returns a b
  | stopped (.raised .bridge err) b frames => catches err (b.delivered frames)
  | stopped u b frames => .stopped u b frames

/-- What becomes of an ending at a routine that holds claims of its own. -/
def Ending.inFrame {α β : Type} (e : Ending β) (claims : List ObjId)
    (returns : β → Bridge → Ending α) : Ending α :=
  match e with
  | returned a b => returns a b
  | stopped u b frames => .stopped u b (frames ++ claims)

namespace Program

/-- Run a program. -/
def run {α : Type} : Program α → Run α
  | done a => pure a
  | call r _ next => r >>= fun a => (next a).run
  | lending o routine next => withClaims [o] routine.run >>= fun a => (next a).run
  | holding claims routine next =>
    onUnwind (releaseAll claims) routine.run >>= fun a => (next a).run
  | runTrapped routine next => ObjectBridge.runTrapped routine.run >>= fun a => (next a).run
  | trap routine next => ObjectBridge.trap routine.run >>= fun a => (next a).run

/-- What comes of a program.  Each routine is looked at once. -/
def ending {α : Type} : Program α → Bridge → Ending α
  | done a, b => .returned a b
  | call r _ next, b =>
    match (r.run b : Except Unwind _ × Bridge) with
    | (.ok a, b') => (next a).ending b'
    | (.error u, b') => .stopped u b' []
  | lending o routine next, b =>
    (routine.ending b).inFrame [o] fun a b' => (next a).ending (b'.swept [o])
  | holding claims routine next, b =>
    (routine.ending b).inFrame claims fun a b' => (next a).ending b'
  | runTrapped routine next, b =>
    (routine.ending b.entering).atTrap (fun a b' => (next (.ok a)).ending b')
      fun err b' => (next (.error ⟨b'.messageOf err, err⟩)).ending b'
  | trap routine next, b =>
    (routine.ending b.entering).atTrap (fun _ b' => (next none).ending b') fun err b' =>
      (next (some err)).ending b'

end Program

/-- What an ending looks like from outside: the stopped routines have given back their claims. -/
def Ending.result {α : Type} : Ending α → Except Unwind α × Bridge
  | returned a b => (.ok a, b)
  | stopped u b frames => (.error u, b.swept frames)

/-! ## Traps around a single call -/

/-- A trap takes the exceptions of the bridge, and lets everything else pass. -/
def taken (take : ObjId → Bridge → Prop) (pass : Unwind → Bridge → Prop) : Unwind → Bridge → Prop
  | .raised .bridge err, b => take err b
  | u, b => pass u b

section Boundaries

variable {α : Type} {b : Bridge} {bad : Unwind → Bridge → Prop}

theorem ends_catchForeign_call {r : Run α} {ok : Except ObjId α → Bridge → Prop} :
    Ends (catchForeign r : Run (Except ObjId α)) b ok bad ↔
      Ends r b.entering (fun a b' => ok (.ok a) b')
        (taken (fun err b' => ok (.error err) b'.trapping) bad) := by
  unfold catchForeign
  rw [ends_bind]
  change Ends (tryCatchThe Unwind (Except.ok <$> r) _) b.entering ok bad ↔ _
  rw [ends_tryCatchThe, ends_map]
  apply ends_congr (fun _ _ => Iff.rfl)
  intro u b'
  cases u with
  | raised via err => cases via <;> exact Iff.rfl
  | _ => exact Iff.rfl

theorem ends_trap_call {r : Run Unit} (hh : b.hooks = some .bridge)
    {ok : Option ObjId → Bridge → Prop} :
    Ends (trap r : Run (Option ObjId)) b ok bad ↔
      Ends r b.entering (fun _ b' => ok none b')
        (taken (fun err b' => ok (some err) b'.trapping) bad) := by
  have hget : ∀ look : Bridge → Bridge →
      Prop, Ends (liftM (get : Run Bridge) : Run Bridge) b look bad ↔ look b b :=
    fun _ => Iff.rfl
  unfold trap
  rw [ends_bind, hget, hh]
  dsimp only
  rw [ends_bind, ends_catchForeign_call]
  apply ends_congr (fun _ _ => Iff.rfl)
  intro u b'
  cases u with
  | raised via err => cases via <;> exact Iff.rfl
  | _ => exact Iff.rfl

theorem ends_runTrapped_call {r : Run α} (hs : b.started = true)
    {ok : Except TrappedError α → Bridge → Prop} :
    Ends (runTrapped r : Run (Except TrappedError α)) b ok bad ↔
      Ends r b.entering (fun a b' => ok (.ok a) b')
        (taken (fun err b' =>
          Ends (ErrObj.message err) b'.trapping
            (fun m b'' => ok (.error ⟨m, err⟩) b'') bad) bad) := by
  unfold runTrapped
  rw [ends_bind]
  change Ends start b _ bad ↔ _
  rw [ends_start hs, ends_bind, ends_catchForeign_call]
  apply ends_congr (fun _ _ => Iff.rfl)
  intro u b'
  cases u with
  | raised via err =>
    cases via with
    | bridge => exact ends_bind _
    | application => exact Iff.rfl
  | _ => exact Iff.rfl

theorem taken_intro {take : ObjId → Bridge → Prop} {pass : Unwind → Bridge → Prop} {u : Unwind}
    (htake : ∀ err, u = .raised .bridge err → take err b) (hpass : pass u b) :
    taken take pass u b := by
  cases u with
  | raised via err =>
    cases via with
    | bridge => exact htake err rfl
    | application => exact hpass
  | _ => exact hpass

end Boundaries

/-! ## Room for programs -/

/-- What follows an ending is fit to go on: after a return, or after an exception at a trap. -/
def Ending.Continues {β : Type} (returns : β → Bridge → Prop) (catches : ObjId → Bridge → Prop) :
    Ending β → Prop
  | returned a b => returns a b
  | stopped (.raised .bridge err) b frames => catches err (b.delivered frames)
  | stopped _ _ _ => True

namespace Program

/-- At each call that the program makes the counts have room for the claims that it adds. -/
def HasRoom {α : Type} : Program α → Bridge → Prop
  | done _, _ => True
  | call r adds next, b =>
    b.HasRoomFor (adds b) ∧
      match (r.run b : Except Unwind _ × Bridge) with
      | (.ok a, b') => (next a).HasRoom b'
      | (.error _, _) => True
  | lending o routine next, b =>
    routine.HasRoom b ∧
      (routine.ending b).Continues (fun a b' => (next a).HasRoom (b'.swept [o])) fun _ _ => True
  | holding _ routine next, b =>
    routine.HasRoom b ∧
      (routine.ending b).Continues (fun a b' => (next a).HasRoom b') fun _ _ => True
  | runTrapped routine next, b =>
    routine.HasRoom b.entering ∧
      (routine.ending b.entering).Continues (fun a b' => (next (.ok a)).HasRoom b')
        fun err b' => (next (.error ⟨b'.messageOf err, err⟩)).HasRoom b'
  | trap routine next, b =>
    routine.HasRoom b.entering ∧
      (routine.ending b.entering).Continues (fun _ b' => (next none).HasRoom b')
        fun err b' => (next (some err)).HasRoom b'

/-- No call adds claims. -/
def AddsNothing {α : Type} : Program α → Prop
  | done _ => True
  | call _ adds next => (∀ b o, adds b o = 0) ∧ ∀ a, (next a).AddsNothing
  | lending _ routine next => routine.AddsNothing ∧ ∀ a, (next a).AddsNothing
  | holding _ routine next => routine.AddsNothing ∧ ∀ a, (next a).AddsNothing
  | runTrapped routine next => routine.AddsNothing ∧ ∀ a, (next a).AddsNothing
  | trap routine next => routine.AddsNothing ∧ ∀ a, (next a).AddsNothing

end Program

theorem Ending.continues_of_forall {β : Type} {returns : β → Bridge → Prop}
    {catches : ObjId → Bridge → Prop} (hreturns : ∀ a b, returns a b)
    (hcatches : ∀ err b, catches err b) (e : Ending β) : e.Continues returns catches := by
  unfold Continues
  split
  · exact hreturns _ _
  · exact hcatches _ _
  · trivial

/-- Where no claims are added there is always room. -/
theorem Program.AddsNothing.hasRoom {α : Type} {p : Program α} (hp : p.AddsNothing) (b : Bridge) :
    p.HasRoom b := by
  induction p generalizing b with
  | done a => trivial
  | call r adds next ih =>
    rw [HasRoom]
    refine ⟨fun o x _ _ => ?_, ?_⟩
    · rw [hp.1 b o, Nat.add_zero]
      exact x.count.toNat_lt
    · split
      · exact ih _ (hp.2 _) _
      · trivial
  | lending o routine next ihr ihn =>
    exact ⟨ihr hp.1 b, Ending.continues_of_forall (fun a b' => ihn a (hp.2 a) _)
      (fun _ _ => trivial) _⟩
  | holding claims routine next ihr ihn =>
    exact ⟨ihr hp.1 b, Ending.continues_of_forall (fun a b' => ihn a (hp.2 a) _)
      (fun _ _ => trivial) _⟩
  | runTrapped routine next ihr ihn =>
    exact ⟨ihr hp.1 _, Ending.continues_of_forall (fun a b' => ihn _ (hp.2 _) _)
      (fun err b' => ihn _ (hp.2 _) _) _⟩
  | trap routine next ihr ihn =>
    exact ⟨ihr hp.1 _, Ending.continues_of_forall (fun a b' => ihn _ (hp.2 _) _)
      (fun err b' => ihn _ (hp.2 _) _) _⟩

/-! ## Claims of programs -/

/-- A call that borrows `B` and takes `t` leaves the counts bounded if they have room for the claims
that it adds. -/
def Fits {α : Type} (B t : Multiset ObjId) (r : Run α) (adds : Bridge → ObjId → Nat) : Prop :=
  ∀ b F, B ⊆ F → b.Books (t + F) → b.Bounded → b.HasRoomFor (adds b) → (r.run b).2.Bounded

/-- The claims that come out of a trap around a routine that answers with the claims `m`. -/
def trapClaims (m : Multiset ObjId) : Option ObjId → Multiset ObjId
  | none => m
  | some err => {err}

/-- The claims that come out of a routine whose exceptions become errors. -/
abbrev trappedClaims {α : Type} (g : α → Multiset ObjId) : Except TrappedError α → Multiset ObjId :=
  resultClaims (fun e => {e.err}) g

section Transfers

variable {α : Type} {B t : Multiset ObjId} {g : α → Multiset ObjId}

theorem runTrapped_transfers {r : Run α} (hr : Transfers B t r g) :
    Transfers B t (runTrapped r : Run (Except TrappedError α)) (trappedClaims g) := by
  intro b F hB hb
  rw [ends_runTrapped_call hb.started]
  refine (hr b.entering F hB (hb.journal _)).mono (fun _ _ h => h) (fun u b' hw => ?_)
  apply taken_intro _ hw
  rintro err rfl
  have hbooks : b'.trapping.Books ({err} + F) := hw.books.journal _
  refine (ends_message hbooks fun hu => (hw.sane hu).2).mono (fun m b'' heq => ?_)
    (fun _ _ ho => ho.unwound)
  rw [heq]
  exact hbooks

theorem trap_transfers {r : Run Unit} {g : Unit → Multiset ObjId} (hr : Transfers B t r g) :
    Transfers B t (trap r : Run (Option ObjId)) (trapClaims (g ())) := by
  intro b F hB hb
  rw [ends_trap_call hb.hooks]
  refine (hr b.entering F hB (hb.journal _)).mono (fun _ _ h => h) (fun u b' hw => ?_)
  apply taken_intro _ hw
  rintro err rfl
  exact hw.books.journal _

end Transfers

namespace Program

/-- The program borrows the claims `B`, takes over `t` and answers with `g`.  What a routine holds
while another runs inside it is borrowed there. -/
inductive Owns : {α : Type} → (B t : Multiset ObjId) → Program α → (α → Multiset ObjId) → Prop
  | done {α : Type} {B t : Multiset ObjId} {g : α → Multiset ObjId} (a : α) (ht : t = g a) :
    Owns B t (.done a) g
  | call {α β : Type} {B t : Multiset ObjId} {g : α → Multiset ObjId} {k : β → Multiset ObjId}
    {r : Run β} {adds : Bridge → ObjId → Nat} {next : β → Program α} (hr : Transfers B t r k)
    (hfits : Fits B t r adds) (hnext : ∀ a, Owns B (k a) (next a) g) :
    Owns B t (.call r adds next) g
  | lending {α β : Type} {B t t' : Multiset ObjId} {g : α → Multiset ObjId} {k : β → Multiset ObjId}
    {o : ObjId} {routine : Program β} {next : β → Program α} (ht : t = ([o] : List ObjId) + t')
    (hroutine : Owns (([o] : List ObjId) + B) t' routine k) (hnext : ∀ a, Owns B (k a) (next a) g) :
    Owns B t (.lending o routine next) g
  | holding {α β : Type} {B t t' : Multiset ObjId} {g : α → Multiset ObjId} {k : β → Multiset ObjId}
    {claims : List ObjId} {routine : Program β} {next : β → Program α} (ht : t = claims + t')
    (hroutine : Owns (claims + B) t' routine k) (hnext : ∀ a, Owns B (claims + k a) (next a) g) :
    Owns B t (.holding claims routine next) g
  | runTrapped {α β : Type} {B t : Multiset ObjId} {g : α → Multiset ObjId} {k : β → Multiset ObjId}
    {routine : Program β} {next : Except TrappedError β → Program α} (hroutine : Owns B t routine k)
    (hnext : ∀ result, Owns B (trappedClaims k result) (next result) g) :
    Owns B t (.runTrapped routine next) g
  | trap {α : Type} {B t : Multiset ObjId} {g : α → Multiset ObjId} {k : Unit → Multiset ObjId}
    {routine : Program Unit} {next : Option ObjId → Program α} (hroutine : Owns B t routine k)
    (hnext : ∀ caught, Owns B (trapClaims (k ()) caught) (next caught) g) :
    Owns B t (.trap routine next) g

variable {α : Type} {B t F : Multiset ObjId} {g : α → Multiset ObjId} {p : Program α}

theorem Owns.transfers (hp : Owns B t p g) : Transfers B t p.run g := by
  induction hp with
  | done a ht => exact .pure a ht
  | call hr _ _ ih => exact hr.bind ih
  | lending ht _ _ ihr ihn => exact ((ihr.withClaims _).cast ht fun _ => rfl).bind ihn
  | holding ht _ _ ihr ihn =>
    exact ((Transfers.onUnwind (releaseAll_cleans _) ihr).cast ht fun _ => rfl).bind ihn
  | runTrapped _ _ ihr ihn => exact (runTrapped_transfers ihr).bind ihn
  | trap _ _ ihr ihn => exact (trap_transfers ihr).bind ihn

end Program

end ObjectBridge
