import ObjectBridge.Proofs.ConsumedClaims
import ObjectBridge.Proofs.Programs

set_option autoImplicit false

/-!
# What reaches a trap (SPEC §4.4, §8, §12.4)

Running a program gives what its ending says, however its routines and traps are nested.  The proof
goes by the constructs of programs: a routine that holds claims gives them back after the routines
inside it have done so, and the two kinds of trap treat a routine in the same way (`Boundary`).

Claims are given back on the way to a trap, which works because all claims are accounted for; this
needs counts that have not overrun.  The counts have room for the claims that the calls add, so they
stay bounded along the whole run, and giving back claims needs no room.
-/

namespace ObjectBridge

open Heap

/-! ## Claims given back in turn -/

section Swept

variable {b : Bridge} {u : Unwind} {claims : List ObjId} {F : Multiset ObjId}

theorem Bridge.Unwound.sound (hw : b.Unwound u (claims + F)) (hu : b.Bounded) :
    b.Sound (claims + (u.claims + F)) := by
  have hsound := hw.books.sound hu
  rwa [← add_assoc, add_comm u.claims, add_assoc] at hsound

theorem Bridge.Unwound.stop_eq_none (hw : b.Unwound u (claims + F)) (hu : b.Bounded) :
    (b.heap.sweep claims).stop = none := ((hw.sound hu).sweep b.journal).1

end Swept

/-! ## Routines with claims -/

/-- A call around a routine treats it as a routine with claims does: it answers with the result and
leaves what `leave` makes of the state, or it gives back its claims and is stopped as well. -/
structure Frame {β : Type} (claims : List ObjId) (routine call : Run β) (leave : Bridge → Bridge) :
    Prop where
  returned : ∀ {b a b' host}, routine.run b = (.ok a, b') → b'.Sound (claims + host) →
    call.run b = (.ok a, leave b')
  stopped : ∀ {b u b' host}, routine.run b = (.error u, b') → b'.Sound (claims + host) →
    call.run b = (.error u, b'.swept claims)

section Frame

variable {α : Type} (claims : List ObjId) (r : Run α)

theorem frame_withClaims : Frame claims r (withClaims claims r) (fun b => b.swept claims) := by
  constructor
  · intro b a b' host hr hs
    apply Ends.run_ok
    rw [ends_withClaims, ends_of_run_ok hr, ends_releaseAll_sound hs]
    exact ⟨rfl, rfl⟩
  · intro b u b' host hr hs
    apply Ends.run_error
    rw [ends_withClaims, ends_of_run_error hr, ends_releaseAll_sound hs]
    exact ⟨rfl, rfl⟩

theorem frame_onUnwind : Frame claims r (onUnwind (releaseAll claims) r) id := by
  constructor
  · intro b a b' host hr _
    apply Ends.run_ok
    rw [ends_onUnwind, ends_of_run_ok hr]
    exact ⟨rfl, rfl⟩
  · intro b u b' host hr hs
    apply Ends.run_error
    rw [ends_onUnwind, ends_of_run_error hr, ends_releaseAll_sound hs]
    exact ⟨rfl, rfl⟩

end Frame

/-! ## Traps -/

/-- A call around a routine treats it as a trap does: it answers what `returns` makes of the result,
or what `catches` makes of an exception of the bridge and of the state in which that arrives;
whatever else stops the routine stops the call. -/
structure Boundary {β γ : Type} (b : Bridge) (routine : Run β) (call : Run γ) (returns : β → γ)
    (catches : ObjId → Bridge → γ) : Prop where
  returned : ∀ a b', routine.run b.entering = (.ok a, b') → call.run b = (.ok (returns a), b')
  raised : ∀ err b', routine.run b.entering = (.error (.raised .bridge err), b') →
    b'.heap.IsErr err →
    call.run b = (.ok (catches err b'.trapping), b'.trapping)
  passing : ∀ u b', routine.run b.entering = (.error u, b') → (∀ err, u ≠ .raised .bridge err) →
    call.run b = (.error u, b')

section Boundary

variable {α : Type} {b : Bridge}

theorem boundary_trap {r : Run Unit} (hh : b.hooks = some .bridge) :
    Boundary b r (trap r) (fun _ => none) (fun err _ => some err) := by
  constructor
  · intro a b' hr
    apply Ends.run_ok
    rw [ends_trap_call hh, ends_of_run_ok hr]
    exact ⟨rfl, rfl⟩
  · intro err b' hr _
    apply Ends.run_ok
    rw [ends_trap_call hh, ends_of_run_error hr]
    exact ⟨rfl, rfl⟩
  · intro u b' hr hu
    apply Ends.run_error
    rw [ends_trap_call hh, ends_of_run_error hr]
    exact taken_intro (fun err heq => absurd heq (hu err)) ⟨rfl, rfl⟩

/-- The message of an error object can be read. -/
theorem run_message {err : ObjId} (he : b.heap.IsErr err) :
    (ErrObj.message err).run b = (.ok (b.messageOf err), b) := by
  obtain ⟨x, m, hx, hsub, hm⟩ := he
  have hview : x.payload.err? = some m := by simp [hm, Payload.err?]
  have hmessage : b.messageOf err = m := by simp [Bridge.messageOf, hx, hview]
  apply Ends.run_ok
  exact (ends_certify_known hx hsub hview).mpr ⟨hmessage.symm, rfl⟩

theorem boundary_runTrapped {r : Run α} (hs : b.started = true) :
    Boundary b r (runTrapped r) Except.ok (fun err b' => .error ⟨b'.messageOf err, err⟩) := by
  constructor
  · intro a b' hr
    apply Ends.run_ok
    rw [ends_runTrapped_call hs, ends_of_run_ok hr]
    exact ⟨rfl, rfl⟩
  · intro err b' hr he
    have hmessage : (ErrObj.message err).run b'.trapping =
        (.ok (b'.trapping.messageOf err), b'.trapping) :=
      run_message (b := b'.trapping) he
    apply Ends.run_ok
    rw [ends_runTrapped_call hs, ends_of_run_error hr]
    exact (ends_of_run_ok hmessage).mpr ⟨rfl, rfl⟩
  · intro u b' hr hu
    apply Ends.run_error
    rw [ends_runTrapped_call hs, ends_of_run_error hr]
    exact taken_intro (fun err heq => absurd heq (hu err)) ⟨rfl, rfl⟩

end Boundary

theorem Ending.atTrap_passing {α β : Type} {u : Unwind} (hu : ∀ err, u ≠ .raised .bridge err)
    (b : Bridge) (frames : List ObjId) (returns : β → Bridge → Ending α)
    (catches : ObjId → Bridge → Ending α) :
    (Ending.stopped u b frames).atTrap returns catches = .stopped u b frames := by
  cases u with
  | raised via err =>
    cases via with
    | bridge => exact absurd rfl (hu err)
    | application => rfl
  | _ => rfl

/-! ## Programs run to their endings -/

namespace Program

variable {α β γ : Type} {B t F : Multiset ObjId} {g : α → Multiset ObjId} {p : Program α}
  {b b' : Bridge}

/-- The program runs to its ending, with bounded counts.  If something stops it then the claims of
the stopped routines are still there, besides what is on its way and the claims `F` of everyone
else. -/
structure Agrees (p : Program α) (b : Bridge) (F : Multiset ObjId) : Prop where
  run : p.run.run b = (p.ending b).result
  stopped : ∀ u b' frames, p.ending b = .stopped u b' frames → b'.Unwound u (frames + F)
  bounded : (p.run.run b).2.Bounded

theorem Agrees.run_of_returned {a : α} (hp : p.Agrees b F) (hend : p.ending b = .returned a b') :
    p.run.run b = (.ok a, b') := by
  rw [hp.run, hend]
  rfl

theorem Agrees.run_of_stopped {u : Unwind} {frames : List ObjId} (hp : p.Agrees b F)
    (hend : p.ending b = .stopped u b' frames) : p.run.run b = (.error u, b'.swept frames) := by
  rw [hp.run, hend]
  rfl

/-- The program runs to its ending wherever the claims that it borrows and takes over are accounted
for and the counts have room. -/
def Settles (B t : Multiset ObjId) (p : Program α) : Prop :=
  ∀ b F, B ⊆ F → b.Books (t + F) → b.Bounded → p.HasRoom b → p.Agrees b F

/-- The first part of a program returns, and the rest settles. -/
theorem Agrees.of_next {first : Run β} {next : β → Program α} {a : β}
    (hp : p.run = first >>= fun a => (next a).run) (hfirst : first.run b = (.ok a, b'))
    (hend : p.ending b = (next a).ending b') (hnext : (next a).Agrees b' F) : p.Agrees b F := by
  have hrun : p.run.run b = (next a).run.run b' := by rw [hp, run_bind_of_ok hfirst]
  constructor
  · rw [hrun, hend, hnext.run]
  · rw [hend]
    exact hnext.stopped
  · rw [hrun]
    exact hnext.bounded

/-- The first part of a program stops. -/
theorem Agrees.of_stop {first : Run β} {next : β → Run α} {u : Unwind} {frames : List ObjId}
    (hp : p.run = first >>= next) (hfirst : first.run b = (.error u, b'.swept frames))
    (hend : p.ending b = .stopped u b' frames) (hw : b'.Unwound u (frames + F)) (hu : b'.Bounded) :
    p.Agrees b F := by
  have hrun : p.run.run b = (.error u, b'.swept frames) := by rw [hp, run_bind_of_error hfirst]
  constructor
  · rw [hrun, hend]
    rfl
  · rw [hend]
    rintro _ _ _ ⟨⟩
    exact hw
  · rw [hrun]
    exact hu

section Constructs

variable {k : β → Multiset ObjId} {routine : Program β} {next : β → Program α} {claims : List ObjId}

theorem settles_call {r : Run β} {adds : Bridge → ObjId → Nat} (hr : Transfers B t r k)
    (hfits : Fits B t r adds) (ihn : ∀ a, Settles B (k a) (next a)) :
    Settles B t (.call r adds next) := by
  intro b F hB hb hu hroom
  rw [HasRoom] at hroom
  obtain ⟨hroom, hnext⟩ := hroom
  have hends := hr b F hB hb
  have hu₁ := hfits b F hB hb hu hroom
  cases hrun : (r.run b : Except Unwind β × Bridge) with
  | mk result b₁ =>
    rw [hrun] at hu₁ hnext
    cases result with
    | ok a =>
      exact .of_next rfl hrun (by simp [ending, hrun]) (ihn a b₁ F hB (hends.of_ok hrun) hu₁ hnext)
    | error u =>
      have hend : (Program.call r adds next).ending b = .stopped u b₁ [] := by simp [ending, hrun]
      have hfirst : r.run b = (.error u, b₁.swept []) := by rw [hrun, Bridge.swept_nil]
      exact .of_stop rfl hfirst hend (by simpa using hends.of_error hrun) hu₁

/-- Both kinds of routine with claims.  One that is stopped gives back its claims after the routines
inside it have given back theirs. -/
theorem Agrees.of_frame {call : Run β} {leave : Bridge → Bridge} {m : β → Multiset ObjId}
    (hcall : Frame claims routine.run call leave) (hp : p.run = call >>= fun a => (next a).run)
    (hend : p.ending b = (routine.ending b).inFrame claims fun a b' => (next a).ending (leave b'))
    (hr : Transfers (claims + B) t routine.run k) (ihr : Settles (claims + B) t routine)
    (ihn : ∀ a, Settles B (m a) (next a))
    (hleave : ∀ a b', b'.Books (claims + (k a + F)) → (leave b').Books (m a + F))
    (hkeep : ∀ b', b'.Bounded → (leave b').Bounded) (hB : B ⊆ F) (hb : b.Books (claims + t + F))
    (hu : b.Bounded) (hroom : routine.HasRoom b)
    (hnext : (routine.ending b).Continues (fun a b' => (next a).HasRoom (leave b'))
      fun _ _ => True) :
    p.Agrees b F := by
  have hB' : (claims : Multiset ObjId) + B ⊆ claims + F := add_subset_add hB
  have hcomm : ∀ m : Multiset ObjId, (claims : Multiset ObjId) + m + F = m + (claims + F) :=
    fun m => by abel
  rw [hcomm] at hb
  have hagrees := ihr b _ hB' hb hu hroom
  have hin := hagrees.bounded
  cases hroutine : routine.ending b with
  | returned a b₁ =>
    have hrun := hagrees.run_of_returned hroutine
    have hb₁ := (hr b _ hB' hb).of_ok hrun
    rw [← hcomm, add_assoc] at hb₁
    rw [hrun] at hin
    rw [hroutine] at hend hnext
    exact .of_next hp (hcall.returned hrun (hb₁.sound hin)) hend
      (ihn a _ F hB (hleave a b₁ hb₁) (hkeep b₁ hin) hnext)
  | stopped u b₁ frames =>
    have hrun := hagrees.run_of_stopped hroutine
    have hw := hagrees.stopped u b₁ frames hroutine
    rw [hrun] at hin
    rw [hroutine] at hend
    have hstop := hcall.stopped hrun (hw.swept.sound hin)
    rw [Bridge.swept_append (hw.stop_eq_none hin)] at hstop
    refine .of_stop hp hstop hend ?_ hin
    rwa [← Multiset.coe_add, add_assoc]

/-- Both kinds of trap. -/
theorem Agrees.of_boundary {call : Run γ} {returns : β → γ} {catches : ObjId → Bridge → γ}
    {next : γ → Program α} {m : γ → Multiset ObjId}
    (hcall : Boundary b routine.run call returns catches)
    (hp : p.run = call >>= fun c => (next c).run)
    (hend : p.ending b = (routine.ending b.entering).atTrap
      (fun a b' => (next (returns a)).ending b')
      fun err b' => (next (catches err b')).ending b')
    (hr : Transfers B t routine.run k) (ihr : Settles B t routine)
    (ihn : ∀ c, Settles B (m c) (next c)) (hreturns : ∀ a, m (returns a) = k a)
    (hcatches : ∀ err b', m (catches err b') = {err}) (hB : B ⊆ F) (hb : b.Books (t + F))
    (hu : b.Bounded) (hroom : routine.HasRoom b.entering)
    (hnext : (routine.ending b.entering).Continues (fun a b' => (next (returns a)).HasRoom b')
      fun err b' => (next (catches err b')).HasRoom b') : p.Agrees b F := by
  have hb₀ : b.entering.Books (t + F) := hb.journal _
  have hagrees := ihr b.entering F hB hb₀ hu hroom
  have hin := hagrees.bounded
  cases hroutine : routine.ending b.entering with
  | returned a b₁ =>
    have hrun := hagrees.run_of_returned hroutine
    have hb₁ := (hr b.entering F hB hb₀).of_ok hrun
    rw [← hreturns a] at hb₁
    rw [hrun] at hin
    rw [hroutine] at hend hnext
    exact .of_next hp (hcall.returned a b₁ hrun) hend (ihn _ b₁ F hB hb₁ hin hnext)
  | stopped u b₁ frames =>
    have hrun := hagrees.run_of_stopped hroutine
    have hw := hagrees.stopped u b₁ frames hroutine
    rw [hrun] at hin
    rw [hroutine] at hend hnext
    by_cases hpass : ∀ err, u ≠ .raised .bridge err
    · rw [Ending.atTrap_passing hpass] at hend
      exact .of_stop hp (hcall.passing u _ hrun hpass) hend hw hin
    · obtain ⟨err, rfl⟩ : ∃ err, u = .raised .bridge err := by simpa using hpass
      have hfirst := hcall.raised err _ hrun (hw.swept.sane hin).2
      have hbooks : (b₁.delivered frames).Books (m (catches err (b₁.delivered frames)) + F) := by
        rw [hcatches]
        exact hw.swept.books.journal _
      exact .of_next hp hfirst hend (ihn _ _ F hB hbooks hin hnext)

end Constructs

theorem Owns.settles (hp : Owns B t p g) : Settles B t p := by
  induction hp with
  | done a ht => exact fun b F _ _ hu _ => ⟨rfl, nofun, hu⟩
  | call hr hfits _ ih => exact settles_call hr hfits ih
  | lending ht hroutine _ ihr ihn =>
    intro b F hB hb hu hroom
    rw [ht] at hb
    exact .of_frame (frame_withClaims _ _) rfl rfl hroutine.transfers ihr ihn
      (fun _ _ h => h.sweep _) (fun _ h => h) hB hb hu hroom.1 hroom.2
  | holding ht hroutine _ ihr ihn =>
    intro b F hB hb hu hroom
    rw [ht] at hb
    exact .of_frame (frame_onUnwind _ _) rfl rfl hroutine.transfers ihr ihn
      (fun _ _ h => by rwa [← add_assoc] at h) (fun _ h => h) hB hb hu hroom.1 hroom.2
  | runTrapped hroutine _ ihr ihn =>
    intro b F hB hb hu hroom
    exact .of_boundary (boundary_runTrapped hb.started) rfl rfl hroutine.transfers ihr ihn
      (fun _ => rfl) (fun _ _ => rfl) hB hb hu hroom.1 hroom.2
  | trap hroutine _ ihr ihn =>
    intro b F hB hb hu hroom
    exact .of_boundary (boundary_trap hb.hooks) rfl rfl hroutine.transfers ihr ihn
      (fun _ => rfl) (fun _ _ => rfl) hB hb hu hroom.1 hroom.2

end Program

/-! ## What is thrown -/

/-- The hooks note that an exception is raised. -/
def Bridge.raising (b : Bridge) (message : String) : Bridge :=
  { b with journal := b.journal.push (.log .trace s!"raising clownfish exception: {message}") }

/-- What the ways to throw put on its way: raising an error object that very object, with the heap
as it is, raising a message a new error object with one claim, and a fault its message. -/
structure Bridge.Throws (b : Bridge) : Prop where
  object : ∀ {α : Type} (err : ObjId), b.heap.IsErr err →
    (throwErr err : Run α).run b = (.error (.raised .bridge err), b.raising (b.messageOf err))
  message : ∀ {α : Type} (m : String),
    (throwForeign m : Run α).run b =
      (.error (.raised .bridge b.heap.next),
        { b with heap := b.heap.add ⟨.err, 1, .err m⟩ }.raising m)
  fault : ∀ {α : Type} (m : String), (fault m : Run α).run b = (.error (.fault m), b)

theorem Bridge.Running.throws {b : Bridge} (hb : b.Running) : b.Throws := by
  constructor
  · intro α err he
    apply Ends.run_error
    unfold throwErr ErrObj.throwObj raiseWith
    rw [ends_bind, ends_start hb.started, ends_bind, ends_losing, ends_of_run_ok (run_message he),
      ends_bind, ends_get, hb.hooks]
    exact ⟨rfl, rfl⟩
  · intro α m
    apply Ends.run_error
    unfold throwForeign
    rw [ends_bind, ends_start hb.started, ends_raise hb.hooks]
    exact ⟨rfl, rfl⟩
  · exact fun _ => rfl

/-! ## What arrives -/

/-- Each of the claims is given back once: nothing stops that, and an object that is left has lost
as many counts as claims on it were given back, by the list or by destroyed objects. -/
structure Bridge.GivesBack (b : Bridge) (claims : List ObjId) : Prop where
  done : (b.heap.sweep claims).stop = none
  left : ∀ o x y, b.heap.get? o = some x → (b.swept claims).heap.get? o = some y →
    y.cls = x.cls ∧ y.payload = x.payload ∧ (x.cls.isImmortal = true → y = x) ∧
    (x.cls.isImmortal = false → x.count.toNat = y.count.toNat + claims.count o +
      ((b.heap.sweep claims).destroyed.flatMap fun d => d.2.payload.claims).count o)

theorem Bridge.Sound.givesBack {b : Bridge} {claims : List ObjId} {host : Multiset ObjId}
    (hs : b.Sound (claims + host)) : b.GivesBack claims := by
  have hcounted := hs.counted
  rw [add_assoc] at hcounted
  refine ⟨(hs.sweep b.journal).1, fun o x y hx hy => ?_⟩
  obtain ⟨z, hz, hcls, hpay, him⟩ := sweep_get? b.heap claims hy
  obtain rfl : x = z := Option.some.inj (hx.symm.trans hz)
  exact ⟨hcls, hpay, him, fun hm => count_sweep hcounted hx hm hy⟩

namespace Program

variable {α : Type} {B t F : Multiset ObjId} {g : α → Multiset ObjId} {p : Program α} {b : Bridge}

/-- The program as a routine whose exceptions become errors of the host. -/
abbrev asTrapped (p : Program α) : Run (Except TrappedError α) := ObjectBridge.runTrapped p.run

/-- The program as a routine under the trap of the hooks, which has no use for its result. -/
abbrev asTrap (p : Program α) : Run (Option ObjId) := ObjectBridge.trap ((fun _ => ()) <$> p.run)

/-- How the two kinds of trap, entered in the state `b`, treat a routine.  They answer with its
result and keep what it did; or they get the very error object that was raised, with its message and
its other claims as they are then; or they let something else pass.  The claims of stopped routines
are given back in any case, and everyone else's claims `F` stay accounted for. -/
structure Trapped (p : Program α) (b : Bridge) (F : Multiset ObjId) (g : α → Multiset ObjId) :
    Prop where
  completes : ∀ a b', p.ending b.entering = .returned a b' →
    p.asTrapped.run b = (.ok (.ok a), b') ∧ p.asTrap.run b = (.ok none, b') ∧ b'.Books (g a + F)
  delivers : ∀ via err b' frames, p.ending b.entering = .stopped (.raised via err) b' frames →
    p.asTrapped.run b =
    (.ok (.error ⟨(b'.delivered frames).messageOf err, err⟩), b'.delivered frames) ∧
    p.asTrap.run b = (.ok (some err), b'.delivered frames) ∧
    (b'.delivered frames).heap.IsErr err ∧ b'.GivesBack frames ∧
    (b'.delivered frames).Books ({err} + F)
  passes : ∀ u b' frames, p.ending b.entering = .stopped u b' frames →
    (∀ via err, u ≠ .raised via err) →
    p.asTrapped.run b = (.error u, b'.swept frames) ∧ p.asTrap.run b = (.error u, b'.swept frames) ∧
    (∀ o, u ≠ .dangling o) ∧ b'.GivesBack frames ∧ (b'.swept frames).Books F
  alike : ∀ err b', p.asTrap.run b = (.ok (some err), b') ↔
    ∃ message, p.asTrapped.run b = (.ok (.error ⟨message, err⟩), b')

theorem boundary_asTrap (hh : b.hooks = some .bridge) :
    Boundary b p.run p.asTrap (fun _ => none) (fun err _ => some err) := by
  have htrap := boundary_trap (r := (fun _ => ()) <$> p.run) hh
  constructor
  · exact fun a b' hr => htrap.returned () b' (run_map_of_ok _ hr)
  · exact fun err b' hr he => htrap.raised err b' (run_map_of_error _ hr) he
  · exact fun u b' hr hu => htrap.passing u b' (run_map_of_error _ hr) hu

theorem Owns.delivers (hp : Owns B t p g) (hB : B ⊆ F) (hb : b.Books (t + F)) (hu : b.Bounded)
    (hroom : p.HasRoom b.entering) {via : Hooks} {err : ObjId} {b' : Bridge} {frames : List ObjId}
    (hend : p.ending b.entering = .stopped (.raised via err) b' frames) :
    p.asTrapped.run b =
      (.ok (.error ⟨(b'.delivered frames).messageOf err, err⟩), b'.delivered frames) ∧
    p.asTrap.run b = (.ok (some err), b'.delivered frames) ∧
    (b'.delivered frames).heap.IsErr err ∧ b'.GivesBack frames ∧ (b'.delivered frames).Books
      ({err} + F) := by
  have hagrees := hp.settles b.entering F hB (hb.journal _) hu hroom
  have hrun := hagrees.run_of_stopped hend
  have hw := hagrees.stopped _ _ _ hend
  have hin := hagrees.bounded
  rw [hrun] at hin
  obtain ⟨rfl, herr⟩ := hw.swept.sane hin
  exact ⟨(boundary_runTrapped hb.started).raised err _ hrun herr,
    (boundary_asTrap hb.hooks).raised err _ hrun herr, herr, (hw.sound hin).givesBack,
    hw.swept.books.journal _⟩

theorem Owns.passes (hp : Owns B t p g) (hB : B ⊆ F) (hb : b.Books (t + F)) (hu : b.Bounded)
    (hroom : p.HasRoom b.entering) {u : Unwind} {b' : Bridge} {frames : List ObjId}
    (hend : p.ending b.entering = .stopped u b' frames) (hpass : ∀ via err, u ≠ .raised via err) :
    p.asTrapped.run b = (.error u, b'.swept frames) ∧ p.asTrap.run b = (.error u, b'.swept frames) ∧
    (∀ o, u ≠ .dangling o) ∧ b'.GivesBack frames ∧ (b'.swept frames).Books F := by
  have hagrees := hp.settles b.entering F hB (hb.journal _) hu hroom
  have hrun := hagrees.run_of_stopped hend
  have hw := hagrees.stopped _ _ _ hend
  have hin := hagrees.bounded
  rw [hrun] at hin
  have hclaims : u.claims = 0 := by
    cases u with
    | raised via err => exact absurd rfl (hpass via err)
    | _ => rfl
  refine ⟨(boundary_runTrapped hb.started).passing u _ hrun (hpass .bridge),
    (boundary_asTrap hb.hooks).passing u _ hrun (hpass .bridge), ?_, (hw.sound hin).givesBack, ?_⟩
  · rintro o rfl
    exact hw.sane hin
  · have hbooks := hw.swept.books
    rwa [hclaims, zero_add] at hbooks

theorem Owns.trapped (hp : Owns B t p g) (hB : B ⊆ F) (hb : b.Books (t + F)) (hu : b.Bounded)
    (hroom : p.HasRoom b.entering) : p.Trapped b F g := by
  have hcompletes : ∀ a b', p.ending b.entering = .returned a b' →
      p.asTrapped.run b = (.ok (.ok a), b') ∧ p.asTrap.run b = (.ok none, b') ∧
      b'.Books (g a + F) := by
    intro a b' hend
    have hrun := (hp.settles b.entering F hB (hb.journal _) hu hroom).run_of_returned hend
    exact ⟨(boundary_runTrapped hb.started).returned a b' hrun,
      (boundary_asTrap hb.hooks).returned a b' hrun,
      (hp.transfers b.entering F hB (hb.journal _)).of_ok hrun⟩
  refine ⟨hcompletes, fun via err b' frames hend => hp.delivers hB hb hu hroom hend,
    fun u b' frames hend hpass => hp.passes hB hb hu hroom hend hpass, fun err b' => ?_⟩
  cases hend : p.ending b.entering with
  | returned a b₁ =>
    obtain ⟨herror, hobject, -⟩ := hcompletes a b₁ hend
    rw [herror, hobject]
    exact iff_of_false (by rintro ⟨⟩) (by rintro ⟨_, ⟨⟩⟩)
  | stopped u b₁ frames =>
    by_cases hpass : ∀ via err, u ≠ .raised via err
    · obtain ⟨herror, hobject, -⟩ := hp.passes hB hb hu hroom hend hpass
      rw [herror, hobject]
      exact iff_of_false (by rintro ⟨⟩) (by rintro ⟨_, ⟨⟩⟩)
    · obtain ⟨via, err₁, rfl⟩ : ∃ via err, u = .raised via err := by simpa using hpass
      obtain ⟨herror, hobject, -⟩ := hp.delivers hB hb hu hroom hend
      rw [herror, hobject]
      constructor
      · rintro ⟨⟩
        exact ⟨_, rfl⟩
      · rintro ⟨_, ⟨⟩⟩
        rfl

end Program

/-- However routines and traps are nested, a program runs to its ending, and a trap around it gets
what that says: the result of a routine that returns, the exception that stopped it, or nothing at
all of a fault, which goes on.  The counts have room for the claims that the program adds. -/
theorem nested_traps {α : Type} {B t F : Multiset ObjId} {g : α → Multiset ObjId} {p : Program α}
    {b : Bridge} (hp : p.Owns B t g) (hB : B ⊆ F) (hb : b.Books (t + F)) (hu : b.Bounded) :
    b.Throws ∧ (p.HasRoom b → p.run.run b = (p.ending b).result) ∧
      (p.HasRoom b.entering → p.Trapped b F g) :=
  ⟨hb.toRunning.throws, fun hroom => (hp.settles b F hB hb hu hroom).run,
    fun hroom => hp.trapped hB hb hu hroom⟩

/-! ## Calls that add no claims -/

section Calls

variable {B t : Multiset ObjId} {adds : Bridge → ObjId → Nat}

theorem fits_releaseAll (claims : List ObjId) : Fits B claims (releaseAll claims) adds := by
  intro b F _ hb hu _
  have hends : Ends (releaseAll claims) b (fun _ b' => b'.Bounded) (fun _ b' => b'.Bounded) :=
    (ends_releaseAll_sound (hb.sound hu)).mpr hu
  exact hends.final

theorem fits_throwForeign {α : Type} (message : String) :
    Fits B t (throwForeign message : Run α) adds := by
  intro b F _ hb hu _
  rw [hb.toRunning.throws.message]
  exact hu

/-- Raising an object adds no claims either, be it an error object or not. -/
theorem fits_throwErr {α : Type} (err : ObjId) : Fits B {err} (throwErr err : Run α) adds := by
  intro b F _ hb hu _
  obtain ⟨x, hx⟩ := hb.live (Multiset.mem_add.mpr (.inl (Multiset.mem_singleton_self err))) hu
  have hends : Ends (throwErr err : Run α) b (fun _ b' => b'.Bounded) (fun _ b' => b'.Bounded) := by
    unfold throwErr ErrObj.throwObj
    rw [ends_bind, ends_start hb.started, ends_bind, ends_losing]
    refine ends_certify_content hb.hooks hx (fun message _ => ?_) (fun _ _ _ => hu)
    unfold raiseWith
    rw [ends_bind, ends_get, hb.hooks]
    exact hu
  exact hends.final

end Calls

/-- A call that adds no claims. -/
abbrev Program.plain {α β : Type} (r : Run β) (next : β → Program α) : Program α :=
  .call r (fun _ _ => 0) next

/-- A routine with two objects catches an exception of its own, and then raises the error object
that it holds. -/
def relay : Program Unit :=
  .lending ⟨3⟩ (.holding [⟨2⟩]
    (.trap (.plain (throwForeign "inner") .done) fun caught =>
      .plain (releaseAll caught.toList) .done)
    fun _ => .plain (throwErr ⟨2⟩) .done) .done

theorem relay_owns :
    relay.Owns 0 (([⟨3⟩] : List ObjId) + (([⟨2⟩] : List ObjId) + 0)) (fun _ => 0) := by
  have hgive : ∀ caught : Option ObjId, trapClaims 0 caught = (caught.toList : List ObjId) :=
    fun caught => by cases caught <;> simp [trapClaims]
  apply Program.Owns.lending rfl _ fun a => .done a rfl
  apply Program.Owns.holding (k := fun _ => 0) rfl
  · apply Program.Owns.trap (.call (throwForeign_transfers "inner" fun _ => 0)
      (fits_throwForeign "inner") fun a => .done a rfl)
    intro caught
    have hdrop := (releaseAll_succeeds caught.toList).transfers
    rw [hgive caught]
    exact .call ((hdrop.weaken (Multiset.zero_subset _)).cast rfl fun _ => rfl)
      (fits_releaseAll caught.toList) fun a => .done a rfl
  · intro _
    have hthrow := throwErr_transfers (α := Unit) ⟨2⟩ fun _ => 0
    exact .call ((hthrow.weaken (Multiset.zero_subset _)).cast rfl fun _ => rfl)
      (fits_throwErr ⟨2⟩) fun a => .done a rfl

theorem relay_addsNothing : relay.AddsNothing :=
  ⟨⟨⟨⟨fun _ _ => rfl, fun _ => trivial⟩, fun _ => ⟨fun _ _ => rfl, fun _ => trivial⟩⟩,
    fun _ => ⟨fun _ _ => rfl, fun _ => trivial⟩⟩, fun _ => trivial⟩

theorem nested_traps_relay :
    oddVectorBridge.Books (⟨3⟩ ::ₘ ⟨2⟩ ::ₘ 0) ∧ relay.HasRoom oddVectorBridge.entering ∧
    ∃ message b', relay.asTrap.run oddVectorBridge = (.ok (some ⟨2⟩), b') ∧
      relay.asTrapped.run oddVectorBridge = (.ok (.error ⟨message, ⟨2⟩⟩), b') := by
  have hroom := relay_addsNothing.hasRoom oddVectorBridge.entering
  obtain ⟨-, -, htrapped⟩ := nested_traps relay_owns (Multiset.zero_subset 0) oddVectorBridge_books
    (by decide)
  have hcaught : (relay.asTrap.run oddVectorBridge).1 = .ok (some ⟨2⟩) := by decide +kernel
  obtain ⟨message, herror⟩ := ((htrapped hroom).alike ⟨2⟩ _).mp (Prod.ext hcaught rfl)
  exact ⟨oddVectorBridge_books, hroom, message, _, Prod.ext hcaught rfl, herror⟩

/-- A script that makes an object of a class below the errors, whose objects carry a byte and no
message. -/
def makeOddError : List Instruction :=
  [.act (.onClass (.define "Odd" "Clownfish::Err" .byte .none)) none none,
    .act (.onObject (.make "Odd" .byte)) (some "e") none]

/-- The bridge after that script. -/
def oddErrorBridge : Bridge := (Session.after makeOddError).bridge

/-- When that object is raised, the trap gets another one: an exception about the layout of the
first. -/
theorem nested_traps_of_odd_error :
    oddErrorBridge.Reached {⟨2⟩} ∧ oddErrorBridge.Bounded ∧
      (oddErrorBridge.heap.get? ⟨2⟩).any (·.cls.isSubclassOf .err) = true ∧
      ∃ b', (Program.plain (throwErr ⟨2⟩) .done : Program Unit).asTrap.run oddErrorBridge =
          (.ok (some ⟨3⟩), b') ∧
        b'.heap.content ⟨3⟩ =
          some (.err, .err "Odd object has an incompatible layout for Clownfish::Err") := by
  have hclaims : (Session.after makeOddError).claims = {⟨2⟩} := by decide +kernel
  have hlawful : LawfulRoutine makeOddError := by
    simp only [makeOddError, LawfulRoutine, Instruction.Lawful, Action.Lawful, ObjectAction.Lawful]
    decide
  refine ⟨hclaims ▸ Session.after_reached hlawful, by decide +kernel, by decide +kernel, ?_⟩
  exact exists_state (by decide +kernel) (by decide +kernel)

/-- Where an object has as many claims as can be counted, a routine that claims it once more
returns, but the routine to which it was lent cannot give it back. -/
theorem lending_raises_of_full_count :
    ∃ host, fullBridge.Reached host ∧ fullBridge.Bounded ∧ ⟨2⟩ ∈ host ∧
      ((retain ⟨2⟩).run fullBridge).1 = .ok () ∧
      ∃ b', (Program.lending ⟨2⟩ (.call (retain ⟨2⟩) (fun _ => [⟨2⟩].count) .done) .done :
          Program Unit).run.run fullBridge = (.error (.raised .bridge ⟨4⟩), b') ∧
        b'.heap.content ⟨4⟩ = some (.err, .err (overdrawnMessage .string)) := by
  obtain ⟨host, hreached, hheld, -⟩ := fullBridge_reached
  refine ⟨host, hreached, fullBridge_bounded, hheld, by decide +kernel, ?_⟩
  exact exists_state (by decide +kernel) (by decide +kernel)

end ObjectBridge
