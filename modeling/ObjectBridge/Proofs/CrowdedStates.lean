import ObjectBridge.Proofs.Copying
import ObjectBridge.Proofs.OrderlyStates
import ObjectBridge.Proofs.Reachability
import ObjectBridge.Proofs.ShareBalance

set_option autoImplicit false

/-!
# States with as many claims as can be counted (SPEC §8, §11.1)

Counts have 32 bits, and claiming an object is not checked against that.  A script that claims an
object some number of times leaves a state that is known without running it, so that the last
state in which the claims on an object can be counted is at hand.  What goes wrong from there on
is said where the call in question is described.
-/

namespace ObjectBridge

open Heap

/-! ## Many claims on one object -/

section Claims

variable {b : Bridge} {o : ObjId} {x : Obj}

/-- Claiming an object many times counts up, and the highest count is the last one. -/
theorem run_forM_retain_replicate (n : Nat) (hx : b.heap.get? o = some x)
    (hm : x.cls.isImmortal = false) (hlt : x.count.toNat + (n + 1) < 2 ^ 32) :
    ((List.replicate (n + 1) o).forM retain).run b =
      (.ok (), b.recounted o x (x.count.toNat + (n + 1))
        (max b.ledger.peak (x.count.toNat + (n + 1)))) := by
  have hretain := run_retain_counted hx hm (ofNat_toNat_count x)
  induction n generalizing b x with
  | zero => exact (run_bind_of_ok hretain).trans rfl
  | succ n ih =>
    have hx' := get?_recounted hx (x.count.toNat + 1) (max b.ledger.peak (x.count.toNat + 1))
    have hlt' : x.count.toNat + 1 < 2 ^ 32 := by omega
    have hcount : (UInt32.ofNat (x.count.toNat + 1)).toNat = x.count.toNat + 1 :=
      UInt32.toNat_ofNat_of_lt' hlt'
    have hrest := ih hx' hm (by dsimp only; omega)
      (run_retain_counted hx' hm (ofNat_toNat_count _))
    dsimp only at hrest
    rw [hcount, recounted_recounted] at hrest
    refine (run_bind_of_ok hretain).trans (hrest.trans ?_)
    have hsum : x.count.toNat + 1 + (n + 1) = x.count.toNat + (n + 1 + 1) := by omega
    have hpeak : max (max b.ledger.peak (x.count.toNat + 1)) (x.count.toNat + (n + 1 + 1)) =
        max b.ledger.peak (x.count.toNat + (n + 1 + 1)) := by omega
    rw [hsum]
    exact congrArg (fun peak => (Except.ok (), b.recounted o x _ peak)) hpeak

end Claims

/-! ## A script that claims an object many times -/

section Script

variable {s : Session} {filter : LogFilter} {i : Instruction} {on name : String} {o : ObjId}
  {x : Obj} {n : Nat}

/-- An instruction that returns does so under its trap. -/
theorem ends_guarded_of_run {ok : Report → Session → Prop} (hstarted : s.bridge.started = true)
    (hi : ∀ journal, Ends (i.run filter)
      { s with bridge := { s.bridge with journal := journal } } ok (fun _ _ => False)) :
    Ends (i.guarded filter) s ok (fun _ _ => False) := by
  unfold Instruction.guarded runTrapped
  rw [ends_bind, ends_bind]
  refine (ends_callBridge start).mpr ((ends_start hstarted).mpr ?_)
  rw [ends_bind]
  unfold catchForeign
  rw [ends_bind, ends_log_walk, ends_tryCatchThe, ends_map]
  exact (hi _).mono (fun _ _ hok => hok) (fun _ _ hbad => hbad.elim)

/-- The session with that many claims more on the object, which the given variable keeps. -/
def Session.crowded (s : Session) (name : String) (o : ObjId) (x : Obj) (n : Nat) : Session :=
  { s with
    bridge := s.bridge.recounted o x (x.count.toNat + n)
      (max s.bridge.ledger.peak (x.count.toNat + n))
    slots := bindSorted name (.bundle (List.replicate n o)) s.slots }

theorem finishes_objectAt {ok : ObjId → Session → Prop} {failed : Failure → Session → Prop}
    {bad : Unwind → Session → Prop}
    (hslot : (Assoc.find? on s.slots).bind Slot.object? = some o) :
    Finishes (objectAt on) s ok failed bad ↔ ok o s := by
  have hget {ok : Session → Session → Prop} : Finishes get s ok failed bad ↔ ok s s := Iff.rfl
  obtain ⟨y, hy, hobject⟩ := Option.bind_eq_some_iff.mp hslot
  unfold objectAt slot
  rw [finishes_bind, finishes_bind, hget, hy, finishes_pure, hobject]
  exact finishes_pure o

theorem finishes_cloneMany (hslot : (Assoc.find? on s.slots).bind Slot.object? = some o)
    (hx : s.bridge.heap.get? o = some x) (hm : x.cls.isImmortal = false)
    (hlt : x.count.toNat + (n + 1) < 2 ^ 32) {ok : Outcome → Session → Prop}
    {failed : Failure → Session → Prop} {bad : Unwind → Session → Prop} :
    Finishes (ObjectAction.cloneMany on (n + 1)).run s ok failed bad ↔
      ok ⟨.null, some (.bundle (List.replicate (n + 1) o))⟩
        { s with
          bridge := s.bridge.recounted o x (x.count.toNat + (n + 1))
            (max s.bridge.ledger.peak (x.count.toNat + (n + 1))) } := by
  refine (finishes_bind _).trans ((finishes_objectAt hslot).trans ((finishes_bind _).trans ?_))
  rw [liftM_forM, finishes_call, ends_of_run_ok (run_forM_retain_replicate n hx hm hlt)]
  exact finishes_pure _

theorem ends_cloneMany (hslot : (Assoc.find? on s.slots).bind Slot.object? = some o)
    (hnew : Assoc.find? name s.slots = none) (hx : s.bridge.heap.get? o = some x)
    (hm : x.cls.isImmortal = false) (hlt : x.count.toNat + (n + 1) < 2 ^ 32) :
    Ends ((Instruction.act (.onObject (.cloneMany on (n + 1))) (some name) none).run filter) s
      (fun _ s' => s' = s.crowded name o x (n + 1)) (fun _ _ => False) := by
  unfold Instruction.run
  rw [ends_bind]
  have hrun : Finishes (ObjectAction.cloneMany on (n + 1)).run s
      (fun outcome s' => outcome = ⟨.null, some (.bundle (List.replicate (n + 1) o))⟩ ∧
        s' = { s with
          bridge := s.bridge.recounted o x (x.count.toNat + (n + 1))
            (max s.bridge.ledger.peak (x.count.toNat + (n + 1))) })
      (fun _ _ => False) (fun _ _ => False) :=
    (finishes_cloneMany hslot hx hm hlt).mpr ⟨rfl, rfl⟩
  refine Ends.mono hrun (fun result s' h => ?_) (fun _ _ hbad => hbad)
  cases result with
  | error f => exact h.elim
  | ok outcome =>
    obtain ⟨rfl, rfl⟩ := h
    unfold settle
    rw [ends_bind]
    unfold keep ObjectBridge.bind
    rw [ends_bind, ends_get, ends_bind]
    dsimp only
    rw [hnew]
    exact rfl

theorem Session.after_concat (script : List Instruction) (i : Instruction) :
    Session.after (script ++ [i]) = ((i.answer none).run (Session.after script)).2 := by
  unfold Session.after
  rw [List.mapM_append, List.mapM_cons, List.mapM_nil]
  rfl

/-- An instruction leaves what it does under its trap, but for the journal and the answers. -/
theorem state_answer (filter : LogFilter) (i : Instruction) (s : Session) :
    ((i.answer filter).run s).2 =
      { ((i.guarded filter).run s).2 with
        bridge := { ((i.guarded filter).run s).2.bridge with journal := #[] }, finished := [] } :=
  rfl

/-- The bridge of the session with that many claims more on the object. -/
def Session.crowdedBridge (s : Session) (o : ObjId) (x : Obj) (n : Nat) : Bridge :=
  { s.bridge.recounted o x (x.count.toNat + n) (max s.bridge.ledger.peak (x.count.toNat + n)) with
    journal := #[] }

/-- A script leads there, with the claims in a variable. -/
theorem after_cloneMany {script : List Instruction}
    (hstarted : (Session.after script).bridge.started = true)
    (hslot : (Assoc.find? on (Session.after script).slots).bind Slot.object? = some o)
    (hnew : Assoc.find? name (Session.after script).slots = none)
    (hx : (Session.after script).bridge.heap.get? o = some x) (hm : x.cls.isImmortal = false)
    (hlt : x.count.toNat + (n + 1) < 2 ^ 32) :
    Session.after (script ++ [.act (.onObject (.cloneMany on (n + 1))) (some name) none]) =
      { Session.after script with
        bridge := (Session.after script).crowdedBridge o x (n + 1)
        slots := bindSorted name (.bundle (List.replicate (n + 1) o)) (Session.after script).slots
        finished := [] } := by
  rw [Session.after_concat, state_answer]
  generalize Session.after script = s at *
  have hends : Ends
      ((Instruction.act (.onObject (.cloneMany on (n + 1))) (some name) none).guarded none) s
      (fun _ s' => ∃ journal, s' = { s.crowded name o x (n + 1) with
        bridge := { (s.crowded name o x (n + 1)).bridge with journal := journal } })
      (fun _ _ => False) := by
    refine ends_guarded_of_run hstarted fun journal => ?_
    exact (ends_cloneMany (s := { s with bridge := { s.bridge with journal := journal } })
      hslot hnew hx hm hlt).mono (fun _ s' hs' => ⟨journal, hs'⟩) (fun _ _ hbad => hbad)
  obtain ⟨r, s', hrun, journal, rfl⟩ := hends.returns
  rw [hrun]
  rfl

end Script

theorem LawfulRoutine.append {script more : List Instruction} (hl : LawfulRoutine script)
    (hmore : LawfulRoutine more) : LawfulRoutine (script ++ more) := by
  induction script with
  | nil => exact hmore
  | cons i rest ih => exact ⟨hl.1, ih hl.2⟩

namespace Session

variable {script : List Instruction} {on : String} {o : ObjId} {x : Obj} {n : Nat}

/-- A state with very many claims on one object is reached, and the host holds what it held before.
-/
theorem reached_crowded (hl : LawfulRoutine script)
    (hslot : (Assoc.find? on (after script).slots).bind Slot.object? = some o)
    (hnew : Assoc.find? "crowd" (after script).slots = none)
    (hx : (after script).bridge.heap.get? o = some x) (hm : x.cls.isImmortal = false)
    (hlt : x.count.toNat + (n + 1) < 2 ^ 32) :
    ∃ host, ((after script).crowdedBridge o x (n + 1)).Reached host ∧
      ∀ p ∈ (after script).claims, p ∈ host := by
  have hbooks : (after script).Books 0 :=
    ((ScriptPasses.all none script _).balanced hl (Session.new_books .usual)).of_zero
  have hclone : LawfulRoutine [.act (.onObject (.cloneMany on (n + 1))) (some "crowd") none] :=
    ⟨trivial, trivial⟩
  have hreached := after_reached (hl.append hclone)
  rw [after_cloneMany hbooks.bridge.started hslot hnew hx hm hlt] at hreached
  refine ⟨_, hreached, fun p hp => ?_⟩
  have hbind := slotsClaims_bind hbooks.sorted "crowd" (.bundle (List.replicate (n + 1) o))
  rw [hnew, Option.map_none, Option.getD_none, Multiset.coe_nil, add_zero] at hbind
  unfold claims
  rw [hbind]
  rcases Multiset.mem_add.mp hp with hslots | hbare
  · exact Multiset.mem_add.mpr (.inl (Multiset.mem_add.mpr (.inr hslots)))
  · exact Multiset.mem_add.mpr (.inr hbare)

end Session

/-! ## A string with very many claims -/

/-- A script that makes a string and a vector, and puts the string into the vector. -/
def putString : List Instruction :=
  [.act (.onObject (.new (.str "x"))) (some "s") none,
    .act (.onObject (.new (.vector 0))) (some "v") none,
    .act (.primitive "v" false (.vectorPush (some "s"))) none none]

/-- The bridge after that script and `n` claims more on the string, which had two. -/
def crowdedBridge (n : Nat) : Bridge :=
  (Session.after putString).crowdedBridge ⟨2⟩ ⟨.string, 2, .string "x"⟩ n

theorem crowdedBridge_reached (n : Nat) (hn : n + 3 < 2 ^ 32) :
    ∃ host, (crowdedBridge (n + 1)).Reached host ∧ ⟨2⟩ ∈ host ∧ ⟨3⟩ ∈ host := by
  have hlawful : LawfulRoutine putString := ⟨trivial, trivial, trivial, trivial⟩
  have hfound : (Assoc.find? "s" (Session.after putString).slots).bind Slot.object? = some ⟨2⟩ ∧
      (Assoc.find? "crowd" (Session.after putString).slots).isNone = true ∧
      (Session.after putString).bridge.heap.get? ⟨2⟩ = some ⟨.string, 2, .string "x"⟩ ∧
      ⟨2⟩ ∈ (Session.after putString).claims ∧ ⟨3⟩ ∈ (Session.after putString).claims := by
    decide +kernel
  obtain ⟨hslot, hnew, hx, hstring, hvector⟩ := hfound
  have hlt : (2 : UInt32).toNat + (n + 1) < 2 ^ 32 := by
    have htwo : (2 : UInt32).toNat = 2 := rfl
    omega
  obtain ⟨host, hreached, hheld⟩ := Session.reached_crowded hlawful hslot
    (Option.isNone_iff_eq_none.mp hnew) hx rfl hlt
  exact ⟨host, hreached, hheld _ hstring, hheld _ hvector⟩

/-- The string has `2 ^ 32 - 1` claims, and there is no room for another one. -/
def fullBridge : Bridge := crowdedBridge (2 ^ 32 - 4 + 1)

theorem fullBridge_reached : ∃ host, fullBridge.Reached host ∧ ⟨2⟩ ∈ host ∧ ⟨3⟩ ∈ host :=
  crowdedBridge_reached (2 ^ 32 - 4) (by decide)

theorem fullBridge_bounded : fullBridge.Bounded := by decide +kernel

theorem fullBridge_acyclic : fullBridge.heap.Acyclic :=
  acyclic_of_slots (5 - ObjId.index ·) (by decide +kernel)

/-- A wrapper around the string. -/
def stringRef : HostRef := ⟨.str, ⟨2⟩⟩

theorem seq_stringRef_wellFormed : (Value.seq [.object stringRef]).WellFormed := by
  refine ⟨.seq ?_, .seq (by decide) ?_⟩
  · exact List.forall_mem_singleton.mpr (.object _)
  · exact List.forall_mem_singleton.mpr (.object _)

theorem get?_fullBridge :
    fullBridge.heap.get? stringRef.obj = some ⟨.string, .ofNat (2 ^ 32 - 1), .string "x"⟩ := by
  decide +kernel

theorem get?_fullBridge_vector :
    fullBridge.heap.get? ⟨3⟩ = some ⟨.vector, 1, .vector [some ⟨2⟩]⟩ := by
  decide +kernel

end ObjectBridge
