import ObjectBridge.Proofs.Accounting
import ObjectBridge.Proofs.Building

set_option autoImplicit false

/-!
# Shares and releases (SPEC §8, §11.1)

Sharing an object and giving the shares back is balanced as long as the claims on it can be counted
in 32 bits: every count reported on the way is the number of claims, nothing is destroyed, and the
heap ends as it began.  The bound is exact, because counts are not checked.  One share further the
count is zero, and the share after that makes the next release destroy an object on which there are
still claims.
-/

namespace ObjectBridge

open Heap

variable {b : Bridge} {o : ObjId} {x : Obj} {r n : Nat}

/-- Claim `o` some number of times; the answer is the count after each claim. -/
def shareTimes (o : ObjId) : Nat → Run (List Nat)
  | 0 => return []
  | n + 1 => do
    retain o
    let count ← refcount o
    return count.toNat :: (← shareTimes o n)

/-- Give back some number of claims on `o`; the answer is the count after each of them. -/
def releaseTimes (o : ObjId) : Nat → Run (List Nat)
  | 0 => return []
  | n + 1 => do
    let left ← release o
    return left.toNat :: (← releaseTimes o n)

/-! ## The count of one object -/

/-- Everything as in `b`, but for the count of `x`, which is at `o`, and the peak. -/
def Bridge.recounted (b : Bridge) (o : ObjId) (x : Obj) (count peak : Nat) : Bridge :=
  b.grown (b.heap.set o { x with count := .ofNat count }) peak

theorem Heap.set_of_get? {h : Heap} (hx : h.get? o = some x) : h.set o x = h := by
  refine ext_get? (length_set h o x) fun p => ?_
  rw [get?_set hx]
  split
  · rename_i hp
    rw [hp, hx]
  · rfl

theorem Heap.set_set (h : Heap) (o : ObjId) (x y : Obj) : (h.set o x).set o y = h.set o y := by
  unfold Heap.set
  rw [List.set_set]

theorem get?_recounted (hx : b.heap.get? o = some x) (count peak : Nat) :
    (b.recounted o x count peak).heap.get? o = some { x with count := .ofNat count } := by
  unfold Bridge.recounted Bridge.grown
  rw [get?_set hx, if_pos rfl]

theorem recounted_recounted (b : Bridge) (o : ObjId) (x : Obj) (count count' peak peak' : Nat) :
    (b.recounted o x count peak).recounted o { x with count := .ofNat count } count' peak' =
      b.recounted o x count' peak' := by
  unfold Bridge.recounted Bridge.grown
  rw [set_set]

/-- The count that the object has already. -/
theorem recounted_self (hx : b.heap.get? o = some x) (hr : x.count = .ofNat r) :
    b.recounted o x r b.ledger.peak = b := by
  have hsame : { x with count := .ofNat r } = x := by rw [← hr]
  unfold Bridge.recounted Bridge.grown
  rw [hsame, set_of_get? hx]

/-! ## One step -/

theorem run_retain_counted (hx : b.heap.get? o = some x) (hm : x.cls.isImmortal = false)
    (hr : x.count = .ofNat r) :
    (retain o).run b =
      (.ok (), b.recounted o x (r + 1) (max b.ledger.peak (x.count.toNat + 1))) := by
  have hcount : x.count + 1 = .ofNat (r + 1) := by rw [hr, UInt32.ofNat_add]; rfl
  have hpeak : x.peakAfter b.ledger.peak = max b.ledger.peak (x.count.toNat + 1) := by
    simp [Obj.peakAfter, hm]
  apply Ends.run_ok
  rw [ends_retain_known hx, retain_eq hx hm, hcount, hpeak]
  exact ⟨rfl, rfl⟩

theorem run_refcount_counted (hx : b.heap.get? o = some x) (hm : x.cls.isImmortal = false) :
    (refcount o).run b = (.ok x.count, b) := by
  have hcount : x.refcount = x.count := by simp [Obj.refcount, hm]
  apply Ends.run_ok
  unfold refcount
  rw [ends_bind, ends_readObj_known hx, ends_pure, hcount]
  exact ⟨rfl, rfl⟩

/-- A release with more than one claim counted lowers the count. -/
theorem run_release_lowered (hx : b.heap.get? o = some x) (hm : x.cls.isImmortal = false)
    (hr : x.count = .ofNat (r + 1)) (hpos : 0 < r) (hlt : r + 1 < 2 ^ 32) :
    (release o).run b = (.ok (.ofNat r), b.recounted o x r b.ledger.peak) := by
  have hback : x.count - 1 = .ofNat r := by
    rw [hr, UInt32.ofNat_add]
    exact UInt32.add_sub_cancel _ _
  have hnat : x.count.toNat = r + 1 := by rw [hr, UInt32.toNat_ofNat_of_lt' hlt]
  have hne : x.count ≠ 0 := by
    intro h0
    rw [h0] at hnat
    exact absurd hnat (by simp)
  have hne' : x.count ≠ 1 := by
    intro h1
    rw [h1, UInt32.toNat_one] at hnat
    omega
  have hsweep : b.heap.sweep [o] = ⟨b.heap.set o { x with count := .ofNat r }, [], none⟩ := by
    rw [sweep_cons_lowered [] hx hm hne hne', hback, Heap.sweep]
  have hleft : b.heap.remaining o = .ofNat r := by simp [Heap.remaining, hx, hm, hback]
  apply Ends.run_ok
  unfold release releaseAll
  rw [ends_bind, ends_get, ends_bind, ends_bind, ends_sweepClaims, hsweep]
  refine ⟨hleft, ?_⟩
  simp [Bridge.swept, hsweep, Ledger.noteDestroyed, Bridge.recounted, Bridge.grown]

/-- A release with no claim counted raises an exception. -/
theorem raises_release_overdrawn (hh : b.hooks = some .bridge) (hx : b.heap.get? o = some x)
    (hm : x.cls.isImmortal = false) (h0 : x.count = 0) :
    ∃ b', (release o).run b = (.error (.raised .bridge b.heap.next), b') := by
  have hsweep := sweep_cons_overdrawn [] hx hm h0
  have hheap : (b.swept [o]).heap = b.heap := by
    unfold Bridge.swept
    rw [hsweep]
  have hends : Ends (release o) b (fun _ _ => False)
      (fun u _ => u = .raised .bridge b.heap.next) := by
    unfold release releaseAll
    rw [ends_bind, ends_get, ends_bind, ends_bind, ends_sweepClaims, hsweep]
    have hraise : Ends (raise (overdrawnMessage x.cls) : Run Unit) (b.swept [o])
        (fun _ _ => False) (fun u _ => u = .raised .bridge b.heap.next) := by
      rw [ends_raise (show (b.swept [o]).hooks = some .bridge from hh), hheap]
    exact hraise.mono (fun _ _ hok => hok.elim) (fun _ _ hu => hu)
  obtain ⟨_, b', hrun, rfl⟩ := hends.unwinds
  exact ⟨b', hrun⟩

/-! ## Many steps -/

/-- Shares are counted modulo 2 ^ 32. -/
theorem run_shareTimes (n : Nat) (hx : b.heap.get? o = some x) (hm : x.cls.isImmortal = false)
    (hr : x.count = .ofNat r) :
    ∃ peak, (shareTimes o n).run b =
      (.ok ((List.range' (r + 1) n).map (· % 2 ^ 32)), b.recounted o x (r + n) peak) := by
  induction n generalizing b x r with
  | zero => exact ⟨b.ledger.peak, congrArg (Prod.mk _) (recounted_self hx hr).symm⟩
  | succ n ih =>
    have hretain := run_retain_counted hx hm hr
    have hx' := get?_recounted hx (r + 1) (max b.ledger.peak (x.count.toNat + 1))
    obtain ⟨peak', hrest⟩ := ih hx' hm rfl
    have hcount : (UInt32.ofNat (r + 1)).toNat = (r + 1) % 2 ^ 32 := UInt32.toNat_ofNat'
    have hsum : r + 1 + n = r + (n + 1) := by omega
    refine ⟨peak', (run_bind_of_ok hretain).trans
      ((run_bind_of_ok (run_refcount_counted hx' hm)).trans ?_)⟩
    refine (run_bind_of_ok hrest).trans ?_
    rw [recounted_recounted, List.range'_succ, List.map_cons, hcount, hsum]
    rfl

/-- Releases that leave a claim count down. -/
theorem run_releaseTimes (n : Nat) (hx : b.heap.get? o = some x) (hm : x.cls.isImmortal = false)
    (hr : x.count = .ofNat (r + n)) (hpos : 0 < r) (hlt : r + n < 2 ^ 32) :
    (releaseTimes o n).run b =
      (.ok (List.range' r n).reverse, b.recounted o x r b.ledger.peak) := by
  induction n generalizing b x with
  | zero => exact congrArg (Prod.mk _) (recounted_self hx hr).symm
  | succ n ih =>
    have hrelease := run_release_lowered (r := r + n) hx hm hr (by omega) hlt
    have hx' := get?_recounted hx (r + n) b.ledger.peak
    have hlt' : r + n < 2 ^ 32 := by omega
    have hrest := ih hx' hm rfl hlt'
    have hcount : (UInt32.ofNat (r + n)).toNat = r + n := UInt32.toNat_ofNat_of_lt' hlt'
    refine (run_bind_of_ok hrelease).trans ((run_bind_of_ok hrest).trans ?_)
    rw [recounted_recounted, List.range'_1_concat, List.reverse_append, hcount]
    rfl

/-! ## Balance -/

/-- `n` shares of an object with `r` claims and then `n` releases: the counts on the way are the
numbers of claims, and nothing is different afterwards but for the peak. -/
def SharesBalance (b : Bridge) (o : ObjId) (r n : Nat) : Prop :=
  ∃ shared peak, (shareTimes o n).run b = (.ok (List.range' (r + 1) n), shared) ∧
    (releaseTimes o n).run shared = (.ok (List.range' r n).reverse, b.grown b.heap peak)

theorem ofNat_toNat_count (x : Obj) : x.count = .ofNat x.count.toNat := (UInt32.ofNat_toNat).symm

/-- Balanced shares can all be counted. -/
theorem SharesBalance.lt (hx : b.heap.get? o = some x) (hm : x.cls.isImmortal = false)
    (hbalance : SharesBalance b o x.count.toNat n) : x.count.toNat + n < 2 ^ 32 := by
  obtain ⟨peak, hshare⟩ := run_shareTimes n hx hm (ofNat_toNat_count x)
  obtain ⟨shared, peak', hexact, -⟩ := hbalance
  have hcounts : (List.range' (x.count.toNat + 1) n).map (· % 2 ^ 32) =
      List.range' (x.count.toNat + 1) n :=
    Except.ok.inj (congrArg Prod.fst (hshare.symm.trans hexact))
  cases n with
  | zero => exact x.count.toNat_lt
  | succ n =>
    -- the last count reported is below 2 ^ 32
    have hlast := congrArg (·[n]?) hcounts
    simp only [List.getElem?_map, List.getElem?_range' (Nat.lt_succ_self n), Option.map_some,
      Option.some.injEq] at hlast
    omega

/-- Shares that can all be counted are balanced. -/
theorem sharesBalance_of_lt (hx : b.heap.get? o = some x) (hm : x.cls.isImmortal = false)
    (hpos : 0 < x.count.toNat) (hlt : x.count.toNat + n < 2 ^ 32) :
    SharesBalance b o x.count.toNat n := by
  obtain ⟨peak, hshare⟩ := run_shareTimes n hx hm (ofNat_toNat_count x)
  have hcounts : (List.range' (x.count.toNat + 1) n).map (· % 2 ^ 32) =
      List.range' (x.count.toNat + 1) n := by
    refine (List.map_congr_left fun i hi => ?_).trans (List.map_id _)
    rw [List.mem_range'_1] at hi
    exact Nat.mod_eq_of_lt (by omega)
  rw [hcounts] at hshare
  refine ⟨_, peak, hshare, ?_⟩
  rw [run_releaseTimes n (get?_recounted hx _ peak) hm rfl hpos hlt, recounted_recounted]
  have hself : b.heap.set o { x with count := .ofNat x.count.toNat } = b.heap := by
    rw [← ofNat_toNat_count x]
    exact set_of_get? hx
  unfold Bridge.recounted Bridge.grown
  rw [hself]

/-- Shares and releases are balanced as long as all claims can be counted, and no longer. -/
theorem sharesBalance_iff (n : Nat) (hx : b.heap.get? o = some x) (hm : x.cls.isImmortal = false)
    (hpos : 0 < x.count.toNat) :
    SharesBalance b o x.count.toNat n ↔ x.count.toNat + n < 2 ^ 32 :=
  ⟨SharesBalance.lt hx hm, sharesBalance_of_lt hx hm hpos⟩

/-- A bridge with a string. -/
def stringBridge : Bridge :=
  { Bridge.ready .usual with heap := (Bridge.ready .usual).heap.add ⟨.string, 1, .string "x"⟩ }

theorem stringBridge_books : stringBridge.Books (⟨2⟩ ::ₘ 0) :=
  Bridge.Books.add (q := .string "x")
    (by simpa [Payload.claims] using Bridge.ready_books .usual) rfl

/-- The string can be shared until it has `2 ^ 32 - 1` claims. -/
theorem sharesBalance_iff_of_string : SharesBalance stringBridge ⟨2⟩ 1 (2 ^ 32 - 2) :=
  (sharesBalance_iff (x := ⟨.string, 1, .string "x"⟩) (2 ^ 32 - 2) (by decide +kernel) rfl
    (by decide)).mpr (by decide)

/-- One share further its count is zero, and the first release raises an exception. -/
theorem not_sharesBalance_of_full_count :
    stringBridge.Books (⟨2⟩ ::ₘ 0) ∧ stringBridge.heap.get? ⟨2⟩ = some ⟨.string, 1, .string "x"⟩ ∧
      ¬ SharesBalance stringBridge ⟨2⟩ 1 (2 ^ 32 - 1) ∧
      ∃ counts shared, (shareTimes ⟨2⟩ (2 ^ 32 - 1)).run stringBridge = (.ok counts, shared) ∧
        shared.heap.get? ⟨2⟩ = some ⟨.string, 0, .string "x"⟩ ∧
        ∃ b', (release ⟨2⟩).run shared = (.error (.raised .bridge ⟨3⟩), b') := by
  have hx : stringBridge.heap.get? ⟨2⟩ = some ⟨.string, 1, .string "x"⟩ := by decide +kernel
  refine ⟨stringBridge_books, hx, fun hbalance => ?_, ?_⟩
  · exact absurd (SharesBalance.lt hx rfl hbalance) (by decide)
  · obtain ⟨peak, hshare⟩ := run_shareTimes (2 ^ 32 - 1) hx rfl (r := 1) rfl
    have hzero : stringBridge.recounted ⟨2⟩ ⟨.string, 1, .string "x"⟩ (1 + (2 ^ 32 - 1)) peak =
        stringBridge.recounted ⟨2⟩ ⟨.string, 1, .string "x"⟩ 0 peak := by
      unfold Bridge.recounted
      have hcount : UInt32.ofNat (1 + (2 ^ 32 - 1)) = .ofNat 0 := by decide +kernel
      rw [hcount]
    rw [hzero] at hshare
    exact ⟨_, _, hshare, rfl, raises_release_overdrawn rfl (get?_recounted hx 0 peak) rfl rfl⟩

/-- With 2 ^ 32 + 1 claims on an object the next release destroys it. -/
theorem release_of_overrun (hx : b.heap.get? o = some x) (hm : x.cls.isImmortal = false)
    (hn : x.count.toNat + n = 2 ^ 32 + 1) :
    ∃ counts shared, (shareTimes o n).run b = (.ok counts, shared) ∧
      ∃ gone, (shared.heap.sweep [o]).destroyed = (o, { x with count := 1 }) :: gone := by
  obtain ⟨peak, hshare⟩ := run_shareTimes n hx hm (ofNat_toNat_count x)
  have hone : UInt32.ofNat (x.count.toNat + n) = 1 := by rw [hn]; rfl
  have hx' := get?_recounted hx (x.count.toNat + n) peak
  rw [hone] at hx'
  exact ⟨_, _, hshare, _, congrArg Sweep.destroyed (sweep_cons_last [] hx' hm rfl)⟩

end ObjectBridge
