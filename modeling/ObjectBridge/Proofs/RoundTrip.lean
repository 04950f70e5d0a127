import ObjectBridge.Proofs.ReadingRoom
import ObjectBridge.Proofs.UnsharedObjects

set_option autoImplicit false

/-!
# Values survive the round trip (SPEC §8)

A value is converted to an object and that back to a value.  Without objects in it the value comes
back whatever the counts are: what was built for it has one claim each, and reading adds one at a
time.  Objects in the value may have been shared before, and then the counts need room, both for the
claims of what is built and for those that reading holds on its way.
-/

namespace ObjectBridge

/-- Objects of these classes and of their descendants are copied; all others are wrapped. -/
def Class.byCopy : List Class :=
  [.string, .blob, .byteBuf, .vector, .hash, .float, .boolean, .integer]

namespace Bridge

variable {b : Bridge} {host : Multiset ObjId} {t : ObjId × ObjId} {v u : Value}
  {o : ObjId} {d : Nat}

/-- Converting the object gives the value, and the counts have room for it. -/
def ConvertsTo (b : Bridge) (o : ObjId) (v : Value) : Prop :=
  b.RoomToRead (some o) ∧ ∃ b', (foreignToHost (some o)).run b = (.ok v, b')

/-- The object has a class with a wrapper, which descends from no class whose objects are copied. -/
def Wraps (b : Bridge) (o : ObjId) : Prop :=
  ∃ x, b.heap.get? o = some x ∧ (b.wrapperOf x.cls).isSome ∧
    ∀ c ∈ Class.byCopy, x.cls.isSubclassOf c = false

theorem ConvertsTo.read (hc : b.ConvertsTo o v) (hb : b.Books host) (hu : b.Bounded)
    (ho : o ∈ host) :
    b.read b.heap.slots.length (some o) = some v := by
  obtain ⟨hroom, b', hrun⟩ := hc
  have hmem : ((some o).toList : Multiset ObjId) ⊆ host := Multiset.singleton_subset.mpr ho
  have hu' := hu.foreignToHost hb hmem hroom
  rw [hrun] at hu'
  exact ((foreignToHost_reads hb hu hmem).of_ok hrun hu').2

theorem Wraps.read (hw : b.Wraps o) :
    ∃ w, b.read b.heap.slots.length (some o) = some (.object ⟨w, o⟩) := by
  obtain ⟨x, hx, hwrapper, hcopy⟩ := hw
  obtain ⟨w, hw⟩ := Option.isSome_iff_exists.mp hwrapper
  obtain ⟨d, hd⟩ : ∃ d, b.heap.slots.length = d + 1 :=
    Nat.exists_eq_add_of_lt (Nat.zero_lt_of_lt (Heap.used_of_get? hx)) |>.imp fun d hd => by omega
  refine ⟨w, ?_⟩
  unfold Bridge.read
  rw [hd, readWithin_known (Heap.content_of_get? hx)]
  simp only [Class.byCopy, List.forall_mem_cons] at hcopy
  obtain ⟨hstring, hblob, hbyteBuf, hvector, hhash, hfloat, hboolean, hinteger, -⟩ := hcopy
  simp [readContent, hstring, hblob, hbyteBuf, hvector, hhash, hfloat, hboolean, hinteger, hw]

/-- The foreign form of a value is converted back to the value, with the objects in it as they can
be read, if the counts have room for both conversions. -/
theorem returns_built (hb : b.Books host) (hu : b.Bounded) (ht : b.truths = some t)
    (hv : v.WellFormed) (hheld : ∀ o ∈ v.claims, o ∈ host) (hroom : b.HasRoom v.claims)
    (hback : (b.built t v).RoomToRead (v.root t b.heap.slots.length)) {copy : ObjId → Value}
    (hl : ∀ o ∈ v.claims, b.read b.heap.slots.length (some o) = some (copy o)) :
    ∃ w b', (foreignToHost (v.root t b.heap.slots.length)).run (b.built t v) = (.ok w, b') ∧
      w.same (v.substitute copy) = true := by
  have hbooks := hb.built hu ht hv hheld
  have hu₁ := hu.built (t := t) hroom
  have hroot : ((v.root t b.heap.slots.length).toList : Multiset ObjId) ⊆
      (v.root t b.heap.slots.length).toList + host :=
    Multiset.subset_of_le (Multiset.le_add_right _ _)
  have hu₂ := hu₁.foreignToHost hbooks hroot hback
  have hreads := foreignToHost_reads hbooks hu₁ hroot
  obtain ⟨w, hw, hsame⟩ := read_built_root (hb.sound hu) ht hv.distinct hl
  cases hrun : (foreignToHost (v.root t b.heap.slots.length)).run (b.built t v) with
  | mk result b₂ =>
    rw [hrun] at hu₂
    cases result with
    | ok w' =>
      obtain rfl := Option.some.inj (hw.symm.trans (hreads.of_ok hrun hu₂).2)
      exact ⟨w, b₂, rfl, hsame⟩
    | error u => cases hw.symm.trans (hreads.of_error hrun hu₂)

end Bridge

/-- Every value can be converted to an object, and converting that back gives an equal value, with
each object in it replaced by what converting that object gives.  A value without objects comes back
itself, and so does one whose objects are such as to be wrapped.  Where there are objects, the
counts have room for both conversions.  `u` is the value as the host happens to list the entries of
its maps, and the state says which checksums the keys of hashes have, so that neither matters. -/
theorem round_trip {b : Bridge} {host : Multiset ObjId} (hb : b.Books host) (hu : b.Bounded)
    {v u : Value} (hwf : u.WellFormed) (horder : u.same v = true)
    (hheld : ∀ o ∈ v.claims, o ∈ host) :
    ∃ r b₁, (hostToForeign u none true).run b = (.ok (.ok r), b₁) ∧
      (v.claims = [] → ∃ w b₂, (foreignToHost r).run b₁ = (.ok w, b₂) ∧ w.same v = true) ∧
      (b.HasRoom u.claims → b₁.RoomToRead r →
        (∀ copy, (∀ o ∈ v.claims, b.ConvertsTo o (copy o)) →
          ∃ w b₂, (foreignToHost r).run b₁ = (.ok w, b₂) ∧
            w.same (v.substitute copy) = true) ∧
        ((∀ o ∈ v.claims, b.Wraps o) →
          ∃ w b₂, (foreignToHost r).run b₁ = (.ok w, b₂) ∧ w.same v = true)) := by
  obtain ⟨t, ht⟩ := Option.isSome_iff_exists.mp hb.truths
  have hmem : ∀ o ∈ u.claims, o ∈ v.claims := fun o => Value.mem_claims_of_same horder
  have hheld' : ∀ o ∈ u.claims, o ∈ host := fun o ho => hheld o (hmem o ho)
  refine ⟨_, _, Bridge.run_hostToForeign hb hu ht hwf hheld', fun hfree => ?_,
    fun hroom hback => ⟨fun copy hcopy => ?_, fun hwraps => ?_⟩⟩
  · have hfree' : u.claims = [] := List.eq_nil_iff_forall_not_mem.mpr fun o ho => by
      have ho' := hmem o ho
      rw [hfree] at ho'
      cases ho'
    obtain ⟨w, hcopies, -, -, hsame⟩ := Bridge.copies_built hb hu ht hwf hfree'
    obtain ⟨_, b₂, hrun, rfl, -⟩ := (hcopies _ (hu.built_free (t := t) hfree')).returns
    exact ⟨_, b₂, hrun, Value.same_trans hsame horder⟩
  · have hcopy' : ∀ o ∈ u.claims, b.read b.heap.slots.length (some o) = some (copy o) :=
      fun o ho => (hcopy o (hmem o ho)).read hb hu (hheld' o ho)
    obtain ⟨w, b₂, hrun, hsame⟩ := Bridge.returns_built hb hu ht hwf hheld' hroom hback hcopy'
    refine ⟨w, b₂, hrun, Value.same_trans hsame (Value.same_substitute horder fun o ho => ?_)⟩
    exact Value.same_refl (readWithin_distinct (hcopy' o ho))
  · -- each object reads as a wrapper around itself
    have hself : ∀ o ∈ u.claims,
        ∃ w, b.read b.heap.slots.length (some o) = some (.object ⟨w, o⟩) :=
      fun o ho => (hwraps o (hmem o ho)).read
    have hread : ∀ o ∈ u.claims, b.read b.heap.slots.length (some o) =
        some ((b.read b.heap.slots.length (some o)).getD .null) := by
      intro o ho
      obtain ⟨w, hw⟩ := hself o ho
      rw [hw, Option.getD_some]
    obtain ⟨w, b₂, hrun, hsame⟩ := Bridge.returns_built hb hu ht hwf hheld' hroom hback hread
    refine ⟨w, b₂, hrun, Value.same_trans hsame
      (Value.same_trans (Value.substitute_same hwf.distinct fun h hh => ?_) horder)⟩
    obtain ⟨w, hw⟩ := hself h.obj hh
    rw [hw, Option.getD_some]
    exact Value.same_object_iff.mpr ⟨h, rfl, rfl⟩

/-- A sequence with a map, a NaN, a null and one value more. -/
def mixedValue (entries : List (String × Value)) (last : Value) : Value :=
  .seq [.map entries, .float 0x7ff8000000000001, .null, last]

theorem mixedValue_wellFormed :
    (mixedValue [("b", .object ⟨.errObj, ⟨2⟩⟩), ("a", .int 1)]
      (.object ⟨.str, ⟨3⟩⟩)).WellFormed := by
  refine ⟨.seq ?_, .seq (by decide) ?_⟩
  · simp only [List.forall_mem_cons]
    refine ⟨.map (by decide) ?_, .float _, .null, .object _, nofun⟩
    simp only [List.forall_mem_cons]
    exact ⟨.object _, .int _, nofun⟩
  · simp only [List.forall_mem_cons]
    refine ⟨.map ?_, .float _, .null, .object _, nofun⟩
    simp only [List.forall_mem_cons]
    exact ⟨.object _, .int _, nofun⟩

theorem clashingBridge_convertsTo {o : ObjId} (ho : o ∈ [⟨2⟩, ⟨3⟩]) :
    clashingBridge.ConvertsTo o (if o = ⟨2⟩ then .object ⟨.errObj, ⟨2⟩⟩ else .text "x") := by
  rcases List.mem_cons.mp ho with rfl | ho
  · exact ⟨by decide +kernel, _, rfl⟩
  · cases List.mem_singleton.mp ho
    exact ⟨by decide +kernel, _, rfl⟩

/-- Whichever of two clashing keys is listed first, the map comes back with its error object
wrapped, and the string object after it comes back as text. -/
theorem round_trip_of_clashing_keys :
    ∃ r b₁ w b₂,
      (hostToForeign (mixedValue [("b", .object ⟨.errObj, ⟨2⟩⟩), ("a", .int 1)]
        (.object ⟨.str, ⟨3⟩⟩)) none true).run clashingBridge = (.ok (.ok r), b₁) ∧
      (foreignToHost r).run b₁ = (.ok w, b₂) ∧
      w.same (mixedValue [("a", .int 1), ("b", .object ⟨.errObj, ⟨2⟩⟩)] (.text "x")) = true := by
  obtain ⟨r, b₁, hrun, -, hback⟩ := round_trip clashingBridge_books (by decide)
    mixedValue_wellFormed
    (v := mixedValue [("a", .int 1), ("b", .object ⟨.errObj, ⟨2⟩⟩)] (.object ⟨.str, ⟨3⟩⟩))
    (by decide +kernel) (by decide +kernel)
  have hroom : b₁.RoomToRead r := by
    let out : Except Unwind (Except ConversionError (Option ObjId)) × Bridge :=
      (hostToForeign (mixedValue [("b", .object ⟨.errObj, ⟨2⟩⟩), ("a", .int 1)]
        (.object ⟨.str, ⟨3⟩⟩)) none true).run clashingBridge
    have heval : out.2.RoomToRead (out.1.toOption.bind Except.toOption).join := by decide +kernel
    have hout : out = (.ok (.ok r), b₁) := hrun
    rw [hout] at heval
    exact heval
  obtain ⟨w, b₂, hw, hsame⟩ := (hback (by decide +kernel) hroom).1 _ fun o ho =>
    clashingBridge_convertsTo ho
  exact ⟨r, b₁, w, b₂, hrun, hw, hsame⟩

/-- The string of `crowdedBridge` with room for a single claim. -/
def nearlyFullBridge : Bridge := crowdedBridge (2 ^ 32 - 5 + 1)

theorem nearlyFullBridge_convertsTo : nearlyFullBridge.ConvertsTo stringRef.obj (.text "x") := by
  have hsame : ((foreignToHost (some stringRef.obj)).run nearlyFullBridge).1.map
      (Value.same (.text "x")) = .ok true := by decide +kernel
  refine ⟨by decide +kernel, ?_⟩
  generalize (foreignToHost (some stringRef.obj)).run nearlyFullBridge = out at hsame ⊢
  obtain ⟨u | w, b'⟩ := out
  · cases hsame
  · obtain rfl := (Value.same_scalar_iff (by trivial)).mp (Except.ok.inj hsame)
    exact ⟨b', rfl⟩

/-- A sequence takes the last claim that can be counted on an object in it.  That object can be
converted, and yet converting the sequence back raises an exception. -/
theorem round_trip_of_full_count :
    ∃ host, nearlyFullBridge.Reached host ∧ nearlyFullBridge.Bounded ∧
      (Value.seq [.object stringRef]).WellFormed ∧
      (∀ o ∈ (Value.seq [.object stringRef]).claims,
        o ∈ host ∧ nearlyFullBridge.ConvertsTo o (.text "x")) ∧
      ∃ b₁, (hostToForeign (.seq [.object stringRef]) none true).run nearlyFullBridge =
          (.ok (.ok (some ⟨4⟩)), b₁) ∧
        ∃ b₂, (foreignToHost (some ⟨4⟩)).run b₁ = (.error (.raised .bridge ⟨5⟩), b₂) ∧
          b₂.heap.content ⟨5⟩ = some (.err, .err (overdrawnMessage .string)) := by
  obtain ⟨host, hreached, hheld, -⟩ := crowdedBridge_reached (2 ^ 32 - 5) (by decide)
  refine ⟨host, hreached, by decide +kernel, seq_stringRef_wellFormed, fun o ho => ?_, ?_⟩
  · obtain rfl : o = stringRef.obj := List.mem_singleton.mp ho
    exact ⟨hheld, nearlyFullBridge_convertsTo⟩
  · refine exists_state (by decide +kernel) ?_
    exact exists_state_of_error Value.claims (by decide +kernel) (by decide +kernel)

end ObjectBridge
