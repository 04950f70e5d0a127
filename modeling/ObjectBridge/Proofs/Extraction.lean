import ObjectBridge.Proofs.Encodings

set_option autoImplicit false

/-!
# Reading data out of values (SPEC §12.3)

`Conforms` says which values are of a type, and `Faults` at which positions a value is not, with the
error that this is. Decoding accepts exactly the values that conform, and reads data with the same
nodes; of others it reports the fault at a position that no other fault precedes.  What is read
becomes the value that it was read from.
-/

namespace ObjectBridge

/-- Elements of a sequence come in order.  Entries of a map come in any order. -/
inductive Precedes : Position → Position → Prop
  | index {i j : Nat} {p q : Position} (hij : i < j) : Precedes (.item i :: p) (.item j :: q)
  | inside {step : Branch} {p q : Position} (hpq : Precedes p q) : Precedes (step :: p) (step :: q)

theorem not_precedes_nil (p : Position) : ¬ Precedes p [] := nofun

namespace Ty

/-! ## Values of a type -/

/-- Reading data of the type rounds nothing: there are no short floats in it. -/
def Exact : Ty → Prop
  | float32 => False
  | option t | list t | dict t | sortedDict t => t.Exact
  | int _ | float64 | bool | text | bytes | value | claim | host => True

/-- The type of what a map of the type has under its keys. -/
def valueType? : Ty → Option Ty
  | dict t | sortedDict t => some t
  | _ => none

/-- The kind of value that the type asks for.  Options and values ask for none. -/
def kind? : Ty → Option String
  | int _ => some "int"
  | float32 | float64 => some "float"
  | bool => some "bool"
  | text => some "text"
  | bytes => some "bytes"
  | claim | host => some "object"
  | list _ => some "seq"
  | dict _ | sortedDict _ => some "map"
  | value | option _ => none

/-- The value is of the type. -/
inductive Conforms : Ty → Value → Prop
  | int {i : IntType} {n : Int64} (hn : i.Fits n.toInt) : Conforms (.int i) (.int n)
  | float32 (bits : UInt64) : Conforms .float32 (.float bits)
  | float64 (bits : UInt64) : Conforms .float64 (.float bits)
  | bool (b : Bool) : Conforms .bool (.bool b)
  | text (s : String) : Conforms .text (.text s)
  | bytes (b : List UInt8) : Conforms .bytes (.bytes b)
  | value (v : Value) : Conforms .value v
  | claim (h : HostRef) : Conforms .claim (.object h)
  | host (h : HostRef) : Conforms .host (.object h)
  | absent {t : Ty} : Conforms (.option t) .null
  | present {t : Ty} {v : Value} (hv : Conforms t v) : Conforms (.option t) v
  | list {t : Ty} {items : List Value} (hitems : ∀ v ∈ items, Conforms t v) :
    Conforms (.list t) (.seq items)
  | map {s t : Ty} {entries : List (String × Value)} (ht : t.valueType? = some s)
    (hentries : ∀ e ∈ entries, Conforms s e.2) : Conforms t (.map entries)

/-- The value is not of the type, because of what stands at a position; this is the error. -/
inductive Faults : Ty → Value → Position → BridgeError → Prop
  | kind {t : Ty} {v : Value} {k : String} (hk : t.kind? = some k) (hv : v.kind ≠ k) :
    Faults t v [] (.conversion (.typeMismatch k v.kind))
  | range {i : IntType} {n : Int64} (hn : ¬ i.Fits n.toInt) :
    Faults (.int i) (.int n) [] (.range ⟨n.toInt, i.label⟩)
  | option {t : Ty} {v : Value} {p : Position} {e : BridgeError} (hv : v ≠ .null)
    (inside : Faults t v p e) :
    Faults (.option t) v p e
  | item {t : Ty} {items : List Value} {i : Nat} {v : Value} {p : Position} {e : BridgeError}
    (hv : items[i]? = some v) (inside : Faults t v p e) :
    Faults (.list t) (.seq items) (.item i :: p) e
  | entry {s t : Ty} {entries : List (String × Value)} {k : String} {v : Value} {p : Position}
    {e : BridgeError} (ht : t.valueType? = some s) (hv : Assoc.find? k entries = some v)
    (inside : Faults s v p e) :
    Faults t (.map entries) (.key k :: p) e

/-- The error is that of a fault which no other fault precedes. -/
def FirstFault (t : Ty) (v : Value) (e : BridgeError) : Prop :=
  ∃ p, t.Faults v p e ∧ ∀ q d, t.Faults v q d → ¬ Precedes q p

/-- The data is what a value of the type holds: it has the nodes of the value and claims of its own
on the objects. -/
structure Extracted (t : Ty) (v : Value) (x : t.Carrier) : Prop where
  conforms : t.Conforms v
  nodes : t.nodeAt x = v.nodeAt
  keyed : t.Keyed x
  claims : (t.claims x).Perm v.claims

variable {s t : Ty} {v : Value} {p : Position} {e : BridgeError}

theorem kind?_of_valueType? (ht : t.valueType? = some s) : t.kind? = some "map" := by
  cases t with
  | dict t | sortedDict t => rfl
  | _ => cases ht

/-- What conforms has no faults. -/
theorem Faults.not_conforms (hf : t.Faults v p e) : ¬ t.Conforms v := by
  induction hf with
  | kind hk hv =>
    intro hc
    cases hc with
    | value v | absent | present hv => cases hk
    | map ht hentries => exact hv (Option.some.inj ((kind?_of_valueType? ht).symm.trans hk))
    | _ => exact hv (Option.some.inj hk)
  | range hn =>
    rintro ⟨hfits⟩
    exact hn hfits
  | option hv _ ih =>
    intro hc
    cases hc with
    | absent => exact hv rfl
    | present hc => exact ih hc
    | map ht hentries => cases ht
  | item hv _ ih =>
    intro hc
    cases hc with
    | list hitems => exact ih (hitems _ (List.mem_of_getElem? hv))
  | @entry s t entries k v p e ht hv _ ih =>
    intro hc
    cases hc with
    | value v | present hc => cases ht
    | map ht' hentries =>
      obtain rfl := Option.some.inj (ht.symm.trans ht')
      exact ih (hentries _ (Assoc.mem_of_find? hv))

/-! ## First faults -/

theorem firstFault_kind {k : String} (hk : t.kind? = some k) (hv : v.kind ≠ k) :
    t.FirstFault v (.conversion (.typeMismatch k v.kind)) :=
  ⟨[], .kind hk hv, fun q _ _ => not_precedes_nil q⟩

theorem FirstFault.option (hv : v ≠ .null) (he : t.FirstFault v e) :
    (Ty.option t).FirstFault v e := by
  obtain ⟨p, hp, hfirst⟩ := he
  refine ⟨p, .option hv hp, fun q d hq => ?_⟩
  cases hq with
  | kind hk _ => cases hk
  | option _ inside => exact hfirst q d inside
  | entry ht _ _ => cases ht

theorem firstFault_list {items : List Value} (he : FirstError t.Extracted t.FirstFault items e) :
    (Ty.list t).FirstFault (.seq items) e := by
  obtain ⟨before, v, after, rfl, hbefore, p, hp, hfirst⟩ := he
  refine ⟨.item before.length :: p, .item (by simp) hp, fun q d hq hpre => ?_⟩
  cases hq with
  | kind _ _ => cases hpre
  | item hw inside =>
    cases hpre with
    | index hij =>
      -- what comes before has been read, so it conforms
      rw [List.getElem?_append_left hij] at hw
      obtain ⟨x, hx⟩ := hbefore _ (List.mem_of_getElem? hw)
      exact inside.not_conforms hx.conforms
    | inside hpq =>
      obtain rfl : v = _ := by simpa using hw
      exact hfirst _ d inside hpq

theorem firstFault_map {P : String × Value → String × s.Carrier → Prop}
    {entries : List (String × Value)} (ht : t.valueType? = some s)
    (hkeys : (Assoc.keys entries).Nodup) (he : FirstError P (fun d => s.FirstFault d.2) entries e) :
    t.FirstFault (.map entries) e := by
  obtain ⟨before, d, after, rfl, -, p, hp, hfirst⟩ := he
  have hfind := Assoc.find?_of_mem hkeys (show d ∈ before ++ d :: after by simp)
  refine ⟨.key d.1 :: p, .entry ht hfind hp, fun q d hq hpre => ?_⟩
  cases hpre with
  | inside hpq =>
    cases hq with
    | option _ _ => cases ht
    | entry ht' hw inside =>
      obtain rfl := Option.some.inj (ht.symm.trans ht')
      obtain rfl := Option.some.inj (hfind.symm.trans hw)
      exact hfirst _ _ inside hpq

/-! ## Extracted data -/

theorem extracted_scalar {x : t.Carrier} (hv : v.IsScalar) (hconf : t.Conforms v)
    (hnodes : t.nodeAt x = v.node.only) (hx : t.Keyed x) (hclaims : t.claims x = []) :
    t.Extracted v x := by
  refine ⟨hconf, hnodes.trans (Value.nodeAt_scalar hv).symm, hx, ?_⟩
  rw [hclaims, Value.claims_of_isScalar hv]

theorem Extracted.some {x : t.Carrier} (hx : t.Extracted v x) :
    (Ty.option t).Extracted v (Option.some x) := by
  refine ⟨.present hx.conforms, hx.nodes, ?_, ?_⟩
  · rintro _ ⟨⟩
    exact hx.keyed
  · exact claims_some x ▸ hx.claims

theorem extracted_list {items : List Value} {xs : List t.Carrier}
    (hall : List.Forall₂ t.Extracted items xs) :
    (Ty.list t).Extracted (.seq items) xs := by
  refine ⟨.list fun v hv => ?_, ?_, fun x hx => ?_, ?_⟩
  · obtain ⟨x, -, hx⟩ := exists_of_mem_right hall.flip hv
    exact hx.conforms
  · rw [Value.nodeAt_seq]
    exact (itemNodes_eq_iff t.isSome_nodeAt_nil Value.isSome_nodeAt_nil).mpr
      (hall.flip.imp fun _ _ h => h.nodes)
  · obtain ⟨v, -, hv⟩ := exists_of_mem_right hall hx
    exact hv.keyed
  · rw [Value.claims, Value.claimsOfItems_eq]
    change (xs.flatMap t.claims).Perm _
    induction hall with
    | nil => exact .nil
    | cons hvx _ ih => exact hvx.claims.append ih

/-- The entries `xs` are what the entries of a map hold. -/
def ExtractedEntries (t : Ty) (entries : List (String × Value))
    (xs : List (String × t.Carrier)) : Prop :=
  List.Forall₂ (fun e x => x.1 = e.1 ∧ t.Extracted e.2 x.2) entries xs

namespace ExtractedEntries

variable {entries : List (String × Value)} {xs : List (String × t.Carrier)}

theorem keys (hall : ExtractedEntries t entries xs) : Assoc.keys xs = Assoc.keys entries :=
  Assoc.keys_eq_of_forall₂ hall fun _ _ h => h.1

theorem conforms (hall : ExtractedEntries t entries xs) : ∀ e ∈ entries, t.Conforms e.2 := by
  intro e he
  obtain ⟨x, -, hx⟩ := exists_of_mem_right hall.flip he
  exact hx.2.conforms

theorem nodes (hall : ExtractedEntries t entries xs) :
    entryNodes t.nodeAt xs = (Value.map entries).nodeAt := by
  rw [Value.nodeAt_map, entryNodes_eq_iff t.isSome_nodeAt_nil Value.isSome_nodeAt_nil]
  exact Assoc.find?_rel (R := fun _ x v => t.nodeAt x = v.nodeAt)
    (hall.flip.imp fun _ _ h => ⟨h.1.symm, h.2.nodes⟩)

theorem keyed (hall : ExtractedEntries t entries xs) : ∀ x ∈ xs, t.Keyed x.2 := by
  intro x hx
  obtain ⟨e, -, he⟩ := exists_of_mem_right hall hx
  exact he.2.keyed

theorem claims (hall : ExtractedEntries t entries xs) :
    (xs.flatMap fun x => t.claims x.2).Perm (Value.map entries).claims := by
  rw [Value.claims, Value.claimsOfEntries_eq]
  induction hall with
  | nil => exact .nil
  | cons hex _ ih => exact hex.2.claims.append ih

theorem dict (hall : ExtractedEntries t entries xs) (hkeys : (Assoc.keys entries).Nodup) :
    (Ty.dict t).Extracted (.map entries) xs :=
  ⟨.map rfl hall.conforms, hall.nodes, ⟨hall.keys ▸ hkeys, hall.keyed⟩, hall.claims⟩

theorem sortedDict (hall : ExtractedEntries t entries xs) (hkeys : (Assoc.keys entries).Nodup) :
    (Ty.sortedDict t).Extracted (.map entries) (sortByKey xs) := by
  have hperm := sortByKey_perm xs
  have hnodup : (Assoc.keys xs).Nodup := hall.keys ▸ hkeys
  refine ⟨.map rfl hall.conforms, ?_, ⟨?_, fun x hx => hall.keyed x (hperm.mem_iff.mp hx)⟩, ?_⟩
  · exact (entryNodes_of_perm hperm hnodup).trans hall.nodes
  · have hdiffer : (Assoc.keys (sortByKey xs)).Nodup := (hperm.map Prod.fst).nodup_iff.mpr hnodup
    refine ((pairwise_sortByKey xs).and hdiffer).imp fun hab => ?_
    exact String.not_le.mp fun hba => hab.2 (String.le_antisymm hab.1 hba)
  · exact (hperm.flatMap_right _).trans hall.claims

end ExtractedEntries

/-! ## Decoding -/

section Decoding

variable {b : Bridge}

theorem settles_mismatch {α : Type} {P : α → Prop} {k : String} {claims : List ObjId}
    (hk : t.kind? = some k) (hv : v.kind ≠ k) :
    Settles b claims (pure (mismatch k v)) P (t.FirstFault v) :=
  settles_error (firstFault_kind hk hv)

theorem settles_present (hv : v ≠ .null)
    (hr : Settles b v.claims (t.decode v) (t.Extracted v) (t.FirstFault v)) :
    Settles b v.claims ((Ty.option t).decode v) ((Ty.option t).Extracted v)
      ((Ty.option t).FirstFault v) := by
  have hsome := hr.mono (fun _ hx => hx.some) fun _ he => he.option hv
  cases v with
  | null => exact absurd rfl hv
  | _ => exact hsome.map (g := Option.some) (fun _ => rfl) (fun _ => rfl)

theorem settles_decodeEntries (ht : t.valueType? = some s) (hv : v.Distinct)
    (hw : b.Wrappable v.claims)
    (hdec : ∀ w : Value, w.Distinct → ∀ b : Bridge, b.Wrappable w.claims →
      Settles b w.claims (s.decode w) (s.Extracted w) (s.FirstFault w)) :
    Settles b v.claims (decodeEntries s.decode s.drop v)
      (fun xs => ∃ entries, v = .map entries ∧ (Assoc.keys entries).Nodup ∧
        ExtractedEntries s entries xs)
      (t.FirstFault v) := by
  cases hv with
  | @map entries hkeys hentries =>
    rw [Value.claims, Value.claimsOfEntries_eq] at hw ⊢
    have hone : ∀ e ∈ entries, ∀ b : Bridge, b.Wrappable e.2.claims →
        Settles b e.2.claims (withKey s.decode e)
        (fun x => x.1 = e.1 ∧ s.Extracted e.2 x.2) (s.FirstFault e.2) := by
      intro e he b hb
      exact ((hdec e.2 (hentries e he) b hb).mono (fun x hx => ⟨rfl, hx⟩) fun _ h => h).map
        (g := fun x => (e.1, x)) (fun _ => rfl) (fun _ => rfl)
    exact (settles_decodeAll (fun _ _ hx => ⟨_, rfl, hx.2.claims⟩) hone hw).mono
      (fun xs hall => ⟨entries, rfl, hkeys, hall⟩) fun _ he => firstFault_map ht hkeys he
  | _ => exact settles_mismatch (kind?_of_valueType? ht) (by simp [Value.kind])

/-- Decoding settles for data that is what the value holds, or for a first fault of the value. -/
theorem settles_decode (ht : t.Exact) (hv : v.Distinct) (hw : b.Wrappable v.claims) :
    Settles b v.claims (t.decode v) (t.Extracted v) (t.FirstFault v) := by
  induction t generalizing v b with
  | int i =>
    cases v with
    | int n =>
      unfold decode
      by_cases hn : i.Fits n.toInt
      · have hdec : decodeInt i (.int n) = .ok ⟨n.toInt, hn⟩ := dif_pos hn
        rw [hdec]
        exact settles_of_run rfl (extracted_scalar trivial (.int hn) rfl trivial rfl)
      · have hdec : decodeInt i (.int n) = .error (.range ⟨n.toInt, i.label⟩) := dif_neg hn
        rw [hdec]
        exact settles_error ⟨[], .range hn, fun q _ _ => not_precedes_nil q⟩
    | _ => exact settles_mismatch (t := .int i) rfl (by simp [Value.kind])
  | float32 => exact ht.elim
  | float64 =>
    cases v with
    | float bits =>
      exact settles_of_run rfl (extracted_scalar trivial (.float64 bits) rfl trivial rfl)
    | _ => exact settles_mismatch (t := .float64) rfl (by simp [Value.kind])
  | bool =>
    cases v with
    | bool x => exact settles_of_run rfl (extracted_scalar trivial (.bool x) rfl trivial rfl)
    | _ => exact settles_mismatch (t := .bool) rfl (by simp [Value.kind])
  | text =>
    cases v with
    | text x => exact settles_of_run rfl (extracted_scalar trivial (.text x) rfl trivial rfl)
    | _ => exact settles_mismatch (t := .text) rfl (by simp [Value.kind])
  | bytes =>
    cases v with
    | bytes x => exact settles_of_run rfl (extracted_scalar trivial (.bytes x) rfl trivial rfl)
    | _ => exact settles_mismatch (t := .bytes) rfl (by simp [Value.kind])
  | value =>
    -- the copy has the wrappers that are registered, and nodes do not show them
    choose! f hf using hw
    have hnodes := (Value.same_iff_nodeAt (hv.rewrap f) hv).mp (Value.rewrap_same hv f)
    refine settles_of_run (run_bind_of_ok (Value.run_clone hf)) ⟨.value v, hnodes, hv.rewrap f, ?_⟩
    exact .of_eq (Value.claims_rewrap f v)
  | claim =>
    cases v with
    | object h =>
      obtain ⟨w, hw⟩ := hw h.obj List.mem_cons_self
      exact settles_of_run (run_bind_of_ok hw.run_share)
        ⟨.claim h, (Value.nodeAt_object h).symm, trivial, .refl _⟩
    | _ => exact settles_mismatch (t := .claim) rfl (by simp [Value.kind])
  | host =>
    cases v with
    | object h =>
      obtain ⟨w, hw⟩ := hw h.obj List.mem_cons_self
      exact settles_of_run (run_bind_of_ok hw.run_shareRef)
        ⟨.host h, (Value.nodeAt_object h).symm, trivial, .refl _⟩
    | _ => exact settles_mismatch (t := .host) rfl (by simp [Value.kind])
  | option t ih =>
    cases v with
    | null =>
      exact settles_of_run rfl (extracted_scalar trivial .absent rfl (fun y hy => by cases hy) rfl)
    | _ => exact settles_present (by simp) (ih ht hv hw)
  | list t ih =>
    cases hv with
    | @seq items hitems =>
      rw [Value.claims, Value.claimsOfItems_eq] at hw ⊢
      exact (settles_decodeAll (fun _ _ hx => ⟨_, rfl, hx.claims⟩)
        (fun v hv b hb => ih ht (hitems v hv) hb) hw).mono
        (fun _ hall => extracted_list hall) fun _ he => firstFault_list he
    | _ => exact settles_mismatch (t := .list t) rfl (by simp [Value.kind])
  | dict t ih =>
    refine (settles_decodeEntries rfl hv hw fun w hw b hb => ih ht hw hb).mono ?_ fun _ he => he
    rintro xs ⟨entries, rfl, hkeys, hall⟩
    exact hall.dict hkeys
  | sortedDict t ih =>
    refine ((settles_decodeEntries rfl hv hw fun w hw b hb => ih ht hw hb).mono ?_
      fun _ he => he).map
      (g := sortByKey) (fun _ => rfl) (fun _ => rfl)
    rintro xs ⟨entries, rfl, hkeys, hall⟩
    exact hall.sortedDict hkeys

theorem Conforms.run_decode (hconf : t.Conforms v) (ht : t.Exact) (hv : v.Distinct)
    (hw : b.Wrappable v.claims) :
    ∃ x, (t.decode v).run b = (.ok (.ok x), b.lent v.claims) ∧ t.Extracted v x := by
  have hok : Ends (t.decode v) b
      (fun r b' => ∃ x, r = .ok x ∧ b' = b.lent v.claims ∧ t.Extracted v x)
      fun _ _ => False := by
    refine Ends.mono (settles_decode ht hv hw) (fun r b' hend => ?_) fun _ _ hbad => ?_
    · cases r with
      | ok x => exact ⟨x, rfl, hend.2, hend.1⟩
      | error e =>
        obtain ⟨⟨p, hp, -⟩, -⟩ := hend
        exact absurd hconf hp.not_conforms
    · obtain ⟨⟨e, p, hp, -⟩, -⟩ := hbad
      exact hp.not_conforms hconf
  obtain ⟨_, _, hrun, x, rfl, rfl, hx⟩ := hok.returns
  exact ⟨x, hrun, hx⟩

theorem run_decode_refused (hnot : ¬ t.Conforms v) (ht : t.Exact) (hv : v.Distinct)
    (hw : b.Wrappable v.claims) (hspare : b.Spare v.claims) :
    ∃ e b', (t.decode v).run b = (.ok (.error e), b') ∧ b'.heap = b.heap := by
  have herror : Ends (t.decode v) b (fun r b' => ∃ e, r = .error e ∧ b'.heap = b.heap) fun _ _ =>
      False := by
    refine Ends.mono (settles_decode ht hv hw) (fun r b' hend => ?_) fun _ _ hbad => hbad.2 hspare
    cases r with
    | ok x => exact absurd hend.1.conforms hnot
    | error e =>
      obtain ⟨peak, rfl⟩ := hend.2 hspare
      exact ⟨e, rfl, rfl⟩
  obtain ⟨_, b', hrun, e, rfl, hheap⟩ := herror.returns
  exact ⟨e, b', hrun, hheap⟩

/-- The outcome of reading data of the type `t` out of the value `v` in the state `b`.  What is not
of the type is refused, with the heap as it was, if no count runs over while claims are lent. -/
structure DecodesExactly (t : Ty) (v : Value) (b : Bridge) : Prop where
  accepts : (∃ x b', (t.decode v).run b = (.ok (.ok x), b')) ↔ t.Conforms v
  extracts : ∀ x b', (t.decode v).run b = (.ok (.ok x), b') → t.Keyed x ∧
    ∀ p, t.nodeAt x p = v.nodeAt p
  refuses : ¬ t.Conforms v → ∀ out, b.heap.Counted out → b.HasRoom v.claims →
    ∃ e b', (t.decode v).run b = (.ok (.error e), b') ∧ b'.heap = b.heap
  reports : ∀ e b', (t.decode v).run b = (.ok (.error e), b') → t.FirstFault v e

/-- Decoding accepts exactly the values that are of the type, and the data has the nodes of the
value at all positions. Of any other value it reports a first fault. -/
theorem decode_accepts_exactly (t : Ty) (ht : t.Exact) (v : Value) (hv : v.Distinct) (b : Bridge)
    (hw : b.Wrappable v.claims) : t.DecodesExactly v b := by
  have hsettles := settles_decode ht hv hw
  refine ⟨⟨?_, fun hconf => ?_⟩, ?_, fun hnot out hcounted hroom => ?_, ?_⟩
  · rintro ⟨x, b', hrun⟩
    exact (Ends.of_ok hsettles hrun).1.conforms
  · obtain ⟨x, hrun, -⟩ := hconf.run_decode ht hv hw
    exact ⟨x, _, hrun⟩
  · intro x b' hrun
    obtain ⟨hx, -⟩ := Ends.of_ok hsettles hrun
    exact ⟨hx.keyed, fun p => congrFun hx.nodes p⟩
  · exact run_decode_refused hnot ht hv hw ⟨⟨out, hcounted⟩, hroom⟩
  · intro e b' hrun
    exact (Ends.of_ok hsettles hrun).1

theorem sharingBridge_wrappable {claims : List ObjId} (hclaims : ∀ o ∈ claims, o = ⟨2⟩) :
    sharingBridge.Wrappable claims := by
  intro o ho
  obtain rfl := hclaims o ho
  exact ⟨.errObj, by decide +kernel, ⟨.err, 1, .err "boom"⟩, by decide +kernel, by decide +kernel⟩

/-- A sequence with the error object, a map and a truth value is read as values.  As objects or
nulls it is refused: the map is reported, which comes first, and the error object is as before. -/
theorem decode_accepts_exactly_of_shared_object :
    (∃ x b', ((Ty.list .value).decode sharedValue).run sharingBridge = (.ok (.ok x), b') ∧
      ∀ p, (Ty.list .value).nodeAt x p = sharedValue.nodeAt p) ∧
    ∃ b', ((Ty.list (.option .claim)).decode sharedValue).run sharingBridge =
        (.ok (.error (.conversion (.typeMismatch "object" "map"))), b') ∧
        b'.heap = sharingBridge.heap ∧
      (Ty.list (.option .claim)).FirstFault sharedValue
        (.conversion (.typeMismatch "object" "map")) := by
  have hdistinct := sharedValue_wellFormed.distinct
  have hw : sharingBridge.Wrappable sharedValue.claims :=
    sharingBridge_wrappable (by decide +kernel)
  constructor
  · have hexact := decode_accepts_exactly (.list .value) trivial sharedValue hdistinct _ hw
    obtain ⟨x, b', hrun⟩ := hexact.accepts.mpr (.list fun v _ => .value v)
    exact ⟨x, b', hrun, (hexact.extracts x b' hrun).2⟩
  · have hexact :=
      decode_accepts_exactly (.list (.option .claim)) trivial sharedValue hdistinct _ hw
    have hfault : (Ty.list (.option .claim)).Faults sharedValue [.item 1]
        (.conversion (.typeMismatch "object" "map")) :=
          .item rfl (.option nofun (.kind rfl (by decide)))
    obtain ⟨e, b', hrun, hheap⟩ := hexact.refuses hfault.not_conforms _
      (sharingBridge_books.sound (by decide)).counted sharedValue_hasRoom
    have herror : (((Ty.list (.option .claim)).decode sharedValue).run sharingBridge).1.map
        (Except.map fun _ => ()) =
        .ok (.error (.conversion (.typeMismatch "object" "map"))) := by decide +kernel
    rw [hrun] at herror
    obtain rfl := Except.error.inj (Except.ok.inj herror)
    exact ⟨b', hrun, hheap, hexact.reports _ _ hrun⟩

/-- Where an object has as many claims as can be counted, a sequence with it and a number is no
sequence of objects, and reading it as one raises an exception in place of reporting the number. -/
theorem decode_accepts_exactly_of_full_count :
    ∃ host, fullBridge.Reached host ∧ fullBridge.Bounded ∧
      (Value.seq [.object stringRef, .int 1]).Distinct ∧
      fullBridge.Wrappable (Value.seq [.object stringRef, .int 1]).claims ∧
      (Ty.list .claim).Faults (.seq [.object stringRef, .int 1]) [.item 1]
        (.conversion (.typeMismatch "object" "int")) ∧
      ∃ b', ((Ty.list .claim).decode (.seq [.object stringRef, .int 1])).run fullBridge =
          (.error (.raised .bridge ⟨4⟩), b') ∧
        b'.heap.content ⟨4⟩ = some (.err, .err (overdrawnMessage .string)) := by
  obtain ⟨host, hreached, -⟩ := fullBridge_reached
  refine ⟨host, hreached, fullBridge_bounded, ?_, fun o ho => ?_, ?_, ?_⟩
  · refine .seq ?_
    simp only [List.forall_mem_cons]
    exact ⟨.object _, .int _, List.forall_mem_nil _⟩
  · obtain rfl : o = stringRef.obj := List.mem_singleton.mp ho
    exact ⟨.str, by decide +kernel, _, get?_fullBridge, by decide +kernel⟩
  · exact .item rfl (.kind rfl (by decide))
  · exact exists_state_of_error (Except.map fun _ => ()) (by decide +kernel) (by decide +kernel)

/-! ## Encoding what was decoded -/

/-- What is read becomes a value that is equal to the one it was read from, and no other value is
read as the same data. -/
theorem encode_undoes_decode (t : Ty) (ht : t.Exact) (v : Value) (hv : v.Distinct) (b : Bridge)
    (hw : b.Wrappable v.claims) (x : t.Carrier) (b' : Bridge)
    (hrun : (t.decode v).run b = (.ok (.ok x), b')) :
    (∃ w, (t.encode x).run b' = (.ok (.ok w), b') ∧ w.same v = true) ∧
      ∀ (u : Value) (c c' : Bridge) (y : t.Carrier), u.Distinct → c.Wrappable u.claims →
        (t.decode u).run c = (.ok (.ok y), c') → (∀ p, t.nodeAt y p = t.nodeAt x p) →
        u.same v = true := by
  obtain ⟨hx, rfl⟩ := Ends.of_ok (settles_decode ht hv hw) hrun
  constructor
  · choose! f hf using hw
    -- the integers of the data are those of a value
    have hr : t.InRange x := inRange_of_not_exceeds x hx.keyed (hx.nodes ▸ v.not_exceeds)
    obtain ⟨w, hw⟩ := exists_encoded f x hx.keyed hr
    refine ⟨w, hw.runs _ fun o ho => (hf o (hx.claims.mem_iff.mp ho)).lent v.claims, ?_⟩
    exact (Value.same_iff_nodeAt hw.distinct hv).mpr (hw.nodes.symm.trans hx.nodes)
  · intro u c c' y hu hw' hrun' hsame
    obtain ⟨hy, -⟩ := Ends.of_ok (settles_decode ht hu hw') hrun'
    exact (Value.same_iff_nodeAt hu hv).mpr (hy.nodes.symm.trans ((funext hsame).trans hx.nodes))

/-- Maps with the error object and a null in them, out of order and in another wrapper than the
registered one. -/
def wrappedValue : Value := .seq [.map [("k", .object ⟨.object, ⟨2⟩⟩), ("a", .null)], .map []]

/-- Maps in key order, of objects under two options. -/
def wrappedType : Ty := .list (.sortedDict (.option (.option .claim)))

theorem wrappedValue_distinct : wrappedValue.Distinct := by
  refine .seq ?_
  simp only [List.forall_mem_cons]
  refine ⟨.map (by decide) ?_, .map (by decide) nofun, nofun⟩
  simp only [List.forall_mem_cons]
  exact ⟨.object _, .null, nofun⟩

theorem wrappedValue_conforms : wrappedType.Conforms wrappedValue := by
  refine .list ?_
  simp only [List.forall_mem_cons]
  refine ⟨.map rfl ?_, .map rfl nofun, nofun⟩
  simp only [List.forall_mem_cons]
  exact ⟨.present (.present (.claim _)), .absent, nofun⟩

/-- Read as such maps, the value comes back, although the entries are in another order and the
object in another wrapper. -/
theorem encode_undoes_decode_of_wrapped_object :
    ∃ x b' w, (wrappedType.decode wrappedValue).run sharingBridge = (.ok (.ok x), b') ∧
      (wrappedType.encode x).run b' = (.ok (.ok w), b') ∧ w.same wrappedValue = true := by
  have hw : sharingBridge.Wrappable wrappedValue.claims :=
    sharingBridge_wrappable (by decide +kernel)
  obtain ⟨x, hrun, -⟩ := wrappedValue_conforms.run_decode trivial wrappedValue_distinct hw
  obtain ⟨⟨w, henc, hsame⟩, -⟩ :=
    encode_undoes_decode wrappedType trivial wrappedValue wrappedValue_distinct _ hw x _ hrun
  exact ⟨x, _, w, hrun, henc, hsame⟩

end Decoding

end Ty

end ObjectBridge
