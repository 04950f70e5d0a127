import ObjectBridge.Heap.Basic

set_option autoImplicit false

/-!
# Classes whose objects are copied (SPEC §4.3, §12.3)

Reading an object copies it if its class is one of eight built-in ones or below it.  Each of them
asks for a layout of its own, and none of them is below another.
-/

namespace ObjectBridge

/-- A built-in class whose objects, and those of its descendants, are copied to the host. -/
inductive CopyKind where
  | string
  | blob
  | byteBuf
  | vector
  | hash
  | float
  | boolean
  | integer
  deriving DecidableEq, Repr

namespace CopyKind

/-- The class of the kind. -/
def cls : CopyKind → Class
  | string => .string
  | blob => .blob
  | byteBuf => .byteBuf
  | vector => .vector
  | hash => .hash
  | float => .float
  | boolean => .boolean
  | integer => .integer

/-- What objects of the kind have to carry. -/
def layout : CopyKind → Layout
  | string => .string
  | blob => .blob
  | byteBuf => .byteBuf
  | vector => .vector
  | hash => .hash
  | float => .float
  | boolean => .boolean
  | integer => .integer

/-- All kinds, in the order in which reading asks for them. -/
def all : List CopyKind := [string, blob, byteBuf, vector, hash, float, boolean, integer]

/-- Whether the view that reading takes of objects of the kind shows something of the payload. -/
def shows (q : Payload) : CopyKind → Bool
  | string => q.string?.isSome
  | blob => q.blob?.isSome
  | byteBuf => q.byteBuf?.isSome
  | vector => q.vector?.isSome
  | hash => q.hash?.isSome
  | float => q.float?.isSome
  | boolean => q.boolean?.isSome
  | integer => q.integer?.isSome

theorem shows_iff (k : CopyKind) (q : Payload) : k.shows q = true ↔ q.layout = k.layout := by
  cases k <;> cases q <;> simp [shows, layout, Payload.layout, Payload.string?, Payload.blob?,
    Payload.byteBuf?, Payload.vector?, Payload.hash?, Payload.float?, Payload.boolean?,
    Payload.integer?]

theorem cls_mem_builtins (k : CopyKind) : k.cls ∈ Class.builtins := by
  cases k <;> decide

theorem ancestors_cls (k : CopyKind) : k.cls.ancestors = [k.cls, .obj] := by
  cases k <;> rfl

theorem eq_of_id {k l : CopyKind} (h : k.cls.id.index = l.cls.id.index) : k = l := by
  revert h
  cases k <;> cases l <;> decide

theorem id_ne_obj (k : CopyKind) : k.cls.id.index ≠ Class.obj.id.index := by
  cases k <;> decide

/-- None of the eight classes is below another. -/
theorem eq_of_mem_ancestors {k l : CopyKind} (h : l.cls ∈ k.cls.ancestors) : k = l := by
  rw [ancestors_cls, List.mem_cons, List.mem_singleton] at h
  rcases h with heq | hobj
  · exact eq_of_id (by rw [heq])
  · exact absurd (by rw [hobj]) l.id_ne_obj

end CopyKind

end ObjectBridge
