import Opg3d.Scene.Runtime

namespace Opg3d

open Kit Native

/-- A value of a C++ type that fits a field: for a value-type field, one no
wider than the type, within its unsigned range; for a reference, a pointer. -/
def FieldValue.Fits (value : Bytes) : FieldValue → Prop
  | .value old => old.length ≤ value.length ∧ ∀ byte ∈ value.drop old.length, byte = 0
  | .reference _ => value.length = 4

def FieldValue.IsValue : FieldValue → Prop
  | .value _ => True
  | .reference _ => False

/-- A value written to a value-type field is read back with zeros above it. -/
theorem copied_stored_value {old value behind : Bytes} {here : Ptr}
    (fits : (FieldValue.value old).Fits value) (small : value.length ≤ 8) :
    (scratch ((FieldValue.value old).stored ⟨here, value⟩ behind).copied).take value.length = value := by
  obtain ⟨narrow, zeros⟩ := fits
  have kept : ((FieldValue.value old).stored ⟨here, value⟩ behind).copied = value.take old.length := by
    simp only [FieldValue.stored, FieldValue.copied]
    exact List.take_append_of_le_length narrow
  have width : (value.take old.length).length = old.length := by simpa using narrow
  have rest : value.drop old.length = List.replicate (value.length - old.length) 0 :=
    List.eq_replicate_iff.mpr ⟨by simp, zeros⟩
  rw [kept, scratch_take (by omega) (by omega), width, ← rest, List.take_append_drop]

/-- What is read from a reference field after a write is the address that was passed. -/
theorem copied_stored_reference {old here : Ptr} {value behind : Bytes} (pointer : value.length = 4) :
    (scratch ((FieldValue.reference old).stored ⟨here, value⟩ behind).copied).take value.length =
      ptrBytes here := by
  have width : (ptrBytes here).length = 4 := length_leBytes 4 _
  simp only [FieldValue.stored, FieldValue.copied]
  rw [scratch_take (by omega) (by omega), pointer, width]
  exact List.append_nil _

theorem content_setField {w : World} {object field other handle : Ptr} {value : FieldValue}
    (elsewhere : (other, handle) ≠ (object, field)) :
    (w.setField object field value).content other handle = w.content other handle := by
  unfold World.setField
  by_cases same : other = object
  · subst same
    have different : handle ≠ field := fun equal => elsewhere (by rw [equal])
    simp [different]
  · simp [same]

theorem content_written (w : World) (object : Ptr) (name : String) (here : Ptr) (value : Bytes) :
    (w.written object name here value).contentOf object name =
      (w.contentOf object name).stored ⟨here, value⟩ w.behind := by
  simp [World.contentOf, World.written, World.setField, World.fieldOf]

/-- If `write_field` reports success, `read_field` yields the same value, and
no other field of any object has changed. -/
def RoundTrips (build : Build) (conduct : Conduct) (s : Scene) (object : Ptr) (name : String)
    (value : Bytes) : Prop :=
  let written := (writeField object name value).eval (Scene.answer build conduct) s
  written.1 = true →
    ((readField object name value.length).eval (Scene.answer build conduct) written.2).1 = some value ∧
    ∀ other field, (other, field) ≠ (object, s.world.fieldOf object name) →
      written.2.world.content other field = s.world.content other field

/-- The round trip works exactly for value-type fields, or where a reference
to be written happens to be the address of the parameter that holds it. -/
theorem roundTrips_iff {build : Build} {conduct : Conduct} {s : Scene} {object : Ptr} {name : String}
    {value : Bytes} (bound : s.system.core.Bound) (small : value.length ≤ 8)
    (fits : (s.world.contentOf object name).Fits value) :
    RoundTrips build conduct s object name value ↔ (s.world.HasField object name →
      (s.world.contentOf object name).IsValue ∨ value = ptrBytes (conduct.other .addressOfValue)) := by
  unfold RoundTrips Scene.answer
  by_cases has : s.world.HasField object name
  · rw [Scene.eval_writeField bound has]
    simp only [has, forall_const]
    have frame : ∀ other field, (other, field) ≠ (object, s.world.fieldOf object name) →
        (s.world.written object name (conduct.other .addressOfValue) value).content other field =
          s.world.content other field := fun other field elsewhere => content_setField elsewhere
    rw [Scene.eval_readField (s := ⟨s.system, s.world.written object name
      (conduct.other .addressOfValue) value⟩) bound,
      and_iff_left frame]
    have still : (s.world.written object name (conduct.other .addressOfValue) value).HasField object name := has
    simp only [World.read, if_pos still, content_written, Option.some.injEq]
    cases content : s.world.contentOf object name with
    | value old =>
      rw [content] at fits
      simp only [FieldValue.IsValue, true_or, iff_true]
      exact copied_stored_value fits small
    | reference old =>
      rw [content] at fits
      rw [copied_stored_reference fits]
      simp only [FieldValue.IsValue, false_or]
      exact eq_comm
  · rw [Scene.eval_writeField_none bound has]
    simp [has]

/-- A settings object with a string in its `AppID`. -/
def appIdWorld : World :=
  { World.empty with
    metadata := { Metadata.empty with field := fun _ _ => 8 }
    classOf := fun _ => 4
    content := fun _ _ => .reference 0x1000 }

theorem writeField_appId : (appIdWorld.contentOf 32 "AppID").Fits (ptrBytes 0x2000) ∧
    ¬RoundTrips ⟨false, [], [], 0⟩ .passive (.loaded appIdWorld) 32 "AppID" (ptrBytes 0x2000) := by
  refine ⟨rfl, fun roundTrip => ?_⟩
  exact absurd (roundTrip (by decide)).1 (by decide)

def portWorld : World := { appIdWorld with content := fun _ _ => .value [0, 0, 0, 0] }

theorem writeField_port :
    RoundTrips ⟨false, [], [], 0⟩ .passive (.loaded portWorld) 32 "ServerPort" (int32Bytes 5055) :=
  (roundTrips_iff (Scene.loaded_bound _) (by decide) (by exact ⟨by decide, by decide⟩)).mpr fun _ =>
    Or.inl trivial

end Opg3d
