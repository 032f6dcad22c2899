import Mathlib.Tactic.Common
import MapQuery.Schema.Description

/-!
# Fields that cannot be described

A project is described layer by layer, and a layer field by field. The first field of a type that
has no place in questions ends the description, and is the one that the error names
(`cause?_describeProject`). A project without such fields is described
(`exists_describeProject_eq_ok_iff`).
-/

namespace MapQuery

/-! ## What went wrong -/

section Cause

variable {ε α β : Type}

/-- The error, if there is one. -/
def cause? : Except ε α → Option ε
  | .error e => some e
  | .ok _ => none

private theorem cause?_eq_some_iff {x : Except ε α} {e : ε} : cause? x = some e ↔ x = .error e := by
  cases x <;> simp [cause?]

private theorem cause?_eq_none_iff {x : Except ε α} : cause? x = none ↔ ∃ a, x = .ok a := by
  cases x <;> simp [cause?]

@[simp] theorem cause?_map (f : α → β) (x : Except ε α) : cause? (f <$> x) = cause? x := by
  cases x <;> rfl

/-- What went wrong in a list is what went wrong first. -/
theorem cause?_mapM (f : α → Except ε β) (xs : List α) :
    cause? (xs.mapM f) = xs.findSome? fun x ↦ cause? (f x) := by
  induction xs with
  | nil => rfl
  | cons x xs ih =>
    rw [List.mapM_cons, List.findSome?_cons, ← ih]
    cases f x with
    | error e => rfl
    | ok y => exact cause?_map (y :: ·) (xs.mapM f)

end Cause

/-! ## The first such field -/

/-- Fields of the type have no place in questions. -/
def FieldType.isUnsupported : FieldType → Bool
  | date | dateTime | binary | other _ => true
  | _ => false

private theorem FieldType.isUnsupported_eq (type : FieldType) :
    type.isUnsupported = (ValueSort.ofFieldType? type).isNone := by
  cases type <;> rfl

variable {π δ : Type} [Dataset δ] [Project π δ]

/-- The fields of all layers, each with its layer. -/
def allFields (project : π) : List (δ × Field) :=
  (Project.layers project).flatMap fun layer ↦ (Dataset.fields layer).map (layer, ·)

/-- The first field that has no place in questions, with its layer. -/
def firstUnsupported? (project : π) : Option (δ × Field) :=
  (allFields project).find? (·.2.type.isUnsupported)

/-- The error about a field of a layer. -/
def unsupportedField (layer : δ) (field : Field) : SchemaError :=
  .unsupportedFieldType (Dataset.name layer) field.name field.type

private theorem cause?_describeField (layer : δ) (classification : Option Classification)
    (field : Field) :
    cause? (describeField (Dataset.name layer) classification field)
      = (Option.guard (·.type.isUnsupported) field).map (unsupportedField layer) := by
  rw [describeField, Option.guard, FieldType.isUnsupported_eq]
  cases ValueSort.ofFieldType? field.type <;> rfl

private theorem cause?_describeLayer (layer : δ) :
    cause? (describeLayer layer)
      = ((Dataset.fields layer).find? (·.type.isUnsupported)).map (unsupportedField layer) := by
  rw [describeLayer, bind_pure_comp, cause?_map, cause?_mapM, List.find?_eq_findSome?_guard,
    List.map_findSome?]
  exact congrArg (List.findSome? · _) (funext (cause?_describeField layer _))

/-- **The error is about the first field** that has no place in questions. -/
theorem cause?_describeProject (project : π) :
    cause? (describeProject project)
      = (firstUnsupported? project).map fun (layer, field) ↦ unsupportedField layer field := by
  rw [describeProject, cause?_map, cause?_mapM, firstUnsupported?, allFields, List.find?_flatMap,
    List.map_findSome?]
  refine congrArg (List.findSome? · _) (funext fun layer ↦ ?_)
  rw [cause?_describeLayer, Function.comp_apply, List.find?_map, Option.map_map]
  rfl

theorem describeProject_of_firstUnsupported? {project : π} {layer : δ} {field : Field}
    (h : firstUnsupported? project = some (layer, field)) :
    describeProject project = .error (unsupportedField layer field) := by
  rw [← cause?_eq_some_iff, cause?_describeProject, h]
  rfl

theorem exists_describeProject_eq_ok_iff {project : π} :
    (∃ schema, describeProject project = .ok schema) ↔ firstUnsupported? project = none := by
  rw [← cause?_eq_none_iff, cause?_describeProject, Option.map_eq_none_iff]

end MapQuery
