import MapQuery.Host.Encoding
import MapQuery.Proofs.Json.RoundTrips

/-!
# Host data round-trips

Whatever a host tells about its data, and the parameters of its buffers, come back from JSON. The
only values that do not are reals that are not finite, and what holds one of them.

The cases of a value are told apart by its tag and never by the look of its number. So an integer
and a real that are equal as numbers stay different.
-/

namespace MapQuery

/-! ## Names -/

namespace Variant

variable {ν α : Type} [DecidableEq α] {code : α → String}

theorem RoundTripsBelow.ofName {value : α} {n : ℕ} :
    (ofName code value : Variant ν α).RoundTripsBelow n fun _ ↦ True :=
  .bare (fun _ ↦ decide_eq_true_iff) trivial

theorem separates_ofName {values : List α} (hnodup : (values.map code).Nodup)
    (hall : ∀ value, value ∈ values) :
    Separates (values.map (ofName (ν := ν) code)) name write? where
  nodup := by
    rw [List.map_map]
    exact hnodup
  exists_name value := by
    refine ⟨code value, ?_, List.forall_mem_map.mpr fun other hother ↦ ?_⟩
    · rw [List.map_map]
      exact List.mem_map_of_mem (hall value)
    · have hcode : code other = code value ↔ value = other :=
        ⟨fun h ↦ (List.inj_on_of_nodup_map hnodup hother (hall value) h).symm, fun h ↦ h ▸ rfl⟩
      change (write? (ofName (ν := ν) code other) value).isSome = true ↔ code other = code value
      rw [hcode, ofName, write?]
      split <;> simp_all

end Variant

variable {ν : Type} {lib : JsonLibrary ν}

namespace EndCapStyle

theorem separates : Separates (variants : List (Variant ν _)) Variant.name Variant.write? :=
  Variant.separates_ofName (by decide) (by rintro (_ | _ | _) <;> decide)

theorem roundTrips (hlib : lib.Lawful) : (codec lib).RoundTrips fun _ ↦ True :=
  (hlib.named _).roundTrips separates fun _ ↦ List.forall_mem_map.mpr fun _ _ ↦ .ofName

theorem nestedWithin (hlib : lib.Lawful) : (codec lib).NestedWithin 1 :=
  (hlib.named _).nestedWithin separates (List.forall_mem_map.mpr fun _ _ ↦ .bare)

end EndCapStyle

namespace JoinStyle

theorem separates : Separates (variants : List (Variant ν _)) Variant.name Variant.write? :=
  Variant.separates_ofName (by decide) (by rintro (_ | _ | _) <;> decide)

theorem roundTrips (hlib : lib.Lawful) : (codec lib).RoundTrips fun _ ↦ True :=
  (hlib.named _).roundTrips separates fun _ ↦ List.forall_mem_map.mpr fun _ _ ↦ .ofName

theorem nestedWithin (hlib : lib.Lawful) : (codec lib).NestedWithin 1 :=
  (hlib.named _).nestedWithin separates (List.forall_mem_map.mpr fun _ _ ↦ .bare)

end JoinStyle

namespace MapUnit

theorem separates : Separates (variants lib) Variant.name Variant.write? where
  nodup := by simp [variants, Variant.ofName, Variant.name, code]
  exists_name mapUnit := by
    cases mapUnit <;> simp [variants, Variant.ofName, Variant.name, Variant.write?, code]

theorem roundTrips (hlib : lib.Lawful) : (codec lib).RoundTrips fun _ ↦ True := by
  refine (hlib.named _).roundTrips separates fun n ↦ List.forall_mem_append.mpr
    ⟨List.forall_mem_map.mpr fun _ _ ↦ .ofName, List.forall_mem_singleton.mpr ?_⟩
  exact .holding (hlib.roundTrips_text n) (by intro mapUnit _; cases mapUnit <;> simp) (by simp)

theorem nestedWithin (hlib : lib.Lawful) : (codec lib).NestedWithin 1 :=
  (hlib.named _).nestedWithin separates (List.forall_mem_append.mpr
    ⟨List.forall_mem_map.mpr fun _ _ ↦ .bare,
      List.forall_mem_singleton.mpr (.holding hlib.nestedWithin_text)⟩)

end MapUnit

namespace FieldType

theorem separates : Separates (variants lib) Variant.name Variant.write? where
  nodup := by simp [variants, Variant.ofName, Variant.name, code]
  exists_name type := by
    cases type <;> simp [variants, Variant.ofName, Variant.name, Variant.write?, code]

theorem roundTrips (hlib : lib.Lawful) : (codec lib).RoundTrips fun _ ↦ True := by
  refine (hlib.named _).roundTrips separates fun n ↦ List.forall_mem_append.mpr
    ⟨List.forall_mem_map.mpr fun _ _ ↦ .ofName, List.forall_mem_singleton.mpr ?_⟩
  exact .holding (hlib.roundTrips_text n) (by intro type _; cases type <;> simp) (by simp)

theorem nestedWithin (hlib : lib.Lawful) : (codec lib).NestedWithin 1 :=
  (hlib.named _).nestedWithin separates (List.forall_mem_append.mpr
    ⟨List.forall_mem_map.mpr fun _ _ ↦ .bare,
      List.forall_mem_singleton.mpr (.holding hlib.nestedWithin_text)⟩)

end FieldType

/-! ## Values -/

namespace AttributeValue

def isFinite : AttributeValue → Bool
  | real value => value.isFinite
  | _ => true

theorem separates : Separates (variants lib) Variant.name Variant.write? where
  nodup := by simp [variants, Variant.name]
  exists_name value := by cases value <;> simp [variants, Variant.name, Variant.write?]

theorem roundTrips (hlib : lib.Lawful) (hfloats : lib.FloatsComeBack) :
    (codec lib).RoundTrips fun value ↦ value.isFinite = true := by
  refine (hlib.tagged _).roundTrips separates fun n ↦ ?_
  simp only [variants, List.forall_mem_cons, List.not_mem_nil, false_imp_iff, implies_true,
    and_true]
  exact ⟨.bare (fun _ ↦ decide_eq_true_iff) rfl,
    .holding (hlib.roundTrips_boolean n) (by intro value _; cases value <;> simp)
      (by simp [isFinite]),
    .holding (hlib.roundTrips_int64 n) (by intro value _; cases value <;> simp)
      (by simp [isFinite]),
    .holding (hlib.roundTrips_float hfloats n) (by intro value _; cases value <;> simp)
      (by simp [isFinite]),
    .holding (hlib.roundTrips_text n) (by intro value _; cases value <;> simp)
      (by simp [isFinite])⟩

theorem nestedWithin (hlib : lib.Lawful) : (codec lib).NestedWithin 1 := by
  refine (hlib.tagged _).nestedWithin separates ?_
  simp only [variants, List.forall_mem_cons, List.not_mem_nil, false_imp_iff, implies_true,
    and_true]
  exact ⟨.bare, .holding hlib.nestedWithin_boolean, .holding hlib.int64.nestedWithin,
    .holding hlib.nestedWithin_float, .holding hlib.nestedWithin_text⟩

end AttributeValue

namespace FilterValue

def isFinite : FilterValue → Bool
  | float value => value.isFinite
  | _ => true

theorem separates : Separates (variants lib) Variant.name Variant.write? where
  nodup := by simp [variants, Variant.name]
  exists_name value := by cases value <;> simp [variants, Variant.name, Variant.write?]

theorem roundTrips (hlib : lib.Lawful) (hfloats : lib.FloatsComeBack) :
    (codec lib).RoundTrips fun value ↦ value.isFinite = true := by
  refine (hlib.tagged _).roundTrips separates fun n ↦ ?_
  simp only [variants, List.forall_mem_cons, List.not_mem_nil, false_imp_iff, implies_true,
    and_true]
  exact ⟨.holding (hlib.roundTrips_text n) (by intro value _; cases value <;> simp)
      (by simp [isFinite]),
    .holding (hlib.roundTrips_int64 n) (by intro value _; cases value <;> simp)
      (by simp [isFinite]),
    .holding (hlib.roundTrips_float hfloats n) (by intro value _; cases value <;> simp)
      (by simp [isFinite]),
    .holding (hlib.roundTrips_boolean n) (by intro value _; cases value <;> simp)
      (by simp [isFinite])⟩

theorem nestedWithin (hlib : lib.Lawful) : (codec lib).NestedWithin 1 := by
  refine (hlib.tagged _).nestedWithin separates ?_
  simp only [variants, List.forall_mem_cons, List.not_mem_nil, false_imp_iff, implies_true,
    and_true]
  exact ⟨.holding hlib.nestedWithin_text, .holding hlib.int64.nestedWithin,
    .holding hlib.nestedWithin_float, .holding hlib.nestedWithin_boolean⟩

end FilterValue

/-! ## Legends -/

namespace CategoryValue

def isFinite : CategoryValue → Bool
  | null => true
  | single value => value.isFinite
  | list values => values.all AttributeValue.isFinite

theorem separates : Separates (variants lib) Variant.name Variant.write? where
  nodup := by simp [variants, Variant.name]
  exists_name value := by cases value <;> simp [variants, Variant.name, Variant.write?]

theorem roundTrips (hlib : lib.Lawful) (hfloats : lib.FloatsComeBack) :
    (codec lib).RoundTrips fun value ↦ value.isFinite = true := by
  have hsingle := AttributeValue.roundTrips hlib hfloats
  refine (hlib.named _).roundTrips separates fun n ↦ ?_
  simp only [variants, List.forall_mem_cons, List.not_mem_nil, false_imp_iff, implies_true,
    and_true]
  exact ⟨.bare (fun _ ↦ decide_eq_true_iff) rfl,
    .holding (hsingle n) (by intro value _; cases value <;> simp) (by simp [isFinite]),
    .holding (hlib.roundTrips_list hsingle n) (by intro value _; cases value <;> simp)
      (by simp [isFinite])⟩

theorem nestedWithin (hlib : lib.Lawful) : (codec lib).NestedWithin 3 := by
  have hsingle := AttributeValue.nestedWithin hlib
  refine (hlib.named _).nestedWithin separates ?_
  simp only [variants, List.forall_mem_cons, List.not_mem_nil, false_imp_iff, implies_true,
    and_true]
  exact ⟨.bare, .holding (hsingle.mono (by decide)), .holding (hlib.nestedWithin_list hsingle)⟩

end CategoryValue

/-- Whether all reals among the values of the category are finite. -/
def Category.isFinite (category : Category) : Bool := category.value.isFinite

theorem Category.roundTrips (hlib : lib.Lawful) (hfloats : lib.FloatsComeBack) :
    (codec lib).RoundTrips fun category ↦ category.isFinite = true :=
  (hlib.record (layout lib)).roundTrips
    (fun n ↦ .member (.required (CategoryValue.roundTrips hlib hfloats n)) <|
      .member (.required (hlib.roundTrips_text n)) .nil)
    (by simp [layout, isFinite])

theorem Category.nestedWithin (hlib : lib.Lawful) : (codec lib).NestedWithin 4 :=
  (hlib.record (layout lib)).nestedWithin <|
    .member (.required (CategoryValue.nestedWithin hlib)) <|
    .member (.required (hlib.nestedWithin_text.mono (by decide))) .nil

/-- Whether all reals in the legend are finite. -/
def Classification.isFinite (classification : Classification) : Bool :=
  classification.categories.all Category.isFinite

theorem Classification.roundTrips (hlib : lib.Lawful) (hfloats : lib.FloatsComeBack) :
    (codec lib).RoundTrips fun classification ↦ classification.isFinite = true :=
  (hlib.record (layout lib)).roundTrips
    (fun n ↦ .member (.required (hlib.roundTrips_text n)) <|
      .member (.required (hlib.roundTrips_list (Category.roundTrips hlib hfloats) n)) .nil)
    (by simp [layout, isFinite])

theorem Classification.nestedWithin (hlib : lib.Lawful) : (codec lib).NestedWithin 6 :=
  (hlib.record (layout lib)).nestedWithin <|
    .member (.required (hlib.nestedWithin_text.mono (by decide))) <|
    .member (.required (hlib.nestedWithin_list (Category.nestedWithin hlib))) .nil

/-! ## Fields, reference systems and buffers -/

theorem Field.roundTrips (hlib : lib.Lawful) : (codec lib).RoundTrips fun _ ↦ True :=
  (hlib.record (layout lib)).roundTrips
    (fun n ↦ .member (.required (hlib.roundTrips_text n)) <|
      .member (.required (hlib.roundTrips_text n)) <|
      .member (.required (FieldType.roundTrips hlib n)) .nil)
    (by simp)

theorem Field.nestedWithin (hlib : lib.Lawful) : (codec lib).NestedWithin 2 :=
  (hlib.record (layout lib)).nestedWithin <|
    .member (.required (hlib.nestedWithin_text.mono (by decide))) <|
    .member (.required (hlib.nestedWithin_text.mono (by decide))) <|
    .member (.required (FieldType.nestedWithin hlib)) .nil

theorem Crs.roundTrips (hlib : lib.Lawful) : (codec lib).RoundTrips fun _ ↦ True :=
  (hlib.record (layout lib)).roundTrips
    (fun n ↦ .member (.required (hlib.roundTrips_text n)) <|
      .member (.required (MapUnit.roundTrips hlib n)) .nil)
    (by simp)

theorem Crs.nestedWithin (hlib : lib.Lawful) : (codec lib).NestedWithin 2 :=
  (hlib.record (layout lib)).nestedWithin <|
    .member (.required (hlib.nestedWithin_text.mono (by decide))) <|
    .member (.required (MapUnit.nestedWithin hlib)) .nil

/-- Whether the distance and the limit are finite. -/
def BufferParameters.isFinite (parameters : BufferParameters) : Bool :=
  parameters.distance.isFinite && parameters.miterLimit.isFinite

theorem BufferParameters.roundTrips (hlib : lib.Lawful) (hfloats : lib.FloatsComeBack) :
    (codec lib).RoundTrips fun parameters ↦ parameters.isFinite = true := by
  have hfloat := hlib.roundTrips_float hfloats
  have hsegments := hlib.roundTrips_natural hlib.uint32 fun n ↦ n.toNat_lt.trans (by decide)
  exact (hlib.record (layout lib)).roundTrips
    (fun n ↦ .member (.required (hfloat n)) <| .member (.required (hsegments n)) <|
      .member (.required (EndCapStyle.roundTrips hlib n)) <|
      .member (.required (JoinStyle.roundTrips hlib n)) <| .member (.required (hfloat n)) <|
      .member (.required (hlib.roundTrips_boolean n)) .nil)
    (by simp [layout, isFinite])

theorem BufferParameters.nestedWithin (hlib : lib.Lawful) : (codec lib).NestedWithin 2 := by
  have hfloat := hlib.nestedWithin_float.mono (Nat.zero_le 1)
  exact (hlib.record (layout lib)).nestedWithin <|
    .member (.required hfloat) <| .member (.required (hlib.uint32.nestedWithin.mono (by decide))) <|
    .member (.required (EndCapStyle.nestedWithin hlib)) <|
    .member (.required (JoinStyle.nestedWithin hlib)) <| .member (.required hfloat) <|
    .member (.required (hlib.nestedWithin_boolean.mono (by decide))) .nil

end MapQuery
