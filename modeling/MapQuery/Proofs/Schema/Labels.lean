import MapQuery.Proofs.Host.Repetitions
import MapQuery.Schema.Description

/-!
# The labels of values

The legend of a layer lists literals in categories. Read as values of one sort, different literals
can be the same value, and then the label of the last one counts, but the value stays where it was
first. So the labels are the values of all literals, without those that are the same as one before
them, each with the label that it was given last (`labels_eq_lastWins`). This is read off from what
adding one more pair does to labels of which no two are for the same value (`addLabel_eq`).

A real that is not a number is not the same as itself. Each time that it occurs it gets an entry
with the label of that occurrence.
-/

namespace MapQuery

/-! ## Lists -/

section Lists

variable {α : Type}

private theorem firstOccurrences_eq_eraseDups [DecidableEq α] (xs : List α) :
    firstOccurrences xs = xs.eraseDups := by
  induction xs using List.reverseRecOn with
  | nil => rfl
  | append_singleton xs x ih =>
    rw [firstOccurrences, List.foldl_concat, ← firstOccurrences, ih]
    refine Eq.trans (if_congr ?_ rfl rfl) (eraseDupsBy_concat (· == ·) xs x).symm
    rw [List.any_beq, List.contains_iff_mem, List.eraseDups]

private theorem findRev?_concat (p : α → Bool) (xs : List α) (x : α) :
    (xs ++ [x]).findRev? p = if p x then some x else xs.findRev? p := by
  rw [List.findRev?_eq_find?_reverse, List.reverse_append, List.reverse_singleton,
    List.singleton_append, List.find?_cons, ← List.findRev?_eq_find?_reverse]
  cases p x <;> rfl

end Lists

/-! ## One more label -/

section AddLabel

variable {pairs labels : List ValueLabel} {entry new : ValueLabel}

/-- The entry with the new label if this is for the same value. -/
def ValueLabel.updated (new entry : ValueLabel) : ValueLabel :=
  if entry.value.same new.value then { entry with label := new.label } else entry

/-- **What one more pair does to labels for different values.** The entry for the same value gets
the new label, and if there is none, the pair is added at the end. -/
theorem addLabel_eq (h : labels.Pairwise fun a b ↦ a.value.same b.value = false) :
    addLabel labels new = labels.map new.updated
      ++ if labels.any (·.value.same new.value) then [] else [new] := by
  induction labels with
  | nil => rfl
  | cons first rest ih =>
    obtain ⟨hfirst, hrest⟩ := List.pairwise_cons.mp h
    rw [addLabel, List.map_cons, List.any_cons, ValueLabel.updated]
    cases hsame : first.value.same new.value with
    | true =>
      -- The entries behind the first one are for other values and keep their labels.
      have hothers : ∀ entry ∈ rest, new.updated entry = id entry := by
        intro entry hentry
        have hdifferent : entry.value.same new.value = false := by
          rw [AttributeValue.same_comm, Bool.eq_false_iff]
          exact fun hnew ↦ Bool.eq_false_iff.mp (hfirst entry hentry)
            (AttributeValue.same_trans hsame hnew)
        rw [ValueLabel.updated, hdifferent]
        rfl
      rw [List.map_congr_left hothers]
      simp
    | false => simp [ih hrest]

/-! ## The last label for each value -/

/-- The pair with the label of the last one that is for the same value; the pair itself if its value
is not even the same as itself. -/
def ValueLabel.lastAmong (pairs : List ValueLabel) (first : ValueLabel) : ValueLabel :=
  { first with label := ((pairs.findRev? (·.value.same first.value)).getD first).label }

/-- The values of pairs, each where it comes first and with the label that it is given last. -/
def lastWins (pairs : List ValueLabel) : List ValueLabel :=
  (pairs.eraseDupsBy fun a b ↦ a.value.same b.value).map (.lastAmong pairs)

private theorem map_value_lastWins (pairs : List ValueLabel) :
    (lastWins pairs).map (·.value) = (pairs.map (·.value)).eraseDupsBy AttributeValue.same := by
  rw [lastWins, List.map_map, ← map_eraseDupsBy]
  rfl

private theorem pairwise_lastWins (pairs : List ValueLabel) :
    (lastWins pairs).Pairwise fun a b ↦ a.value.same b.value = false := by
  have h := pairwise_eraseDupsBy AttributeValue.same (pairs.map (·.value))
  rw [← map_value_lastWins, List.pairwise_map] at h
  exact h.imp fun hdifferent ↦ (AttributeValue.same_comm _ _).trans hdifferent

private theorem updated_lastAmong (pairs : List ValueLabel) (first new : ValueLabel) :
    new.updated (first.lastAmong pairs) = first.lastAmong (pairs ++ [new]) := by
  rw [ValueLabel.updated, ValueLabel.lastAmong, ValueLabel.lastAmong, findRev?_concat,
    AttributeValue.same_comm]
  cases new.value.same first.value <;> rfl

theorem lastAmong_concat (pairs : List ValueLabel) (new : ValueLabel) :
    new.lastAmong (pairs ++ [new]) = new := by
  rw [ValueLabel.lastAmong, findRev?_concat]
  cases hself : new.value.same new.value with
  | true => rfl
  | false =>
    -- What is not the same as itself is the same as nothing before it.
    have hnone : pairs.findRev? (·.value.same new.value) = none := by
      rw [List.findRev?_eq_find?_reverse, List.find?_eq_none]
      intro pair _ hsame
      have hsymm := AttributeValue.same_symm hsame
      exact Bool.eq_false_iff.mp hself (AttributeValue.same_trans hsymm hsame)
    rw [hnone]
    rfl

/-- **Adding pairs one by one** gives the labels that come last. -/
theorem foldl_addLabel_eq (pairs : List ValueLabel) : pairs.foldl addLabel [] = lastWins pairs := by
  induction pairs using List.reverseRecOn with
  | nil => rfl
  | append_singleton pairs new ih =>
    -- The kept entries are updated to what they would be if all pairs were told at once.
    have hkept : (lastWins pairs).map new.updated
        = (pairs.eraseDupsBy fun a b ↦ a.value.same b.value).map (.lastAmong (pairs ++ [new])) := by
      rw [lastWins, List.map_map]
      exact List.map_congr_left fun first _ ↦ updated_lastAmong pairs first new
    have hany : (lastWins pairs).any (·.value.same new.value)
        = (pairs.eraseDupsBy fun a b ↦ a.value.same b.value).any (new.value.same ·.value) := by
      rw [lastWins, List.any_map]
      exact congrArg (List.any _) (funext fun first ↦ AttributeValue.same_comm _ _)
    rw [List.foldl_concat, ih, addLabel_eq (pairwise_lastWins pairs), hkept, hany, lastWins,
      eraseDupsBy_concat]
    split
    · rw [List.append_nil]
    · rw [List.map_append, List.map_singleton, lastAmong_concat]

/-- An entry has the label of the last pair for its value, unless this is not a number. -/
theorem findRev?_of_mem_lastWins (h : entry ∈ lastWins pairs) (hnumber : entry.value ≠ .real .nan) :
    (pairs.findRev? (·.value.same entry.value)).map (·.label) = some entry.label := by
  obtain ⟨first, hfirst, rfl⟩ := List.mem_map.mp h
  have hmem : first ∈ pairs := (eraseDupsBy_sublist _ pairs).subset hfirst
  change (pairs.findRev? (·.value.same first.value)).map (·.label)
    = some ((pairs.findRev? (·.value.same first.value)).getD first).label
  cases hlast : pairs.findRev? (·.value.same first.value) with
  | some last => rfl
  | none =>
    rw [List.findRev?_eq_find?_reverse, List.find?_eq_none] at hlast
    exact absurd (AttributeValue.same_self_iff.mpr hnumber)
      (hlast first (List.mem_reverse.mpr hmem))

/-- What is not a number has the label with which it occurs. -/
theorem mem_of_mem_lastWins (h : entry ∈ lastWins pairs) (hnan : entry.value = .real .nan) :
    entry ∈ pairs := by
  obtain ⟨first, hfirst, rfl⟩ := List.mem_map.mp h
  have hvalue : first.value = .real .nan := hnan
  have hnone : pairs.findRev? (·.value.same first.value) = none := by
    rw [List.findRev?_eq_find?_reverse, List.find?_eq_none, hvalue]
    intro pair _ hsame
    have hself := AttributeValue.same_trans (AttributeValue.same_symm hsame) hsame
    exact AttributeValue.same_self_iff.mp hself rfl
  rw [ValueLabel.lastAmong, hnone]
  exact (eraseDupsBy_sublist _ pairs).subset hfirst

end AddLabel

/-! ## Literals of a legend -/

/-- The values that belong to a sort. -/
inductive AttributeValue.HasSort : ValueSort → AttributeValue → Prop
  | text (value : String) : HasSort .string (.text value)
  | integer (value : Int64) : HasSort .number (.integer value)
  | real (value : Float) : HasSort .number (.real value)
  | boolean (value : Bool) : HasSort .boolean (.boolean value)

section Convert

variable {text : String} {value literal : AttributeValue} {sort : ValueSort}

private theorem hasSort_of_numberOfText? (h : ValueSort.numberOfText? text = some value) :
    value.HasSort .number := by
  rw [ValueSort.numberOfText?] at h
  obtain ⟨numeral, -, h⟩ := Option.bind_eq_some_iff.mp h
  have hreal : (if numeral.toFloat.isFinite then some (AttributeValue.real numeral.toFloat)
      else none) = some value → value.HasSort .number := by
    intro hx
    split at hx
    · obtain rfl := Option.some.inj hx
      exact .real _
    · cases hx
  cases hinteger : numeral.isInteger with
  | false =>
    rw [hinteger] at h
    exact hreal h
  | true =>
    rw [hinteger] at h
    cases hfits : numeral.toInt64? with
    | none =>
      rw [hfits] at h
      exact hreal h
    | some number =>
      rw [hfits] at h
      obtain rfl := Option.some.inj h
      exact .integer number

private theorem hasSort_of_booleanOfText? (h : ValueSort.booleanOfText? text = some value) :
    value.HasSort .boolean := by
  rw [ValueSort.booleanOfText?] at h
  split at h
  · obtain rfl := Option.some.inj h
    exact .boolean true
  · split at h
    · obtain rfl := Option.some.inj h
      exact .boolean false
    · cases h

/-- **What is read as a value of a sort is a value of the sort.** -/
theorem hasSort_of_convert? (h : sort.convert? literal = some value) : value.HasSort sort := by
  cases literal with
  | null => cases sort <;> cases h
  | text word =>
    cases sort with
    | string =>
      obtain rfl := Option.some.inj h
      exact .text word
    | number =>
      rw [ValueSort.convert?] at h
      exact hasSort_of_numberOfText? h
    | boolean =>
      rw [ValueSort.convert?] at h
      exact hasSort_of_booleanOfText? h
  | boolean truth =>
    cases sort with
    | string =>
      obtain rfl := Option.some.inj h
      exact .text _
    | number =>
      obtain rfl := Option.some.inj h
      exact .integer _
    | boolean =>
      obtain rfl := Option.some.inj h
      exact .boolean truth
  | integer number =>
    cases sort with
    | string =>
      obtain rfl := Option.some.inj h
      exact .text _
    | number =>
      obtain rfl := Option.some.inj h
      exact .integer number
    | boolean =>
      rw [ValueSort.convert?] at h
      split at h
      · obtain rfl := Option.some.inj h
        exact .boolean false
      · split at h
        · obtain rfl := Option.some.inj h
          exact .boolean true
        · cases h
  | real number =>
    cases sort with
    | string =>
      obtain rfl := Option.some.inj h
      exact .text _
    | number =>
      obtain rfl := Option.some.inj h
      exact .real number
    | boolean => cases h

end Convert

/-- The literals of a legend in their order, each with the label of its category. -/
def Classification.literals (classification : Classification) : List (AttributeValue × String) :=
  classification.categories.flatMap fun category ↦ category.value.values.map (·, category.label)

/-- The literals that can be read as values of a sort, read as such, with their labels. -/
def Classification.readings (classification : Classification) (sort : ValueSort) :
    List ValueLabel :=
  (classification.literals.filter (·.1 ≠ .null)).filterMap fun literal ↦
    (sort.convert? literal.1).map (⟨·, literal.2⟩)

private theorem labelledValues_eq_readings (classification : Classification) (sort : ValueSort) :
    classification.labelledValues sort = classification.readings sort := by
  rw [Classification.readings, Classification.literals, List.filterMap_filter,
    List.filterMap_flatMap, Classification.labelledValues]
  refine List.flatMap_congr fun category _ ↦ ?_
  rw [List.filterMap_map, List.map_filterMap]
  refine List.filterMap_congr fun literal _ ↦ ?_
  cases literal with
  | null => cases sort <;> rfl
  | _ => rfl

private theorem hasSort_of_mem_readings {classification : Classification} {sort : ValueSort}
    {entry : ValueLabel} (h : entry ∈ classification.readings sort) : entry.value.HasSort sort := by
  obtain ⟨literal, -, hlabel⟩ := List.mem_filterMap.mp h
  obtain ⟨value, hvalue, rfl⟩ := Option.map_eq_some_iff.mp hlabel
  exact hasSort_of_convert? hvalue

/-- **Which labels a legend gives.** They are read off from the literals of the legend that are not
null and that can be read as values of the sort. -/
theorem labels_eq_lastWins (classification : Classification) (sort : ValueSort) :
    classification.labels sort = lastWins (classification.readings sort) := by
  rw [Classification.labels, labelledValues_eq_readings, foldl_addLabel_eq]

/-! ## Descriptions of fields -/

theorem FieldDescription.text_of_labels {field : FieldDescription} {labels : List ValueLabel}
    (hvalues : field.values = some labels) (hne : labels ≠ []) :
    field.text = field.id
      ++ (if Text.sameName field.id field.name then " ("
        else " (also known as " ++ field.name ++ ", ")
      ++ "possible values are " ++ ", ".intercalate (labels.map (·.label)).eraseDups ++ ")" := by
  obtain ⟨first, rest, rfl⟩ := List.exists_cons_of_ne_nil hne
  have hwords : field.valuesText
      = "possible values are " ++ ", ".intercalate ((first :: rest).map (·.label)).eraseDups := by
    rw [FieldDescription.valuesText, hvalues, ← firstOccurrences_eq_eraseDups]
  rw [FieldDescription.text, hwords]
  split <;> simp only [String.append_assoc]

/-- **The labels of a field's values.** A field of a type that has a sort, and that the legend of
its layer is about, is always described. Its labels are for the values as which the literals of the
legend can be read, each where it comes first and with the label that it is given last. They are
values of the sort of the field, and no two of them are the same. What is said about the field names
each of the labels once, where it comes first. -/
theorem describeField_labels (layer : String) {field : Field} {sort : ValueSort}
    {classification : Classification} (hsort : ValueSort.ofFieldType? field.type = some sort)
    (hfield : classification.field = field.name) :
    let pairs := classification.readings sort
    ∃ description labels, describeField layer (some classification) field = .ok description ∧
      description.values = some labels ∧
      labels.map (·.value) = (pairs.map (·.value)).eraseDupsBy AttributeValue.same ∧
      (labels.Pairwise fun a b ↦ a.value.same b.value = false) ∧
      (∀ entry ∈ labels, entry.value ≠ .real .nan →
        (pairs.findRev? (·.value.same entry.value)).map (·.label) = some entry.label) ∧
      (∀ entry ∈ labels, entry.value = .real .nan → entry ∈ pairs) ∧
      (∀ entry ∈ labels, entry.value.HasSort sort) ∧
      (labels.map (·.label)).eraseDups.Nodup ∧
      (labels ≠ [] → description.text = field.name
        ++ (if Text.sameName field.name field.displayName then " ("
          else " (also known as " ++ field.displayName ++ ", ")
        ++ "possible values are " ++ ", ".intercalate (labels.map (·.label)).eraseDups ++ ")") := by
  intro pairs
  refine ⟨⟨field.name, field.displayName, sort, some (lastWins pairs)⟩, lastWins pairs, ?_, rfl,
    map_value_lastWins pairs, pairwise_lastWins pairs, fun entry ↦ findRev?_of_mem_lastWins,
    fun entry ↦ mem_of_mem_lastWins, fun entry hentry ↦ ?_, nodup_eraseDups _,
    FieldDescription.text_of_labels rfl⟩
  · rw [describeField, hsort, ← labels_eq_lastWins]
    simp [hfield]
  · obtain ⟨first, hfirst, rfl⟩ := List.mem_map.mp hentry
    have hmem : first ∈ pairs := (eraseDupsBy_sublist _ pairs).subset hfirst
    have hvalue : first.value.HasSort sort := hasSort_of_mem_readings hmem
    exact hvalue

/-- Floors as texts, truth values and numbers: one is told three times and two twice. -/
theorem describeField_labels_floors :
    let floors : Field := ⟨"floors", "Floors", .int32⟩
    let legend : Classification := ⟨"floors", [⟨.single (.text " 1 "), "one"⟩,
      ⟨.list [.boolean true, .null, .text "tall", .integer 2], "few"⟩, ⟨.null, "other"⟩,
      ⟨.single (.text "+2"), "two"⟩, ⟨.single (.text "1"), "low"⟩]⟩
    ∃ description labels, describeField "Houses" (some legend) floors = .ok description ∧
      description.values = some labels ∧ labels.map (·.value) = [.integer 1, .integer 2] ∧
      description.text = "floors (possible values are low, two)" := by
  intro floors legend
  obtain ⟨description, labels, hdescription, hvalues, hlabels, -⟩ :=
    describeField_labels "Houses" (rfl : ValueSort.ofFieldType? floors.type = some .number)
      (rfl : legend.field = floors.name)
  have hreadings : ((legend.readings .number).map (·.value)).eraseDupsBy AttributeValue.same
      = [.integer 1, .integer 2] := by decide +kernel
  have htext : (describeField "Houses" (some legend) floors).map (·.text)
      = .ok "floors (possible values are low, two)" := by decide +kernel
  rw [hdescription] at htext
  exact ⟨description, labels, hdescription, hvalues, hlabels.trans hreadings, Except.ok.inj htext⟩

end MapQuery
