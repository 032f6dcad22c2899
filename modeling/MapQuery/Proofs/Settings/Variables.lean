import MapQuery.Proofs.Decimal.ReadBack
import MapQuery.Proofs.Text.Layout
import MapQuery.Settings

/-!
# What the variables give

A variable gives a setting its default if it is missing or blank, and otherwise the value that its
trimmed text means. Which texts mean something is said here without the functions that read them: an
authority's id has a colon in it, a number is written in base ten and perhaps behind a plus sign,
and no limit is the word `unbounded` in small or capital letters. Each of the three functions reads
exactly these texts, and words its problems with the name of its variable (`Reads`), which is all
that has to be known of them.

So there are settings exactly if no variable is invalid, and they are the ones that the variables
give. Otherwise the first invalid variable is named. Settings that are written down are read back,
whatever blanks are put around them (`ofVariables_gives`).
-/

namespace MapQuery

/-! ## Numbers in base ten -/

namespace Numeral

variable {digits text : List Char} {n bound : ℕ}

/-- The digits are those of the number, perhaps behind zeros. -/
def AreDigitsOf (digits : List Char) (n : ℕ) : Prop :=
  digits ≠ [] ∧ (∀ c ∈ digits, c.isDigit = true) ∧ Nat.ofDigitChars 10 digits 0 = n

inductive Denotes : List Char → ℕ → Prop
  | bare {digits : List Char} {n : ℕ} (h : AreDigitsOf digits n) : Denotes digits n
  | signed {digits : List Char} {n : ℕ} (h : AreDigitsOf digits n) : Denotes ('+' :: digits) n

private theorem isDigit_eq (c : Char) : isDigit c = c.isDigit := rfl

private theorem not_areDigitsOf_plus : ¬AreDigitsOf ('+' :: digits) n :=
  fun h ↦ absurd (h.2.1 '+' List.mem_cons_self) (by decide)

private theorem denotes_plus_iff : Denotes ('+' :: digits) n ↔ AreDigitsOf digits n := by
  constructor
  · rintro (h | h)
    · exact absurd h not_areDigitsOf_plus
    · exact h
  · exact .signed

private theorem denotes_iff_of_ne (hplus : ∀ rest, text ≠ '+' :: rest) :
    Denotes text n ↔ AreDigitsOf text n := by
  constructor
  · rintro (h | h)
    · exact h
    · exact absurd rfl (hplus _)
  · exact .bare

private theorem ite_eq_some_iff_areDigitsOf (digits : List Char) (n bound : ℕ) :
    (if !digits.isEmpty && digits.all isDigit && digitsValue digits < bound then
        some (digitsValue digits) else none) = some n ↔ AreDigitsOf digits n ∧ n < bound := by
  rw [Option.ite_none_right_eq_some, Option.some.injEq, AreDigitsOf, ← Decimal.digitsValue_eq]
  simp only [Bool.and_eq_true, Bool.not_eq_true', List.isEmpty_eq_false_iff, List.all_eq_true,
    decide_eq_true_eq, isDigit_eq]
  constructor
  · rintro ⟨⟨⟨hne, hdigits⟩, hbound⟩, rfl⟩
    exact ⟨⟨hne, hdigits, rfl⟩, hbound⟩
  · rintro ⟨⟨hne, hdigits, rfl⟩, hbound⟩
    exact ⟨⟨⟨hne, hdigits⟩, hbound⟩, rfl⟩

/-- **Which texts are read as a number**: those that denote one below the bound. -/
theorem natural?_eq_some_iff : natural? bound text = some n ↔ Denotes text n ∧ n < bound := by
  by_cases hplus : ∃ rest, text = '+' :: rest
  · obtain ⟨rest, rfl⟩ := hplus
    rw [denotes_plus_iff]
    exact ite_eq_some_iff_areDigitsOf rest n bound
  · push Not at hplus
    rw [denotes_iff_of_ne hplus, ← ite_eq_some_iff_areDigitsOf text n bound, natural?.eq_def]
    split
    · exact absurd rfl (hplus _)
    · rfl

theorem Denotes.exists_cons (h : Denotes text n) :
    ∃ c rest, text = c :: rest ∧ (c.isDigit = true ∨ c = '+') := by
  rcases h with h | _
  · obtain ⟨c, rest, rfl⟩ := List.exists_cons_of_ne_nil h.1
    exact ⟨c, rest, rfl, Or.inl (h.2.1 c List.mem_cons_self)⟩
  · exact ⟨_, _, rfl, Or.inr rfl⟩

private theorem denotes_toString (n : ℕ) : Denotes (toString n).toList n := by
  rw [Nat.toString_eq_repr, Nat.toList_repr]
  refine .bare ⟨Nat.toDigits_ne_nil, fun c hc ↦ ?_, Nat.ofDigitChars_ten_toDigits⟩
  exact Nat.isDigit_of_mem_toDigits (by decide) (by decide) hc

private theorem isBlank_of_isDigit {c : Char} (h : c.isDigit = true) : Text.isBlank c = false := by
  have hrange : 48 ≤ c.toNat ∧ c.toNat ≤ 57 := by
    simpa [Char.isDigit, UInt32.le_iff_toNat_le] using h
  rw [Bool.eq_false_iff, Text.isBlank, ne_eq, Text.Ranges.contains_iff]
  simp only [Text.blankRanges, List.mem_cons, List.not_mem_nil, or_false]
  rintro ⟨range, hmem, hlow, hhigh⟩
  rcases hmem with rfl | rfl | rfl | rfl | rfl | rfl | rfl | rfl | rfl | rfl <;> omega

end Numeral

/-! ## Words in small or capital letters -/

section Letters

private theorem toLower_eq_iff {c letter : Char} (h : letter.isLower = true) :
    c.toLower = letter ↔ c = letter ∨ c = letter.toUpper := by
  have hlower : ∀ c : Char, c.isLower = true → c.toLower = c := fun c hc ↦
    Char.toLower_eq_of_not_isUpper (Char.not_isUpper_of_isLower hc)
  constructor
  · rintro rfl
    by_cases hupper : c.isUpper = true
    · rw [Char.toUpper_toLower_eq_toUpper,
        Char.toUpper_eq_of_not_isLower (Char.not_isLower_of_isUpper hupper)]
      exact Or.inr rfl
    · exact Or.inl (Char.toLower_eq_of_not_isUpper hupper).symm
  · rintro (rfl | rfl)
    · exact hlower c h
    · rw [Char.toLower_toUpper_eq_toLower, hlower letter h]

theorem map_toLower_eq_iff {text word : List Char} (h : ∀ letter ∈ word, letter.isLower = true) :
    text.map Char.toLower = word ↔
      List.Forall₂ (fun c letter ↦ c = letter ∨ c = letter.toUpper) text word := by
  induction word generalizing text with
  | nil => rw [List.map_eq_nil_iff, List.forall₂_nil_right_iff]
  | cons letter word ih =>
    obtain ⟨hletter, hword⟩ := List.forall_mem_cons.mp h
    cases text with
    | nil => simp
    | cons c text =>
      rw [List.map_cons, List.cons_eq_cons, toLower_eq_iff hletter, ih hword, List.forall₂_cons]

end Letters

namespace Settings

/-! ## Variables -/

/-- The variable is missing or blank. -/
def IsUnset (value : Option String) : Prop :=
  ∀ text ∈ value, ∀ c ∈ text.toList, Text.isBlank c = true

/-- What a variable gives, by what its trimmed text means. -/
inductive Gives {α : Type} (Means : List Char → α → Prop) (fallback : α) : Option String → α → Prop
  | unset {value : Option String} (h : IsUnset value) : Gives Means fallback value fallback
  | set {text : String} {a : α} (hset : ¬IsUnset (some text))
    (h : Means (Text.trim text.toList) a) : Gives Means fallback (some text) a

/-- The variable is missing or blank, or its trimmed text means something. -/
def IsValid {α : Type} (Means : List Char → α → Prop) (value : Option String) : Prop :=
  IsUnset value ∨ ∃ text a, value = some text ∧ Means (Text.trim text.toList) a

/-- The text stands in the variable, with blanks around it. -/
def StandsIn (text : String) (value : Option String) : Prop :=
  ∃ before after : String, (∀ c ∈ before.toList, Text.isBlank c = true) ∧
    (∀ c ∈ after.toList, Text.isBlank c = true) ∧ value = some (before ++ text ++ after)

section Variables

variable {α : Type} {Means : List Char → α → Prop} {fallback a : α} {value : Option String}
  {text : String}

private theorem isUnset_none : IsUnset none := nofun

theorem isUnset_some_iff : IsUnset (some text) ↔ Text.trim text.toList = [] := by
  rw [Text.trim_eq_nil_iff]
  exact ⟨fun h ↦ h text rfl, fun h _ heq ↦ Option.some.inj heq ▸ h⟩

private theorem trimmedValue?_of_isUnset (h : IsUnset value) : trimmedValue? value = none := by
  cases value with
  | none => rfl
  | some text =>
    rw [trimmedValue?, Option.map_some, isUnset_some_iff.mp h]
    rfl

private theorem trimmedValue?_of_not_isUnset (h : ¬IsUnset (some text)) :
    trimmedValue? (some text) = some (String.ofList (Text.trim text.toList)) := by
  rw [isUnset_some_iff] at h
  have hne : String.ofList (Text.trim text.toList) ≠ "" := by
    intro hempty
    rw [← String.toList_ofList (l := Text.trim text.toList), hempty] at h
    exact h rfl
  rw [trimmedValue?, Option.map_some, Option.filter_some, decide_eq_true hne, if_pos rfl]

theorem exists_gives_iff (fallback : α) :
    (∃ a, Gives Means fallback value a) ↔ IsValid Means value := by
  constructor
  · rintro ⟨_, h | ⟨-, h⟩⟩
    · exact Or.inl h
    · exact Or.inr ⟨_, _, rfl, h⟩
  · rintro (h | ⟨text, a, rfl, h⟩)
    · exact ⟨fallback, .unset h⟩
    · by_cases hset : IsUnset (some text)
      · exact ⟨fallback, .unset hset⟩
      · exact ⟨a, .set hset h⟩

theorem StandsIn.gives (h : StandsIn text value) (htrim : Text.trim text.toList = text.toList)
    (hne : text.toList ≠ []) (hmeans : Means text.toList a) : Gives Means fallback value a := by
  obtain ⟨before, after, hbefore, hafter, rfl⟩ := h
  have hinside : Text.trim (before ++ text ++ after).toList = text.toList := by
    rw [String.toList_append, String.toList_append, Text.trim_append hbefore hafter, htrim]
  refine .set ?_ ?_
  · rw [isUnset_some_iff, hinside]
    exact hne
  · rwa [hinside]

end Variables

/-! ## What the texts mean -/

/-- The text is the id of a coordinate reference system. -/
def IsMetricCrs (text : List Char) (crs : String) : Prop := ':' ∈ text ∧ crs.toList = text

/-- The text is a number of segments. -/
def IsSegmentCount (text : List Char) (count : UInt32) : Prop :=
  Numeral.Denotes text count.toNat ∧ 1 ≤ count

inductive IsCapacity : List Char → Option UInt64 → Prop
  | unbounded {text : List Char}
    (h : List.Forall₂ (fun c letter ↦ c = letter ∨ c = letter.toUpper) text "unbounded".toList) :
    IsCapacity text none
  | limited {text : List Char} {limit : UInt64} (h : Numeral.Denotes text limit.toNat) :
    IsCapacity text (some limit)

/-- The message says that the value of the variable with this name is invalid. -/
def Problem.Names (problem : Problem) (name : String) : Prop :=
  ("invalid " ++ name ++ "=").toList <+: problem.message.toList

/-- The function reads the texts that mean something, and names the variable where a text means
nothing. -/
structure Reads {α : Type} (name : String) (parse : String → Except Problem α)
    (Means : List Char → α → Prop) : Prop where
  eq_ok_iff (text : String) (a : α) : parse text = .ok a ↔ Means text.toList a
  names (text : String) (problem : Problem) : parse text = .error problem → problem.Names name

section Reads

theorem Problem.names_of_message {problem : Problem} {name rest : String}
    (h : problem.message = "invalid " ++ name ++ "=" ++ rest) : problem.Names name := by
  rw [Names, h, String.toList_append (s := "invalid " ++ name ++ "=")]
  exact List.prefix_append _ _

private theorem Problem.names_noBufferSegments : noBufferSegments.Names bufferSegmentsVariable := by
  have hvalue : "=0 (expected a positive integer)" = "=" ++ "0 (expected a positive integer)" := rfl
  exact names_of_message (by rw [message, hvalue, ← String.append_assoc])

theorem reads_metricCrs : Reads metricCrsVariable parseMetricCrs IsMetricCrs where
  eq_ok_iff text crs := by
    rw [parseMetricCrs, IsMetricCrs, String.toList_inj, eq_comm (a := crs)]
    by_cases hcolon : ':' ∈ text.toList
    · rw [if_pos hcolon, Except.ok.injEq]
      exact (and_iff_right hcolon).symm
    · rw [if_neg hcolon]
      exact iff_of_false nofun fun h ↦ hcolon h.1
  names text problem h := by
    rw [parseMetricCrs] at h
    by_cases hcolon : ':' ∈ text.toList
    · rw [if_pos hcolon] at h
      cases h
    · rw [if_neg hcolon] at h
      obtain rfl := Except.error.inj h
      exact Problem.names_of_message (String.append_assoc ..)

theorem reads_bufferSegments :
    Reads bufferSegmentsVariable parseBufferSegments IsSegmentCount where
  eq_ok_iff text count := by
    have hmeans : IsSegmentCount text.toList count ↔
        Numeral.natural? UInt32.size text.toList = some count.toNat ∧ 1 ≤ count := by
      rw [IsSegmentCount, Numeral.natural?_eq_some_iff, and_iff_left count.toNat_lt_size]
    rw [hmeans, parseBufferSegments]
    cases hread : Numeral.natural? UInt32.size text.toList with
    | none => exact iff_of_false nofun nofun
    | some n =>
      have hsize := (Numeral.natural?_eq_some_iff.mp hread).2
      dsimp only
      rw [Option.some.injEq, UInt32.le_iff_toNat_le]
      by_cases hzero : n = 0
      · rw [if_pos hzero]
        refine iff_of_false nofun ?_
        rintro ⟨rfl, hpos⟩
        exact absurd hzero (Nat.ne_of_gt hpos)
      · rw [if_neg hzero, Except.ok.injEq]
        constructor
        · rintro rfl
          rw [UInt32.toNat_ofNat_of_lt' hsize]
          exact ⟨rfl, Nat.one_le_iff_ne_zero.mpr hzero⟩
        · rintro ⟨rfl, -⟩
          exact UInt32.ofNat_toNat
  names text problem h := by
    rw [parseBufferSegments] at h
    cases hread : Numeral.natural? UInt32.size text.toList with
    | none =>
      rw [hread] at h
      obtain rfl := Except.error.inj h
      exact Problem.names_of_message (String.append_assoc ..)
    | some n =>
      rw [hread] at h
      dsimp only at h
      by_cases hzero : n = 0
      · rw [if_pos hzero] at h
        obtain rfl := Except.error.inj h
        exact Problem.names_noBufferSegments
      · rw [if_neg hzero] at h
        cases h

theorem isCapacity_none_iff {text : List Char} :
    IsCapacity text none ↔ text.map Char.toLower = "unbounded".toList := by
  rw [map_toLower_eq_iff (by simp)]
  constructor
  · rintro ⟨h⟩
    exact h
  · exact .unbounded

private theorem isCapacity_some_iff {text : List Char} {limit : UInt64} :
    IsCapacity text (some limit) ↔ Numeral.natural? UInt64.size text = some limit.toNat := by
  rw [Numeral.natural?_eq_some_iff, and_iff_left limit.toNat_lt_size]
  constructor
  · rintro (_ | h)
    exact h
  · exact .limited

/-- The word for no limit is not a number. -/
theorem not_denotes_of_unbounded {text : List Char} {n : ℕ}
    (h : text.map Char.toLower = "unbounded".toList) : ¬Numeral.Denotes text n := by
  intro hdenotes
  obtain ⟨c, rest, rfl, hc⟩ := hdenotes.exists_cons
  have hfirst : c.toLower = 'u' := List.head_eq_of_cons_eq h
  rcases (toLower_eq_iff (by decide)).mp hfirst with rfl | rfl <;>
    exact absurd hc (by decide)

private theorem reads_cacheCapacity :
    Reads cacheCapacityVariable parseCacheCapacity IsCapacity where
  eq_ok_iff text capacity := by
    rw [parseCacheCapacity]
    by_cases hword : text.toList.map Char.toLower = "unbounded".toList
    · rw [if_pos hword, Except.ok.injEq]
      cases capacity with
      | none => exact iff_of_true rfl (isCapacity_none_iff.mpr hword)
      | some limit =>
        refine iff_of_false nofun ?_
        rintro (_ | hlimit)
        exact not_denotes_of_unbounded hword hlimit
    · rw [if_neg hword]
      cases capacity with
      | none =>
        rw [isCapacity_none_iff]
        refine iff_of_false ?_ hword
        cases Numeral.natural? UInt64.size text.toList <;> exact nofun
      | some limit =>
        rw [isCapacity_some_iff]
        cases hread : Numeral.natural? UInt64.size text.toList with
        | none => exact iff_of_false nofun nofun
        | some n =>
          have hsize := (Numeral.natural?_eq_some_iff.mp hread).2
          dsimp only
          rw [Except.ok.injEq, Option.some.injEq, Option.some.injEq]
          constructor
          · rintro rfl
            exact (UInt64.toNat_ofNat_of_lt' hsize).symm
          · rintro rfl
            exact UInt64.ofNat_toNat
  names text problem h := by
    rw [parseCacheCapacity] at h
    by_cases hword : text.toList.map Char.toLower = "unbounded".toList
    · rw [if_pos hword] at h
      cases h
    · rw [if_neg hword] at h
      cases hread : Numeral.natural? UInt64.size text.toList with
      | none =>
        rw [hread] at h
        obtain rfl := Except.error.inj h
        exact Problem.names_of_message (String.append_assoc ..)
      | some n =>
        rw [hread] at h
        cases h

end Reads

/-! ## One variable -/

section Value

variable {α : Type} {name : String} {parse : String → Except Problem α}
  {Means : List Char → α → Prop} {fallback a : α} {value : Option String} {problem : Problem}

private theorem valueOr_of_isUnset (h : IsUnset value) :
    valueOr parse fallback value = .ok fallback := by
  rw [valueOr, trimmedValue?_of_isUnset h]

private theorem valueOr_of_not_isUnset {text : String} (h : ¬IsUnset (some text)) :
    valueOr parse fallback (some text) = parse (String.ofList (Text.trim text.toList)) := by
  rw [valueOr, trimmedValue?_of_not_isUnset h]

/-- **What is read from a variable** is what the variable gives. -/
theorem Reads.valueOr_eq_ok_iff (h : Reads name parse Means) :
    valueOr parse fallback value = .ok a ↔ Gives Means fallback value a := by
  by_cases hunset : IsUnset value
  · rw [valueOr_of_isUnset hunset, Except.ok.injEq]
    constructor
    · rintro rfl
      exact .unset hunset
    · rintro (_ | ⟨hset, -⟩)
      · rfl
      · exact absurd hunset hset
  · cases value with
    | none => exact absurd isUnset_none hunset
    | some text =>
      rw [valueOr_of_not_isUnset hunset, h.eq_ok_iff, String.toList_ofList]
      constructor
      · exact .set hunset
      · rintro (hunset' | ⟨-, hmeans⟩)
        · exact absurd hunset' hunset
        · exact hmeans

theorem Reads.isValid_of_eq_ok (h : Reads name parse Means)
    (hread : valueOr parse fallback value = .ok a) : IsValid Means value :=
  (exists_gives_iff fallback).mp ⟨a, h.valueOr_eq_ok_iff.mp hread⟩

/-- **What cannot be read** is invalid, and the variable is named. -/
theorem Reads.of_valueOr_eq_error (h : Reads name parse Means)
    (hread : valueOr parse fallback value = .error problem) :
    ¬IsValid Means value ∧ problem.Names name := by
  constructor
  · intro hvalid
    obtain ⟨a, hgives⟩ := (exists_gives_iff fallback).mpr hvalid
    rw [h.valueOr_eq_ok_iff.mpr hgives] at hread
    cases hread
  · by_cases hunset : IsUnset value
    · rw [valueOr_of_isUnset hunset] at hread
      cases hread
    · cases value with
      | none => exact absurd isUnset_none hunset
      | some text =>
        rw [valueOr_of_not_isUnset hunset] at hread
        exact h.names _ problem hread

end Value

/-! ## All variables -/

/-- The variable with this name is the first one that is invalid. -/
inductive IsFirstInvalid (lookup : String → Option String) : String → Prop
  | metricCrs (h : ¬IsValid IsMetricCrs (lookup metricCrsVariable)) :
    IsFirstInvalid lookup metricCrsVariable
  | bufferSegments (hcrs : IsValid IsMetricCrs (lookup metricCrsVariable))
    (h : ¬IsValid IsSegmentCount (lookup bufferSegmentsVariable)) :
    IsFirstInvalid lookup bufferSegmentsVariable
  | cacheCapacity (hcrs : IsValid IsMetricCrs (lookup metricCrsVariable))
    (hsegments : IsValid IsSegmentCount (lookup bufferSegmentsVariable))
    (h : ¬IsValid IsCapacity (lookup cacheCapacityVariable)) :
    IsFirstInvalid lookup cacheCapacityVariable

def capacityText : Option UInt64 → String
  | none => "unbounded"
  | some limit => toString limit.toNat

section All

variable {lookup : String → Option String} {settings : Settings} {problem : Problem}

theorem ofVariables_eq_ok_iff : ofVariables lookup = .ok settings ↔
    Gives IsMetricCrs default.metricCrs (lookup metricCrsVariable) settings.metricCrs ∧
    Gives IsSegmentCount default.bufferSegments (lookup bufferSegmentsVariable)
      settings.bufferSegments ∧
    Gives IsCapacity default.cacheCapacity (lookup cacheCapacityVariable)
      settings.cacheCapacity := by
  rw [← reads_metricCrs.valueOr_eq_ok_iff, ← reads_bufferSegments.valueOr_eq_ok_iff,
    ← reads_cacheCapacity.valueOr_eq_ok_iff, ofVariables]
  obtain ⟨crs, segments, capacity⟩ := settings
  cases valueOr parseMetricCrs default.metricCrs (lookup metricCrsVariable) with
  | error problem => exact iff_of_false nofun nofun
  | ok crs' =>
    cases valueOr parseBufferSegments default.bufferSegments (lookup bufferSegmentsVariable) with
    | error problem => exact iff_of_false nofun nofun
    | ok segments' =>
      cases valueOr parseCacheCapacity default.cacheCapacity (lookup cacheCapacityVariable) with
      | error problem => exact iff_of_false nofun nofun
      | ok capacity' =>
        change Except.ok (Settings.mk crs' segments' capacity') = _ ↔ _
        rw [Except.ok.injEq, Settings.mk.injEq, Except.ok.injEq, Except.ok.injEq, Except.ok.injEq]

private theorem exists_isFirstInvalid_of_eq_error (h : ofVariables lookup = .error problem) :
    ∃ name, IsFirstInvalid lookup name ∧ problem.Names name := by
  rw [ofVariables] at h
  rcases hcrs : valueOr parseMetricCrs default.metricCrs (lookup metricCrsVariable)
    with problem' | crs
  · rw [hcrs] at h
    obtain rfl := Except.error.inj h
    obtain ⟨hinvalid, hnames⟩ := reads_metricCrs.of_valueOr_eq_error hcrs
    exact ⟨_, .metricCrs hinvalid, hnames⟩
  rcases hsegments : valueOr parseBufferSegments default.bufferSegments
    (lookup bufferSegmentsVariable) with problem' | segments
  · rw [hcrs, hsegments] at h
    obtain rfl := Except.error.inj h
    obtain ⟨hinvalid, hnames⟩ := reads_bufferSegments.of_valueOr_eq_error hsegments
    exact ⟨_, .bufferSegments (reads_metricCrs.isValid_of_eq_ok hcrs) hinvalid, hnames⟩
  rcases hcapacity : valueOr parseCacheCapacity default.cacheCapacity
    (lookup cacheCapacityVariable) with problem' | capacity
  · rw [hcrs, hsegments, hcapacity] at h
    obtain rfl := Except.error.inj h
    obtain ⟨hinvalid, hnames⟩ := reads_cacheCapacity.of_valueOr_eq_error hcapacity
    exact ⟨_, .cacheCapacity (reads_metricCrs.isValid_of_eq_ok hcrs)
      (reads_bufferSegments.isValid_of_eq_ok hsegments) hinvalid, hnames⟩
  · rw [hcrs, hsegments, hcapacity] at h
    cases h

theorem exists_ofVariables_eq_ok_iff : (∃ settings, ofVariables lookup = .ok settings) ↔
    IsValid IsMetricCrs (lookup metricCrsVariable) ∧
    IsValid IsSegmentCount (lookup bufferSegmentsVariable) ∧
    IsValid IsCapacity (lookup cacheCapacityVariable) := by
  rw [← exists_gives_iff default.metricCrs, ← exists_gives_iff default.bufferSegments,
    ← exists_gives_iff default.cacheCapacity]
  constructor
  · rintro ⟨settings, h⟩
    obtain ⟨hcrs, hsegments, hcapacity⟩ := ofVariables_eq_ok_iff.mp h
    exact ⟨⟨_, hcrs⟩, ⟨_, hsegments⟩, ⟨_, hcapacity⟩⟩
  · rintro ⟨⟨crs, hcrs⟩, ⟨segments, hsegments⟩, ⟨capacity, hcapacity⟩⟩
    exact ⟨⟨crs, segments, capacity⟩, ofVariables_eq_ok_iff.mpr ⟨hcrs, hsegments, hcapacity⟩⟩

private theorem Gives.colon_mem {value : Option String} {crs : String}
    (h : Gives IsMetricCrs default.metricCrs value crs) : ':' ∈ crs.toList := by
  rcases h with _ | ⟨-, hcolon, hcrs⟩
  · decide
  · rwa [hcrs]

private theorem Gives.one_le {value : Option String} {count : UInt32}
    (h : Gives IsSegmentCount default.bufferSegments value count) : 1 ≤ count := by
  rcases h with _ | ⟨-, -, hpos⟩
  · decide
  · exact hpos

/-! ### Writing the settings down -/

private theorem toString_trim (n : ℕ) :
    Text.trim (toString n).toList = (toString n).toList ∧ (toString n).toList ≠ [] := by
  rw [Nat.toString_eq_repr, Nat.toList_repr]
  have hdigits : ∀ c ∈ Nat.toDigits 10 n, Text.isBlank c = false := fun c hc ↦
    Numeral.isBlank_of_isDigit (Nat.isDigit_of_mem_toDigits (by decide) (by decide) hc)
  refine ⟨Text.trim_of_ends (fun c hc ↦ hdigits c ?_) fun c hc ↦ hdigits c ?_,
    Nat.toDigits_ne_nil⟩
  · exact List.mem_of_mem_head? hc
  · exact List.mem_of_getLast? hc

private theorem capacityText_trim (capacity : Option UInt64) :
    Text.trim (capacityText capacity).toList = (capacityText capacity).toList ∧
      (capacityText capacity).toList ≠ [] := by
  cases capacity with
  | none => decide
  | some limit => exact toString_trim limit.toNat

private theorem isCapacity_capacityText (capacity : Option UInt64) :
    IsCapacity (capacityText capacity).toList capacity := by
  cases capacity with
  | none => exact isCapacity_none_iff.mpr (by decide)
  | some limit => exact .limited (Numeral.denotes_toString limit.toNat)

/-- **Settings that are written down are read back**, whatever blanks are put around them. -/
theorem ofVariables_of_standsIn (hsegments : 1 ≤ settings.bufferSegments)
    (hcolon : ':' ∈ settings.metricCrs.toList)
    (htrim : Text.trim settings.metricCrs.toList = settings.metricCrs.toList)
    (hcrs : StandsIn settings.metricCrs (lookup metricCrsVariable))
    (hcount : StandsIn (toString settings.bufferSegments.toNat) (lookup bufferSegmentsVariable))
    (hlimit : StandsIn (capacityText settings.cacheCapacity) (lookup cacheCapacityVariable)) :
    ofVariables lookup = .ok settings := by
  obtain ⟨hcountTrim, hcountNe⟩ := toString_trim settings.bufferSegments.toNat
  obtain ⟨hlimitTrim, hlimitNe⟩ := capacityText_trim settings.cacheCapacity
  rw [ofVariables_eq_ok_iff]
  refine ⟨hcrs.gives htrim (List.ne_nil_of_mem hcolon) ⟨hcolon, rfl⟩,
    hcount.gives hcountTrim hcountNe ⟨Numeral.denotes_toString _, hsegments⟩,
    hlimit.gives hlimitTrim hlimitNe (isCapacity_capacityText _)⟩

end All

/-- **What the variables give.** There are settings exactly if each variable is missing, blank or
valid, and then each of them gives the value that its trimmed text means, or the default; so the
coordinate reference system has a colon, and there is at least one segment. Otherwise the problem
names the first variable that is invalid. If settings with a trimmed coordinate reference system
that has a colon, and with at least one segment, are written to the variables, with any blanks
around them, they are read back. -/
theorem ofVariables_gives (lookup : String → Option String) :
    ((∃ settings, ofVariables lookup = .ok settings) ↔
      IsValid IsMetricCrs (lookup metricCrsVariable) ∧
      IsValid IsSegmentCount (lookup bufferSegmentsVariable) ∧
      IsValid IsCapacity (lookup cacheCapacityVariable)) ∧
    (∀ settings, ofVariables lookup = .ok settings ↔
      Gives IsMetricCrs default.metricCrs (lookup metricCrsVariable) settings.metricCrs ∧
      Gives IsSegmentCount default.bufferSegments (lookup bufferSegmentsVariable)
        settings.bufferSegments ∧
      Gives IsCapacity default.cacheCapacity (lookup cacheCapacityVariable)
        settings.cacheCapacity) ∧
    (∀ settings, ofVariables lookup = .ok settings →
      ':' ∈ settings.metricCrs.toList ∧ 1 ≤ settings.bufferSegments) ∧
    (∀ problem, ofVariables lookup = .error problem →
      ∃ name, IsFirstInvalid lookup name ∧ problem.Names name) ∧
    ∀ settings : Settings, 1 ≤ settings.bufferSegments → ':' ∈ settings.metricCrs.toList →
      Text.trim settings.metricCrs.toList = settings.metricCrs.toList →
      StandsIn settings.metricCrs (lookup metricCrsVariable) →
      StandsIn (toString settings.bufferSegments.toNat) (lookup bufferSegmentsVariable) →
      StandsIn (capacityText settings.cacheCapacity) (lookup cacheCapacityVariable) →
      ofVariables lookup = .ok settings := by
  refine ⟨exists_ofVariables_eq_ok_iff, fun settings ↦ ofVariables_eq_ok_iff,
    fun settings h ↦ ?_, fun problem ↦ exists_isFirstInvalid_of_eq_error,
    fun settings ↦ ofVariables_of_standsIn⟩
  obtain ⟨hcrs, hsegments, -⟩ := ofVariables_eq_ok_iff.mp h
  exact ⟨hcrs.colon_mem, hsegments.one_le⟩

/-- The most segments that there can be and no limit, with blanks around them. -/
theorem ofVariables_gives_padded :
    let settings : Settings := ⟨"EPSG:25833", 4294967295, none⟩
    let lookup (name : String) : Option String :=
      if name = metricCrsVariable then some "\tEPSG:25833 "
      else if name = bufferSegmentsVariable then some " 4294967295\u3000"
      else some "unbounded"
    1 ≤ settings.bufferSegments ∧ ':' ∈ settings.metricCrs.toList ∧
      Text.trim settings.metricCrs.toList = settings.metricCrs.toList ∧
      StandsIn settings.metricCrs (lookup metricCrsVariable) ∧
      StandsIn (toString settings.bufferSegments.toNat) (lookup bufferSegmentsVariable) ∧
      StandsIn (capacityText settings.cacheCapacity) (lookup cacheCapacityVariable) ∧
      ofVariables lookup = .ok settings := by
  intro settings lookup
  have hsegments : 1 ≤ settings.bufferSegments := by decide
  have hcolon : ':' ∈ settings.metricCrs.toList := by decide
  have htrim : Text.trim settings.metricCrs.toList = settings.metricCrs.toList := by decide
  have hcrs : StandsIn settings.metricCrs (lookup metricCrsVariable) :=
    ⟨"\t", " ", List.all_eq_true.mp (by decide), List.all_eq_true.mp (by decide), by decide⟩
  have hcount :
      StandsIn (toString settings.bufferSegments.toNat) (lookup bufferSegmentsVariable) :=
    ⟨" ", "\u3000", List.all_eq_true.mp (by decide), List.all_eq_true.mp (by decide), by decide⟩
  have hlimit : StandsIn (capacityText settings.cacheCapacity) (lookup cacheCapacityVariable) :=
    ⟨"", "", List.all_eq_true.mp (by decide), List.all_eq_true.mp (by decide), by decide⟩
  obtain ⟨-, -, -, -, hwritten⟩ := ofVariables_gives lookup
  exact ⟨hsegments, hcolon, htrim, hcrs, hcount, hlimit,
    hwritten settings hsegments hcolon htrim hcrs hcount hlimit⟩

example :
    (ofVariables fun name ↦ if name = metricCrsVariable then some " " else some "4294967296")
      = .error (.bufferSegments "4294967296") := by decide +kernel

end Settings

end MapQuery
