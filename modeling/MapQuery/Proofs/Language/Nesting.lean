import Mathlib.Data.List.Basic
import MapQuery.Language.Compilation
import MapQuery.Language.Reader

/-!
# How deeply a text nests

The count of open parentheses is followed through a text piece by piece. A piece *nests* `n` levels
if it opens at most `n` parentheses at once and closes all of them: between two pieces, the count is
where it was (`Nests`). Pieces are put together by `Nests.append` and `Nests.parenthesized`. A
quotation is a piece without levels, whatever it contains, because the count and the reader of
quotations agree on where it ends (`exists_leaves_of_scanQuoted`).
-/

namespace MapQuery.Language

/-! ## Quotations -/

/-- Whether the count comes out of a quotation with the last character of the text, and not
earlier. -/
def QuoteState.Leaves : QuoteState → List Char → Prop
  | outside, text => text = []
  | inside _ _, [] => False
  | inside quote escaped, c :: text => ((inside quote escaped).next c).Leaves text

@[simp] theorem findTooDeep?_inside (quote : Char) (escaped : Bool) (depth : ℕ) (c : Char)
    (rest : List Char) :
    findTooDeep? (.inside quote escaped) depth (c :: rest)
      = findTooDeep? ((QuoteState.inside quote escaped).next c) depth rest := by
  simp [findTooDeep?]

theorem QuoteState.Leaves.findTooDeep? {state : QuoteState} {text : List Char}
    (h : state.Leaves text) (depth : ℕ) (rest : List Char) :
    findTooDeep? state depth (text ++ rest) = findTooDeep? .outside depth rest := by
  induction text generalizing state with
  | nil =>
    cases state with
    | outside => rfl
    | inside quote escaped => exact h.elim
  | cons c text ih =>
    cases state with
    | outside => cases h
    | inside quote escaped =>
      rw [List.cons_append, findTooDeep?_inside]
      exact ih h

theorem ne_backslash {c : Char} {tail : List Char} (hnil : c = '\\' → tail = [] → False)
    (hcons : ∀ d rest, c = '\\' → tail = d :: rest → False) : c ≠ '\\' := by
  intro hc
  cases tail with
  | nil => exact hnil hc rfl
  | cons d rest => exact hcons d rest hc rfl

/-- The count leaves a quotation where its reader does. -/
theorem exists_leaves_of_scanQuoted {quote : Char} {text value rest : List Char}
    (h : scanQuoted quote text = some (value, rest)) :
    ∃ body, text = body ++ rest ∧ (QuoteState.inside quote false).Leaves body := by
  induction text using scanQuoted.induct quote generalizing value with
  | case1 => cases h
  | case2 => cases h
  | case3 c tail ih =>
    simp only [scanQuoted, Option.bind_eq_bind, Option.bind_eq_some_iff] at h
    obtain ⟨⟨inner, rest'⟩, hinner, heq⟩ := h
    simp only [Option.pure_def, Option.some.injEq, Prod.mk.injEq] at heq
    rw [heq.2] at hinner
    obtain ⟨body, rfl, hbody⟩ := ih hinner
    -- Reader and count both pass an escaped character, whatever it is.
    exact ⟨'\\' :: c :: body, rfl, by simpa [QuoteState.Leaves, QuoteState.next] using hbody⟩
  | case4 c tail hnil hcons hline =>
    rw [scanQuoted, if_pos hline] at h
    · cases h
    · exact hnil
    · exact hcons
  | case5 c tail hnil hcons hline hquote =>
    rw [scanQuoted, if_neg hline, if_pos hquote] at h
    · have hback : c ≠ '\\' := ne_backslash hnil hcons
      obtain rfl : tail = rest := congrArg Prod.snd (Option.some.inj h)
      obtain rfl := beq_iff_eq.mp hquote
      exact ⟨[c], rfl, by simp [QuoteState.Leaves, QuoteState.next, hback]⟩
    · exact hnil
    · exact hcons
  | case6 c tail hnil hcons hline hquote ih =>
    rw [scanQuoted, if_neg hline, if_neg hquote] at h
    · have hback : c ≠ '\\' := ne_backslash hnil hcons
      simp only [Option.bind_eq_bind, Option.bind_eq_some_iff] at h
      obtain ⟨⟨inner, rest'⟩, hinner, heq⟩ := h
      simp only [Option.pure_def, Option.some.injEq, Prod.mk.injEq] at heq
      rw [heq.2] at hinner
      obtain ⟨body, rfl, hbody⟩ := ih hinner
      refine ⟨c :: body, rfl, ?_⟩
      simpa [QuoteState.Leaves, QuoteState.next, hback, hline, hquote] using hbody
    · exact hnil
    · exact hcons

/-! ## Levels -/

/-- Whether the character neither opens nor closes a quotation or a call. -/
def isPlain (c : Char) : Bool := !isQuote c && c != '(' && c != ')'

/-- Whether the text opens at most `levels` parentheses at once, and closes them all: after it the
count goes on as before it, unless the limit was passed inside. -/
def Nests (text : List Char) (levels : ℕ) : Prop :=
  ∀ depth rest, depth ≤ maxNesting →
    (depth + levels ≤ maxNesting →
      findTooDeep? .outside depth (text ++ rest) = findTooDeep? .outside depth rest) ∧
    (maxNesting < depth + levels → findTooDeep? .outside depth (text ++ rest) ≠ none)

theorem nests_nil : Nests [] 0 :=
  fun _ _ hdepth ↦ ⟨fun _ ↦ rfl, fun hlt ↦ absurd hdepth (Nat.not_le.mpr hlt)⟩

theorem nests_zero {text : List Char}
    (h : ∀ depth rest, findTooDeep? .outside depth (text ++ rest)
      = findTooDeep? .outside depth rest) : Nests text 0 :=
  fun depth rest hdepth ↦ ⟨fun _ ↦ h depth rest, fun hlt ↦ absurd hdepth (Nat.not_le.mpr hlt)⟩

theorem Nests.append {a b : List Char} {m n : ℕ} (ha : Nests a m) (hb : Nests b n) :
    Nests (a ++ b) (max m n) := by
  intro depth rest hdepth
  obtain ⟨hain, haout⟩ := ha depth (b ++ rest) hdepth
  obtain ⟨hbin, hbout⟩ := hb depth rest hdepth
  rw [List.append_assoc]
  constructor
  · intro hle
    rw [hain (by omega), hbin (by omega)]
  · intro hlt
    rcases Nat.lt_or_ge maxNesting (depth + m) with hm | hm
    · exact haout hm
    · rw [hain hm]
      exact hbout (by omega)

theorem Nests.parenthesized {text : List Char} {n : ℕ} (h : Nests text n) :
    Nests ('(' :: text ++ [')']) (n + 1) := by
  intro depth rest hdepth
  have hopen : findTooDeep? .outside depth ('(' :: text ++ [')'] ++ rest)
      = if maxNesting < depth + 1 then some ('(' :: text ++ [')'] ++ rest)
        else findTooDeep? .outside (depth + 1) (text ++ ')' :: rest) := by
    simp [findTooDeep?]
  have hclose : findTooDeep? .outside (depth + 1) (')' :: rest)
      = findTooDeep? .outside depth rest := by
    simp [findTooDeep?]
  rw [hopen]
  constructor
  · intro hle
    rw [if_neg (by omega), (h (depth + 1) (')' :: rest) (by omega)).1 (by omega), hclose]
  · intro hlt
    split
    · exact Option.some_ne_none _
    · exact (h (depth + 1) (')' :: rest) (by omega)).2 (by omega)

theorem isPlain_of_kind {kind : Char → Bool}
    (hkind : ['\'', '"', '(', ')'].any kind = false) {c : Char} (h : kind c = true) :
    isPlain c = true := by
  have hne : ∀ d ∈ ['\'', '"', '(', ')'], c ≠ d := by
    rintro d hd rfl
    exact List.any_eq_false.mp hkind c hd h
  simp only [List.mem_cons, List.not_mem_nil, or_false, forall_eq_or_imp, forall_eq] at hne
  simp [isPlain, isQuote, hne]

theorem next_of_isPlain {c : Char} (h : isPlain c = true) :
    QuoteState.outside.next c = .outside := by
  simp only [isPlain, isQuote, Bool.and_eq_true, Bool.not_eq_true'] at h
  exact if_neg (Bool.eq_false_iff.mp h.1.1)

theorem findTooDeep?_cons {c : Char} (h : isPlain c = true) (depth : ℕ) (rest : List Char) :
    findTooDeep? .outside depth (c :: rest) = findTooDeep? .outside depth rest := by
  have hnext := next_of_isPlain h
  simp only [isPlain, Bool.and_eq_true, bne_iff_ne] at h
  simp [findTooDeep?, h.1.2, h.2, hnext]

theorem nests_of_isPlain {text : List Char} (h : ∀ c ∈ text, isPlain c = true) :
    Nests text 0 := by
  refine nests_zero fun depth rest ↦ ?_
  induction text with
  | nil => rfl
  | cons c text ih =>
    rw [List.cons_append, findTooDeep?_cons (h c List.mem_cons_self)]
    exact ih fun d hd ↦ h d (List.mem_cons_of_mem c hd)

/-- **A quotation nests nothing**, whatever stands in it. -/
theorem nests_quotation {quote : Char} {body : List Char} (hquote : isQuote quote = true)
    (h : (QuoteState.inside quote false).Leaves body) : Nests (quote :: body) 0 := by
  refine nests_zero fun depth rest ↦ ?_
  have hopen : quote ≠ '(' := by
    rintro rfl
    exact absurd hquote (by decide)
  have hclose : quote ≠ ')' := by
    rintro rfl
    exact absurd hquote (by decide)
  have hnext : QuoteState.outside.next quote = .inside quote false := if_pos hquote
  rw [List.cons_append, findTooDeep?]
  simp only [beq_eq_false_iff_ne.mpr hopen, beq_eq_false_iff_ne.mpr hclose, Bool.and_false,
    Bool.false_eq_true, if_false, hnext]
  exact h.findTooDeep? depth rest

theorem checkNesting_eq_ok {text : List Char} :
    checkNesting text = .ok () ↔ findTooDeep? .outside 0 text = none := by
  rw [checkNesting]
  cases findTooDeep? .outside 0 text <;> simp

theorem Nests.checkNesting_eq_ok_iff {text : List Char} {n : ℕ} (h : Nests text n) :
    checkNesting text = .ok () ↔ n ≤ maxNesting := by
  obtain ⟨hin, hout⟩ := h 0 [] (Nat.zero_le _)
  rw [List.append_nil, Nat.zero_add] at hin hout
  rw [checkNesting_eq_ok]
  constructor
  · intro hnone
    by_contra hlt
    exact hout (Nat.not_le.mp hlt) hnone
  · intro hle
    rw [hin hle]
    rfl

end MapQuery.Language
