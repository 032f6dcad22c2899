import MapQuery.Language.Reader
import MapQuery.Proofs.Language.Nesting

/-!
# Texts without their comments

The count of parentheses does not know comments, so that a quote or a parenthesis in a comment
misleads it. `withoutComments` takes the comments out of a text, and `commentText` keeps nothing
else. A reader that goes from one place of a text to a later one *covers* the levels that the count
would find between the two, comments aside (`Covers`).
-/

namespace MapQuery.Language

/-! ## Taking comments out -/

/-- The text without comments, except for the newlines that end them; inside a quotation a number
sign begins no comment. -/
def dropComments (state : QuoteState) (inComment : Bool) : List Char → List Char
  | [] => []
  | c :: rest =>
    if inComment then
      if c == '\n' then c :: dropComments .outside false rest else dropComments .outside true rest
    else if state = .outside && c == '#' then dropComments .outside true rest
    else c :: dropComments (state.next c) false rest

/-- The characters that `dropComments` takes out. -/
def keepComments (state : QuoteState) (inComment : Bool) : List Char → List Char
  | [] => []
  | c :: rest =>
    if inComment then
      if c == '\n' then keepComments .outside false rest else c :: keepComments .outside true rest
    else if state = .outside && c == '#' then c :: keepComments .outside true rest
    else keepComments (state.next c) false rest

/-- The text without its comments. -/
def withoutComments (text : List Char) : List Char := dropComments .outside false text

/-- The comments of the text. -/
def commentText (text : List Char) : List Char := keepComments .outside false text

@[simp] theorem withoutComments_nil : withoutComments [] = [] := rfl

theorem withoutComments_cons {c : Char} (hc : c ≠ '#') (rest : List Char) :
    withoutComments (c :: rest) = c :: dropComments (QuoteState.outside.next c) false rest := by
  simp [withoutComments, dropComments, hc]

private theorem withoutComments_number (rest : List Char) :
    withoutComments ('#' :: rest) = dropComments .outside true rest := by
  simp [withoutComments, dropComments]

/-- Whether the character neither opens nor closes anything, a comment included. -/
def isInert (c : Char) : Bool := isPlain c && c != '#'

theorem isInert_of_kind (kind : Char → Bool)
    (hkind : ['#', '\'', '"', '(', ')'].any kind = false) {c : Char} (h : kind c = true) :
    isInert c = true := by
  rw [List.any_cons, Bool.or_eq_false_iff] at hkind
  rw [isInert, isPlain_of_kind hkind.2 h, Bool.true_and, bne_iff_ne]
  rintro rfl
  rw [hkind.1] at h
  cases h

private theorem withoutComments_of_isInert {c : Char} (h : isInert c = true) (rest : List Char) :
    withoutComments (c :: rest) = c :: withoutComments rest := by
  simp only [isInert, Bool.and_eq_true, bne_iff_ne] at h
  rw [withoutComments_cons h.2, next_of_isPlain h.1]
  rfl

theorem QuoteState.Leaves.dropComments {state : QuoteState} {text : List Char}
    (h : state.Leaves text) (rest : List Char) :
    dropComments state false (text ++ rest) = text ++ withoutComments rest := by
  induction text generalizing state with
  | nil =>
    cases state with
    | outside => rfl
    | inside quote escaped => exact h.elim
  | cons c text ih =>
    cases state with
    | outside => cases h
    | inside quote escaped =>
      rw [List.cons_append, Language.dropComments]
      simpa using ih h

/-! ## Comments that do not matter -/

/-- Characters that are not counted change nothing about whether the limit is kept. -/
theorem findTooDeep?_dropComments {state : QuoteState} {inComment : Bool} {depth : ℕ}
    {text : List Char} (hstate : inComment = true → state = .outside)
    (h : ∀ c ∈ keepComments state inComment text, isPlain c = true) :
    findTooDeep? state depth (dropComments state inComment text) = none
      ↔ findTooDeep? state depth text = none := by
  induction text generalizing state inComment depth with
  | nil => rfl
  | cons c rest ih =>
    cases inComment with
    | true =>
      obtain rfl := hstate rfl
      by_cases hline : c = '\n'
      · subst hline
        -- The end of its line ends the comment, and stays.
        have hplain : isPlain '\n' = true := by decide
        simp only [dropComments, keepComments, if_true, beq_self_eq_true] at h ⊢
        rw [findTooDeep?_cons hplain, findTooDeep?_cons hplain]
        exact ih nofun h
      · simp only [dropComments, keepComments, if_true, beq_eq_false_iff_ne.mpr hline,
          Bool.false_eq_true, if_false, List.mem_cons, forall_eq_or_imp] at h ⊢
        rw [findTooDeep?_cons h.1]
        exact ih (fun _ ↦ rfl) h.2
    | false =>
      by_cases hcomment : state = .outside ∧ c = '#'
      · obtain ⟨rfl, rfl⟩ := hcomment
        simp only [dropComments, keepComments, Bool.false_eq_true, if_false, decide_true,
          beq_self_eq_true, Bool.and_self, if_true, List.mem_cons, forall_eq_or_imp] at h ⊢
        rw [findTooDeep?_cons h.1]
        exact ih (fun _ ↦ rfl) h.2
      · have hno : (decide (state = .outside) && c == '#') = false := by
          simpa using hcomment
        simp only [dropComments, keepComments, Bool.false_eq_true, if_false, hno] at h ⊢
        rw [findTooDeep?, findTooDeep?]
        -- What is counted is no quote, so the count goes on outside of quotations.
        have hnext : state = .outside ∧ (c = '(' ∨ c = ')') → state.next c = .outside := by
          rintro ⟨rfl, rfl | rfl⟩ <;> rfl
        split
        · rename_i hopen
          rw [hnext (by simp_all)] at h ⊢
          split
          · simp
          · exact ih nofun h
        · split
          · rename_i hclose
            rw [hnext (by simp_all)] at h ⊢
            exact ih nofun h
          · exact ih nofun h

/-- **Comments without quotes and parentheses** do not change the verdict on a text. -/
theorem checkNesting_withoutComments {text : List Char}
    (h : ∀ c ∈ commentText text, isPlain c = true) :
    checkNesting (withoutComments text) = .ok () ↔ checkNesting text = .ok () := by
  rw [checkNesting_eq_ok, checkNesting_eq_ok]
  exact findTooDeep?_dropComments (fun hin ↦ absurd hin Bool.false_ne_true) h

/-! ## Covering a text -/

/-- Whether `rest` stands behind a stretch of the text that nests the given levels, comments
aside. -/
structure Covers (text rest : List Char) (levels : ℕ) : Prop where
  /-- Nothing was added to the text. -/
  length_le : rest.length ≤ text.length
  /-- The stretch, without its comments. -/
  exists_nests : ∃ stretch, withoutComments text = stretch ++ withoutComments rest ∧
    Nests stretch levels

namespace Covers

variable {a b c : List Char} {m n : ℕ}

theorem refl (text : List Char) : Covers text text 0 :=
  ⟨Nat.le_refl _, [], rfl, nests_nil⟩

theorem trans (hab : Covers a b m) (hbc : Covers b c n) : Covers a c (max m n) := by
  obtain ⟨hlen, s, hs, hm⟩ := hab
  obtain ⟨hlen', t, ht, hn⟩ := hbc
  refine ⟨Nat.le_trans hlen' hlen, s ++ t, ?_, hm.append hn⟩
  rw [hs, ht, List.append_assoc]

theorem trans_left (hab : Covers a b 0) (hbc : Covers b c n) : Covers a c n :=
  Nat.zero_max n ▸ hab.trans hbc

theorem trans_right (hab : Covers a b n) (hbc : Covers b c 0) : Covers a c n :=
  Nat.max_zero n ▸ hab.trans hbc

end Covers

theorem covers_cons {c : Char} (h : isInert c = true) (rest : List Char) :
    Covers (c :: rest) rest 0 := by
  refine ⟨Nat.le_succ _, [c], withoutComments_of_isInert h rest, nests_of_isPlain ?_⟩
  rw [isInert, Bool.and_eq_true] at h
  simpa using h.1

theorem covers_append {stretch : List Char} (h : ∀ c ∈ stretch, isInert c = true)
    (rest : List Char) : Covers (stretch ++ rest) rest 0 := by
  induction stretch with
  | nil => exact Covers.refl rest
  | cons c stretch ih =>
    exact (covers_cons (h c List.mem_cons_self) _).trans_left
      (ih fun d hd ↦ h d (List.mem_cons_of_mem c hd))

theorem covers_dropWhile {kind : Char → Bool} (h : ∀ c, kind c = true → isInert c = true)
    (text : List Char) : Covers text (text.dropWhile kind) 0 := by
  have hstretch : ∀ c ∈ text.takeWhile kind, isInert c = true :=
    fun c hc ↦ h c (List.all_eq_true.mp List.all_takeWhile c hc)
  have hcovers := covers_append hstretch (text.dropWhile kind)
  rwa [List.takeWhile_append_dropWhile] at hcovers

/-- A call covers one level more than what stands between its parentheses. -/
theorem covers_parenthesized {inside rest : List Char} {n : ℕ}
    (h : Covers inside (')' :: rest) n) : Covers ('(' :: inside) rest (n + 1) := by
  obtain ⟨hlen, stretch, hstretch, hn⟩ := h
  refine ⟨by simp at hlen ⊢; omega, '(' :: stretch ++ [')'], ?_, hn.parenthesized⟩
  have hopen : withoutComments ('(' :: inside) = '(' :: withoutComments inside :=
    withoutComments_cons (by decide) inside
  have hclose : withoutComments (')' :: rest) = ')' :: withoutComments rest :=
    withoutComments_cons (by decide) rest
  rw [hopen, hstretch, hclose]
  simp

theorem covers_quotation {quote : Char} {text value rest : List Char}
    (hquote : isQuote quote = true)
    (h : scanQuoted quote text = some (value, rest)) : Covers (quote :: text) rest 0 := by
  obtain ⟨body, rfl, hleaves⟩ := exists_leaves_of_scanQuoted h
  have hne : quote ≠ '#' := by
    rintro rfl
    exact absurd hquote (by decide)
  have hnext : QuoteState.outside.next quote = .inside quote false := if_pos hquote
  refine ⟨by simp; omega, quote :: body, ?_, nests_quotation hquote hleaves⟩
  rw [withoutComments_cons hne, hnext, hleaves.dropComments, List.cons_append]

/-! ## Gaps -/

/-- Filler is a stretch without levels, whatever stands in its comments. -/
theorem exists_dropComments_skipFiller {isSpace : Char → Bool}
    (h : ∀ c, isSpace c = true → isInert c = true) (inComment : Bool) (text : List Char) :
    ∃ stretch, dropComments .outside inComment text
        = stretch ++ withoutComments (skipFiller isSpace inComment text) ∧
      ∀ c ∈ stretch, isPlain c = true := by
  induction text generalizing inComment with
  | nil => exact ⟨[], rfl, nofun⟩
  | cons c rest ih =>
    rw [skipFiller]
    cases inComment with
    | true =>
      rw [if_pos rfl]
      by_cases hline : c = '\n'
      · obtain ⟨stretch, hstretch, hplain⟩ := ih false
        subst hline
        refine ⟨'\n' :: stretch, ?_, by simpa using ⟨by decide, hplain⟩⟩
        rw [dropComments, if_pos rfl, if_pos (beq_self_eq_true _), hstretch]
        rfl
      · obtain ⟨stretch, hstretch, hplain⟩ := ih true
        have hbne : (c != '\n') = true := bne_iff_ne.mpr hline
        refine ⟨stretch, ?_, hplain⟩
        rw [dropComments, if_pos rfl, if_neg (by simpa using hline), hbne, hstretch]
    | false =>
      rw [if_neg Bool.false_ne_true]
      split
      · rename_i hspace
        obtain ⟨stretch, hstretch, hplain⟩ := ih false
        refine ⟨c :: stretch, ?_, ?_⟩
        · change withoutComments (c :: rest) = _
          rw [withoutComments_of_isInert (h c hspace), withoutComments, hstretch, List.cons_append]
        · have hc := h c hspace
          rw [isInert, Bool.and_eq_true] at hc
          simpa using ⟨hc.1, hplain⟩
      · split
        · rename_i hnumber
          obtain ⟨stretch, hstretch, hplain⟩ := ih true
          -- A comment begins: all of it is dropped, its first character included.
          obtain rfl := beq_iff_eq.mp hnumber
          exact ⟨stretch, (withoutComments_number rest).trans hstretch, hplain⟩
        · exact ⟨[], rfl, nofun⟩

private theorem length_skipFiller_le (isSpace : Char → Bool) (inComment : Bool) (text : List Char) :
    (skipFiller isSpace inComment text).length ≤ text.length := by
  induction text generalizing inComment with
  | nil => exact Nat.le_refl _
  | cons c rest ih =>
    rw [skipFiller]
    split_ifs
    · exact Nat.le_succ_of_le (ih _)
    · exact Nat.le_succ_of_le (ih _)
    · exact Nat.le_succ_of_le (ih _)
    · exact Nat.le_refl _

private theorem covers_skipFiller {isSpace : Char → Bool}
    (h : ∀ c, isSpace c = true → isInert c = true) (text : List Char) :
    Covers text (skipFiller isSpace false text) 0 := by
  obtain ⟨stretch, hstretch, hplain⟩ := exists_dropComments_skipFiller h false text
  exact ⟨length_skipFiller_le isSpace false text, stretch, hstretch, nests_of_isPlain hplain⟩

theorem covers_skipGap (text : List Char) : Covers text (skipGap text) 0 :=
  covers_skipFiller (fun _ ↦ isInert_of_kind Text.isBlank (by decide)) text

theorem covers_skipSeparators (text : List Char) : Covers text (skipSeparators text) 0 :=
  covers_skipFiller
    (fun _ ↦ isInert_of_kind (fun c ↦ Text.isBlank c || c == ';') (by decide)) text

theorem dropComments_dropWhile (rest : List Char) :
    dropComments .outside true rest = withoutComments (rest.dropWhile (· != '\n')) := by
  induction rest with
  | nil => rfl
  | cons c rest ih =>
    by_cases hline : c = '\n'
    · subst hline
      rfl
    · rw [dropComments, if_pos rfl, if_neg (by simpa using hline), ih,
        List.dropWhile_cons_of_pos (by simpa using hline)]

theorem covers_skipToStatementEnd (text : List Char) : Covers text (skipToStatementEnd text) 0 := by
  have hcovers : Covers text (text.dropWhile isInlineSpace) 0 :=
    covers_dropWhile (fun _ ↦ isInert_of_kind isInlineSpace (by decide)) text
  rw [skipToStatementEnd]
  split
  · rename_i rest heq
    rw [heq] at hcovers
    refine hcovers.trans_left ⟨?_, [], ?_, nests_nil⟩
    · exact Nat.le_succ_of_le (List.dropWhile_suffix _).length_le
    · rw [withoutComments_number, dropComments_dropWhile, List.nil_append]
  · exact hcovers

end MapQuery.Language
