import Mathlib.Algebra.Group.Nat.Even
import Mathlib.Data.List.DropRight
import MapQuery.Language.Compilation
import MapQuery.Proofs.Language.Lexemes

/-!
# Quotations over several lines

The end of a line also ends the reading of a quotation, without success. A backslash takes the next
character with it, though, whatever that character is. So a quotation can go on behind the end of a
line, but only where a backslash escapes the newline (`Quoted.exists_inQuotes`). Whether it stands
on one line can be read off its text: it does unless it has a newline right behind a backslash.

A backslash that is itself escaped does not escape anything. Which backslashes do is a matter of
their number: the character behind a run of backslashes is escaped if the run is odd. For this the
scanner need not be followed from the opening quote on.
-/

namespace MapQuery.Language

/-! ## Escaped newlines -/

/-- How many backslashes stand at the end of the text. -/
def backslashesAtEnd (text : List Char) : ℕ := (text.rtakeWhile (· == '\\')).length

@[simp] theorem backslashesAtEnd_nil : backslashesAtEnd [] = 0 := rfl

theorem backslashesAtEnd_concat (text : List Char) (c : Char) :
    backslashesAtEnd (text ++ [c]) = if c = '\\' then backslashesAtEnd text + 1 else 0 := by
  rw [backslashesAtEnd, List.rtakeWhile_concat]
  split <;> simp_all [backslashesAtEnd]

theorem backslashesAtEnd_cons {c : Char} (hc : c ≠ '\\') (text : List Char) :
    backslashesAtEnd (c :: text) = backslashesAtEnd text := by
  induction text using List.reverseRecOn with
  | nil => rw [← List.nil_append [c], backslashesAtEnd_concat, if_neg hc, backslashesAtEnd_nil]
  | append_singleton text d ih =>
    rw [← List.cons_append, backslashesAtEnd_concat, backslashesAtEnd_concat, ih]

/-- A backslash and the character that it escapes count as two backslashes or do not count. -/
theorem odd_backslashesAtEnd_escape (c : Char) (text : List Char) :
    Odd (backslashesAtEnd ('\\' :: c :: text)) ↔ Odd (backslashesAtEnd text) := by
  induction text using List.reverseRecOn with
  | nil =>
    have hpair : backslashesAtEnd ['\\', c] = if c = '\\' then 2 else 0 :=
      backslashesAtEnd_concat ['\\'] c
    rw [hpair, backslashesAtEnd_nil]
    split <;> decide
  | append_singleton text d ih =>
    rw [← List.cons_append, ← List.cons_append, backslashesAtEnd_concat, backslashesAtEnd_concat]
    split
    · rw [Nat.odd_add_one, Nat.odd_add_one, ih]
    · exact Iff.rfl

/-- Each newline of the text is escaped: it stands behind an odd number of backslashes. -/
def EscapesNewlines (text : List Char) : Prop :=
  ∀ before after, text = before ++ '\n' :: after → Odd (backslashesAtEnd before)

theorem EscapesNewlines.cons {c : Char} {text : List Char} (h : EscapesNewlines text)
    (hline : c ≠ '\n') (hback : c ≠ '\\') : EscapesNewlines (c :: text) := by
  intro before after heq
  cases before with
  | nil => exact absurd (List.cons.inj heq).1 hline
  | cons d before =>
    obtain ⟨rfl, htext⟩ := List.cons.inj heq
    rw [backslashesAtEnd_cons hback]
    exact h before after htext

theorem EscapesNewlines.escape {text : List Char} (h : EscapesNewlines text) (c : Char) :
    EscapesNewlines ('\\' :: c :: text) := by
  intro before after heq
  match before with
  | [] => exact absurd (List.cons.inj heq).1 (by decide)
  | [d] =>
    obtain ⟨rfl, -⟩ := List.cons.inj heq
    decide
  | d :: d' :: before =>
    obtain ⟨rfl, heq'⟩ := List.cons.inj heq
    obtain ⟨rfl, htext⟩ := List.cons.inj heq'
    rw [odd_backslashesAtEnd_escape]
    exact h before after htext

/-- Where all newlines are escaped, a newline shows in the backslash in front of it. -/
theorem EscapesNewlines.newline_mem_iff {text : List Char} (h : EscapesNewlines text) :
    '\n' ∈ text ↔ ['\\', '\n'] <:+: text := by
  constructor
  · intro hmem
    obtain ⟨before, after, rfl⟩ := List.append_of_mem hmem
    have hodd : Odd (backslashesAtEnd before) := h before after rfl
    obtain rfl | ⟨before, c, rfl⟩ := List.eq_nil_or_concat' before
    · exact absurd hodd (by decide)
    · rw [backslashesAtEnd_concat] at hodd
      by_cases hc : c = '\\'
      · subst hc
        exact ⟨before, after, by simp⟩
      · rw [if_neg hc] at hodd
        exact absurd hodd (by decide)
  · intro hinfix
    exact hinfix.subset (by decide)

/-! ## Quotations -/

/-- The text between two quotes, together with them. -/
def inQuotes (quote : Char) (inside : List Char) : List Char := quote :: (inside ++ [quote])

/-- **The newlines in a quotation are escaped.** -/
theorem Quoted.exists_inQuotes {quote : Char} {text value rest : List Char}
    (hquote : isQuote quote = true) (h : Quoted quote text value rest) :
    ∃ inside, quote :: text = inQuotes quote inside ++ rest ∧
      EscapesNewlines (inQuotes quote inside) := by
  have hline : quote ≠ '\n' := by
    rintro rfl
    cases hquote
  have hback : quote ≠ '\\' := by
    rintro rfl
    cases hquote
  have hbody : ∃ inside, text = inside ++ [quote] ++ rest ∧
      EscapesNewlines (inside ++ [quote]) := by
    induction h with
    | close rest =>
      have hnil : EscapesNewlines [] := fun before after heq ↦ by simp at heq
      exact ⟨[], rfl, hnil.cons hline hback⟩
    | @escape c _ _ _ _ _ _ ih =>
      obtain ⟨inside, rfl, hescapes⟩ := ih
      exact ⟨'\\' :: c :: inside, rfl, hescapes.escape c⟩
    | @char c _ _ _ hline' hback' _ _ ih =>
      obtain ⟨inside, rfl, hescapes⟩ := ih
      exact ⟨c :: inside, rfl, hescapes.cons hline' hback'⟩
  obtain ⟨inside, rfl, hescapes⟩ := hbody
  exact ⟨inside, rfl, hescapes.cons hline hback⟩

/-- **Which quotations stand on one line.** What is read as a quotation goes from its opening quote
to its closing one, and each newline in it is escaped. So it stands on one line exactly if it has no
newline right behind a backslash. -/
theorem readQuotation_newline_notMem_iff {quote : Char} {text rest : List Char} {e : Expression}
    (hquote : isQuote quote = true) (h : readQuotation (quote :: text) = .read e rest) :
    ∃ inside, quote :: text = inQuotes quote inside ++ rest ∧
      EscapesNewlines (inQuotes quote inside) ∧
      ('\n' ∉ inQuotes quote inside ↔ ¬['\\', '\n'] <:+: inQuotes quote inside) := by
  rw [readQuotation] at h
  split at h
  · rename_i value after hscan
    cases h
    obtain ⟨inside, htext, hescapes⟩ := (quoted_of_scanQuoted hscan).exists_inQuotes hquote
    exact ⟨inside, htext, hescapes, not_congr hescapes.newline_mem_iff⟩
  · cases h

/-- An escaped backslash in front of another one, which escapes a newline. -/
theorem readQuotation_newline_notMem_iff_triple :
    let text := "it's\\\\\\\n\", 5)".toList
    isQuote '"' = true ∧
      readQuotation ('"' :: text) = .read (.literal (.text "it's\\\\\n")) ", 5)".toList ∧
      ∃ inside, '"' :: text = inQuotes '"' inside ++ ", 5)".toList ∧
        EscapesNewlines (inQuotes '"' inside) ∧
        ('\n' ∉ inQuotes '"' inside ↔ ¬['\\', '\n'] <:+: inQuotes '"' inside) :=
  ⟨rfl, rfl, readQuotation_newline_notMem_iff rfl rfl⟩

/-- A quotation that is closed on the line behind the one on which it was opened, and a program with
this quotation in it. -/
theorem readQuotation_over_two_lines :
    readQuotation "'a\\\nb'))".toList
        = .read (.literal (.text "a\\\nb")) "))".toList ∧
      "'a\\\nb'))".toList = inQuotes '\'' "a\\\nb".toList ++ "))".toList ∧
      '\n' ∈ inQuotes '\'' "a\\\nb".toList ∧
      tryCompile "count(get_layer('a\\\nb'))" = .ok ⟨[⟨.count, .source "a\\\nb"⟩], []⟩ := by
  refine ⟨rfl, rfl, ?_, ?_⟩
  · decide
  · decide +kernel

end MapQuery.Language
