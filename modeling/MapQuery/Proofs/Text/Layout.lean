import Mathlib.Data.List.DropRight
import MapQuery.Text.Blank

/-!
# The layout of lines

The same lines can be laid out in many ways: with blanks around each of them, with blank lines in
between, and with a carriage return before a newline (`IsLayout`). The content lines of a text are
what all its layouts have in common. A text is a layout of its content lines
(`isLayout_contentLines`), and layouts of the same lines have the same content lines
(`IsLayout.contentLines_eq`).

Since content lines are trimmed, and neither blank nor broken by a newline, they can be read off
again where they are written one below the other (`contentLines_joinLines`). So nothing but the
layout is lost in `withoutLayout` (`withoutLayout_eq_iff`).
-/

namespace MapQuery.Text

/-! ## Trimming -/

section Trim

variable {before text after : List Char}

private theorem trimEnd_eq_rdropWhile (text : List Char) :
    trimEnd text = text.rdropWhile isBlank := rfl

private theorem trimEnd_append (hafter : ∀ c ∈ after, isBlank c = true) :
    trimEnd (text ++ after) = trimEnd text := by
  rw [trimEnd, List.reverse_append, List.dropWhile_append_of_pos, trimEnd]
  exact fun c hc ↦ hafter c (List.mem_reverse.mp hc)

theorem trim_append (hbefore : ∀ c ∈ before, isBlank c = true)
    (hafter : ∀ c ∈ after, isBlank c = true) : trim (before ++ text ++ after) = trim text := by
  have hstart : trim (before ++ text ++ after) = trim (text ++ after) := by
    rw [trim, trimStart, List.append_assoc, List.dropWhile_append_of_pos hbefore, ← trimStart, trim]
  rw [hstart, trim, trimStart, List.dropWhile_append]
  -- If the text is blank, what comes after it is trimmed away from the front.
  split
  · rename_i hblank
    have hnil : trimStart text = [] := List.isEmpty_iff.mp hblank
    rw [List.dropWhile_eq_nil_iff.mpr hafter, trim, hnil]
  · exact trimEnd_append hafter

theorem exists_eq_append_trim (text : List Char) : ∃ before after,
    (∀ c ∈ before, isBlank c = true) ∧ (∀ c ∈ after, isBlank c = true) ∧
      text = before ++ trim text ++ after := by
  refine ⟨text.takeWhile isBlank, (trimStart text).rtakeWhile isBlank,
    fun c hc ↦ List.mem_takeWhile_imp hc, fun c hc ↦ List.mem_rtakeWhile_imp hc, ?_⟩
  rw [List.append_assoc, trim, trimEnd_eq_rdropWhile, List.rdropWhile_append_rtakeWhile, trimStart,
    List.takeWhile_append_dropWhile]

@[simp] theorem trim_trim (text : List Char) : trim (trim text) = trim text := by
  obtain ⟨before, after, hbefore, hafter, heq⟩ := exists_eq_append_trim text
  calc trim (trim text) = trim (before ++ trim text ++ after) := (trim_append hbefore hafter).symm
    _ = trim text := by rw [← heq]

theorem trim_eq_nil_iff : trim text = [] ↔ ∀ c ∈ text, isBlank c = true := by
  constructor
  · intro hnil
    obtain ⟨before, after, hbefore, hafter, heq⟩ := exists_eq_append_trim text
    rw [hnil, List.append_nil] at heq
    rw [heq]
    exact List.forall_mem_append.mpr ⟨hbefore, hafter⟩
  · intro hblank
    rw [trim, trimStart, List.dropWhile_eq_nil_iff.mpr hblank, trimEnd_nil]

theorem trim_of_ends (hfirst : ∀ c ∈ text.head?, isBlank c = false)
    (hlast : ∀ c ∈ text.getLast?, isBlank c = false) : trim text = text := by
  have hstart : trimStart text = text := by
    rw [trimStart, List.dropWhile_eq_self_iff]
    intro hpos
    rw [hfirst _ (by rw [List.head?_eq_getElem?]; exact List.getElem?_eq_getElem hpos)]
    exact Bool.false_ne_true
  rw [trim, hstart, trimEnd_eq_rdropWhile, List.rdropWhile_eq_self_iff]
  intro hne
  rw [hlast _ (List.getLast?_eq_getLast_of_ne_nil hne)]
  exact Bool.false_ne_true

private theorem mem_of_mem_trim {c : Char} (h : c ∈ trim text) : c ∈ text := by
  obtain ⟨before, after, -, -, heq⟩ := exists_eq_append_trim text
  rw [heq]
  exact List.mem_append_left _ (List.mem_append_right _ h)

end Trim

/-! ## Lines -/

section Lines

variable {line text : List Char} {lines : List (List Char)}

theorem splitLines_eq_splitOn (text : List Char) : splitLines text = text.splitOn '\n' := by
  induction text with
  | nil => rfl
  | cons c rest ih =>
    rw [List.splitOn_cons_eq_if_modifyHead, splitLines, ← ih]
    obtain ⟨line, lines, hlines⟩ := List.exists_cons_of_ne_nil (splitLines_ne_nil rest)
    rw [hlines]
    rfl

theorem joinLines_eq_intercalate (lines : List (List Char)) :
    joinLines lines = ['\n'].intercalate lines := by
  induction lines with
  | nil => rfl
  | cons line lines ih =>
    cases lines with
    | nil => simp [joinLines]
    | cons next more =>
      rw [joinLines, ih, List.intercalate_cons_cons, List.append_assoc, List.singleton_append]
      exact List.cons_ne_nil next more

private theorem splitLines_append (first second : List Char) :
    splitLines (first ++ '\n' :: second) = splitLines first ++ splitLines second := by
  simp only [splitLines_eq_splitOn]
  exact List.splitOn_append_cons_self first second

private theorem splitLines_of_notMem (h : '\n' ∉ line) : splitLines line = [line] := by
  rw [splitLines_eq_splitOn, List.splitOn_eq_singleton h]

private theorem splitLines_joinLines (hne : lines ≠ []) (h : ∀ line ∈ lines, '\n' ∉ line) :
    splitLines (joinLines lines) = lines := by
  rw [splitLines_eq_splitOn, joinLines_eq_intercalate, List.splitOn_intercalate '\n' h hne]

private theorem notMem_of_mem_splitLines (h : line ∈ splitLines text) : '\n' ∉ line := by
  induction text generalizing line with
  | nil =>
    rw [List.mem_singleton.mp h]
    exact List.not_mem_nil
  | cons c rest ih =>
    rw [splitLines] at h
    split at h
    · rcases List.mem_cons.mp h with rfl | hrest
      · exact List.not_mem_nil
      · exact ih hrest
    · rename_i hc
      obtain ⟨first, more, hlines⟩ := List.exists_cons_of_ne_nil (splitLines_ne_nil rest)
      rw [hlines] at h ih
      rcases List.mem_cons.mp h with rfl | hmore
      · rw [List.mem_cons, not_or]
        exact ⟨fun heq ↦ hc (beq_iff_eq.mpr heq.symm), ih List.mem_cons_self⟩
      · exact ih (List.mem_cons_of_mem _ hmore)

end Lines

/-! ## Content lines -/

section Content

variable {line text first second : List Char} {lines : List (List Char)}

theorem contentLines_append (first second : List Char) :
    contentLines (first ++ '\n' :: second) = contentLines first ++ contentLines second := by
  rw [contentLines, splitLines_append, List.map_append, List.filter_append, ← contentLines,
    ← contentLines]

private theorem contentLines_of_notMem (h : '\n' ∉ line) :
    contentLines line = [trim line].filter (!·.isEmpty) := by
  rw [contentLines, splitLines_of_notMem h, List.map_singleton]

theorem contentLines_joinLines (h : ∀ line ∈ lines, '\n' ∉ line) :
    contentLines (joinLines lines) = (lines.map trim).filter (!·.isEmpty) := by
  cases lines with
  | nil => rfl
  | cons line lines => rw [contentLines, splitLines_joinLines (List.cons_ne_nil line lines) h]

theorem contentLines_eq_filter (text : List Char) :
    contentLines text = ((text.splitOn '\n').map trim).filter (· ≠ []) := by
  rw [contentLines, splitLines_eq_splitOn]
  refine List.filter_congr fun line _ ↦ ?_
  cases line <;> rfl

theorem mem_contentLines_iff :
    line ∈ contentLines text ↔ line ≠ [] ∧ ∃ piece ∈ splitLines text, trim piece = line := by
  rw [contentLines, List.mem_filter, List.mem_map]
  simp [and_comm]

private theorem trim_of_mem_contentLines (h : line ∈ contentLines text) : trim line = line := by
  obtain ⟨-, piece, -, rfl⟩ := mem_contentLines_iff.mp h
  exact trim_trim piece

private theorem notMem_of_mem_contentLines (h : line ∈ contentLines text) : '\n' ∉ line := by
  obtain ⟨-, piece, hpiece, rfl⟩ := mem_contentLines_iff.mp h
  exact fun hmem ↦ notMem_of_mem_splitLines hpiece (mem_of_mem_trim hmem)

/-- **Taking the layout away keeps the content lines.** -/
@[simp] theorem contentLines_withoutLayout (text : List Char) :
    contentLines (withoutLayout text) = contentLines text := by
  rw [withoutLayout, contentLines_joinLines fun line ↦ notMem_of_mem_contentLines,
    List.map_congr_left fun line ↦ trim_of_mem_contentLines, List.map_id', List.filter_eq_self]
  intro line hline
  simpa using (mem_contentLines_iff.mp hline).1

/-- **Taking the layout away loses nothing else.** -/
theorem withoutLayout_eq_iff :
    withoutLayout first = withoutLayout second ↔ contentLines first = contentLines second := by
  constructor
  · intro h
    rw [← contentLines_withoutLayout first, h, contentLines_withoutLayout]
  · intro h
    rw [withoutLayout, h, withoutLayout]

end Content

/-! ## Layouts -/

/-- Blanks within a line. -/
def IsPadding (text : List Char) : Prop := ∀ c ∈ text, isBlank c = true ∧ c ≠ '\n'

/-- What can stand at the end of a line. -/
def IsLineEnd (text : List Char) : Prop := text = ['\n'] ∨ text = ['\r', '\n']

/-- The texts in which lines are laid out: the lines stand in their order, each with blanks around
it, and blank lines stand wherever they like. Nothing need stand at the end of the last line. -/
inductive IsLayout : List (List Char) → List Char → Prop
  | blankLast {padding : List Char} (hpadding : IsPadding padding) : IsLayout [] padding
  | last {before line after : List Char} (hbefore : IsPadding before) (hline : '\n' ∉ line)
    (hafter : IsPadding after) : IsLayout [line] (before ++ line ++ after)
  | blank {padding ending rest : List Char} {lines : List (List Char)}
    (hpadding : IsPadding padding) (hending : IsLineEnd ending) (hrest : IsLayout lines rest) :
    IsLayout lines (padding ++ (ending ++ rest))
  | line {before line after ending rest : List Char} {lines : List (List Char)}
    (hbefore : IsPadding before) (hline : '\n' ∉ line) (hafter : IsPadding after)
    (hending : IsLineEnd ending) (hrest : IsLayout lines rest) :
    IsLayout (line :: lines) (before ++ line ++ after ++ (ending ++ rest))

section Layout

variable {before line after padding ending rest text : List Char} {lines : List (List Char)}

theorem IsPadding.isBlank (h : IsPadding padding) : ∀ c ∈ padding, isBlank c = true :=
  fun c hc ↦ (h c hc).1

theorem IsPadding.notMem (h : IsPadding padding) : '\n' ∉ padding := fun hc ↦ (h _ hc).2 rfl

theorem isPadding_nil : IsPadding [] := List.forall_mem_nil _

theorem IsPadding.append (hbefore : IsPadding before) (hafter : IsPadding after) :
    IsPadding (before ++ after) :=
  fun c hc ↦ (List.mem_append.mp hc).elim (hbefore c) (hafter c)

theorem IsLineEnd.exists_padding (h : IsLineEnd ending) :
    ∃ padding, IsPadding padding ∧ ending = padding ++ ['\n'] := by
  rcases h with rfl | rfl
  · exact ⟨[], isPadding_nil, rfl⟩
  · exact ⟨['\r'], by simp only [IsPadding, List.forall_mem_singleton]; decide, rfl⟩

theorem contentLines_padded (hbefore : IsPadding before) (hline : '\n' ∉ line)
    (hafter : IsPadding after) :
    contentLines (before ++ line ++ after) = [trim line].filter (!·.isEmpty) := by
  have hnone : '\n' ∉ before ++ line ++ after := by
    simp [hbefore.notMem, hline, hafter.notMem]
  rw [contentLines_of_notMem hnone, trim_append hbefore.isBlank hafter.isBlank]

theorem contentLines_padded_append (hbefore : IsPadding before) (hline : '\n' ∉ line)
    (hafter : IsPadding after) (hending : IsLineEnd ending) :
    contentLines (before ++ line ++ after ++ (ending ++ rest))
      = [trim line].filter (!·.isEmpty) ++ contentLines rest := by
  obtain ⟨padding, hpadding, rfl⟩ := hending.exists_padding
  have hsplit : before ++ line ++ after ++ (padding ++ ['\n'] ++ rest)
      = (before ++ line ++ (after ++ padding)) ++ '\n' :: rest := by
    simp
  rw [hsplit, contentLines_append, contentLines_padded hbefore hline (hafter.append hpadding)]

theorem IsLayout.notMem (h : IsLayout lines text) : ∀ line ∈ lines, '\n' ∉ line := by
  induction h with
  | blankLast => exact List.forall_mem_nil _
  | last _ hline => exact List.forall_mem_singleton.mpr hline
  | blank _ _ _ ih => exact ih
  | line _ hline _ _ _ ih => exact List.forall_mem_cons.mpr ⟨hline, ih⟩

/-- **Layouts of the same lines have the same content.** -/
theorem IsLayout.contentLines_eq (h : IsLayout lines text) :
    contentLines text = (lines.map trim).filter (!·.isEmpty) := by
  induction h with
  | blankLast hpadding =>
    have hblank := contentLines_padded hpadding List.not_mem_nil isPadding_nil
    rwa [List.append_nil, List.append_nil] at hblank
  | last hbefore hline hafter => exact contentLines_padded hbefore hline hafter
  | @blank _ _ rest lines hpadding hending _ ih =>
    have hblank := @contentLines_padded_append _ _ _ _ rest hpadding List.not_mem_nil isPadding_nil
      hending
    rw [List.append_nil, List.append_nil] at hblank
    exact hblank.trans ih
  | line hbefore hline hafter hending _ ih =>
    rw [contentLines_padded_append hbefore hline hafter hending, ih, ← List.filter_append,
      List.map_cons, List.singleton_append]

/-- The parts of a piece without newlines: blanks, the trimmed piece, and blanks. -/
theorem exists_padding_trim (h : '\n' ∉ line) : ∃ before after,
    IsPadding before ∧ IsPadding after ∧ line = before ++ trim line ++ after := by
  obtain ⟨before, after, hbefore, hafter, heq⟩ := exists_eq_append_trim line
  have hparts : '\n' ∉ before ++ trim line ++ after := heq ▸ h
  simp only [List.mem_append, not_or] at hparts
  exact ⟨before, after, fun c hc ↦ ⟨hbefore c hc, fun hnewline ↦ hparts.1.1 (hnewline ▸ hc)⟩,
    fun c hc ↦ ⟨hafter c hc, fun hnewline ↦ hparts.2 (hnewline ▸ hc)⟩, heq⟩

private theorem isPadding_of_trim_eq_nil (hline : '\n' ∉ line) (h : trim line = []) :
    IsPadding line := by
  obtain ⟨before, after, hbefore, hafter, heq⟩ := exists_padding_trim hline
  rw [h, List.append_nil] at heq
  exact heq ▸ hbefore.append hafter

/-- Pieces one below the other are a layout of what is left of them when they are trimmed. -/
theorem isLayout_joinLines (hne : lines ≠ []) (h : ∀ line ∈ lines, '\n' ∉ line) :
    IsLayout ((lines.map trim).filter (!·.isEmpty)) (joinLines lines) := by
  induction lines with
  | nil => exact absurd rfl hne
  | cons piece pieces ih =>
    obtain ⟨hpiece, hpieces⟩ := List.forall_mem_cons.mp h
    obtain ⟨before, after, hbefore, hafter, heq⟩ := exists_padding_trim hpiece
    have hline : '\n' ∉ trim piece := fun hmem ↦ hpiece (mem_of_mem_trim hmem)
    have hnewline : IsLineEnd ['\n'] := Or.inl rfl
    -- A blank piece is none of the lines; in the layout it is a blank line.
    rw [List.map_cons, List.filter_cons]
    cases pieces with
    | nil =>
      have hpieceLayout := IsLayout.last hbefore hline hafter
      rw [← heq] at hpieceLayout
      split
      · exact hpieceLayout
      · rename_i hblank
        have hnil : trim piece = [] := by simpa using hblank
        exact .blankLast (isPadding_of_trim_eq_nil hpiece hnil)
    | cons next more =>
      have hrest := ih (List.cons_ne_nil next more) hpieces
      have hpieceLayout := IsLayout.line hbefore hline hafter hnewline hrest
      rw [← heq] at hpieceLayout
      split
      · exact hpieceLayout
      · rename_i hblank
        have hnil : trim piece = [] := by simpa using hblank
        exact .blank (isPadding_of_trim_eq_nil hpiece hnil) hnewline hrest

/-- **Every text is a layout of its content lines.** -/
theorem isLayout_contentLines (text : List Char) : IsLayout (contentLines text) text := by
  have h := isLayout_joinLines (splitLines_ne_nil text) fun line ↦ notMem_of_mem_splitLines
  rwa [joinLines_splitLines] at h

theorem contentLines_eq_iff_exists_isLayout {first second : List Char} :
    contentLines first = contentLines second ↔
      ∃ lines, IsLayout lines first ∧ IsLayout lines second := by
  constructor
  · intro h
    have hfirst := isLayout_contentLines first
    rw [h] at hfirst
    exact ⟨contentLines second, hfirst, isLayout_contentLines second⟩
  · rintro ⟨lines, hfirst, hsecond⟩
    exact hfirst.contentLines_eq.trans hsecond.contentLines_eq.symm

private theorem IsLayout.padding_append (hpadding : IsPadding padding) (h : IsLayout lines text) :
    IsLayout lines (padding ++ text) := by
  cases h with
  | blankLast hblank => exact .blankLast (hpadding.append hblank)
  | last hbefore hline hafter => simpa using IsLayout.last (hpadding.append hbefore) hline hafter
  | blank hblank hending hrest => simpa using IsLayout.blank (hpadding.append hblank) hending hrest
  | line hbefore hline hafter hending hrest =>
    simpa using IsLayout.line (hpadding.append hbefore) hline hafter hending hrest

theorem contentLines_padding_append (hpadding : IsPadding padding) (text : List Char) :
    contentLines (padding ++ text) = contentLines text := by
  -- The blanks end within a line, so the text cannot be split behind them.
  have h := isLayout_contentLines text
  exact (h.padding_append hpadding).contentLines_eq.trans h.contentLines_eq.symm

end Layout

end MapQuery.Text
