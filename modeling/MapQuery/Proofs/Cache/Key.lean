import MapQuery.Cache.ReplyCache
import MapQuery.Prompt
import MapQuery.Proofs.Text.Layout

/-!
# What a key tells of a prompt

A key is made from the text of the prompt without its layout. Prompts that lay out the same lines
have one key, and if two texts without layout agree, both texts lay out the same lines
(`promptKey_layout`). The question stands on lines of its own in the prompt, so the content lines of
the prompt are those of its fixed parts with those of the question in between
(`contentLines_render`). Two questions about one project therefore agree without layout exactly if
their prompts do, whatever the questions look like (`withoutLayout_render_eq_iff`).
-/

namespace MapQuery

open Text

/-! ## Texts -/

private theorem promptKey_eq_of_contentLines_eq {first second : String}
    (h : contentLines first.toList = contentLines second.toList) :
    promptKey first = promptKey second := by
  rw [promptKey, withoutLayout_eq_iff.mpr h, promptKey]

/-- **Before it is digested a text loses its layout and nothing else.** A text in which lines are
laid out has the key of the bare lines. Texts are the same without layout exactly if they lay out
the same lines. To take the layout away a second time changes nothing, neither the text nor its
key. -/
theorem promptKey_layout :
    (∀ lines text, IsLayout lines text →
      promptKey (.ofList text) = promptKey (.ofList (['\n'].intercalate lines))) ∧
    (∀ first second, withoutLayout first = withoutLayout second ↔
      ∃ lines, IsLayout lines first ∧ IsLayout lines second) ∧
    (∀ text, withoutLayout (withoutLayout text) = withoutLayout text) ∧
    ∀ text : String, promptKey (.ofList (withoutLayout text.toList)) = promptKey text := by
  refine ⟨fun lines text h ↦ ?_, fun first second ↦ ?_, fun text ↦ ?_, fun text ↦ ?_⟩
  · refine promptKey_eq_of_contentLines_eq ?_
    rw [String.toList_ofList, String.toList_ofList, h.contentLines_eq, ← joinLines_eq_intercalate,
      contentLines_joinLines h.notMem]
  · exact withoutLayout_eq_iff.trans contentLines_eq_iff_exists_isLayout
  · exact withoutLayout_eq_iff.mpr (contentLines_withoutLayout text)
  · refine promptKey_eq_of_contentLines_eq ?_
    rw [String.toList_ofList, contentLines_withoutLayout]

/-- Two lines with blanks, a tab, a blank line and two kinds of line ends, the last of them
missing. -/
theorem promptKey_layout_indented :
    promptKey " def f():\r\n \r\n\tpass\u3000" = promptKey "def f():\npass" := by
  have hblank : ∀ c, isBlank c = true ∧ c ≠ '\n' → IsPadding [c] := by
    intro c hc
    exact List.forall_mem_singleton.mpr hc
  have hreturn : IsLineEnd ['\r', '\n'] := Or.inr rfl
  have hlast : IsLayout ["pass".toList] "\tpass\u3000".toList :=
    .last (hblank '\t' (by decide)) (by decide) (hblank '\u3000' (by decide))
  have hlayout : IsLayout ["def f():".toList, "pass".toList]
      " def f():\r\n \r\n\tpass\u3000".toList :=
    .line (hblank ' ' (by decide)) (by decide) isPadding_nil hreturn
      (.blank (hblank ' ' (by decide)) hreturn hlast)
  have hkey := promptKey_layout.1 _ _ hlayout
  rw [String.ofList_toList] at hkey
  exact hkey

/-! ## Prompts -/

/-- The question begins on a line of its own, behind an indentation. -/
theorem exists_opening_eq (schema : Schema) : ∃ before indent, IsPadding indent ∧
    (Prompt.opening schema).toList = before ++ '\n' :: indent := by
  have hindent : IsPadding "    ".toList := by
    intro c hc
    obtain rfl : c = ' ' := by simpa using hc
    decide
  have hend : "\n\n    Perform this action:\n    ".toList
      = "\n\n    Perform this action:".toList ++ '\n' :: "    ".toList := by decide
  rw [Prompt.opening, String.toList_append, hend, ← List.append_assoc]
  exact ⟨_, _, hindent, rfl⟩

theorem exists_closing_eq : ∃ after, Prompt.closing.toList = '\n' :: after := ⟨_, rfl⟩

/-- **The content of a prompt** is that of its fixed parts, with that of the question in between. -/
theorem contentLines_render (schema : Schema) (question : String) :
    contentLines (Prompt.render schema question).toList
      = contentLines (Prompt.opening schema).toList ++ contentLines question.toList
        ++ contentLines Prompt.closing.toList := by
  obtain ⟨before, indent, hindent, hopening⟩ := exists_opening_eq schema
  obtain ⟨after, hclosing⟩ := exists_closing_eq
  have hindentation : contentLines indent = [] := by
    rw [← List.append_nil indent, contentLines_padding_append hindent]
    rfl
  have hrender : (Prompt.render schema question).toList
      = before ++ '\n' :: (indent ++ (question.toList ++ '\n' :: after)) := by
    rw [Prompt.render, String.toList_append, String.toList_append, hopening, hclosing]
    simp
  -- The indentation is on the line where the question begins, and goes from there to the opening.
  calc contentLines (Prompt.render schema question).toList
    _ = contentLines before ++ (contentLines question.toList ++ contentLines after) := by
      rw [hrender, contentLines_append, contentLines_padding_append hindent, contentLines_append]
    _ = contentLines before ++ contentLines indent ++ contentLines question.toList
        ++ ([] ++ contentLines after) := by
      rw [hindentation, List.append_nil, List.append_assoc, List.nil_append]
    _ = _ := by
      rw [hopening, hclosing, contentLines_append before]
      exact congrArg _ (contentLines_append [] after).symm

/-- **Prompts are the same without layout exactly if their questions are.** Whatever two questions
look like, their prompts about one project are the same without layout exactly if the trimmed lines
of the questions that are not blank are the same; or in other words, if both questions are layouts
of the same lines. -/
theorem withoutLayout_render_eq_iff (schema : Schema) (first second : String) :
    (withoutLayout (Prompt.render schema first).toList
        = withoutLayout (Prompt.render schema second).toList ↔
      ((first.toList.splitOn '\n').map trim).filter (· ≠ [])
        = ((second.toList.splitOn '\n').map trim).filter (· ≠ [])) ∧
    (withoutLayout (Prompt.render schema first).toList
        = withoutLayout (Prompt.render schema second).toList ↔
      ∃ lines, IsLayout lines first.toList ∧ IsLayout lines second.toList) := by
  have h : withoutLayout (Prompt.render schema first).toList
        = withoutLayout (Prompt.render schema second).toList ↔
      contentLines first.toList = contentLines second.toList := by
    rw [withoutLayout_eq_iff, contentLines_render, contentLines_render, List.append_left_inj,
      List.append_right_inj]
  refine ⟨?_, h.trans contentLines_eq_iff_exists_isLayout⟩
  rwa [contentLines_eq_filter, contentLines_eq_filter] at h

end MapQuery
