import MapQuery.Action.Rendering
import MapQuery.Language.Reader
import MapQuery.Proofs.Decimal.ReadBack
import MapQuery.Proofs.Language.Nesting

/-!
# The written form of an action

What an action looks like to the count of parentheses and to the reader of quotations. The
quotation of a text is scanned as the text, whatever its characters are (`scanQuoted_escaped`), and
the call of an action nests as many levels as its layer is high, and one more
(`Action.nests_written`).
-/

namespace MapQuery

open MapQuery.Language

/-! ## Finite numbers -/

/-- Whether the literal is no float, or a finite one. -/
def Literal.isFinite : Literal → Bool
  | float value => value.isFinite
  | _ => true

/-- Whether all distances and all float values in the tree are finite. -/
def Layer.isFinite : Layer → Bool
  | source _ => true
  | filtered layer _ value => layer.isFinite && value.isFinite
  | buffered layer distance => layer.isFinite && distance.isFinite
  | combined _ a b => a.isFinite && b.isFinite

/-! ## Quotations -/

theorem scanQuoted_cons {quote c : Char} (hback : c ≠ '\\') (hline : c ≠ '\n') (hquote : c ≠ quote)
    {text value rest : List Char} (h : scanQuoted quote text = some (value, rest)) :
    scanQuoted quote (c :: text) = some (c :: value, rest) := by
  rw [scanQuoted]
  · simp [hline, hquote, h]
  · exact fun hc _ ↦ hback hc
  · exact fun _ _ hc _ ↦ hback hc

/-- **A quotation is scanned as the text that was quoted**, whatever its characters are. -/
theorem scanQuoted_escaped (text rest : List Char) :
    scanQuoted '\'' (text.flatMap escapedChar ++ '\'' :: rest) = some (text, rest) := by
  induction text with
  | nil => rfl
  | cons c text ih =>
    rw [List.flatMap_cons, List.append_assoc, escapedChar]
    split
    · simp_all [scanQuoted, unescaped]
    split
    · simp_all [scanQuoted, unescaped]
    split
    · simp_all [scanQuoted, unescaped]
    split
    · simp_all [scanQuoted, unescaped]
    split
    · simp_all [scanQuoted, unescaped]
    · rename_i hback hquote hline _ _
      rw [beq_iff_eq] at hback hquote hline
      exact scanQuoted_cons hback hline hquote ih

theorem nests_writtenText (text : String) : Nests (writtenText text) 0 := by
  obtain ⟨body, hbody, hleaves⟩ := exists_leaves_of_scanQuoted (scanQuoted_escaped text.toList [])
  rw [List.append_nil] at hbody
  rw [writtenText, List.cons_append, hbody]
  exact nests_quotation rfl hleaves

/-! ## Numbers and truth values -/

theorem isPlain_of_isDigit {c : Char} (h : Numeral.isDigit c = true) : isPlain c = true :=
  isPlain_of_kind (by decide) h

private theorem isPlain_of_mem_signText {isNegative : Bool} {c : Char}
    (h : c ∈ Numeral.signText isNegative) : isPlain c = true := by
  cases isNegative
  · cases h
  · rw [List.mem_singleton.mp h]
    decide

theorem nests_text {n : Numeral} (h : n.WellFormed) : Nests n.text 0 := by
  refine nests_of_isPlain fun c hc ↦ ?_
  simp only [Numeral.text, List.mem_append] at hc
  rcases hc with hc | hc | hc | hc
  · exact isPlain_of_mem_signText hc
  · exact isPlain_of_isDigit (h.whole_digits c hc)
  · cases hfraction : n.fraction with
    | none => simp [hfraction, Numeral.fractionText] at hc
    | some digits =>
      rw [hfraction, Numeral.fractionText] at hc
      rcases List.mem_cons.mp hc with rfl | hc
      · decide
      · exact isPlain_of_isDigit ((h.fraction_digits digits hfraction).2 c hc)
  · cases hexponent : n.exponent with
    | none => simp [hexponent, Numeral.exponentText] at hc
    | some e =>
      rw [hexponent, Numeral.exponentText] at hc
      rcases List.mem_cons.mp hc with rfl | hc
      · decide
      rcases List.mem_append.mp hc with hc | hc
      · exact isPlain_of_mem_signText hc
      · exact isPlain_of_isDigit ((h.exponent_digits e hexponent).2 c hc)

private theorem nests_written_float (x : Float) : Nests (Decimal.written .literal x) 0 := by
  cases hx : x.isFinite with
  | true =>
    obtain ⟨n, hn, _, htext, _⟩ := Decimal.exists_numeral_of_isFinite hx
    rw [← htext]
    exact nests_text hn
  | false =>
    rcases Decimal.written_of_isFinite_eq_false hx with h | h | h <;>
      (rw [h]; exact nests_of_isPlain (List.all_eq_true.mp (by decide)))

theorem Literal.nests_written (value : Literal) : Nests value.written 0 := by
  cases value with
  | text value => exact nests_writtenText value
  | integer value =>
    rw [Literal.written, ← Decimal.text_integerNumeral]
    exact nests_text (Decimal.integerNumeral_wellFormed _)
  | float value => exact nests_written_float value
  | boolean value =>
    cases value <;> exact nests_of_isPlain (List.all_eq_true.mp (by decide))

/-! ## Commands -/

namespace Language

/-- Whether the text is a name, which is read from its first to its last character. -/
structure IsName (word : List Char) : Prop where
  /-- It begins with a letter or an underscore. -/
  start : word.head?.any isNameStart = true
  /-- It goes on with such characters and digits. -/
  part : ∀ c ∈ word, isNamePart c = true

instance (word : List Char) : Decidable (IsName word) :=
  decidable_of_iff (word.head?.any isNameStart = true ∧ word.all isNamePart = true)
    ⟨fun h ↦ ⟨h.1, List.all_eq_true.mp h.2⟩, fun h ↦ ⟨h.start, List.all_eq_true.mpr h.part⟩⟩

theorem IsName.isPlain {word : List Char} (h : IsName word) : ∀ c ∈ word, isPlain c = true :=
  fun c hc ↦ isPlain_of_kind (by decide) (h.part c hc)

end Language

theorem Overlay.isName_command (overlay : Overlay) : IsName overlay.command.toList := by
  rcases overlay with _ | _ | _ <;> decide

theorem Verb.isName_command (verb : Verb) : IsName verb.command.toList := by
  rcases verb with _ | _ | _ <;> decide

theorem Layer.isName_command (layer : Layer) : IsName layer.command.toList := by
  rcases layer with _ | _ | _ | overlay
  · rw [command]
    decide
  · rw [command]
    decide
  · rw [command]
    decide
  · exact overlay.isName_command

/-! ## Calls -/

theorem intercalate_cons (argument : List Char) (arguments : List (List Char)) :
    [',', ' '].intercalate (argument :: arguments)
      = argument ++ arguments.flatMap fun a ↦ ',' :: ' ' :: a := by
  induction arguments generalizing argument with
  | nil => simp [List.intercalate]
  | cons a arguments ih =>
    rw [List.intercalate_cons_cons, ih, List.flatMap_cons]
    simp

private theorem nests_flatMap {pieces : List (List Char × ℕ)} (h : ∀ p ∈ pieces, Nests p.1 p.2) :
    Nests (pieces.flatMap fun p ↦ ',' :: ' ' :: p.1) ((pieces.map Prod.snd).foldr max 0) := by
  induction pieces with
  | nil => exact nests_nil
  | cons p pieces ih =>
    have hcomma : Nests [',', ' '] 0 := nests_of_isPlain (List.all_eq_true.mp (by decide))
    have hp := hcomma.append (h p List.mem_cons_self)
    rw [Nat.zero_max] at hp
    exact hp.append (ih fun q hq ↦ h q (List.mem_cons_of_mem p hq))

/-- A call nests one level more than its arguments. -/
theorem nests_writtenCall {command : String} (hcommand : ∀ c ∈ command.toList, isPlain c = true)
    (pieces : List (List Char × ℕ)) (h : ∀ p ∈ pieces, Nests p.1 p.2) :
    Nests (writtenCall command (pieces.map Prod.fst)) ((pieces.map Prod.snd).foldr max 0 + 1) := by
  have harguments : Nests ([',', ' '].intercalate (pieces.map Prod.fst))
      ((pieces.map Prod.snd).foldr max 0) := by
    cases pieces with
    | nil => exact nests_nil
    | cons p pieces =>
      rw [List.map_cons, intercalate_cons, List.flatMap_map]
      exact (h p List.mem_cons_self).append
        (nests_flatMap fun q hq ↦ h q (List.mem_cons_of_mem p hq))
  have hcall := (nests_of_isPlain hcommand).append harguments.parenthesized
  rw [Nat.zero_max] at hcall
  rw [writtenCall, List.append_assoc]
  exact hcall

/-- **A layer nests as many levels as it is high.** -/
theorem Layer.nests_written (layer : Layer) : Nests layer.written layer.height := by
  induction layer with
  | source id =>
    exact nests_writtenCall (source id).isName_command.isPlain [(writtenText id, 0)]
      (by simp [nests_writtenText])
  | filtered layer field value ih =>
    have h := nests_writtenCall (filtered layer field value).isName_command.isPlain
      [(layer.written, layer.height), (writtenText field, 0), (value.written, 0)]
      (by simp [ih, nests_writtenText, value.nests_written])
    simpa [Layer.written, height] using h
  | buffered layer distance ih =>
    have h := nests_writtenCall (buffered layer distance).isName_command.isPlain
      [(layer.written, layer.height), ((Literal.float distance).written, 0)]
      (by simp [ih, Literal.nests_written])
    simpa [Layer.written, height] using h
  | combined overlay a b iha ihb =>
    have h := nests_writtenCall overlay.isName_command.isPlain
      [(a.written, a.height), (b.written, b.height)] (by simp [iha, ihb])
    simpa [Layer.written, height] using h

theorem Action.nests_written (action : Action) :
    Nests action.written (action.layer.height + 1) := by
  have h := nests_writtenCall action.verb.isName_command.isPlain
    [(action.layer.written, action.layer.height)] (by simp [Layer.nests_written])
  simpa [Action.written] using h

end MapQuery
