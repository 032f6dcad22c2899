import MapQuery.Proofs.Action.WrittenForm
import MapQuery.Proofs.Language.Evaluation

/-!
# Reading written calls

The readers of expressions and of argument lists are followed through the written form of a call,
whatever stands behind it. Every piece of a call is read as an expression with the value of the
piece (`Piece.IsRead`); a piece without a value is read as an expression without one, or is not read
at all, and then neither is the call around it (`isRead_writtenCall`).

A bound on the readers is enough as soon as it is the length of the text that they are to read.
-/

namespace MapQuery.Language

open Text

/-! ## Gaps -/

/-- Whether a gap may begin with the character. -/
def startsGap (c : Char) : Bool := isBlank c || c == '#'

theorem skipGap_of_stops {text : List Char} (h : Stops startsGap text) : skipGap text = text := by
  cases text with
  | nil => rfl
  | cons c rest =>
    simp only [stops_cons, startsGap, Bool.or_eq_false_iff] at h
    simp [skipGap, skipFiller, h.1, h.2]

theorem skipGap_blank (text : List Char) : skipGap (' ' :: text) = skipGap text := by
  rw [skipGap, skipFiller, if_neg Bool.false_ne_true, if_pos (by decide)]
  rfl

/-- Whether the character ends an argument. -/
def endsArgument (c : Char) : Bool := c == ',' || c == ')'

/-- Whether an argument ends in front of the text: at a comma, a closing parenthesis or the end of
the whole text. -/
def Ends (rest : List Char) : Prop := Stops (fun c ↦ !endsArgument c) rest

theorem Ends.stops {rest : List Char} (h : Ends rest) {kind : Char → Bool}
    (hcomma : kind ',' = false) (hclose : kind ')' = false) : Stops kind rest := by
  intro c hc
  have hends := h c hc
  simp only [endsArgument, Bool.not_eq_false', Bool.or_eq_true, beq_iff_eq] at hends
  rcases hends with rfl | rfl
  · exact hcomma
  · exact hclose

private theorem ends_comma (rest : List Char) : Ends (',' :: rest) := by
  simp [Ends, endsArgument]

private theorem ends_close (rest : List Char) : Ends (')' :: rest) := by
  simp [Ends, endsArgument]

/-! ## Words -/

private theorem stops_isNamePart_cons {c : Char} (h : isNamePart c = false) (rest : List Char) :
    Stops isNamePart (c :: rest) := by
  rwa [stops_cons]

theorem scanName_append {word rest : List Char} (h : IsName word) (hrest : Stops isNamePart rest) :
    scanName (word ++ rest) = (String.ofList word, rest) := by
  rw [scanName, takeWhile_append h.part hrest, dropWhile_append h.part hrest]

theorem IsName.exists_cons {word : List Char} (h : IsName word) :
    ∃ c tail, word = c :: tail ∧ isNameStart c = true := by
  cases word with
  | nil => exact absurd h.start (by decide)
  | cons c tail => exact ⟨c, tail, rfl, h.start⟩

theorem keyword?_word {word rest : List Char} (h : IsName word) (hrest : Stops isNamePart rest)
    (hgap : Stops startsGap rest) (hequals : Stops (· == '=') rest) :
    keyword? (word ++ rest) = none := by
  obtain ⟨c, tail, rfl, hc⟩ := h.exists_cons
  rw [List.cons_append, keyword?, ← List.cons_append, scanName_append h hrest]
  simp only [hc, if_true, skipGap_of_stops hgap]
  split
  · rfl
  · simp at hequals
  · rfl

theorem keyword?_of_stops {text : List Char} (h : Stops isNameStart text) :
    keyword? text = none := by
  cases text with
  | nil => rfl
  | cons c rest =>
    rw [stops_cons] at h
    rw [keyword?]
    simp [h]

/-! ## First characters -/

/-- The visible characters of ASCII behind the number sign are not blank. -/
theorem startsGap_eq_false {c : Char} (hlow : 0x23 < c.toNat) (hhigh : c.toNat < 0x7F) :
    startsGap c = false := by
  have hne : c ≠ '#' := by
    rintro rfl
    exact absurd hlow (by decide)
  simp [startsGap, hne, isBlank, blankRanges, Ranges.contains]
  omega

theorem toNat_of_isNameStart {c : Char} (h : isNameStart c = true) :
    65 ≤ c.toNat ∧ c.toNat ≤ 122 := by
  simp only [isNameStart, Char.isAlpha, Char.isUpper, Char.isLower, Bool.or_eq_true,
    Bool.and_eq_true, decide_eq_true_eq, beq_iff_eq, UInt32.le_iff_toNat_le, ge_iff_le] at h
  change ((65 ≤ c.toNat ∧ c.toNat ≤ 90) ∨ 97 ≤ c.toNat ∧ c.toNat ≤ 122) ∨ c = '_' at h
  rcases h with (h | h) | rfl
  · omega
  · omega
  · decide

theorem toNat_of_isDigit {c : Char} (h : Numeral.isDigit c = true) :
    48 ≤ c.toNat ∧ c.toNat ≤ 57 := by
  simp only [Numeral.isDigit, Bool.and_eq_true, decide_eq_true_eq, Char.le_def,
    UInt32.le_iff_toNat_le] at h
  exact h

theorem startsGap_of_isNameStart {c : Char} (h : isNameStart c = true) : startsGap c = false := by
  obtain ⟨hlow, hhigh⟩ := toNat_of_isNameStart h
  exact startsGap_eq_false (by omega) (by omega)

theorem endsArgument_eq_false {c : Char} (h : 0x2C < c.toNat) : endsArgument c = false := by
  have hcomma : c ≠ ',' := by
    rintro rfl
    exact absurd h (by decide)
  have hclose : c ≠ ')' := by
    rintro rfl
    exact absurd h (by decide)
  simp [endsArgument, hcomma, hclose]

/-! ## Expressions -/

theorem readExpression_succ {c : Char} {tail : List Char} (h : startsGap c = false) (bound : ℕ) :
    readExpression (bound + 1) (c :: tail) =
      if isNameStart c then
        match skipGap (scanName (c :: tail)).2 with
        | '(' :: inside =>
          match readArguments bound inside with
          | .absent _ => .absent (c :: tail)
          | .broken place => .broken place
          | .read arguments rest =>
            match closeCall? rest with
            | some rest =>
              .read (.call (scanName (c :: tail)).1 arguments (c :: tail).length) rest
            | none => .absent (c :: tail)
        | _ => .read (bareName (scanName (c :: tail)).1 (c :: tail).length) (scanName (c :: tail)).2
      else if isQuote c then readQuotation (c :: tail)
      else readNumber (c :: tail) := by
  have hskip : skipGap (c :: tail) = c :: tail := skipGap_of_stops (by rwa [stops_cons])
  rewrite [readExpression, hskip]
  rfl

theorem readExpression_word {word rest : List Char} (h : IsName word)
    (hrest : Stops isNamePart rest) (hgap : Stops startsGap rest) (hopen : Stops (· == '(') rest)
    (bound : ℕ) :
    readExpression (bound + 1) (word ++ rest)
      = .read (bareName (String.ofList word) (word ++ rest).length) rest := by
  obtain ⟨c, tail, rfl, hc⟩ := h.exists_cons
  rw [List.cons_append, readExpression_succ (startsGap_of_isNameStart hc), if_pos hc,
    ← List.cons_append, scanName_append h hrest, skipGap_of_stops hgap]
  split
  · simp at hopen
  · rfl

theorem readExpression_call {word : List Char} (h : IsName word) (bound : ℕ) (inside : List Char) :
    readExpression (bound + 1) (word ++ '(' :: inside) =
      match readArguments bound inside with
      | .absent _ => .absent (word ++ '(' :: inside)
      | .broken place => .broken place
      | .read arguments rest =>
        match closeCall? rest with
        | some rest =>
          .read (.call (String.ofList word) arguments (word ++ '(' :: inside).length) rest
        | none => .absent (word ++ '(' :: inside) := by
  obtain ⟨c, tail, rfl, hc⟩ := h.exists_cons
  have hstop : Stops isNamePart ('(' :: inside) := stops_isNamePart_cons (by decide) _
  have hgap : Stops startsGap ('(' :: inside) := by
    rw [stops_cons]
    decide
  rw [List.cons_append, readExpression_succ (startsGap_of_isNameStart hc), if_pos hc,
    ← List.cons_append, scanName_append h hstop, skipGap_of_stops hgap]
  rfl

/-! ## Arguments -/

private theorem readArgument_blank (bound : ℕ) (text : List Char) :
    readArgument (readExpression (bound + 1)) (' ' :: text)
      = readArgument (readExpression (bound + 1)) text := by
  have hvalue : readExpression (bound + 1) (' ' :: text) = readExpression (bound + 1) text := by
    rw [readExpression, readExpression, skipGap_blank]
  rw [readArgument, readArgument, skipGap_blank, hvalue]

/-- A text that begins neither with a gap nor with the end of an argument. -/
def Begins (text : List Char) : Prop :=
  ∃ c tail, text = c :: tail ∧ startsGap c = false ∧ endsArgument c = false

theorem Begins.skipGap_append {text : List Char} (h : Begins text) (rest : List Char) :
    skipGap (text ++ rest) = text ++ rest := by
  obtain ⟨c, tail, rfl, hc, -⟩ := h
  exact skipGap_of_stops (by rwa [List.cons_append, stops_cons])

theorem Begins.length_pos {text : List Char} (h : Begins text) : 0 < text.length := by
  obtain ⟨c, tail, rfl, -⟩ := h
  exact Nat.succ_pos _

theorem Begins.ne_cons {text : List Char} (h : Begins text) {c : Char} (hc : endsArgument c = true)
    (rest tail : List Char) : text ++ rest ≠ c :: tail := by
  rintro heq
  obtain ⟨d, text, rfl, -, hd⟩ := h
  rw [(List.cons.inj heq).1, hc] at hd
  cases hd

theorem Begins.closeCall?_eq_none {text : List Char} (h : Begins text) (rest : List Char) :
    closeCall? (text ++ rest) = none := by
  rw [closeCall?, h.skipGap_append]
  split
  · rename_i heq
    exact absurd heq (h.ne_cons (by decide) rest _)
  · rename_i heq
    exact absurd heq (h.ne_cons (by decide) rest _)
  · rfl

theorem Begins.closeCall?_comma {text : List Char} (h : Begins text) (rest : List Char) :
    closeCall? (',' :: ' ' :: (text ++ rest)) = none := by
  rw [closeCall?, skipGap_of_stops (by rw [stops_cons]; decide)]
  simp only [skipGap_blank, h.skipGap_append]
  split
  · rename_i heq
    exact absurd heq (h.ne_cons (by decide) rest _)
  · rfl

end MapQuery.Language

namespace MapQuery

open MapQuery.Language

/-- The piece is read as an argument with its value, wherever an argument may end. Without a value
it may be that it is not read at all. -/
structure Piece.IsRead (piece : Piece) : Prop where
  /-- The text begins like an argument. -/
  begins : Begins piece.text
  /-- The outcome of reading it. -/
  read : ∀ bound rest, piece.text.length ≤ bound → Ends rest →
    (∃ argument, readArgument (readExpression bound) (piece.text ++ rest) = .read argument rest ∧
      piece.Settles argument) ∨
    (piece.isSound = false ∧
      ∃ place, readArgument (readExpression bound) (piece.text ++ rest) = .absent place)

/-- The pieces after the first one, as they are written. -/
def Piece.more (pieces : List Piece) : List Char := pieces.flatMap fun p ↦ ',' :: ' ' :: p.text

private theorem Piece.more_cons (p : Piece) (pieces : List Piece) :
    more (p :: pieces) = ',' :: ' ' :: (p.text ++ more pieces) := rfl

theorem Piece.writtenCall_append (command : String) (p : Piece) (pieces : List Piece)
    (rest : List Char) : writtenCall command ((p :: pieces).map (·.text)) ++ rest
      = command.toList ++ '(' :: (p.text ++ (more pieces ++ ')' :: rest)) := by
  rw [writtenCall, List.map_cons, intercalate_cons, List.flatMap_map, more]
  simp

private theorem Piece.length_writtenCall (command : String) (p : Piece) (pieces : List Piece) :
    (writtenCall command ((p :: pieces).map (·.text))).length
      = command.toList.length + p.text.length + (more pieces).length + 2 := by
  have hlength := congrArg List.length (writtenCall_append command p pieces [])
  rw [List.append_nil] at hlength
  rw [hlength]
  simp only [List.length_append, List.length_cons, List.length_nil]
  omega

private theorem Piece.allSound_of_head {p : Piece} (h : p.isSound = false) (pieces : List Piece) :
    allSound (p :: pieces) = false := by
  rw [allSound, List.all_cons, h, Bool.false_and]

private theorem Piece.allSound_of_tail {pieces : List Piece} (h : allSound pieces = false)
    (p : Piece) : allSound (p :: pieces) = false := by
  rw [allSound, List.all_cons, ← allSound, h, Bool.and_false]

private theorem Piece.ends_more (pieces : List Piece) (rest : List Char) :
    Ends (more pieces ++ ')' :: rest) := by
  cases pieces with
  | nil => exact ends_close rest
  | cons p pieces => exact ends_comma _

theorem Piece.readMoreArguments_more {pieces : List Piece} (h : ∀ p ∈ pieces, p.IsRead)
    (rest : List Char) {bound : ℕ} (hbound : (more pieces).length ≤ bound) :
    (∃ arguments, readMoreArguments bound (more pieces ++ ')' :: rest)
        = .read arguments (')' :: rest) ∧ List.Forall₂ Piece.Settles pieces arguments) ∨
    (Piece.allSound pieces = false ∧ ∃ arguments place,
      readMoreArguments bound (more pieces ++ ')' :: rest) = .read arguments place ∧
      closeCall? place = none) := by
  induction pieces generalizing bound with
  | nil =>
    refine Or.inl ⟨[], ?_, List.Forall₂.nil⟩
    cases bound with
    | zero => rfl
    | succ bound =>
      have hgap : skipGap (')' :: rest) = ')' :: rest :=
        skipGap_of_stops (by rw [Text.stops_cons]; decide)
      rw [more, List.flatMap_nil, List.nil_append, readMoreArguments, hgap]
      rfl
  | cons p pieces ih =>
    have hp := h p List.mem_cons_self
    rw [more_cons, List.length_cons, List.length_cons, List.length_append] at hbound
    obtain ⟨b, rfl⟩ : ∃ b, bound = b + 1 + 1 := ⟨bound - 2, by omega⟩
    have htext : more (p :: pieces) ++ ')' :: rest
        = ',' :: ' ' :: (p.text ++ (more pieces ++ ')' :: rest)) := by
      rw [more_cons, List.cons_append, List.cons_append, List.append_assoc]
    have hgap : skipGap (',' :: ' ' :: (p.text ++ (more pieces ++ ')' :: rest)))
        = ',' :: ' ' :: (p.text ++ (more pieces ++ ')' :: rest)) :=
      skipGap_of_stops (by rw [Text.stops_cons]; decide)
    rw [htext, readMoreArguments, hgap]
    simp only [readArgument_blank]
    rcases hp.read (b + 1) (more pieces ++ ')' :: rest) (by omega) (ends_more pieces rest) with
      ⟨argument, hread, hsettles⟩ | ⟨hunsound, place, hread⟩
    · have hlength : (more pieces).length ≤ b + 1 := by omega
      rw [hread]
      dsimp only
      rcases ih (fun q hq ↦ h q (List.mem_cons_of_mem p hq)) hlength with
        ⟨arguments, hmore, hall⟩ | ⟨hunsound, arguments, place, hmore, hclose⟩
      · exact Or.inl ⟨argument :: arguments, by rw [hmore]; rfl, hall.cons hsettles⟩
      · exact Or.inr ⟨allSound_of_tail hunsound p, argument :: arguments, place,
          by rw [hmore]; rfl, hclose⟩
    · rw [hread]
      exact Or.inr ⟨allSound_of_head hunsound pieces, [], _, rfl, hp.begins.closeCall?_comma _⟩

/-- **A written call is read as a call** of its command whose arguments have the values of the
pieces. If some piece has no value, the call may also not be read at all. -/
theorem Piece.readExpression_writtenCall {command : String} (hcommand : IsName command.toList)
    {p : Piece} {pieces : List Piece} (h : ∀ q ∈ p :: pieces, q.IsRead) (rest : List Char)
    {bound : ℕ} (hbound : (writtenCall command ((p :: pieces).map (·.text))).length ≤ bound) :
    (∃ arguments place,
      readExpression bound (writtenCall command ((p :: pieces).map (·.text)) ++ rest)
        = .read (.call command arguments place) rest ∧
      List.Forall₂ Piece.Settles (p :: pieces) arguments) ∨
    (Piece.allSound (p :: pieces) = false ∧ ∃ place,
      readExpression bound (writtenCall command ((p :: pieces).map (·.text)) ++ rest)
        = .absent place) := by
  have hp := h p List.mem_cons_self
  rw [length_writtenCall] at hbound
  obtain ⟨b, rfl⟩ : ∃ b, bound = b + 1 + 1 := ⟨bound - 2, by omega⟩
  have hlength : (more pieces).length ≤ b := by omega
  rw [writtenCall_append, readExpression_call hcommand, readArguments]
  generalize command.toList ++ '(' :: (p.text ++ (more pieces ++ ')' :: rest)) = whole
  rcases hp.read b (more pieces ++ ')' :: rest) (by omega) (ends_more pieces rest) with
    ⟨argument, hread, hsettles⟩ | ⟨hunsound, place, hread⟩
  · rw [hread]
    dsimp only
    rcases readMoreArguments_more (fun q hq ↦ h q (List.mem_cons_of_mem p hq)) rest hlength with
      ⟨arguments, hmore, hall⟩ | ⟨hunsound, arguments, place, hmore, hclose⟩
    · refine Or.inl ⟨argument :: arguments, whole.length, ?_, hall.cons hsettles⟩
      rw [hmore, String.ofList_toList]
      rfl
    · refine Or.inr ⟨allSound_of_tail hunsound p, whole, ?_⟩
      rw [hmore]
      simp only [Outcome.map, hclose]
  · rw [hread]
    refine Or.inr ⟨allSound_of_head hunsound pieces, whole, ?_⟩
    simp only [hp.begins.closeCall?_eq_none]

end MapQuery
