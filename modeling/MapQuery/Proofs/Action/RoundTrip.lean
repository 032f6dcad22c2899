import MapQuery.Proofs.Language.Reading
import MapQuery.Proofs.Language.Recording

/-!
# Written actions compile to themselves

Every part of an action is read back from its written form: a literal from its quotation, its digits
or its word, and a layer from its call, by induction over the tree (`Layer.isRead_piece`). What
cannot be read back are floats that are not finite: they are written as words that name nothing.
Together with the count of levels this decides exactly which actions compile to themselves
(`Action.compileSource_written`); all others are refused.
-/

namespace MapQuery

open MapQuery.Language Text

/-! ## Numbers -/

theorem Numeral.WellFormed.exists_cons_start {n : Numeral} (h : n.WellFormed) :
    ∃ c tail, n.text = c :: tail ∧ startsGap c = false ∧ endsArgument c = false ∧
      isNameStart c = false ∧ isQuote c = false := by
  obtain ⟨c, tail, htext, hc | rfl⟩ := h.exists_cons
  · obtain ⟨hlow, hhigh⟩ := toNat_of_isDigit hc
    refine ⟨c, tail, htext, startsGap_eq_false (by omega) (by omega),
      endsArgument_eq_false (by omega), ?_, ?_⟩
    · refine Bool.eq_false_iff.mpr fun hname ↦ ?_
      have hletter := toNat_of_isNameStart hname
      omega
    · have hplain := isPlain_of_isDigit hc
      simp only [isPlain, Bool.and_eq_true, Bool.not_eq_true'] at hplain
      exact hplain.1.1
  · exact ⟨'-', tail, htext, by decide, by decide, by decide, by decide⟩

theorem Numeral.WellFormed.begins {n : Numeral} (h : n.WellFormed) : Begins n.text := by
  obtain ⟨c, tail, htext, hgap, hends, -⟩ := h.exists_cons_start
  exact ⟨c, tail, htext, hgap, hends⟩

theorem Numeral.WellFormed.readExpression_text {n : Numeral} (h : n.WellFormed) {rest : List Char}
    (hrest : Ends rest) (bound : ℕ) :
    readExpression (bound + 1) (n.text ++ rest) =
      if n.isInteger then
        match n.toInt64? with
        | some value => .read (.literal (.integer value)) rest
        | none => .broken (n.text ++ rest)
      else .read (.literal (.float n.toFloat)) rest := by
  have hstop : Stops Numeral.continues rest := hrest.stops (by decide) (by decide)
  have hscan := Numeral.scan_text h hstop
  obtain ⟨c, tail, htext, hgap, -, hname, hquote⟩ := h.exists_cons_start
  rw [htext, List.cons_append] at hscan ⊢
  rewrite [readExpression_succ hgap, if_neg (Bool.eq_false_iff.mp hname),
    if_neg (Bool.eq_false_iff.mp hquote), readNumber, hscan]
  rfl

private theorem Numeral.WellFormed.keyword?_text {n : Numeral} (h : n.WellFormed)
    (rest : List Char) : keyword? (n.text ++ rest) = none := by
  obtain ⟨c, tail, htext, -, -, hname, -⟩ := h.exists_cons_start
  rw [htext, List.cons_append]
  exact keyword?_of_stops (by rwa [stops_cons])

/-! ## Pieces without a keyword -/

theorem Piece.isRead_of_readExpression {piece : Piece} (hbegins : Begins piece.text)
    (hkeyword : ∀ rest, Ends rest → keyword? (piece.text ++ rest) = none)
    (hread : ∀ bound rest, piece.text.length ≤ bound + 1 → Ends rest →
      (∃ e, readExpression (bound + 1) (piece.text ++ rest) = .read e rest ∧
        e.Settles piece.value piece.isSound) ∨
      (piece.isSound = false ∧
        ∃ place, readExpression (bound + 1) (piece.text ++ rest) = .absent place)) :
    piece.IsRead := by
  refine ⟨hbegins, fun bound rest hbound hrest ↦ ?_⟩
  have hpos := hbegins.length_pos
  obtain ⟨b, rfl⟩ : ∃ b, bound = b + 1 := ⟨bound - 1, by omega⟩
  have hargument : readArgument (readExpression (b + 1)) (piece.text ++ rest)
      = (readExpression (b + 1) (piece.text ++ rest)).map fun value ↦ (none, value) := by
    rw [readArgument, hbegins.skipGap_append, hkeyword rest hrest]
  rw [hargument]
  rcases hread b rest hbound hrest with ⟨e, he, hsettles⟩ | ⟨hunsound, place, hplace⟩
  · exact Or.inl ⟨(none, e), by rw [he]; rfl, rfl, hsettles⟩
  · exact Or.inr ⟨hunsound, place, by rw [hplace]; rfl⟩

theorem Piece.isRead_word {piece : Piece} (h : IsName piece.text)
    (hsettles : ∀ place,
      (bareName (String.ofList piece.text) place).Settles piece.value piece.isSound) :
    piece.IsRead := by
  have hgap : ∀ {rest}, Ends rest → Stops startsGap rest :=
    fun hrest ↦ hrest.stops (by decide) (by decide)
  have hpart : ∀ {rest}, Ends rest → Stops isNamePart rest :=
    fun hrest ↦ hrest.stops (by decide) (by decide)
  refine isRead_of_readExpression ?_ (fun rest hrest ↦ ?_) (fun bound rest _ hrest ↦ Or.inl ?_)
  · obtain ⟨c, tail, htext, hc⟩ := h.exists_cons
    obtain ⟨hlow, -⟩ := toNat_of_isNameStart hc
    exact ⟨c, tail, htext, startsGap_of_isNameStart hc, endsArgument_eq_false (by omega)⟩
  · exact keyword?_word h (hpart hrest) (hgap hrest) (hrest.stops (by decide) (by decide))
  · exact ⟨_, readExpression_word h (hpart hrest) (hgap hrest)
      (hrest.stops (by decide) (by decide)) bound, hsettles _⟩

theorem Piece.isRead_numeral {piece : Piece} {n : Numeral} {value : Literal} (h : n.WellFormed)
    (htext : piece.text = n.text) (hvalue : piece.value = .literal value)
    (hsound : piece.isSound = true)
    (hread : ∀ bound rest, Ends rest →
      readExpression (bound + 1) (n.text ++ rest) = .read (.literal value) rest) :
    piece.IsRead := by
  refine isRead_of_readExpression (htext ▸ h.begins) (fun rest _ ↦ htext ▸ h.keyword?_text rest)
    (fun bound rest _ hrest ↦ Or.inl ⟨.literal value, ?_, ?_⟩)
  · rw [htext]
    exact hread bound rest hrest
  · rw [hvalue, hsound]
    exact Expression.denotes_literal value

/-! ## Literals -/

def Literal.piece (value : Literal) : Piece := ⟨value.written, .literal value, value.isFinite⟩

theorem isRead_text (value : String) : (Literal.text value).piece.IsRead := by
  have hgap : startsGap '\'' = false := by decide
  have htext : ∀ rest, (Literal.text value).piece.text ++ rest
      = '\'' :: (value.toList.flatMap escapedChar ++ '\'' :: rest) := by
    intro rest
    simp [Literal.piece, Literal.written, writtenText]
  refine Piece.isRead_of_readExpression ⟨'\'', _, rfl, hgap, by decide⟩ (fun rest _ ↦ ?_)
    (fun bound rest _ _ ↦ Or.inl ⟨.literal (.text value), ?_, Expression.denotes_literal _⟩)
  · rw [htext]
    exact keyword?_of_stops (by rw [stops_cons]; decide)
  · rw [htext, readExpression_succ hgap, if_neg (by decide), if_pos (by decide), readQuotation,
      scanQuoted_escaped]
    dsimp only
    rw [String.ofList_toList]

/-- A word that is no value makes the piece a piece without a value. -/
theorem isRead_float_of_word {value : Float} {word : String}
    (htext : (Literal.float value).written = word.toList) (hvalue : value.isFinite = false)
    (hword : IsName word.toList) (hbare : ∀ place, bareName word place = .name word place) :
    (Literal.float value).piece.IsRead := by
  refine Piece.isRead_word (by rwa [Literal.piece, htext]) fun place ↦ ?_
  rw [Literal.piece, htext, String.ofList_toList, hbare, Expression.Settles, Literal.isFinite,
    if_neg (Bool.eq_false_iff.mp hvalue)]
  exact Expression.fails_name word place

/-- Behind a minus sign only a digit can be read. -/
theorem isRead_float_of_minus {value : Float}
    (htext : (Literal.float value).written = "-inf".toList) (hvalue : value.isFinite = false) :
    (Literal.float value).piece.IsRead := by
  have hgap : startsGap '-' = false := by decide
  have hpiece : ∀ rest, (Literal.float value).piece.text ++ rest
      = '-' :: 'i' :: 'n' :: 'f' :: rest := by
    intro rest
    rw [Literal.piece, htext]
    rfl
  refine Piece.isRead_of_readExpression ?_ (fun rest _ ↦ ?_)
    (fun bound rest _ _ ↦ Or.inr ⟨hvalue, 'i' :: 'n' :: 'f' :: rest, ?_⟩)
  · rw [Literal.piece, htext]
    exact ⟨'-', _, rfl, hgap, by decide⟩
  · rw [hpiece]
    exact keyword?_of_stops (by rw [stops_cons]; decide)
  · rw [hpiece, readExpression_succ hgap, if_neg (by decide), if_neg (by decide), readNumber]
    rfl

private theorem isRead_float (value : Float) : (Literal.float value).piece.IsRead := by
  cases hvalue : value.isFinite with
  | true =>
    obtain ⟨n, hn, hinteger, htext, hfloat⟩ := Decimal.exists_numeral_of_isFinite hvalue
    refine Piece.isRead_numeral hn htext.symm rfl hvalue fun bound rest hrest ↦ ?_
    rw [hn.readExpression_text hrest, hinteger, if_neg Bool.false_ne_true, hfloat]
  | false =>
    rcases Decimal.written_of_isFinite_eq_false hvalue with h | h | h
    · exact isRead_float_of_word h hvalue (by decide) fun _ ↦ rfl
    · exact isRead_float_of_word h hvalue (by decide) fun _ ↦ rfl
    · exact isRead_float_of_minus h hvalue

theorem Literal.isRead_piece (value : Literal) : value.piece.IsRead := by
  cases value with
  | text value => exact isRead_text value
  | integer value =>
    refine Piece.isRead_numeral (Decimal.integerNumeral_wellFormed value.toInt)
      (Decimal.text_integerNumeral value.toInt).symm rfl rfl fun bound rest hrest ↦ ?_
    rw [(Decimal.integerNumeral_wellFormed value.toInt).readExpression_text hrest,
      Decimal.isInteger_integerNumeral, if_pos rfl, Decimal.toInt64?_integerNumeral]
  | float value => exact isRead_float value
  | boolean value =>
    cases value with
    | true => exact Piece.isRead_word (by decide) fun _ ↦ Expression.denotes_literal _
    | false => exact Piece.isRead_word (by decide) fun _ ↦ Expression.denotes_literal _

/-! ## Layers -/

def Layer.piece (layer : Layer) : Piece := ⟨layer.written, .layer layer, layer.isFinite⟩

/-- A call is no keyword, and begins like an argument. -/
theorem begins_writtenCall {command : String} (h : IsName command.toList)
    (arguments : List (List Char)) : Begins (writtenCall command arguments) := by
  obtain ⟨c, tail, hcommand, hc⟩ := h.exists_cons
  obtain ⟨hlow, -⟩ := toNat_of_isNameStart hc
  rw [writtenCall, hcommand]
  exact ⟨c, _, rfl, startsGap_of_isNameStart hc, endsArgument_eq_false (by omega)⟩

private theorem keyword?_writtenCall {command : String} (h : IsName command.toList)
    (arguments : List (List Char)) (rest : List Char) :
    keyword? (writtenCall command arguments ++ rest) = none := by
  rw [writtenCall, List.append_assoc, List.append_assoc]
  exact keyword?_word h (by rw [List.cons_append, stops_cons]; decide)
    (by rw [List.cons_append, stops_cons]; decide) (by rw [List.cons_append, stops_cons]; decide)

theorem Layer.isRead_of_pieces {layer : Layer} (p : Piece) (pieces : List Piece)
    (h : ∀ q ∈ p :: pieces, q.IsRead)
    (hwritten : layer.written = writtenCall layer.command ((p :: pieces).map (·.text)))
    (hvalues : (p :: pieces).map (·.value) = layer.parts)
    (hsound : Piece.allSound (p :: pieces) = layer.isFinite) : layer.piece.IsRead := by
  have hname := layer.isName_command
  refine Piece.isRead_of_readExpression ?_ (fun rest _ ↦ ?_) (fun bound rest hbound _ ↦ ?_)
  · rw [piece, hwritten]
    exact begins_writtenCall hname _
  · rw [piece, hwritten]
    exact keyword?_writtenCall hname _ rest
  · rw [piece, hwritten] at hbound ⊢
    rcases Piece.readExpression_writtenCall hname h rest hbound with
      ⟨arguments, place, hread, hsettles⟩ | ⟨hunsound, place, hread⟩
    · exact Or.inl ⟨_, hread, hsound ▸ Layer.settles_call hsettles hvalues place⟩
    · exact Or.inr ⟨hsound ▸ hunsound, place, hread⟩

/-- **A layer is read from its written form**, by induction over the tree. -/
theorem Layer.isRead_piece (layer : Layer) : layer.piece.IsRead := by
  induction layer with
  | source id =>
    exact isRead_of_pieces (Literal.text id).piece [] (by simp [isRead_text]) rfl rfl rfl
  | filtered layer field value ih =>
    refine isRead_of_pieces layer.piece [(Literal.text field).piece, value.piece] ?_ rfl rfl ?_
    · simp [ih, isRead_text, value.isRead_piece]
    · simp [Piece.allSound, piece, Literal.piece, Layer.isFinite, Literal.isFinite]
  | buffered layer distance ih =>
    refine isRead_of_pieces layer.piece [(Literal.float distance).piece] ?_ rfl rfl ?_
    · simp [ih, isRead_float]
    · simp [Piece.allSound, piece, Literal.piece, Layer.isFinite, Literal.isFinite]
  | combined overlay a b iha ihb =>
    refine isRead_of_pieces a.piece [b.piece] ?_ rfl rfl ?_
    · simp [iha, ihb]
    · simp [Piece.allSound, piece, Layer.isFinite]

/-! ## Programs -/

section Statement

variable {e : Expression} {lineAt : ℕ → ℕ}

private theorem run_evaluateStatements_singleton {actions : List Action}
    (h : (e.evaluate lineAt).run [] = .ok (.none, actions)) (place : ℕ) :
    (evaluateStatements lineAt [⟨e, place⟩]).run [] = .ok ([], actions) := by
  rw [evaluateStatements, StateT.run_bind, h]
  rfl

private theorem run_evaluateStatements_error {error : CompileError}
    (h : (e.evaluate lineAt).run [] = .error error) (place : ℕ) :
    (evaluateStatements lineAt [⟨e, place⟩]).run [] = .error error := by
  rw [evaluateStatements, StateT.run_bind, h]
  rfl

end Statement

namespace Action

variable (action : Action)

/-- What the readers of statements ask of the front of a written action. -/
theorem exists_written_eq : ∃ c tail, action.written = c :: tail ∧ startsGap c = false ∧
    c ≠ ';' := by
  obtain ⟨c, tail, hcommand, hc⟩ := action.verb.isName_command.exists_cons
  refine ⟨c, _, by rw [written, writtenCall, hcommand]; rfl, startsGap_of_isNameStart hc, ?_⟩
  rintro rfl
  exact absurd hc (by decide)

private theorem trimStart_written : trimStart action.written = action.written := by
  obtain ⟨c, tail, htext, hgap, -⟩ := action.exists_written_eq
  rw [startsGap, Bool.or_eq_false_iff] at hgap
  rw [htext, trimStart, List.dropWhile_cons_of_neg (Bool.eq_false_iff.mp hgap.1)]

private theorem skipSeparators_written : skipSeparators action.written = action.written := by
  obtain ⟨c, tail, htext, hgap, hsemicolon⟩ := action.exists_written_eq
  rw [startsGap, Bool.or_eq_false_iff] at hgap
  rw [htext]
  simp [skipSeparators, skipFiller, hgap, hsemicolon]

private theorem skipReturn_written : skipReturn action.written = action.written := by
  obtain ⟨verb, layer⟩ := action
  rw [skipReturn, if_neg]
  rcases verb with _ | _ | _ <;> simp [written, writtenCall, Verb.command, List.isPrefixOf]

theorem readProgram_written {e : Expression}
    (h : readExpression (action.written.length + 1) action.written = .read e []) :
    readProgram action.written = .ok [⟨e, action.written.length⟩] := by
  have hstatement : readStatement action.written = .read ⟨e, action.written.length⟩ [] := by
    rw [readStatement, skipReturn_written, h]
    rfl
  have hskip := action.skipSeparators_written
  obtain ⟨c, tail, htext, -⟩ := action.exists_written_eq
  rw [htext] at hskip hstatement ⊢
  rw [readProgram, readStatements, hskip]
  dsimp only
  rw [hstatement]
  rfl

private theorem exists_error_readProgram_written {place : List Char}
    (h : readExpression (action.written.length + 1) action.written = .absent place) :
    ∃ fault, readProgram action.written = .error fault := by
  have hstatement : readStatement action.written = .absent place := by
    rw [readStatement, skipReturn_written, h]
    rfl
  have hskip := action.skipSeparators_written
  obtain ⟨c, tail, htext, -⟩ := action.exists_written_eq
  rw [htext] at hskip hstatement ⊢
  refine ⟨(.invalid, place), ?_⟩
  rw [readProgram, readStatements, hskip]
  dsimp only
  rw [hstatement]

/-- The call of an action is read, and has the value of its layer as its argument; only where a
number is not finite, it may be that nothing is read. -/
theorem readExpression_written :
    (∃ arguments place, readExpression (action.written.length + 1) action.written
        = .read (.call action.verb.command arguments place) [] ∧
      List.Forall₂ Piece.Settles [action.layer.piece] arguments) ∨
    (action.layer.isFinite = false ∧ ∃ place,
      readExpression (action.written.length + 1) action.written = .absent place) := by
  have hpieces : ∀ p ∈ [action.layer.piece], p.IsRead := by
    simp [action.layer.isRead_piece]
  have hwritten : writtenCall action.verb.command ([action.layer.piece].map (·.text))
      = action.written := rfl
  have hsound : Piece.allSound [action.layer.piece] = action.layer.isFinite := by
    simp [Piece.allSound, Layer.piece]
  have h := Piece.readExpression_writtenCall action.verb.isName_command hpieces []
    (Nat.le_succ _)
  rwa [hwritten, List.append_nil, hsound] at h

/-- An action within the limit whose numbers are finite is what its written form compiles to. -/
theorem compileSource_written (hnesting : action.layer.height + 1 ≤ maxNesting)
    (hfinite : action.layer.isFinite = true) :
    compileSource action.written = .ok ⟨[action], []⟩ := by
  have hcheck := action.nests_written.checkNesting_eq_ok_iff.mpr hnesting
  rcases action.readExpression_written with ⟨arguments, place, hread, hsettles⟩ | ⟨hinfinite, -⟩
  · obtain ⟨c, hc, happly⟩ := action.verb.exists_constructor
    have hsound : Piece.allSound [action.layer.piece] = true := by
      simp [Piece.allSound, Layer.piece, hfinite]
    have hcall := run_evaluate_call hc hsettles hsound place (Place.line action.written) []
    have hvalue : (c.apply (Place.line action.written place)
        ([action.layer.piece].map fun piece ↦ (none, piece.value))).run []
        = .ok (.none, [action]) := happly (Place.line action.written place) action.layer []
    rw [hvalue] at hcall
    rw [compileSource_of_readProgram hcheck (action.readProgram_written hread),
      run_evaluateStatements_singleton hcall]
    rfl
  · rw [hfinite] at hinfinite
    cases hinfinite

/-- Any other action is written as a text that is refused. -/
theorem exists_error_compileSource_written
    (h : ¬(action.layer.height + 1 ≤ maxNesting ∧ action.layer.isFinite = true)) :
    ∃ error, compileSource action.written = .error error := by
  by_cases hnesting : action.layer.height + 1 ≤ maxNesting
  · have hinfinite : action.layer.isFinite = false :=
      Bool.eq_false_iff.mpr fun hfinite ↦ h ⟨hnesting, hfinite⟩
    have hcheck := action.nests_written.checkNesting_eq_ok_iff.mpr hnesting
    rcases action.readExpression_written with
      ⟨arguments, place, hread, hsettles⟩ | ⟨-, place, hread⟩
    · obtain ⟨c, hc, -⟩ := action.verb.exists_constructor
      have hsound : Piece.allSound [action.layer.piece] = false := by
        simp [Piece.allSound, Layer.piece, hinfinite]
      -- The call is read, but one of its numbers is a name of nothing.
      obtain ⟨error, herror⟩ := fails_call hc hsettles hsound place (Place.line action.written) []
      refine ⟨error, ?_⟩
      rw [compileSource_of_readProgram hcheck (action.readProgram_written hread),
        run_evaluateStatements_error herror]
      rfl
    -- The call is not even read: a minus sign stands in front of a word.
    · obtain ⟨fault, hfault⟩ := action.exists_error_readProgram_written hread
      rw [compileSource, hcheck, hfault]
      exact ⟨_, rfl⟩
  · cases hcheck : checkNesting action.written with
    | ok value => exact absurd (action.nests_written.checkNesting_eq_ok_iff.mp hcheck) hnesting
    | error fault =>
      rw [compileSource, hcheck]
      exact ⟨_, rfl⟩

end Action

theorem Action.tryCompile_toString (action : Action) :
    tryCompile (toString action) = compileSource action.written := by
  have htext : (toString action).toList = action.written := String.toList_ofList
  rw [tryCompile, htext, action.trimStart_written]

/-- **Round trip.** An action whose calls are within the limit on nesting and whose numbers are
finite compiles to itself and nothing else, without a warning; the text of every other action is
refused. -/
theorem Action.tryCompile_toString_roundTrip (action : Action) :
    if action.layer.height + 1 ≤ maxNesting ∧ action.layer.isFinite = true then
      tryCompile (toString action) = .ok ⟨[action], []⟩
    else ∃ error, tryCompile (toString action) = .error error := by
  rw [action.tryCompile_toString]
  split
  · rename_i h
    exact action.compileSource_written h.1 h.2
  · rename_i h
    exact action.exists_error_compileSource_written h

end MapQuery
