import MapQuery.Json.Text
import MapQuery.Proofs.Decimal.ReadBack
import MapQuery.Proofs.Json.Depth
import Mathlib.Data.List.Forall2

/-!
# JSON texts are read back

The text of a JSON value is read as the value, unless it is nested too deep
(`JsonText.read?_write`), and what is read is never nested too deep
(`JsonText.depth_lt_of_read?`).

What is written for a value is read at the front of any text, as long as a number does not go on
behind it. So an array is read item by item (`Reads`), and the depth of the value bounds how far the
reader goes into it.
-/

namespace MapQuery

open Text

/-! ## Numbers -/

theorem Numeral.isJson_iff {n : Numeral} : n.isJson = true ↔ n.WellFormed := by
  simp only [isJson, Bool.and_eq_true, Bool.or_eq_true, Bool.not_eq_true', List.all_eq_true,
    List.isEmpty_eq_false_iff, bne_iff_ne, beq_iff_eq, Option.all_eq_true]
  constructor
  · rintro ⟨⟨⟨⟨hne, hwhole⟩, hzero⟩, hfraction⟩, hexponent⟩
    exact ⟨hne, hwhole, hfraction, hexponent, fun h ↦ hzero.resolve_left (not_not.mpr h)⟩
  · intro h
    exact ⟨⟨⟨⟨h.whole_ne_nil, h.whole_digits⟩, (em _).symm.imp id h.zero_first⟩,
      h.fraction_digits⟩, h.exponent_digits⟩

namespace JsonNumber

theorem wellFormed (number : JsonNumber) : number.numeral.WellFormed :=
  Numeral.isJson_iff.mp number.isJson

theorem scan?_text (number : JsonNumber) {rest : List Char} (hrest : Stops Numeral.continues rest) :
    scan? (number.numeral.text ++ rest) = some (number, rest) := by
  have hscan := Numeral.scan_text number.wellFormed hrest
  obtain ⟨c, tail, htext, hc⟩ := number.wellFormed.exists_cons
  rw [htext, List.cons_append] at hscan ⊢
  have hplus : c ≠ '+' := by
    rintro rfl
    rcases hc with hc | hc <;> exact absurd hc (by decide)
  unfold scan?
  split
  · rename_i heq
    exact absurd (List.cons.inj heq).1 hplus
  · rw [hscan]
    exact dif_pos number.isJson

private theorem ofText_text {n : Numeral} (h : n.WellFormed) :
    ofText n.text = ⟨n, Numeral.isJson_iff.mpr h⟩ := by
  have hscan := scan?_text ⟨n, Numeral.isJson_iff.mpr h⟩ (stops_nil _)
  rw [List.append_nil] at hscan
  rw [ofText, hscan]

private theorem numeral_ofInt (z : ℤ) : (ofInt z).numeral = Decimal.integerNumeral z := by
  rw [ofInt, ← Decimal.text_integerNumeral, ofText_text (Decimal.integerNumeral_wellFormed z)]

private theorem numeral_ofFloat {x : Float} (hx : x.isFinite = true) :
    (ofFloat x).numeral.isInteger = false ∧ (ofFloat x).numeral.toFloat = x := by
  obtain ⟨n, hn, hinteger, htext, hfloat⟩ := Decimal.exists_numeral_of_isFinite hx
  rw [ofFloat, ← htext, ofText_text hn]
  exact ⟨hinteger, hfloat⟩

theorem toInt?_ofInt {n : ℤ} (hlow : Int64.minValue.toInt ≤ n) (hhigh : n < UInt64.size) :
    (ofInt n).toInt? = some n := by
  have hzero : ((Decimal.integerNumeral n).isNegative && n == 0) = false := by
    by_cases h : n = 0
    · rw [h]
      decide
    · rw [beq_eq_false_iff_ne.mpr h, Bool.and_false]
  simp only [toInt?, numeral_ofInt, Decimal.toInt_integerNumeral, Decimal.isInteger_integerNumeral,
    hzero]
  refine if_pos ?_
  simp only [Bool.not_false, Bool.and_self, Bool.true_and, Bool.and_eq_true, decide_eq_true_eq]
  exact ⟨hlow, hhigh⟩

theorem toInt?_ofFloat {x : Float} (hx : x.isFinite = true) : (ofFloat x).toInt? = none := by
  simp [toInt?, (numeral_ofFloat hx).1]

theorem toFloat?_ofFloat {x : Float} (hx : x.isFinite = true) : (ofFloat x).toFloat? = some x := by
  rw [toFloat?, (numeral_ofFloat hx).2, if_pos hx]

end JsonNumber

namespace JsonText

/-! ## Texts in quotes -/

theorem codeUnit?_of_isControl {c : Char} (h : isControl c = true) :
    codeUnit? '0' '0' (Nat.digitChar (c.toNat / 16)) (Nat.digitChar (c.toNat % 16)) =
      some c.toNat := by
  have hall : ∀ n < 32, codeUnit? '0' '0' (Nat.digitChar (n / 16)) (Nat.digitChar (n % 16)) =
      some n := by
    decide
  exact hall c.toNat (of_decide_eq_true h)

theorem unescaped?_of_mem {c letter : Char} (h : (c, letter) ∈ escapeLetters) :
    unescaped? letter = some c ∧ letter ≠ 'u' := by
  simp only [escapeLetters, List.mem_cons, Prod.mk.injEq, List.not_mem_nil, or_false] at h
  rcases h with ⟨rfl, rfl⟩ | ⟨rfl, rfl⟩ | ⟨rfl, rfl⟩ | ⟨rfl, rfl⟩ | ⟨rfl, rfl⟩ | ⟨rfl, rfl⟩ |
    ⟨rfl, rfl⟩ <;> decide

theorem scanText_escaped (c : Char) (rest : List Char) :
    scanText (escaped c ++ rest) = (scanText rest).map fun (text, rest) ↦ (c :: text, rest) := by
  rw [escaped]
  split
  case h_1 letter hletter =>
    obtain ⟨before, behind, hmem, -⟩ := List.lookup_eq_some_iff.mp hletter
    obtain ⟨hc, hu⟩ := unescaped?_of_mem (hmem ▸ List.mem_append_right _ List.mem_cons_self)
    rw [List.cons_append, List.cons_append, List.nil_append, scanText, hc]
    · cases scanText rest <;> rfl
    · exact fun _ _ _ _ _ h _ ↦ hu h
  case h_2 hnone =>
    split
    case isTrue hcontrol =>
      have hcode := codeUnit?_of_isControl hcontrol
      have hlow : c.toNat < 0xD800 := (of_decide_eq_true hcontrol).trans (by decide)
      simp only [List.cons_append, List.nil_append]
      rw [scanText, hcode]
      simp only [Option.bind_eq_bind, Option.bind_some, decide_eq_true hlow, Bool.true_or, if_true,
        Char.ofNat_toNat]
      cases scanText rest <;> rfl
    case isFalse hcontrol =>
      -- The quote and the backslash have letters, so this is neither of them.
      rw [List.singleton_append, scanText, if_neg hcontrol]
      · cases scanText rest <;> rfl
      · rintro rfl
        exact absurd hnone (by decide)
      · rintro _ _ _ _ _ rfl
        exact absurd hnone (by decide)
      · rintro _ _ rfl
        exact absurd hnone (by decide)

private theorem scanText_flatMap_escaped (text rest : List Char) :
    scanText (text.flatMap escaped ++ '"' :: rest) = some (text, rest) := by
  induction text with
  | nil => rw [List.flatMap_nil, List.nil_append, scanText]
  | cons c text ih =>
    rw [List.flatMap_cons, List.append_assoc, scanText_escaped, ih]
    rfl

/-! ## Items and lists of them -/

/-- The text begins with a character that is no blank and closes nothing. -/
def Begins (text : List Char) : Prop :=
  ∃ c tail, text = c :: tail ∧ isBlank c = false ∧ c ≠ ']' ∧ c ≠ '\x7d'

/-- The text stands for the item, whatever follows, unless that goes on with a number. -/
structure Reads {α : Type} (scan : List Char → Option (α × List Char)) (text : List Char)
    (item : α) : Prop where
  begins : Begins text
  scan_append {rest : List Char} : Stops Numeral.continues rest →
    scan (text ++ rest) = some (item, rest)

theorem skipBlanks_cons {c : Char} (h : isBlank c = false) (tail : List Char) :
    skipBlanks (c :: tail) = c :: tail :=
  List.dropWhile_cons_of_neg (Bool.eq_false_iff.mp h)

private theorem Begins.skipBlanks_append {text : List Char} (h : Begins text) (rest : List Char) :
    skipBlanks (text ++ rest) = text ++ rest := by
  obtain ⟨c, tail, rfl, hblank, -⟩ := h
  exact skipBlanks_cons hblank _

section Lists

variable {α : Type} {scan : List Char → Option (α × List Char)} {close : Char}

private theorem scanItems_separated (hclose : close = ']' ∨ close = '\x7d')
    {texts : List (List Char)} {items : List α} (h : List.Forall₂ (Reads scan) texts items)
    (hne : texts ≠ []) {count : ℕ} (hcount : texts.length ≤ count) (rest : List Char) :
    scanItems scan close count (separated texts ++ close :: rest) = some (items, rest) := by
  have hblank : isBlank close = false := by rcases hclose with rfl | rfl <;> decide
  have hstop : Stops Numeral.continues (close :: rest) := by
    rcases hclose with rfl | rfl <;> exact (stops_cons _ _ _).mpr (by decide)
  have hcomma : close ≠ ',' := by rcases hclose with rfl | rfl <;> decide
  induction h generalizing count with
  | nil => exact absurd rfl hne
  | @cons text item texts items hitem hitems ih =>
    obtain ⟨count, rfl⟩ := Nat.exists_eq_add_of_le' (Nat.le_of_add_left_le hcount)
    cases hitems with
    | nil =>
      rw [separated, scanItems, hitem.scan_append hstop]
      simp only [Option.bind_eq_bind, Option.bind_some, skipBlanks_cons hblank, if_neg hcomma,
        if_true]
    | @cons next _ nexts _ hnext hnexts =>
      have hrest := ih (List.cons_ne_nil _ _) (Nat.le_of_succ_le_succ hcount)
      rw [separated, List.append_assoc, List.cons_append, scanItems,
        hitem.scan_append ((stops_cons _ _ _).mpr (by decide))]
      · simp only [Option.bind_eq_bind, Option.bind_some,
          skipBlanks_cons (show isBlank ',' = false by decide), if_true, hrest]
        rfl
      · exact List.cons_ne_nil _ _

/-- There are no more items than characters, since each but the last has a comma. -/
theorem length_le_length_separated (texts : List (List Char)) :
    texts.length ≤ (separated texts).length + 1 := by
  induction texts with
  | nil => exact Nat.zero_le _
  | cons text texts ih =>
    cases texts with
    | nil => exact Nat.le_add_left _ _
    | cons next rest =>
      have hsplit : separated (text :: next :: rest) =
          text ++ ',' :: separated (next :: rest) := rfl
      simp only [hsplit, List.length_append, List.length_cons] at ih ⊢
      omega

private theorem scanList_separated (hclose : close = ']' ∨ close = '\x7d')
    {texts : List (List Char)} {items : List α} (h : List.Forall₂ (Reads scan) texts items)
    (rest : List Char) :
    scanList scan close (separated texts ++ close :: rest) = some (items, rest) := by
  have hblank : isBlank close = false := by rcases hclose with rfl | rfl <;> decide
  cases h with
  | nil =>
    rw [separated, List.nil_append, scanList, skipBlanks_cons hblank]
    exact if_pos rfl
  | @cons text item texts items hitem hitems =>
    obtain ⟨c, tail, htext, hc, hbracket, hbrace⟩ := hitem.begins
    have hne : c ≠ close := by rcases hclose with rfl | rfl <;> assumption
    have hfront : ∃ tail', separated (text :: texts) ++ close :: rest = c :: tail' := by
      cases texts <;> simp [separated, htext]
    obtain ⟨tail', hfront⟩ := hfront
    have hlength := length_le_length_separated (text :: texts)
    rw [scanList, hfront, skipBlanks_cons hc]
    dsimp only
    rw [if_neg hne, ← hfront]
    refine scanItems_separated hclose (.cons hitem hitems) (List.cons_ne_nil _ _) ?_ rest
    simp only [List.length_append, List.length_cons] at hlength ⊢
    omega

theorem forall_mem_of_scanItems {P : α → Prop}
    (hscan : ∀ {text item rest}, scan text = some (item, rest) → P item) {count : ℕ}
    {text : List Char} {items : List α} {rest : List Char}
    (h : scanItems scan close count text = some (items, rest)) : ∀ item ∈ items, P item := by
  induction count generalizing text items rest with
  | zero => cases h
  | succ count ih =>
    rw [scanItems] at h
    obtain ⟨⟨item, behind⟩, hitem, h⟩ := Option.bind_eq_some_iff.mp h
    dsimp only at h
    split at h
    · cases h
    · split at h
      · obtain ⟨⟨others, behind'⟩, hothers, h⟩ := Option.bind_eq_some_iff.mp h
        cases h
        exact List.forall_mem_cons.mpr ⟨hscan hitem, ih hothers⟩
      · split at h
        · cases h
          exact List.forall_mem_singleton.mpr (hscan hitem)
        · cases h

private theorem forall_mem_of_scanList {P : α → Prop}
    (hscan : ∀ {text item rest}, scan text = some (item, rest) → P item) {text : List Char}
    {items : List α} {rest : List Char} (h : scanList scan close text = some (items, rest)) :
    ∀ item ∈ items, P item := by
  rw [scanList] at h
  split at h
  · cases h
  · split at h
    · cases h
      exact List.forall_mem_nil _
    · exact forall_mem_of_scanItems hscan h

end Lists

/-! ## Plain values -/

theorem ne_of_isDigit_or {c d : Char} (hc : Numeral.isDigit c = true ∨ c = '-')
    (hd : (Numeral.isDigit d || d == '-') = false) : c ≠ d := by
  rintro rfl
  rw [Bool.or_eq_false_iff, beq_eq_false_iff_ne] at hd
  rcases hc with hc | hc
  · exact Bool.noConfusion (hc.symm.trans hd.1)
  · exact hd.2 hc

theorem exists_cons_write {json : Json JsonNumber} (h : json.depth = 0) :
    ∃ c tail, write json = c :: tail ∧ isBlank c = false ∧ c ≠ ']' ∧ c ≠ '\x7d' ∧ c ≠ '[' ∧
      c ≠ '\x7b' := by
  cases json with
  | null => exact ⟨'n', _, rfl, by decide⟩
  | bool value => cases value <;> exact ⟨_, _, rfl, by decide⟩
  | number number =>
    obtain ⟨c, tail, htext, hc⟩ := number.wellFormed.exists_cons
    refine ⟨c, tail, htext, ?_, ne_of_isDigit_or hc (by decide), ne_of_isDigit_or hc (by decide),
      ne_of_isDigit_or hc (by decide), ne_of_isDigit_or hc (by decide)⟩
    simp only [isBlank, Bool.or_eq_false_iff, beq_eq_false_iff_ne]
    exact ⟨⟨⟨ne_of_isDigit_or hc (by decide), ne_of_isDigit_or hc (by decide)⟩,
      ne_of_isDigit_or hc (by decide)⟩, ne_of_isDigit_or hc (by decide)⟩
  | text value => exact ⟨'"', _, rfl, by decide⟩
  | array items => cases h
  | object members => cases h

private theorem scanPlain_write {json : Json JsonNumber} (h : json.depth = 0) {rest : List Char}
    (hrest : Stops Numeral.continues rest) :
    scanPlain (write json ++ rest) = some (json, rest) := by
  cases json with
  | null => rfl
  | bool value => cases value <;> rfl
  | number number =>
    have hscan := number.scan?_text hrest
    obtain ⟨c, tail, htext, hc⟩ := number.wellFormed.exists_cons
    rw [write, scanPlain, hscan]
    · rfl
    all_goals
      intro tail' heq
      rw [htext, List.cons_append] at heq
      exact absurd (List.cons.inj heq).1 (ne_of_isDigit_or hc (by decide))
  | text value =>
    rw [write, quoted, List.cons_append, List.append_assoc, List.singleton_append, scanPlain,
      scanText_flatMap_escaped]
    simp only [Option.bind_eq_bind, Option.bind_some, String.ofList_toList]
    rfl
  | array items => cases h
  | object members => cases h

private theorem depth_of_scanPlain {text rest : List Char} {json : Json JsonNumber}
    (h : scanPlain text = some (json, rest)) : json.depth = 0 := by
  unfold scanPlain at h
  split at h
  case h_1 | h_2 | h_3 =>
    cases h
    rfl
  case h_4 | h_5 =>
    obtain ⟨scanned, -, h⟩ := Option.bind_eq_some_iff.mp h
    cases h
    rfl

/-! ## Values -/

private theorem writeItems_eq (items : List (Json JsonNumber)) :
    writeItems items = items.map write := by
  induction items with
  | nil => rfl
  | cons item rest ih => rw [writeItems, ih, List.map_cons]

private theorem writeMembers_eq (members : List (String × Json JsonNumber)) :
    writeMembers members = members.map fun member ↦ quoted member.1 ++ ':' :: write member.2 := by
  induction members with
  | nil => rfl
  | cons member rest ih => rw [writeMembers, ih, List.map_cons]

theorem reads_member {scan : List Char → Option (Json JsonNumber × List Char)}
    {member : String × Json JsonNumber} (h : Reads scan (write member.2) member.2) :
    Reads (scanMember scan) (quoted member.1 ++ ':' :: write member.2) member where
  begins := ⟨'"', _, rfl, by decide⟩
  scan_append {rest} hrest := by
    rw [quoted, List.cons_append, List.cons_append, List.append_assoc, List.append_assoc,
      List.singleton_append, scanMember, skipBlanks_cons (by decide)]
    simp only [scanText_flatMap_escaped, Option.bind_eq_bind, Option.bind_some, List.cons_append,
      skipBlanks_cons (show isBlank ':' = false by decide), h.scan_append hrest,
      String.ofList_toList]
    rfl

private theorem of_scanMember {scan : List Char → Option (Json JsonNumber × List Char)}
    {P : Json JsonNumber → Prop}
    (hscan : ∀ {text rest json}, scan text = some (json, rest) → P json) {text rest : List Char}
    {member : String × Json JsonNumber} (h : scanMember scan text = some (member, rest)) :
    P member.2 := by
  unfold scanMember at h
  split at h
  · obtain ⟨⟨key, behind⟩, -, h⟩ := Option.bind_eq_some_iff.mp h
    dsimp only at h
    split at h
    · obtain ⟨⟨value, behind'⟩, hvalue, h⟩ := Option.bind_eq_some_iff.mp h
      cases h
      exact hscan hvalue
    · cases h
  · cases h

private theorem reads_plain {json : Json JsonNumber} (h : json.depth = 0) (depth : ℕ) :
    Reads (scanValue depth) (write json) json := by
  obtain ⟨c, tail, hwrite, hblank, hbracket, hbrace, hlist, hobject⟩ := exists_cons_write h
  have hbegins : Begins (write json) := ⟨c, tail, hwrite, hblank, hbracket, hbrace⟩
  refine ⟨hbegins, fun hrest ↦ ?_⟩
  have hplain := scanPlain_write h hrest
  cases depth with
  | zero => rw [scanValue, hbegins.skipBlanks_append, hplain]
  | succ depth =>
    rw [scanValue, hbegins.skipBlanks_append]
    rw [hwrite, List.cons_append] at hplain ⊢
    split
    · rename_i heq
      exact absurd (List.cons.inj heq).1 hlist
    · rename_i heq
      exact absurd (List.cons.inj heq).1 hobject
    · exact hplain

/-- **The text of a value is read as the value** by a reader that goes deep enough. -/
theorem reads_write {json : Json JsonNumber} {depth : ℕ} (h : json.depth ≤ depth) :
    Reads (scanValue depth) (write json) json := by
  induction depth generalizing json with
  | zero => exact reads_plain (Nat.le_zero.mp h) 0
  | succ depth ih =>
    have hparts : ∀ part ∈ json.parts, Reads (scanValue depth) (write part) part :=
      fun part hpart ↦ ih (Nat.le_of_lt_succ ((Json.depth_lt_of_mem_parts hpart).trans_le h))
    cases json with
    | array items =>
      have hitems : List.Forall₂ (Reads (scanValue depth)) (writeItems items) items := by
        rw [writeItems_eq, List.forall₂_map_left_iff, List.forall₂_same]
        exact hparts
      refine ⟨⟨'[', _, rfl, by decide⟩, fun {rest} _ ↦ ?_⟩
      rw [write, List.cons_append, List.append_assoc, List.singleton_append, scanValue,
        skipBlanks_cons (by decide)]
      simp only [scanList_separated (Or.inl rfl) hitems]
      rfl
    | object members =>
      have hmembers : List.Forall₂ (Reads (scanMember (scanValue depth))) (writeMembers members)
          members := by
        rw [writeMembers_eq, List.forall₂_map_left_iff, List.forall₂_same]
        exact fun member hmember ↦ reads_member (hparts _ (List.mem_map_of_mem hmember))
      refine ⟨⟨'\x7b', _, rfl, by decide⟩, fun {rest} _ ↦ ?_⟩
      rw [write, List.cons_append, List.append_assoc, List.singleton_append, scanValue,
        skipBlanks_cons (by decide)]
      simp only [scanList_separated (Or.inr rfl) hmembers]
      rfl
    | _ => exact reads_plain rfl _

theorem depth_le_of_scanValue {depth : ℕ} {text rest : List Char} {json : Json JsonNumber}
    (h : scanValue depth text = some (json, rest)) : json.depth ≤ depth := by
  induction depth generalizing text rest json with
  | zero => exact (depth_of_scanPlain h).le
  | succ depth ih =>
    rw [scanValue] at h
    split at h
    · obtain ⟨⟨items, behind⟩, hitems, h⟩ := Option.bind_eq_some_iff.mp h
      cases h
      exact Json.depth_array_le (forall_mem_of_scanList ih hitems)
    · obtain ⟨⟨members, behind⟩, hmembers, h⟩ := Option.bind_eq_some_iff.mp h
      cases h
      exact Json.depth_object_le (Nat.succ_pos depth) <|
        forall_mem_of_scanList (fun hmember ↦ Nat.lt_succ_of_le (of_scanMember ih hmember)) hmembers
    · exact (depth_of_scanPlain h).trans_le (Nat.zero_le _)

theorem read?_write {json : Json JsonNumber} (h : json.depth < depthLimit) :
    read? (String.ofList (write json)) = some json := by
  have hread := (reads_write (Nat.le_sub_one_of_lt h)).scan_append (stops_nil _)
  rw [List.append_nil] at hread
  rw [read?, String.toList_ofList, hread]
  rfl

theorem depth_lt_of_read? {text : String} {json : Json JsonNumber} (h : read? text = some json) :
    json.depth < depthLimit := by
  rw [read?] at h
  split at h
  · cases h
  · rename_i json' rest hscan
    split at h
    · cases h
      exact Nat.lt_of_le_pred (by decide) (depth_le_of_scanValue hscan)
    · cases h

end JsonText

end MapQuery
