/-!
# Blank characters and lines

A property of characters is stored as the ascending list of the closed ranges of code points that
have it. `Ranges.contains` looks a character up.

A character is blank when it has the Unicode property `White_Space`: 25 characters, among them the
line ends, the no-break space and the ideographic space, but not the zero-width space and not the
byte order mark. Trimming removes blank characters at the ends of a text and leaves the inside
alone.

Two texts have the same content when their lines agree after trimming and after blank lines are
dropped. `contentLines` lists these lines, and `withoutLayout` writes them one below the other.
-/

namespace MapQuery.Text

/-! ## Properties of characters -/

/-- Closed ranges of code points, ascending and apart. -/
abbrev Ranges := List (Nat × Nat)

namespace Ranges

def contains (ranges : Ranges) (c : Char) : Bool :=
  ranges.any fun range ↦ range.1 ≤ c.toNat && c.toNat ≤ range.2

theorem contains_iff {ranges : Ranges} {c : Char} :
    ranges.contains c = true ↔ ∃ range ∈ ranges, range.1 ≤ c.toNat ∧ c.toNat ≤ range.2 := by
  simp [contains]

end Ranges

/-! ## Blank characters -/

/-- The characters with the property `White_Space`. -/
def blankRanges : Ranges :=
  [(0x09, 0x0D), (0x20, 0x20), (0x85, 0x85), (0xA0, 0xA0), (0x1680, 0x1680), (0x2000, 0x200A),
    (0x2028, 0x2029), (0x202F, 0x202F), (0x205F, 0x205F), (0x3000, 0x3000)]

/-- Whether the character is white space in the sense of Unicode. -/
def isBlank (c : Char) : Bool := blankRanges.contains c

/-! ## Trimming -/

/-- The text from its first character that is not blank. -/
def trimStart (text : List Char) : List Char := text.dropWhile isBlank

/-- The text up to its last character that is not blank. -/
def trimEnd (text : List Char) : List Char := (text.reverse.dropWhile isBlank).reverse

def trim (text : List Char) : List Char := trimEnd (trimStart text)

@[simp] theorem trimStart_nil : trimStart [] = [] := rfl

@[simp] theorem trimEnd_nil : trimEnd [] = [] := rfl

@[simp] theorem trim_nil : trim [] = [] := rfl

/-! ## Lines -/

/-- The pieces of a text between its newlines; there is one more piece than newlines. -/
def splitLines : List Char → List (List Char)
  | [] => [[]]
  | c :: rest =>
    if c == '\n' then [] :: splitLines rest
    else
      match splitLines rest with
      | [] => [[c]]
      | line :: lines => (c :: line) :: lines

def joinLines : List (List Char) → List Char
  | [] => []
  | [line] => line
  | line :: lines => line ++ '\n' :: joinLines lines

/-- The trimmed lines that are not blank. A carriage return before a newline is blank, so it makes
no difference how the lines end. -/
def contentLines (text : List Char) : List (List Char) :=
  ((splitLines text).map trim).filter (!·.isEmpty)

/-- The text without indentation, trailing blanks and blank lines. -/
def withoutLayout (text : List Char) : List Char := joinLines (contentLines text)

@[simp] theorem splitLines_ne_nil (text : List Char) : splitLines text ≠ [] := by
  cases text with
  | nil => simp [splitLines]
  | cons c rest =>
    rw [splitLines]
    split
    · simp
    · split <;> simp

@[simp] theorem joinLines_splitLines (text : List Char) : joinLines (splitLines text) = text := by
  induction text with
  | nil => rfl
  | cons c rest ih =>
    rw [splitLines]
    split
    · rename_i h
      obtain ⟨line, lines, hl⟩ := List.exists_cons_of_ne_nil (splitLines_ne_nil rest)
      rw [hl] at ih ⊢
      simp only [joinLines, List.nil_append, ih]
      rw [beq_iff_eq.1 h]
    · split
      · rename_i h
        exact absurd h (splitLines_ne_nil rest)
      · rename_i line lines h
        rw [h] at ih
        cases lines with
        | nil => simpa [joinLines] using ih
        | cons next more => simpa [joinLines] using ih

end MapQuery.Text
