import TokenStream.Text.DecimalDigit

/-!
# Lexemes

The written forms of the Puma language.  Each function below looks at the head of a text and
returns the characters of the lexeme that starts there, if one of its form does.

A string literal closes at the first double quote that no backslash escapes.  If there is none,
every quote that is left counts as escaped, and the literal closes at the last of them: one
stray backslash before a closing quote does not lose the literal.

## Main definitions

* `Lexeme.float?`, `Lexeme.integer?` — numbers, in the digits of any script.
* `Lexeme.boolean?` — the truth values.
* `Lexeme.string?` — texts in double quotes; `Lexeme.toFirstQuote?` and `Lexeme.toLastQuote?`
  are its two ways to close.
* `Lexeme.character?` — one character in single quotes, possibly after a backslash.
* `Lexeme.word?` — names and reserved words, in ASCII only.

## Main results

For each form, `…_isPrefix` says that the lexeme is what the text starts with, and `…_ne_nil`
that it is not empty.
-/

namespace TokenStream.Lexeme

/-! ### Numbers -/

/-- A run of digits, as long as possible. -/
def integer? (text : List Char) : Option (List Char) :=
  match text.takeWhile isDecimalDigit with
  | [] => none
  | digits => some digits

/-- Two runs of digits, as long as possible, with a point between them. -/
def float? (text : List Char) : Option (List Char) := do
  let whole ← integer? text
  match text.dropWhile isDecimalDigit with
  | '.' :: rest =>
    let fraction ← integer? rest
    return whole ++ '.' :: fraction
  | _ => none

/-! ### Words -/

/-- One of the two truth values.  What follows does not matter. -/
def boolean? : List Char → Option (List Char)
  | 't' :: 'r' :: 'u' :: 'e' :: _ => some ['t', 'r', 'u', 'e']
  | 'f' :: 'a' :: 'l' :: 's' :: 'e' :: _ => some ['f', 'a', 'l', 's', 'e']
  | _ => none

/-- A character with which a word can start: an ASCII letter or the underscore. -/
def isWordStart (c : Char) : Bool := c.isAlpha || c == '_'

/-- A character with which a word can go on: also the ASCII digits. -/
def isWordPart (c : Char) : Bool := c.isAlphanum || c == '_'

/-- A word, as long as possible. -/
def word? : List Char → Option (List Char)
  | [] => none
  | c :: rest => if isWordStart c then some (c :: rest.takeWhile isWordPart) else none

/-! ### Literals in quotes -/

/-- The text up to the first double quote that no backslash escapes, that quote included.  A
backslash takes the character after it along, whatever that is. -/
def toFirstQuote? : List Char → Option (List Char)
  | [] => none
  | '\x22' :: _ => some ['\x22']
  | '\\' :: c :: rest => (toFirstQuote? rest).map fun found => '\\' :: c :: found
  | c :: rest => (toFirstQuote? rest).map fun found => c :: found

/-- The text up to the last double quote, that quote included. -/
def toLastQuote? : List Char → Option (List Char)
  | [] => none
  | c :: rest =>
    match toLastQuote? rest with
    | some found => some (c :: found)
    | none => if c = '\x22' then some ['\x22'] else none

/-- A text in double quotes, closed at the first quote that is not escaped, or else at the last
quote there is. -/
def string? : List Char → Option (List Char)
  | '\x22' :: rest =>
    ((toFirstQuote? rest).or (toLastQuote? rest)).map fun found => '\x22' :: found
  | _ => none

/-- One character in single quotes: after a backslash, any but a line feed; without one, any but
the quote itself.  The form with a backslash is tried first, so a backslash stands alone between
quotes only if no third quote follows. -/
def character? : List Char → Option (List Char)
  | '\x27' :: '\\' :: c :: '\x27' :: _ =>
    if c = '\n' then none else some ['\x27', '\\', c, '\x27']
  | '\x27' :: c :: '\x27' :: _ => if c = '\x27' then none else some ['\x27', c, '\x27']
  | _ => none

/-! ### A lexeme is a non-empty start of the text -/

theorem integer?_isPrefix {text lexeme : List Char} (h : integer? text = some lexeme) :
    lexeme <+: text := by
  unfold integer? at h
  split at h
  · contradiction
  · cases h
    exact List.takeWhile_prefix _

theorem integer?_ne_nil {text lexeme : List Char} (h : integer? text = some lexeme) :
    lexeme ≠ [] := by
  unfold integer? at h
  split at h
  · contradiction
  · next hne =>
    cases h
    exact hne

theorem float?_isPrefix {text lexeme : List Char} (h : float? text = some lexeme) :
    lexeme <+: text := by
  simp only [float?, Option.bind_eq_bind, Option.bind_eq_some_iff] at h
  obtain ⟨whole, hwhole, h⟩ := h
  split at h
  · next rest hrest =>
    simp only [Option.bind_eq_some_iff, Option.pure_def, Option.some.injEq] at h
    obtain ⟨fraction, hfraction, rfl⟩ := h
    have hw : text.takeWhile isDecimalDigit = whole := by
      unfold integer? at hwhole
      split at hwhole <;> simp_all
    rw [← List.takeWhile_append_dropWhile (p := isDecimalDigit) (l := text), hw, hrest]
    exact List.prefix_append_right_inj whole |>.mpr
      ((List.prefix_cons_inj '.').mpr (integer?_isPrefix hfraction))
  · contradiction

theorem float?_ne_nil {text lexeme : List Char} (h : float? text = some lexeme) :
    lexeme ≠ [] := by
  simp only [float?, Option.bind_eq_bind, Option.bind_eq_some_iff] at h
  obtain ⟨whole, hwhole, h⟩ := h
  split at h
  · simp only [Option.bind_eq_some_iff, Option.pure_def, Option.some.injEq] at h
    obtain ⟨fraction, -, rfl⟩ := h
    simp
  · contradiction

theorem boolean?_isPrefix {text lexeme : List Char} (h : boolean? text = some lexeme) :
    lexeme <+: text := by
  unfold boolean? at h
  split at h <;> simp_all <;> subst h <;> simp

theorem boolean?_ne_nil {text lexeme : List Char} (h : boolean? text = some lexeme) :
    lexeme ≠ [] := by
  unfold boolean? at h
  split at h <;> simp_all <;> subst h <;> simp

theorem word?_isPrefix {text lexeme : List Char} (h : word? text = some lexeme) :
    lexeme <+: text := by
  cases text with
  | nil => simp [word?] at h
  | cons c rest =>
    simp only [word?] at h
    split at h
    · cases h
      exact (List.prefix_cons_inj c).mpr (List.takeWhile_prefix _)
    · contradiction

theorem word?_ne_nil {text lexeme : List Char} (h : word? text = some lexeme) : lexeme ≠ [] := by
  cases text with
  | nil => simp [word?] at h
  | cons c rest =>
    simp only [word?] at h
    split at h
    · cases h
      simp
    · contradiction

theorem toFirstQuote?_isPrefix {text found : List Char} (h : toFirstQuote? text = some found) :
    found <+: text := by
  fun_induction toFirstQuote? text generalizing found with
  | case1 => contradiction
  | case2 => cases h; simp
  | case3 c rest ih =>
    obtain ⟨tail, htail, rfl⟩ := Option.map_eq_some_iff.mp h
    simpa using ih htail
  | case4 c rest _ _ ih =>
    obtain ⟨tail, htail, rfl⟩ := Option.map_eq_some_iff.mp h
    simpa using ih htail

theorem toLastQuote?_isPrefix {text found : List Char} (h : toLastQuote? text = some found) :
    found <+: text := by
  fun_induction toLastQuote? text generalizing found with
  | case1 => contradiction
  | case2 c rest tail htail ih => cases h; simpa using ih htail
  | case3 rest _ _ => cases h; simp
  | case4 => contradiction

theorem string?_isPrefix {text lexeme : List Char} (h : string? text = some lexeme) :
    lexeme <+: text := by
  unfold string? at h
  split at h
  · obtain ⟨found, hfound, rfl⟩ := Option.map_eq_some_iff.mp h
    rw [Option.or_eq_some_iff] at hfound
    rcases hfound with hfirst | ⟨-, hlast⟩
    · simpa using toFirstQuote?_isPrefix hfirst
    · simpa using toLastQuote?_isPrefix hlast
  · contradiction

theorem string?_ne_nil {text lexeme : List Char} (h : string? text = some lexeme) :
    lexeme ≠ [] := by
  unfold string? at h
  split at h
  · obtain ⟨found, -, rfl⟩ := Option.map_eq_some_iff.mp h
    simp
  · contradiction

theorem character?_isPrefix {text lexeme : List Char} (h : character? text = some lexeme) :
    lexeme <+: text := by
  unfold character? at h
  split at h <;> simp_all <;> obtain ⟨-, rfl⟩ := h <;> simp

theorem character?_ne_nil {text lexeme : List Char} (h : character? text = some lexeme) :
    lexeme ≠ [] := by
  unfold character? at h
  split at h <;> simp_all <;> obtain ⟨-, rfl⟩ := h <;> simp

end TokenStream.Lexeme
