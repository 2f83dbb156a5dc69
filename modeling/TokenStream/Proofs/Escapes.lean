import TokenStream.Proofs.Forms

/-!
# Escaped quotes

A backslash in a literal takes the next character along, so whether a quote closes the literal
hangs on the backslashes directly before it: an even number of them have escaped one another, and
an odd number escapes the quote.  This is a question about the characters before the quote, which
can be asked without walking through the literal from its start.

## Main definitions

* `trailingBackslashes` — how many backslashes stand at the end of a text.

## Main results

* `Lexeme.isSome_toFirstQuote?` — **a quote after an even number of backslashes closes a literal,
  unless an earlier one does**.
* `Lexeme.toFirstQuote?_append` — what follows a quote that closes a literal does not matter.
-/

namespace TokenStream

/-- How many backslashes stand at the end of a text. -/
def trailingBackslashes (text : List Char) : Nat :=
  (text.reverse.takeWhile (· == '\\')).length

/-- A character in front of a text matters only if all of the text is backslashes. -/
theorem trailingBackslashes_cons (c : Char) (text : List Char) :
    trailingBackslashes (c :: text) =
      if trailingBackslashes text = text.length then
        text.length + (if c = '\\' then 1 else 0)
      else trailingBackslashes text := by
  unfold trailingBackslashes
  rw [List.reverse_cons, List.takeWhile_append, List.length_reverse]
  split
  · rw [List.length_append, List.length_reverse, List.takeWhile_cons]
    by_cases hc : c = '\\' <;> simp [hc]
  · rfl

/-- A quote in front of a text does not matter. -/
@[simp] theorem trailingBackslashes_quote_cons (text : List Char) :
    trailingBackslashes ('\x22' :: text) = trailingBackslashes text := by
  rw [trailingBackslashes_cons]
  split
  · next h => rw [h]; rfl
  · rfl

theorem trailingBackslashes_le (text : List Char) : trailingBackslashes text ≤ text.length := by
  have h := List.Sublist.length_le (List.takeWhile_sublist (l := text.reverse) (· == '\\'))
  rwa [List.length_reverse] at h

/-- An escape in front of a text does not change whether the backslashes at its end are even. -/
theorem trailingBackslashes_escape_cons (c : Char) (text : List Char) :
    trailingBackslashes ('\\' :: c :: text) % 2 = trailingBackslashes text % 2 := by
  have hle := trailingBackslashes_le text
  by_cases hall : trailingBackslashes text = text.length
  · by_cases hc : c = '\\'
    · have hescaped : trailingBackslashes (c :: text) = text.length + 1 := by
        rw [trailingBackslashes_cons, if_pos hall, if_pos hc]
      rw [trailingBackslashes_cons, hescaped, List.length_cons, if_pos rfl, if_pos rfl, hall]
      omega
    · have hother : trailingBackslashes (c :: text) = text.length := by
        rw [trailingBackslashes_cons, if_pos hall, if_neg hc, Nat.add_zero]
      rw [trailingBackslashes_cons, hother, List.length_cons, if_neg (by omega), hall]
  · have hsame : trailingBackslashes (c :: text) = trailingBackslashes text := by
      rw [trailingBackslashes_cons, if_neg hall]
    rw [trailingBackslashes_cons, hsame, List.length_cons, if_neg (by omega)]

namespace Lexeme

/-- A character that is neither a quote nor a backslash is passed. -/
theorem toFirstQuote?_cons {c : Char} (rest : List Char) (hquote : c ≠ '\x22')
    (hbackslash : c ≠ '\\') :
    toFirstQuote? (c :: rest) = (toFirstQuote? rest).map fun found => c :: found :=
  toFirstQuote?.eq_4 c rest hquote fun _ _ hc _ => hbackslash hc

/-- A character that is passed by itself, before a quote that closes a literal, is no backslash. -/
theorem ne_backslash_of_toFirstQuote? {c : Char} {rest found : List Char}
    (hescape : ∀ d rest', c = '\\' → rest = d :: rest' → False)
    (h : toFirstQuote? rest = some found) : c ≠ '\\' := by
  rintro rfl
  cases rest with
  | nil => contradiction
  | cons d rest => exact hescape d rest rfl rfl

/-- What follows a quote that closes a literal does not matter. -/
theorem toFirstQuote?_append {text found : List Char} (more : List Char)
    (h : toFirstQuote? text = some found) : toFirstQuote? (text ++ more) = some found := by
  fun_induction toFirstQuote? text generalizing found with
  | case1 => contradiction
  | case2 => exact h
  | case3 c rest ih =>
    obtain ⟨tail, htail, rfl⟩ := Option.map_eq_some_iff.mp h
    rw [List.cons_append, List.cons_append, toFirstQuote?, ih htail]
    rfl
  | case4 c rest hquote hescape ih =>
    obtain ⟨tail, htail, rfl⟩ := Option.map_eq_some_iff.mp h
    have hbackslash := ne_backslash_of_toFirstQuote? hescape htail
    rw [List.cons_append, toFirstQuote?_cons _ hquote hbackslash, ih htail]
    rfl

/-- **A quote after an even number of backslashes closes a literal, unless an earlier one does.** -/
theorem isSome_toFirstQuote? {text body after : List Char} (htext : text = body ++ '\x22' :: after)
    (heven : trailingBackslashes body % 2 = 0) : (toFirstQuote? text).isSome = true := by
  fun_induction toFirstQuote? text generalizing body with
  | case1 => simp at htext
  | case2 => rfl
  | case3 c rest ih =>
    rw [Option.isSome_map]
    -- The pair that is taken along ends before the quote, or the quote would be its second half.
    rcases body with _ | ⟨d, _ | ⟨d', body⟩⟩
    · simp at htext
    · rw [List.cons_append] at htext
      rw [← (List.cons.inj htext).1] at heven
      contradiction
    · simp only [List.cons_append, List.cons.injEq] at htext
      apply ih htext.2.2
      rwa [← htext.1, trailingBackslashes_escape_cons] at heven
  | case4 c rest hquote hescape ih =>
    rw [Option.isSome_map]
    cases body with
    | nil => exact absurd (List.cons.inj htext).1 hquote
    | cons d body =>
      simp only [List.cons_append, List.cons.injEq] at htext
      apply ih htext.2
      have hbackslash : d ≠ '\\' := by
        rintro rfl
        cases rest with
        | nil => simp at htext
        | cons d' rest => exact hescape d' rest htext.1 rfl
      rw [trailingBackslashes_cons, if_neg hbackslash] at heven
      split at heven <;> omega

end Lexeme

end TokenStream
