import TokenStream.Proofs.OrderedChoice
import TokenStream.Proofs.Standalone

/-!
# Two patterns for texts in quotes

The plain pattern for a text in quotes is a quote, any number of parts and a quote again, where a
part is an escape or, as a second choice, one character that is no quote.  It is short but leaves a
choice at each backslash, and a search that has run to the end of the source without a closing quote
goes back and tries them all.

The rule for texts in quotes gets by without going back.  It has a pattern with two branches, of
which the first one leaves no choice at all, and the second one only the choice of a quote.  Both
patterns recognise the same: while an escape can close nothing, the backslash by itself can close
nothing either, unless the character that it would have escaped is the last quote of the source.

## Main definitions

* `Pattern.plainText` — the plain pattern, `Pattern.twoBranchText` — the one with two branches.

## Main results

* `Pattern.first?_plain` — **what the plain pattern comes to first ends at the first quote that is
  not escaped, or else at the last quote**.
* `Pattern.search_resolved`, `Pattern.first?_anything` — the same, apart, for the two branches.
* `lexemeAt?_string_eq_plain` — **the rule recognises what either pattern comes to first, and
  nothing exactly where nothing matches**.
-/

namespace TokenStream

namespace Pattern

/-! ### Texts in quotes -/

/-- A double quote. -/
def quote : Pattern := one (· == '\x22')

/-- A backslash. -/
def backslash : Pattern := one (· == '\\')

/-- An escape: a backslash with a character that is no line feed. -/
def escape : Pattern := seq backslash (one (· != '\n'))

/-- Parts in a row, as many as possible, and a quote behind them. -/
def toQuote (part : Pattern) : Pattern := seq (many part) quote

/-- Parts in a row between quotes. -/
def inQuotes (part : Pattern) : Pattern := seq quote (toQuote part)

/-- A part of a text in quotes by the plain pattern: an escape or, as a second choice, one
character that is no quote.  A backslash can be taken in both ways. -/
def plainPart : Pattern := either escape (one (· != '\x22'))

/-- A part of a text in quotes in which a backslash can be taken in one way only: as an escape,
unless a line feed or the end of the text comes next. -/
def resolvedPart : Pattern :=
  either (either (one fun c => c != '\x22' && c != '\\') escape)
    (seq backslash (notAhead (· != '\n')))

/-- Any character. -/
def anything : Pattern := one fun _ => true

/-- The plain pattern for texts in quotes. -/
def plainText : Pattern := inQuotes plainPart

/-- The pattern with two branches: the first one resolves every backslash, and the second one takes
everything up to the last quote. -/
def twoBranchText : Pattern := either (inQuotes resolvedPart) (inQuotes anything)

section

variable {part : Pattern} {text rest : List Char} {c : Char}

theorem search_quote_cons (c : Char) (rest : List Char) :
    quote.search (c :: rest) = if c = '\x22' then [['\x22']] else [] := by
  by_cases hc : c = '\x22' <;> simp [quote, search, hc]

theorem search_toQuote (h : ∀ front ∈ part.search text, front ≠ []) :
    (toQuote part).search text =
      andThen (part.search text) (toQuote part).search text ++ quote.search text :=
  search_seq_many h

/-- Behind a character that is one part in one way only, the search goes on. -/
theorem search_toQuote_cons (hpart : part.search (c :: rest) = [[c]]) (hc : c ≠ '\x22') :
    (toQuote part).search (c :: rest) =
      ((toQuote part).search rest).map fun found => c :: found := by
  rw [search_toQuote (by simp [hpart]), hpart, search_quote_cons, if_neg hc]
  simp

/-- At a quote that starts no part the search ends. -/
theorem search_toQuote_quote (hpart : part.search ('\x22' :: rest) = []) :
    (toQuote part).search ('\x22' :: rest) = [['\x22']] := by
  rw [search_toQuote (by simp [hpart]), hpart, search_quote_cons, if_pos rfl]
  rfl

theorem search_toQuote_nil (hpart : part.search [] = []) : (toQuote part).search [] = [] := by
  rw [search_toQuote (by simp [hpart]), hpart]
  rfl

theorem first?_inQuotes_quote (part : Pattern) (rest : List Char) :
    (inQuotes part).first? ('\x22' :: rest) =
      ((toQuote part).first? rest).map fun found => '\x22' :: found := by
  rw [first?, inQuotes, search, search_quote_cons, if_pos rfl]
  simp [first?]

theorem search_inQuotes_of_ne (part : Pattern) (rest : List Char) (hc : c ≠ '\x22') :
    (inQuotes part).search (c :: rest) = [] := by
  rw [inQuotes, search, search_quote_cons, if_neg hc]
  rfl

end

/-! ### Parts -/

/-- By both patterns a character is a part in one way only if it is neither a quote nor a backslash
that could escape something. -/
theorem search_part_cons {part : Pattern} (hpart : part = plainPart ∨ part = resolvedPart)
    {c : Char} {rest : List Char} (hquote : c ≠ '\x22')
    (hescape : c = '\\' → ∀ d more, rest = d :: more → d = '\n') :
    part.search (c :: rest) = [[c]] := by
  by_cases hc : c = '\\'
  · subst hc
    cases rest with
    | nil => rcases hpart with rfl | rfl <;> rfl
    | cons d more =>
      obtain rfl : d = '\n' := hescape rfl d more rfl
      rcases hpart with rfl | rfl <;> rfl
  · rcases hpart with rfl | rfl
    · simp [plainPart, escape, backslash, search, hc, hquote]
    · simp [resolvedPart, escape, backslash, search, hc, hquote]

/-- Behind such a character the search goes on, by both patterns. -/
theorem search_toQuote_part {part : Pattern} (hpart : part = plainPart ∨ part = resolvedPart)
    {c : Char} {rest : List Char} (hquote : c ≠ '\x22')
    (hescape : c = '\\' → ∀ d more, rest = d :: more → d = '\n') :
    (toQuote part).search (c :: rest) =
      ((toQuote part).search rest).map fun found => c :: found :=
  search_toQuote_cons (search_part_cons hpart hquote hescape) hquote

/-- A backslash before a line feed escapes nothing, by both patterns. -/
theorem search_toQuote_lineFeed {part : Pattern} (hpart : part = plainPart ∨ part = resolvedPart)
    (rest : List Char) :
    (toQuote part).search ('\\' :: '\n' :: rest) =
      ((toQuote part).search rest).map fun found => '\\' :: '\n' :: found := by
  have hbackslash : ∀ d more, '\n' :: rest = d :: more → d = '\n' := by
    intro d more h
    exact (List.cons.inj h).1.symm
  rw [search_toQuote_part hpart (by decide) fun _ => hbackslash,
    search_toQuote_part hpart (by decide) (by simp), List.map_map]
  rfl

/-! ### The plain pattern -/

theorem search_plainPart_quote (rest : List Char) : plainPart.search ('\x22' :: rest) = [] := rfl

theorem search_plainPart_escape {c : Char} (rest : List Char) (hc : c ≠ '\n') :
    plainPart.search ('\\' :: c :: rest) = [['\\', c], ['\\']] := by
  simp [plainPart, escape, backslash, search, hc]

/-- An escape is the first choice for a backslash, and the backslash alone the second. -/
theorem search_plain_escape {c : Char} (rest : List Char) (hc : c ≠ '\n') :
    (toQuote plainPart).search ('\\' :: c :: rest) =
      ((toQuote plainPart).search rest).map (fun found => '\\' :: c :: found) ++
        ((toQuote plainPart).search (c :: rest)).map (fun found => '\\' :: found) := by
  have hpart := search_plainPart_escape rest hc
  rw [search_toQuote (by simp [hpart]), hpart, search_quote_cons, if_neg (by decide)]
  simp

/-- Without a quote nothing is found. -/
theorem search_toQuote_of_not_mem {part : Pattern} {text : List Char} (h : '\x22' ∉ text) :
    (toQuote part).search text = [] := by
  rw [List.eq_nil_iff_forall_not_mem]
  intro lexeme hmem
  obtain ⟨after, rfl, hmatch⟩ := mem_search_iff.mp hmem
  cases hmatch with
  | seq hparts hquote =>
    cases hquote with
    | one after hc =>
      rw [beq_iff_eq.mp hc] at h
      simp at h

open Lexeme

theorem toLastQuote?_cons {c : Char} (rest : List Char) (hc : c ≠ '\x22') :
    toLastQuote? (c :: rest) = (toLastQuote? rest).map fun found => c :: found := by
  rw [toLastQuote?]
  cases toLastQuote? rest with
  | some found => rfl
  | none => exact if_neg hc

/-- **What the plain pattern comes to first ends at the first quote that is not escaped, or else at
the last quote.** -/
theorem first?_plain (text : List Char) :
    (toQuote plainPart).first? text = (toFirstQuote? text).or (toLastQuote? text) := by
  fun_induction toFirstQuote? text with
  | case1 =>
    rw [first?, search_toQuote_nil rfl]
    rfl
  | case2 rest =>
    rw [first?, search_toQuote_quote (search_plainPart_quote rest)]
    rfl
  | case3 c rest ih =>
    rw [toLastQuote?_cons _ (by decide)]
    by_cases hc : c = '\n'
    · subst hc
      rw [first?, search_toQuote_lineFeed (.inl rfl), List.head?_map, ← first?, ih,
        toLastQuote?_cons _ (by decide), Option.map_map]
      cases toFirstQuote? rest <;> rfl
    · rw [first?, search_plain_escape rest hc, List.head?_append, List.head?_map, List.head?_map,
        ← first?, ← first?, ih]
      cases hfirst : toFirstQuote? rest with
      | some found => rfl
      | none =>
        cases hlast : toLastQuote? rest with
        | some found =>
          rw [toLastQuote?, hlast]
          rfl
        | none =>
          -- No quote comes behind the escape, so only the escaped character can close.
          have hrest : '\x22' ∉ rest := by
            rw [← isSome_toLastQuote?_iff, hlast]
            simp
          rw [toLastQuote?, hlast]
          by_cases hquote : c = '\x22'
          · subst hquote
            rw [first?, search_toQuote_quote (search_plainPart_quote rest)]
            rfl
          · have hnone : '\x22' ∉ c :: rest := by simp [hrest, Ne.symm hquote]
            rw [first?, search_toQuote_of_not_mem hnone, if_neg hquote]
            rfl
  | case4 c rest hquote hescape ih =>
    have hnext : c = '\\' → ∀ d more, rest = d :: more → d = '\n' := fun hc d more hrest =>
      absurd hrest (hescape d more hc)
    rw [first?, search_toQuote_part (.inl rfl) hquote hnext, List.head?_map, ← first?, ih,
      toLastQuote?_cons _ hquote]
    cases toFirstQuote? rest <;> rfl

/-! ### The two branches -/

theorem search_resolvedPart_quote (rest : List Char) :
    resolvedPart.search ('\x22' :: rest) = [] := rfl

theorem search_resolvedPart_escape {c : Char} (rest : List Char) (hc : c ≠ '\n') :
    resolvedPart.search ('\\' :: c :: rest) = [['\\', c]] := by
  simp [resolvedPart, escape, backslash, search, hc]

/-- The first branch has no choice: it comes to one end at most. -/
theorem search_resolved (text : List Char) :
    (toQuote resolvedPart).search text = (toFirstQuote? text).toList := by
  fun_induction toFirstQuote? text with
  | case1 => exact search_toQuote_nil rfl
  | case2 rest => exact search_toQuote_quote (search_resolvedPart_quote rest)
  | case3 c rest ih =>
    by_cases hc : c = '\n'
    · subst hc
      rw [search_toQuote_lineFeed (.inr rfl), ih]
      cases toFirstQuote? rest <;> rfl
    · have hpart := search_resolvedPart_escape rest hc
      rw [search_toQuote (by simp [hpart]), hpart, search_quote_cons, if_neg (by decide),
        andThen_cons, andThen_nil]
      show List.map _ ((toQuote resolvedPart).search rest) ++ [] ++ [] = _
      rw [ih]
      cases toFirstQuote? rest <;> rfl
  | case4 c rest hquote hescape ih =>
    have hnext : c = '\\' → ∀ d more, rest = d :: more → d = '\n' := fun hc d more hrest =>
      absurd hrest (hescape d more hc)
    rw [search_toQuote_part (.inr rfl) hquote hnext, ih]
    cases toFirstQuote? rest <;> rfl

/-- The second branch comes to the last quote first. -/
theorem first?_anything (text : List Char) :
    (toQuote anything).first? text = toLastQuote? text := by
  induction text with
  | nil =>
    rw [first?, search_toQuote_nil rfl]
    rfl
  | cons c rest ih =>
    have hpart : anything.search (c :: rest) = [[c]] := rfl
    rw [first?, search_toQuote (by simp [hpart]), hpart, andThen_cons, andThen_nil,
      List.append_nil, search_quote_cons, List.head?_append, List.head?_map]
    show Option.or (((toQuote anything).first? rest).map _) _ = _
    rw [ih, toLastQuote?]
    cases toLastQuote? rest with
    | some found => rfl
    | none => split <;> rfl

/-! ### The rule -/

theorem first?_plainText (text : List Char) : plainText.first? text = string? text := by
  cases text with
  | nil => rfl
  | cons c rest =>
    by_cases hc : c = '\x22'
    · subst hc
      rw [plainText, first?_inQuotes_quote, first?_plain, string?]
    · rw [first?, plainText, search_inQuotes_of_ne _ _ hc, string?_eq_none rest hc]
      rfl

theorem first?_twoBranchText (text : List Char) : twoBranchText.first? text = string? text := by
  have hbranches : twoBranchText.first? text =
      ((inQuotes resolvedPart).first? text).or ((inQuotes anything).first? text) := by
    rw [first?, twoBranchText, search, List.head?_append]
    rfl
  rw [hbranches]
  cases text with
  | nil => rfl
  | cons c rest =>
    by_cases hc : c = '\x22'
    · subst hc
      rw [first?_inQuotes_quote, first?_inQuotes_quote, first?_anything, first?, search_resolved,
        string?, Option.head?_toList]
      cases toFirstQuote? rest <;> rfl
    · rw [first?, first?, search_inQuotes_of_ne _ _ hc, search_inQuotes_of_ne _ _ hc,
        string?_eq_none rest hc]
      rfl

end Pattern

/-- **The rule for texts in quotes recognises what the plain pattern comes to first.**  So does the
pattern with two branches, which has no choice to make at a backslash.  The rule recognises nothing
exactly where the search for the plain pattern comes to nothing at all, which is where no part of
the source that starts at the position matches it. -/
theorem lexemeAt?_string_eq_plain (source : String) (position : Int) :
    let ahead := source.toList.drop position.toNat
    let found := Rule.string.lexemeAt? source position
    found = (Pattern.plainText.first? ahead).map String.ofList ∧
      found = (Pattern.twoBranchText.first? ahead).map String.ofList ∧
      (found = none ↔ Pattern.plainText.search ahead = []) ∧
      (found = none ↔ ∀ lexeme after, ahead = lexeme ++ after →
        ¬ Pattern.plainText.Matches lexeme after) := by
  intro ahead found
  have hplain : found = (Pattern.plainText.first? ahead).map String.ofList := by
    rw [Pattern.first?_plainText]
    rfl
  have hbranches : found = (Pattern.twoBranchText.first? ahead).map String.ofList := by
    rw [Pattern.first?_twoBranchText]
    rfl
  refine ⟨hplain, hbranches, ?_, ?_⟩
  · rw [hplain, Option.map_eq_none_iff, Pattern.first?, List.head?_eq_none_iff]
  · rw [hplain, Option.map_eq_none_iff, Pattern.first?_eq_none_iff]

end TokenStream
