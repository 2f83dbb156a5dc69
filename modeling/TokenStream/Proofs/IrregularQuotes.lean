import TokenStream.Proofs.MaximalMunch

/-!
# Irregular quotes

Two sorts of tokens are signs of a quote that has lost its partner: a double quote that stands alone
as an unknown character, and a text in quotes that closes at an escaped quote because no other is
left.  Either of them is a sign that the scan has come to the last quote of the source.  So a source
has at most one of them, and whatever comes behind it holds no double quote at all, not even as a
character in single quotes.

## Main definitions

* `Token.IsIrregular` — a token of one of these sorts.
* `LastQuoteAt` — the last double quote of a text stands at a position.
* `Token.ExhaustsQuotes` — a token has the last double quote of its source.

## Main results

* `Token.IsIrregular.exhaustsQuotes` — **an irregular token has the last double quote**.
* `scan_irregular_quotes` — **a scan has at most one irregular token, which ends with the last
  double quote of the source**.
-/

namespace TokenStream

/-- A token with a quote that has lost its partner: a double quote by itself, or a text whose
closing quote comes right behind an odd number of backslashes. -/
def Token.IsIrregular (token : Token) : Prop :=
  (token.kind = .unknown ∧ token.text = "\"") ∨
    (token.kind = .string ∧ trailingBackslashes token.text.toList.dropLast % 2 = 1)

instance (token : Token) : Decidable token.IsIrregular :=
  inferInstanceAs (Decidable (_ ∨ _))

/-- The last double quote of a text stands at a position. -/
structure LastQuoteAt (text : List Char) (q : Nat) : Prop where
  /-- A double quote stands there. -/
  quote : text[q]? = some '\x22'
  /-- None stands later. -/
  final : ∀ r, q < r → text[r]? ≠ some '\x22'

/-- A token of a source has the last of its double quotes, and the tokens behind it have none. -/
structure Token.ExhaustsQuotes (source : List Char) (token : Token) (behind : List Token) : Prop
    where
  /-- The token ends with a double quote. -/
  ends : token.text.toList.getLast? = some '\x22'
  /-- This is the last one of the source. -/
  last : ∃ q, LastQuoteAt source q ∧ token.stopIn source = q + 1
  /-- No token behind holds a double quote, whatever its kind. -/
  free : ∀ later ∈ behind, '\x22' ∉ later.text.toList

/-! ### Behind an irregular token -/

variable {token : Token}

/-- An irregular token ends with a double quote, and if its kind fits it, none is left behind it. -/
theorem Token.IsIrregular.quote_not_mem {ahead : List Char} (h : token.IsIrregular)
    (hfits : token.kind.Fits token.text.toList ahead) :
    token.text.toList.getLast? = some '\x22' ∧ '\x22' ∉ ahead := by
  rcases h with ⟨hkind, htext⟩ | ⟨hkind, hodd⟩
  · rw [hkind] at hfits
    obtain ⟨c, hc, hunknown⟩ := hfits
    have hquote : "\"".toList = ['\x22'] := by decide
    rw [htext, hquote] at hc ⊢
    obtain rfl : '\x22' = c := (List.cons.inj hc).1
    exact ⟨rfl, hunknown.doubleQuote rfl⟩
  · rw [hkind] at hfits
    obtain ⟨body, hbody, -, hlast⟩ := hfits
    rw [hbody, ← List.cons_append] at hodd ⊢
    rw [List.dropLast_concat, trailingBackslashes_quote_cons] at hodd
    exact ⟨List.getLast?_concat, hlast hodd⟩

section Places

variable {text : List Char} {passed ahead : List Piece} {piece : Piece}

/-- An irregular token ends with the last double quote of the source. -/
theorem Token.IsIrregular.lastQuoteAt (h : token.IsIrregular)
    (hsplit : pieces Rule.table none text = passed ++ piece :: ahead)
    (htoken : piece.token? (widthOf passed) = some token) :
    ∃ q, LastQuoteAt text q ∧ token.stopIn text = q + 1 := by
  obtain ⟨hends, hnone⟩ := h.quote_not_mem (fits_of_split hsplit htoken)
  have hkind : token.kind ≠ .endOfLine := by
    rcases h with ⟨hkind, -⟩ | ⟨hkind, -⟩
    · rw [hkind]; decide
    · rw [hkind]; decide
  rw [Piece.toList_text_of_token? htoken hkind] at hends
  rw [← drop_stopIn_of_split hsplit htoken] at hnone
  obtain ⟨-, -, hstop⟩ := token_of_split hsplit htoken
  obtain ⟨body, hbody⟩ := List.getLast?_eq_some_iff.mp hends
  have hwidth : piece.width = body.length + 1 := by
    rw [Piece.width, hbody, List.length_append, List.length_singleton]
  refine ⟨widthOf passed + body.length, ⟨?_, ?_⟩, by omega⟩
  · obtain ⟨htext, -⟩ := pieces_split hsplit
    rw [htext, List.getElem?_append_right (by rw [length_flatMap_chars]; omega),
      length_flatMap_chars, Nat.add_sub_cancel_left, List.flatMap_cons, hbody, List.append_assoc,
      List.getElem?_append_right (Nat.le_refl _), Nat.sub_self]
    rfl
  · intro r hr hquote
    apply hnone
    have hat : (text.drop (token.stopIn text))[r - token.stopIn text]? = some '\x22' := by
      rw [List.getElem?_drop, ← hquote]
      congr 1
      omega
    exact List.mem_of_getElem? hat

/-- A double quote in the text of a token is a character of its piece: the text of a line ending,
which may differ from its characters, has none. -/
theorem Piece.quote_mem_of_token? {offset : Nat} (h : piece.token? offset = some token)
    (hquote : '\x22' ∈ token.text.toList) : '\x22' ∈ piece.chars := by
  by_cases hkind : token.kind = .endOfLine
  · cases piece with
    | lineEnd ending continued =>
      cases continued with
      | true => contradiction
      | false =>
        cases h
        have hnone : '\x22' ∉ "\n".toList := by decide
        exact absurd hquote hnone
    | blank => contradiction
    | lexeme kind chars => cases h; rwa [String.toList_ofList] at hquote
    | unknown => cases h; contradiction
  · rwa [toList_text_of_token? h hkind] at hquote

/-- **An irregular token has the last double quote of its source.** -/
theorem Token.IsIrregular.exhaustsQuotes {before behind : List Token} (h : token.IsIrregular)
    (htokens : tokensOf 0 (pieces Rule.table none text) = before ++ token :: behind) :
    token.ExhaustsQuotes text behind := by
  obtain ⟨passed, piece, ahead, hsplit, hpiece, -, rfl⟩ := exists_split_of_tokensOf htokens
  obtain ⟨hends, hnone⟩ := h.quote_not_mem (fits_of_split hsplit hpiece)
  refine ⟨hends, h.lastQuoteAt hsplit hpiece, ?_⟩
  intro later hlater hquote
  obtain ⟨between, piece', more, rfl, hpiece'⟩ := mem_tokensOf_iff.mp hlater
  apply hnone
  exact List.mem_flatMap.mpr ⟨piece', by simp, Piece.quote_mem_of_token? hpiece' hquote⟩

end Places

/-- In a list where nothing behind an element of some sort is of this sort, at most one element
is. -/
theorem countP_le_one {α : Type} {p : α → Bool} {xs : List α}
    (h : ∀ before x behind, xs = before ++ x :: behind → p x = true → ∀ y ∈ behind, p y = false) :
    xs.countP p ≤ 1 := by
  cases hfirst : xs.find? p with
  | none =>
    have hzero : xs.countP p = 0 := List.countP_eq_zero.mpr (List.find?_eq_none.mp hfirst)
    omega
  | some x =>
    obtain ⟨hx, before, behind, rfl, hbefore⟩ := List.find?_eq_some_iff_append.mp hfirst
    have hzero : before.countP p = 0 := List.countP_eq_zero.mpr (by simpa using hbefore)
    have hzero' : behind.countP p = 0 :=
      List.countP_eq_zero.mpr (by simpa using h before x behind rfl hx)
    rw [List.countP_append, List.countP_cons_of_pos hx, hzero, hzero']

/-- **A scan has at most one irregular token.**  The last double quote of the source is the last
character of that token, and no token behind it, of whatever kind, holds a double quote. -/
theorem scan_irregular_quotes (source : String) (sourceFile : Option String) :
    (scan source sourceFile Settings.default).tokens.countP (·.IsIrregular) ≤ 1 ∧
      ∀ before token behind,
        (scan source sourceFile Settings.default).tokens = before ++ token :: behind →
          token.IsIrregular → token.ExhaustsQuotes source.toList behind := by
  rw [scan_default_tokens]
  refine ⟨countP_le_one ?_, fun before token behind htokens h => h.exhaustsQuotes htokens⟩
  intro before token behind htokens hirregular later hlater
  have hfree : '\x22' ∉ later.text.toList :=
    ((of_decide_eq_true hirregular).exhaustsQuotes htokens).free later hlater
  rw [decide_eq_false_iff_not]
  intro hlater'
  -- An irregular token behind another would hold a double quote of its own.
  obtain ⟨front, back, rfl⟩ := List.append_of_mem hlater
  rw [← List.cons_append, ← List.append_assoc] at htokens
  exact hfree (List.mem_of_getLast? (hlater'.exhaustsQuotes htokens).ends)

/-- A text that closes at an escaped quote is the last token with a quote, whatever comes behind. -/
example : ((scan "\"a\" 'b' \"c\\\" 'd' x" none Settings.default).tokens.filter
    (·.IsIrregular)).map Token.offset = [8] := by decide +kernel

end TokenStream
