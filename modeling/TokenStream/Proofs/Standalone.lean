import Mathlib.Data.List.TakeWhile
import TokenStream.Proofs.Draining
import TokenStream.Proofs.Escapes
import TokenStream.Proofs.LineBreaks

/-!
# Lexemes that stand alone

A lexeme is found in a context: the characters after it, the last quote of the whole source and the
rules that are tried before all have a say in where it ends and which rule it goes to.  Taken out of
its context it is nevertheless the same lexeme.  Two facts make it so, one for the rule that has
found it and one for the rules that have not: a rule recognises all of what it has recognised, and a
rule that recognises something still does when the text goes on.

## Main results

* `Rule.lexeme?_self` — a lexeme by itself is recognised as a whole.
* `Rule.isSome_lexeme?_append` — what follows a text does not keep a rule from recognising
  something at its head.
* `Rule.firstMatch?_self` — **the first match in a lexeme by itself is that lexeme**.
* `scan_text_of_token` — **a scan of the text of a token yields that token and nothing else**.
-/

namespace TokenStream

namespace Lexeme

variable {text lexeme front : List Char}

/-! ### Numbers -/

theorem integer?_eq_some_iff :
    integer? text = some lexeme ↔ text.takeWhile isDecimalDigit = lexeme ∧ lexeme ≠ [] := by
  unfold integer?
  split
  · next hnil =>
    rw [hnil]
    constructor
    · intro h
      contradiction
    · rintro ⟨rfl, hne⟩
      exact absurd rfl hne
  · next hne =>
    constructor
    · intro h
      cases h
      exact ⟨rfl, hne⟩
    · rintro ⟨rfl, -⟩
      rfl

theorem integer?_self (h : integer? text = some lexeme) : integer? lexeme = some lexeme := by
  obtain ⟨rfl, hne⟩ := integer?_eq_some_iff.mp h
  exact integer?_eq_some_iff.mpr ⟨List.takeWhile_idem, hne⟩

theorem isSome_integer?_append (back : List Char) (h : (integer? front).isSome) :
    (integer? (front ++ back)).isSome := by
  cases front with
  | nil => contradiction
  | cons c rest =>
    cases hc : isDecimalDigit c with
    | false =>
      rw [integer?_eq_none rest hc] at h
      contradiction
    | true =>
      rw [List.cons_append, integer?, List.takeWhile_cons_of_pos hc]
      rfl

/-- Behind a run of digits and a point, a second run of digits makes a float. -/
theorem float?_append_point {whole : List Char} (hwhole : integer? whole = some whole)
    (rest : List Char) :
    float? (whole ++ '.' :: rest) =
      (integer? rest).map fun fraction => whole ++ '.' :: fraction := by
  have hstop : isDecimalDigit '.' = false := by decide
  obtain ⟨htake, hne⟩ := integer?_eq_some_iff.mp hwhole
  have hdrop : whole.dropWhile isDecimalDigit = [] :=
    List.dropWhile_eq_nil_iff.mpr (List.takeWhile_eq_self_iff.mp htake)
  have hfront : integer? (whole ++ '.' :: rest) = some whole := by
    rw [integer?_eq_some_iff, takeWhile_append_cons hstop, htake]
    exact ⟨rfl, hne⟩
  rw [float?, hfront, dropWhile_append_cons hstop, hdrop, List.nil_append, Option.bind_eq_bind,
    Option.bind_some]
  cases hrest : integer? rest <;> simp only [hrest] <;> rfl

/-- There is no other way to be a float. -/
theorem exists_point_of_float? (h : float? text = some lexeme) :
    ∃ whole rest fraction, text = whole ++ '.' :: rest ∧ integer? whole = some whole ∧
      integer? rest = some fraction ∧ lexeme = whole ++ '.' :: fraction := by
  simp only [float?, Option.bind_eq_bind, Option.bind_eq_some_iff] at h
  obtain ⟨whole, hwhole, h⟩ := h
  split at h
  · next rest hrest =>
    simp only [Option.bind_eq_some_iff, Option.pure_def, Option.some.injEq] at h
    obtain ⟨fraction, hfraction, rfl⟩ := h
    refine ⟨whole, rest, fraction, ?_, integer?_self hwhole, hfraction, rfl⟩
    rw [← hrest, ← (integer?_eq_some_iff.mp hwhole).1, List.takeWhile_append_dropWhile]
  · contradiction

theorem float?_self (h : float? text = some lexeme) : float? lexeme = some lexeme := by
  obtain ⟨whole, rest, fraction, -, hwhole, hfraction, rfl⟩ := exists_point_of_float? h
  rw [float?_append_point hwhole, integer?_self hfraction]
  rfl

theorem isSome_float?_append (back : List Char) (h : (float? front).isSome) :
    (float? (front ++ back)).isSome := by
  obtain ⟨lexeme, hlexeme⟩ := Option.isSome_iff_exists.mp h
  obtain ⟨whole, rest, fraction, rfl, hwhole, hfraction, -⟩ := exists_point_of_float? hlexeme
  have hrest : (integer? (rest ++ back)).isSome :=
    isSome_integer?_append back (Option.isSome_of_eq_some hfraction)
  rw [List.append_assoc, List.cons_append, float?_append_point hwhole, Option.isSome_map]
  exact hrest

/-! ### Words -/

theorem boolean?_self (h : boolean? text = some lexeme) : boolean? lexeme = some lexeme :=
  boolean?_eq_some_iff.mpr ⟨(boolean?_eq_some_iff.mp h).1, List.prefix_rfl⟩

theorem isSome_boolean?_append (back : List Char) (h : (boolean? front).isSome) :
    (boolean? (front ++ back)).isSome := by
  obtain ⟨lexeme, hlexeme⟩ := Option.isSome_iff_exists.mp h
  obtain ⟨hform, hstarts⟩ := boolean?_eq_some_iff.mp hlexeme
  have hlonger : boolean? (front ++ back) = some lexeme :=
    boolean?_eq_some_iff.mpr ⟨hform, hstarts.trans (List.prefix_append front back)⟩
  exact Option.isSome_of_eq_some hlonger

theorem word?_self (h : word? text = some lexeme) : word? lexeme = some lexeme := by
  cases text with
  | nil => contradiction
  | cons c rest =>
    rw [word?] at h
    split at h
    · next hstart =>
      cases h
      rw [word?, if_pos hstart, List.takeWhile_idem]
    · contradiction

theorem isSome_word?_append (back : List Char) (h : (word? front).isSome) :
    (word? (front ++ back)).isSome := by
  cases front with
  | nil => contradiction
  | cons c rest =>
    rw [word?] at h
    split at h
    · next hstart =>
      rw [List.cons_append, word?, if_pos hstart]
      rfl
    · contradiction

/-! ### Literals in quotes -/

theorem toFirstQuote?_self {found : List Char} (h : toFirstQuote? text = some found) :
    toFirstQuote? found = some found := by
  fun_induction toFirstQuote? text generalizing found with
  | case1 => contradiction
  | case2 => cases h; rfl
  | case3 c rest ih =>
    obtain ⟨tail, htail, rfl⟩ := Option.map_eq_some_iff.mp h
    rw [toFirstQuote?, ih htail]
    rfl
  | case4 c rest hquote hescape ih =>
    obtain ⟨tail, htail, rfl⟩ := Option.map_eq_some_iff.mp h
    rw [toFirstQuote?_cons _ hquote (ne_backslash_of_toFirstQuote? hescape htail), ih htail]
    rfl

/-- There is a last quote where there is a quote. -/
theorem isSome_toLastQuote?_iff : (toLastQuote? text).isSome ↔ '\x22' ∈ text := by
  induction text with
  | nil => simp [toLastQuote?]
  | cons c rest ih =>
    rw [List.mem_cons, ← ih, toLastQuote?]
    cases toLastQuote? rest with
    | some found => simp
    | none =>
      by_cases hc : c = '\x22'
      · simp [hc]
      · simp [hc, Ne.symm hc]

theorem toLastQuote?_self {found : List Char} (h : toLastQuote? text = some found) :
    toLastQuote? found = some found := by
  fun_induction toLastQuote? text generalizing found with
  | case1 => contradiction
  | case2 c rest tail htail ih =>
    cases h
    rw [toLastQuote?, ih htail]
  | case3 rest _ _ => cases h; rfl
  | case4 => contradiction

theorem string?_self (h : string? text = some lexeme) : string? lexeme = some lexeme := by
  unfold string? at h
  split at h
  · next rest =>
    obtain ⟨found, hfound, rfl⟩ := Option.map_eq_some_iff.mp h
    rw [string?]
    rcases Option.or_eq_some_iff.mp hfound with hfirst | ⟨hnone, hlast⟩
    · rw [toFirstQuote?_self hfirst]
      rfl
    · -- A quote that closes the lexeme by itself would have closed it in its context.
      have hopen : toFirstQuote? found = none := by
        obtain ⟨more, rfl⟩ := toLastQuote?_isPrefix hlast
        cases hclosed : toFirstQuote? found with
        | none => rfl
        | some first =>
          rw [toFirstQuote?_append more hclosed] at hnone
          contradiction
      rw [hopen, toLastQuote?_self hlast]
      rfl
  · contradiction

/-- A text in quotes is recognised where two quotes are, one of them at the head. -/
theorem isSome_string?_iff :
    (string? text).isSome ↔ ∃ rest, text = '\x22' :: rest ∧ '\x22' ∈ rest := by
  constructor
  · intro h
    unfold string? at h
    split at h
    · next rest =>
      rw [Option.isSome_map] at h
      refine ⟨rest, rfl, ?_⟩
      obtain ⟨found, hfound⟩ := Option.isSome_iff_exists.mp h
      rcases Option.or_eq_some_iff.mp hfound with hfirst | ⟨-, hlast⟩
      · exact (toFirstQuote?_isPrefix hfirst).subset
          (List.mem_of_getLast? (toFirstQuote?_getLast hfirst))
      · exact (toLastQuote?_isPrefix hlast).subset
          (List.mem_of_getLast? (toLastQuote?_getLast hlast))
    · contradiction
  · rintro ⟨rest, rfl, hquote⟩
    rw [string?, Option.isSome_map, Option.isSome_or, isSome_toLastQuote?_iff.mpr hquote,
      Bool.or_true]

theorem isSome_string?_append (back : List Char) (h : (string? front).isSome) :
    (string? (front ++ back)).isSome := by
  obtain ⟨rest, rfl, hquote⟩ := isSome_string?_iff.mp h
  exact isSome_string?_iff.mpr ⟨rest ++ back, rfl, List.mem_append_left back hquote⟩

theorem character?_self (h : character? text = some lexeme) : character? lexeme = some lexeme := by
  rw [character?_eq_some_iff] at h ⊢
  rcases h with ⟨c, hc, rfl, -⟩ | ⟨c, hc, rfl, -, -⟩
  · exact .inl ⟨c, hc, rfl, List.prefix_rfl⟩
  · refine .inr ⟨c, hc, rfl, List.prefix_rfl, ?_⟩
    rintro ⟨-, hthird⟩
    contradiction

theorem isSome_character?_append (back : List Char) (h : (character? front).isSome) :
    (character? (front ++ back)).isSome := by
  obtain ⟨lexeme, hlexeme⟩ := Option.isSome_iff_exists.mp h
  rw [Option.isSome_iff_exists]
  rcases character?_eq_some_iff.mp hlexeme with ⟨c, hc, rfl, hstarts⟩ | ⟨c, hc, rfl, hstarts, -⟩
  · have hlonger := hstarts.trans (List.prefix_append front back)
    exact ⟨_, character?_eq_some_iff.mpr (.inl ⟨c, hc, rfl, hlonger⟩)⟩
  · have hlonger := hstarts.trans (List.prefix_append front back)
    by_cases hthird : c = '\\' ∧ (front ++ back)[3]? = some '\x27'
    · -- With a third quote the backslash escapes the second one, and more is recognised.
      obtain ⟨rfl, hthird⟩ := hthird
      obtain ⟨more, hmore⟩ := hlonger
      rw [← hmore] at hthird ⊢
      cases more with
      | nil => contradiction
      | cons d more =>
        obtain rfl : d = '\x27' := Option.some.inj hthird
        exact ⟨_, rfl⟩
    · exact ⟨_, character?_eq_some_iff.mpr (.inr ⟨c, hc, rfl, hlonger, hthird⟩)⟩

end Lexeme

namespace Rule

variable {rule : Rule} {rules : List Rule} {text lexeme front : List Char}

/-! ### Rules -/

/-- A lexeme by itself is recognised as a whole by the rule that has found it. -/
theorem lexeme?_self (h : rule.lexeme? text = some lexeme) : rule.lexeme? lexeme = some lexeme := by
  cases rule with
  | float => exact Lexeme.float?_self h
  | integer => exact Lexeme.integer?_self h
  | boolean => exact Lexeme.boolean?_self h
  | string => exact Lexeme.string?_self h
  | char => exact Lexeme.character?_self h
  | identifier => exact Lexeme.word?_self h

/-- What follows a text does not keep a rule from recognising something at its head. -/
theorem isSome_lexeme?_append (back : List Char) (h : (rule.lexeme? front).isSome) :
    (rule.lexeme? (front ++ back)).isSome := by
  cases rule with
  | float => exact Lexeme.isSome_float?_append back h
  | integer => exact Lexeme.isSome_integer?_append back h
  | boolean => exact Lexeme.isSome_boolean?_append back h
  | string => exact Lexeme.isSome_string?_append back h
  | char => exact Lexeme.isSome_character?_append back h
  | identifier => exact Lexeme.isSome_word?_append back h

theorem lexeme?_eq_none_of_isPrefix (hstarts : front <+: text) (h : rule.lexeme? text = none) :
    rule.lexeme? front = none := by
  obtain ⟨back, rfl⟩ := hstarts
  cases hfront : rule.lexeme? front with
  | none => rfl
  | some lexeme =>
    have hsome : (rule.lexeme? (front ++ back)).isSome :=
      isSome_lexeme?_append back (Option.isSome_of_eq_some hfront)
    rw [h] at hsome
    contradiction

/-- **The first match in a lexeme by itself is that lexeme.** -/
theorem firstMatch?_self (h : firstMatch? rules text = some (rule, lexeme)) :
    firstMatch? rules lexeme = some (rule, lexeme) := by
  have hstarts : lexeme <+: text := lexeme?_isPrefix (mem_of_firstMatch? h).2
  obtain ⟨before, candidate, after, hsplit, hfound, hbefore⟩ := List.findSome?_eq_some_iff.mp h
  obtain ⟨found, hmatch, hpair⟩ := Option.map_eq_some_iff.mp hfound
  obtain ⟨rfl, rfl⟩ := Prod.mk.inj hpair
  refine List.findSome?_eq_some_iff.mpr ⟨before, candidate, after, hsplit, ?_, ?_⟩
  · rw [lexeme?_self hmatch]
    rfl
  · intro other hother
    rw [lexeme?_eq_none_of_isPrefix hstarts (Option.map_eq_none_iff.mp (hbefore other hother))]
    rfl

theorem firstMatch?_eq_none_of_isPrefix (hstarts : front <+: text)
    (h : firstMatch? rules text = none) : firstMatch? rules front = none := by
  rw [firstMatch?, List.findSome?_eq_none_iff] at h ⊢
  intro other hother
  rw [lexeme?_eq_none_of_isPrefix hstarts (Option.map_eq_none_iff.mp (h other hother))]
  rfl

end Rule

/-! ### Pieces and tokens -/

/-- A text that starts with a piece of its own length has no other. -/
theorem Piece.Heads.pieces_eq {rules : List Rule} {previous : Option Char} {c : Char}
    {rest : List Char} {piece : Piece} (h : Heads rules previous c rest piece)
    (hchars : piece.chars = c :: rest) : pieces rules previous (c :: rest) = [piece] := by
  rw [pieces_cons, h.atHead_eq, Piece.width, hchars, List.drop_length, pieces_nil]

/-- The characters of a lexeme by themselves are that lexeme. -/
theorem Piece.Heads.pieces_lexeme {rules : List Rule} {previous : Option Char} {c : Char}
    {rest chars : List Char} {kind : Token.Kind}
    (h : Heads rules previous c rest (.lexeme kind chars)) :
    pieces rules none chars = [.lexeme kind chars] := by
  cases h with
  | lexeme rule _ hending hblank hmatch =>
    obtain ⟨more, hmore⟩ := Rule.lexeme?_isPrefix (Rule.mem_of_firstMatch? hmatch).2
    obtain ⟨d, tail, rfl⟩ := List.exists_cons_of_ne_nil
      (Rule.lexeme?_ne_nil (Rule.mem_of_firstMatch? hmatch).2)
    obtain ⟨rfl, -⟩ := List.cons.inj hmore
    obtain ⟨hcr, hlf⟩ := LineEnding.ne_of_atHead?_eq_none hending
    have halone : Heads rules none d tail (.lexeme (rule.classify (d :: tail)) (d :: tail)) :=
      .lexeme rule _ (LineEnding.atHead?_eq_none tail hcr hlf) hblank (Rule.firstMatch?_self hmatch)
    exact halone.pieces_eq rfl

/-- An unknown character by itself is unknown. -/
theorem Piece.Heads.pieces_unknown {rules : List Rule} {previous : Option Char} {c : Char}
    {rest : List Char} (h : Heads rules previous c rest (.unknown c)) :
    pieces rules none [c] = [.unknown c] := by
  cases h with
  | unknown hending hblank hmatch =>
    obtain ⟨hcr, hlf⟩ := LineEnding.ne_of_atHead?_eq_none hending
    have hstarts : [c] <+: c :: rest := ⟨rest, rfl⟩
    have halone : Heads rules none c [] (.unknown c) :=
      .unknown (LineEnding.atHead?_eq_none [] hcr hlf) hblank
        (Rule.firstMatch?_eq_none_of_isPrefix hstarts hmatch)
    exact halone.pieces_eq rfl

/-- The pieces of the text of a token yield that token, at the start. -/
theorem Piece.Heads.tokensOf_text {rules : List Rule} {previous : Option Char} {c : Char}
    {rest : List Char} {piece : Piece} (h : Heads rules previous c rest piece) {offset : Nat}
    {token : Token} (htoken : piece.token? offset = some token) :
    tokensOf 0 (pieces rules none token.text.toList) = [{ token with offset := 0 }] := by
  cases piece with
  | lineEnd ending continued =>
    cases continued with
    | true => contradiction
    | false =>
      -- The text of the token is a line feed, whatever the line ending is.
      cases htoken
      have halone : Heads rules none '\n' [] (.lineEnd .lf false) := .lineEnd .lf rfl
      have hpieces : pieces rules none "\n".toList = [.lineEnd .lf false] := halone.pieces_eq rfl
      rw [hpieces]
      rfl
  | blank d => contradiction
  | lexeme kind chars =>
    cases htoken
    rw [String.toList_ofList, h.pieces_lexeme]
    rfl
  | unknown d =>
    cases htoken
    have hd : d = c := by cases h; rfl
    subst hd
    rw [String.toList_ofList, h.pieces_unknown]
    rfl

/-- **A scan of the text of a token yields that token and nothing else.**  The token is recognised
without the source in which it has been found, whatever its kind. -/
theorem scan_text_of_token {source : String} {sourceFile : Option String} {token : Token}
    (h : token ∈ (scan source sourceFile Settings.default).tokens) (otherFile : Option String) :
    (scan token.text otherFile Settings.default).tokens = [{ token with offset := 0 }] ∧
      (scan token.text otherFile Settings.default).stopped = none := by
  refine ⟨?_, scan_default_stopped token.text otherFile⟩
  rw [scan_default_tokens] at h ⊢
  obtain ⟨passed, piece, ahead, hsplit, htoken⟩ := mem_tokensOf_iff.mp h
  obtain ⟨c, rest, -, hheads, -⟩ := exists_heads_of_split hsplit
  exact hheads.tokensOf_text htoken

/-- A text in quotes that closes at an escaped quote, because no other is left, does so also without
the characters around it. -/
theorem scan_text_of_lastQuote :
    (⟨.string, "\"a\\\"", 2⟩ : Token) ∈ (scan "x \"a\\\" 1" none Settings.default).tokens ∧
      (scan "\"a\\\"" none Settings.default).tokens = [⟨.string, "\"a\\\"", 0⟩] ∧
      (scan "\"a\\\"" none Settings.default).stopped = none :=
  have hmem : (⟨.string, "\"a\\\"", 2⟩ : Token) ∈
      (scan "x \"a\\\" 1" none Settings.default).tokens := by decide +kernel
  ⟨hmem, scan_text_of_token hmem none⟩

end TokenStream
