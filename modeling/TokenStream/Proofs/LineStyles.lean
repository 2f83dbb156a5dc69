import TokenStream.Proofs.Draining
import TokenStream.Proofs.UnifiedText

/-!
# Styles of line endings

Whether the lines of a source end in line feeds, in carriage returns or in both makes no difference
to its tokens.  Two scans go side by side, one through the source and one through the source with
line feeds only: piece by piece they find the same, and they stand at places of which the second is
where the first one comes to lie when the text before it is brought into this form.

## Main definitions

* `Piece.unify` — a piece with line feeds only.
* `Token.unify` — a token in the source with line feeds only.

## Main results

* `Piece.Heads.unify` — the two scans find the same at one place.
* `pieces_unify` — **a source with line feeds only has the same pieces, brought into this form**.
* `scan_unify` — the same for the tokens of a scan.
-/

namespace TokenStream

open LineEnding

/-- A piece with line feeds only. -/
def Piece.unify : Piece → Piece
  | lineEnd _ continued => .lineEnd .lf continued
  | blank c => .blank c
  | lexeme kind chars => .lexeme kind (LineEnding.unify chars)
  | unknown c => .unknown c

/-- A token of a source, as it stands in the source with line feeds only. -/
def Token.unify (source : List Char) (token : Token) : Token where
  kind := token.kind
  text := String.ofList (LineEnding.unify token.text.toList)
  offset := (LineEnding.unify (source.take token.offset.toNat)).length

/-! ### Side by side through the pieces -/

section Side

variable {rules : List Rule} {previous previous' : Option Char} {c : Char} {rest : List Char}
  {piece : Piece}

/-- A line ending at the head becomes a line feed, and what follows it is brought into the form by
itself. -/
theorem LineEnding.unify_of_atHead? {text : List Char} {ending : LineEnding}
    (h : atHead? text = some ending) :
    LineEnding.unify text = '\n' :: LineEnding.unify (text.drop ending.chars.length) := by
  have hhead := atHead?_eq_some h
  cases ending with
  | crlf =>
    obtain ⟨rest, rfl⟩ := hhead
    rfl
  | cr =>
    obtain ⟨rest, rfl, hrest⟩ := hhead
    rw [unify_eq_unifyFrom, unify_eq_unifyFrom]
    exact congrArg ('\n' :: ·) (unifyFrom_eq_of_head? hrest true)
  | lf =>
    obtain ⟨rest, rfl⟩ := hhead
    rfl

/-- The characters of a piece of the text with line feeds only. -/
theorem Piece.Heads.chars_unify (h : Heads rules previous c rest piece) :
    piece.unify.chars = LineEnding.unify piece.chars := by
  cases h with
  | lineEnd ending => cases ending <;> rfl
  | blank hending => exact (unify_cons [] (ne_of_atHead?_eq_none hending).1).symm
  | lexeme => rfl
  | unknown hending => exact (unify_cons [] (ne_of_atHead?_eq_none hending).1).symm

/-- **Where a text starts with a piece, the text with line feeds only starts with the same piece,
brought into this form.** -/
theorem Piece.Heads.unify (h : Heads rules previous c rest piece)
    (hclear : ApostrophesClear (c :: rest))
    (hprevious : (previous' == some '\\') = (previous == some '\\')) :
    ∃ c' rest', LineEnding.unify (c :: rest) = c' :: rest' ∧
      Heads rules previous' c' rest' piece.unify := by
  cases h with
  | lineEnd ending hending =>
    refine ⟨'\n', _, unify_of_atHead? hending, ?_⟩
    rw [Piece.unify, ← hprevious]
    exact .lineEnd .lf rfl
  | blank hending hblank =>
    obtain ⟨hcr, hlf⟩ := ne_of_atHead?_eq_none hending
    exact ⟨c, _, unify_cons rest hcr, .blank (atHead?_eq_none _ hcr hlf) hblank⟩
  | lexeme rule chars hending hblank hmatch =>
    obtain ⟨hcr, hlf⟩ := ne_of_atHead?_eq_none hending
    have hmatch' := Rule.firstMatch?_unify rules hcr hclear
    rw [hmatch, unify_cons rest hcr] at hmatch'
    refine ⟨c, _, unify_cons rest hcr, ?_⟩
    rw [Piece.unify, ← Rule.classify_unify (Rule.mem_of_firstMatch? hmatch).2]
    exact .lexeme rule _ (atHead?_eq_none _ hcr hlf) hblank hmatch'
  | unknown hending hblank hmatch =>
    obtain ⟨hcr, hlf⟩ := ne_of_atHead?_eq_none hending
    have hmatch' := Rule.firstMatch?_unify rules hcr hclear
    rw [hmatch, unify_cons rest hcr] at hmatch'
    exact ⟨c, _, unify_cons rest hcr, .unknown (atHead?_eq_none _ hcr hlf) hblank hmatch'⟩

/-- The text after a piece is brought into the form by itself. -/
theorem Piece.Heads.unify_append (h : Heads rules previous c rest piece) {ahead : List Char}
    (htext : c :: rest = piece.chars ++ ahead) :
    LineEnding.unify (c :: rest) = piece.unify.chars ++ LineEnding.unify ahead := by
  rw [h.chars_unify, htext]
  exact LineEnding.unify_append (h.head?_ne_of_getLast? htext)

/-- The last character of a piece is a backslash before and after. -/
theorem Piece.Heads.getLast?_unify (h : Heads rules previous c rest piece) :
    (piece.unify.chars.getLast? == some '\\') = (piece.chars.getLast? == some '\\') := by
  rw [h.chars_unify, LineEnding.getLast?_unify]
  cases piece.chars.getLast? with
  | none => rfl
  | some last =>
    rw [Bool.eq_iff_iff, beq_iff_eq, beq_iff_eq, Option.map_some, Option.some.injEq,
      Option.some.injEq]
    exact plain_eq_iff (by decide) (by decide)

end Side

/-- **A text with line feeds only has the same pieces, brought into this form**, if the text before
it ends in a backslash on both sides or on none. -/
theorem pieces_unify {rules : List Rule} {previous previous' : Option Char} {text : List Char}
    (hclear : ApostrophesClear text)
    (hprevious : (previous' == some '\\') = (previous == some '\\')) :
    pieces rules previous' (unify text) = (pieces rules previous text).map Piece.unify := by
  fun_induction pieces rules previous text generalizing previous' with
  | case1 => rw [unify_nil, pieces_nil]; rfl
  | case2 previous c rest piece =>
    rename_i ih
    have hheads : Piece.Heads rules previous c rest piece :=
      Piece.heads_atHead rules previous c rest
    have hsplit : c :: rest = piece.chars ++ (c :: rest).drop piece.width :=
      (List.prefix_iff_eq_append.mp (Piece.chars_atHead_isPrefix rules previous c rest)).symm
    obtain ⟨c', rest', htext, hheads'⟩ := hheads.unify hclear hprevious
    have hahead : (c' :: rest').drop piece.unify.width = unify ((c :: rest).drop piece.width) := by
      rw [← htext, hheads.unify_append hsplit, Piece.width, List.drop_left]
    rw [hsplit] at hclear
    rw [htext, pieces_cons, hheads'.atHead_eq, hahead, ih hclear.of_append hheads.getLast?_unify]
    rfl

/-! ### Tokens -/

/-- A piece of the text with line feeds only yields the same token at the place that corresponds. -/
theorem Piece.Heads.token?_unify {rules : List Rule} {previous : Option Char} {c : Char}
    {rest : List Char} {piece : Piece} (h : Heads rules previous c rest piece) (text : List Char)
    (offset : Nat) :
    piece.unify.token? (LineEnding.unify (text.take offset)).length =
      (piece.token? offset).map (Token.unify text) := by
  cases h with
  | lineEnd ending =>
    cases previous == some '\\' with
    | true => rfl
    | false =>
      have hself : String.ofList (LineEnding.unify "\n".toList) = "\n" := by decide
      simp only [Piece.unify, Piece.token?, Option.map_some, Token.unify, hself]
      rfl
  | blank => rfl
  | lexeme rule chars =>
    simp only [Piece.unify, Piece.token?, Option.map_some, Token.unify, String.toList_ofList]
    rfl
  | unknown hending =>
    have hself : LineEnding.unify [c] = [c] := unify_cons [] (ne_of_atHead?_eq_none hending).1
    simp only [Piece.unify, Piece.token?, Option.map_some, Token.unify, String.toList_ofList, hself]
    rfl

/-- What has been passed at a place is the text up to there. -/
theorem take_widthOf {rules : List Rule} {previous : Option Char} {text : List Char}
    {passed ahead : List Piece} (h : pieces rules previous text = passed ++ ahead) :
    text.take (widthOf passed) = passed.flatMap Piece.chars := by
  rw [(pieces_split h).1, ← length_flatMap_chars, List.take_left]

/-- A piece leads from one place to the next, side by side. -/
theorem length_unify_take {rules : List Rule} {text : List Char} {passed ahead : List Piece}
    {piece : Piece} (h : pieces rules none text = passed ++ piece :: ahead) :
    (unify (text.take (widthOf (passed ++ [piece])))).length =
      (unify (text.take (widthOf passed))).length + piece.unify.width := by
  have hnext : pieces rules none text = (passed ++ [piece]) ++ ahead := by
    rw [h, List.append_assoc, List.singleton_append]
  obtain ⟨c, rest, -, hheads, hrest⟩ := exists_heads_of_split h
  -- The cut between the passed text and the piece is no cut inside a line ending.
  have hcut : (passed.flatMap Piece.chars).getLast? = some '\r' →
      piece.chars.head? ≠ some '\n' := by
    intro hlast hhead
    apply head?_ne_of_split h hlast
    rw [List.flatMap_cons, List.head?_append, hhead]
    rfl
  rw [take_widthOf hnext, take_widthOf h, List.flatMap_append, List.flatMap_singleton,
    LineEnding.unify_append hcut, List.length_append, ← hheads.chars_unify, Piece.width]

/-- The tokens ahead of a place, side by side. -/
theorem tokensOf_unify {rules : List Rule} {text : List Char} {passed ahead : List Piece}
    (h : pieces rules none text = passed ++ ahead) :
    tokensOf (unify (text.take (widthOf passed))).length (ahead.map Piece.unify) =
      (tokensOf (widthOf passed) ahead).map (Token.unify text) := by
  induction ahead generalizing passed with
  | nil => rfl
  | cons piece rest ih =>
    have hnext : pieces rules none text = (passed ++ [piece]) ++ rest := by
      rw [h, List.append_assoc, List.singleton_append]
    obtain ⟨c, chars, -, hheads, -⟩ := exists_heads_of_split h
    have htail := ih hnext
    rw [length_unify_take h, widthOf_append, widthOf_cons, widthOf_nil, Nat.add_zero] at htail
    rw [List.map_cons, tokensOf_cons, tokensOf_cons, List.map_append, htail,
      hheads.token?_unify text (widthOf passed)]
    cases piece.token? (widthOf passed) <;> rfl

/-- **The style of line endings makes no difference to the tokens.**  If no line ending comes close
after a single quote, a scan of the source with line feeds only yields the tokens of the source,
with line feeds only in their texts, each at the place where it then stands. -/
theorem scan_unify (source : String) (sourceFile : Option String)
    (h : ApostrophesClear source.toList) :
    (scan (String.ofList (unify source.toList)) sourceFile Settings.default).tokens =
      (scan source sourceFile Settings.default).tokens.map (Token.unify source.toList) := by
  have hpieces : pieces Rule.table none (unify source.toList) =
      (pieces Rule.table none source.toList).map Piece.unify := pieces_unify h rfl
  have hstart : pieces Rule.table none source.toList =
      [] ++ pieces Rule.table none source.toList := rfl
  rw [scan_default_tokens, scan_default_tokens, String.toList_ofList, hpieces]
  exact tokensOf_unify hstart

/-- Line endings of all styles: outside literals, after a backslash, and in a text in quotes where
backslashes stand before them. -/
theorem scan_unify_of_all_styles :
    ApostrophesClear "'a'  \r\n\\\r\n\"\\\r\n\\\r\"\rb\n".toList ∧
      (scan (String.ofList (unify "'a'  \r\n\\\r\n\"\\\r\n\\\r\"\rb\n".toList)) none
          Settings.default).tokens =
        (scan "'a'  \r\n\\\r\n\"\\\r\n\\\r\"\rb\n" none Settings.default).tokens.map
          (Token.unify "'a'  \r\n\\\r\n\"\\\r\n\\\r\"\rb\n".toList) :=
  have hclear : ApostrophesClear "'a'  \r\n\\\r\n\"\\\r\n\\\r\"\rb\n".toList := by
    decide +kernel
  ⟨hclear, scan_unify "'a'  \r\n\\\r\n\"\\\r\n\\\r\"\rb\n" none hclear⟩

end TokenStream
