import TokenStream.Proofs.Draining
import TokenStream.Proofs.LineBreaks
import TokenStream.Proofs.Synchronisation

/-!
# Scans are local

What a scan still yields at one of its places depends on the text ahead of that place.  Of the text
behind it, only one thing has a say: whether its last character is a backslash, and this only where
a line ending comes next.  So the rest of a scan is a scan of the rest, further along.

## Main definitions

* `Cursor.IsPlaceOf` — the places to which a scan of a source comes.
* `Scanner.onward` — the tokens that a scan still yields at one of its places.
* `LineEnding.IsContinuedAt` — a line ending at a position is taken back by a backslash before it.
* `tokensBeyond` — the tokens of a scan of the rest of a source.

## Main results

* `Cursor.IsPlaceOf.ahead_eq` — the pieces ahead of a place are those of the text ahead, given the
  character before it.
* `onward_eq_tokensBeyond` — **the rest of a scan is a scan of the rest**.
-/

namespace TokenStream

/-! ### The places of a scan -/

/-- The places to which a scan of a source comes, one piece after the other. -/
inductive Cursor.IsPlaceOf (source : String) : Cursor → Prop
  /-- A scan starts before the first piece. -/
  | start : IsPlaceOf source (Scanner.make source none Settings.default).cursor
  /-- From before a piece it comes to the place behind it. -/
  | next {offset : Nat} {piece : Piece} {rest : List Piece}
      (before : IsPlaceOf source ⟨offset, piece :: rest⟩) :
      IsPlaceOf source ⟨offset + piece.width, rest⟩

/-- A place divides the pieces into those behind it and those ahead. -/
theorem Cursor.IsPlaceOf.exists_split {source : String} {cursor : Cursor}
    (h : cursor.IsPlaceOf source) :
    ∃ passed, pieces Rule.table none source.toList = passed ++ cursor.ahead ∧
      cursor.offset = widthOf passed := by
  induction h with
  | start => exact ⟨[], rfl, rfl⟩
  | @next offset piece rest _ ih =>
    obtain ⟨passed, hsplit, hplace⟩ := ih
    refine ⟨passed ++ [piece], ?_, ?_⟩
    · rw [hsplit, List.append_assoc, List.singleton_append]
    · show offset + piece.width = widthOf (passed ++ [piece])
      rw [widthOf_append, ← hplace, widthOf_cons, widthOf_nil, Nat.add_zero]

/-- The pieces ahead of a place are those of the text ahead, given the character before it. -/
theorem Cursor.IsPlaceOf.ahead_eq {source : String} {cursor : Cursor}
    (h : cursor.IsPlaceOf source) :
    cursor.ahead = pieces Rule.table (charBefore? source.toList cursor.offset)
      (source.toList.drop cursor.offset) := by
  obtain ⟨passed, hsplit, hplace⟩ := h.exists_split
  obtain ⟨htext, hahead⟩ := pieces_split hsplit
  rw [hplace, htext, ← length_flatMap_chars, charBefore?_append, List.drop_left]
  rw [Option.or_none] at hahead
  exact hahead.symm

/-- The tokens that a scan with the default settings still yields at one of its places. -/
def Scanner.onward (source : String) (sourceFile : Option String) (cursor : Cursor) : List Token :=
  (Scanner.drain { Scanner.make source sourceFile Settings.default with cursor := cursor }
    .running).tokens

theorem Scanner.onward_eq (source : String) (sourceFile : Option String) (cursor : Cursor) :
    onward source sourceFile cursor = tokensOf cursor.offset cursor.ahead := by
  have hdrain := Cursor.drainFrom_lenient cursor.offset cursor.ahead
  exact congrArg Cursor.Drain.tokens hdrain

/-! ### Tokens on either side of a place -/

theorem Piece.offset_of_token? {piece : Piece} {offset : Nat} {token : Token}
    (h : piece.token? offset = some token) : token.offset = offset := by
  rcases piece with ⟨ending, _ | _⟩ | c | ⟨kind, chars⟩ | c <;> cases h <;> rfl

/-- The offsets of the tokens of pieces in a row lie where these pieces lie. -/
theorem offset_of_mem_tokensOf {offset : Nat} {ps : List Piece} {token : Token}
    (h : token ∈ tokensOf offset ps) :
    (offset : Int) ≤ token.offset ∧
      ((∀ piece ∈ ps, 0 < piece.width) → token.offset < (offset + widthOf ps : Nat)) := by
  obtain ⟨passed, piece, ahead, rfl, htoken⟩ := mem_tokensOf_iff.mp h
  rw [Piece.offset_of_token? htoken]
  refine ⟨by omega, fun hwidth => ?_⟩
  have hpos : 0 < piece.width := hwidth piece (by simp)
  rw [widthOf_append, widthOf_cons]
  omega

theorem width_pos_of_mem {rules : List Rule} {previous : Option Char} {text : List Char}
    {piece : Piece} (h : piece ∈ pieces rules previous text) : 0 < piece.width := by
  obtain ⟨before, c, rest, hheads⟩ := exists_heads_of_mem h
  exact List.length_pos_iff.mpr hheads.chars_ne_nil

/-- What a scan yields from a place on are its tokens from that offset on. -/
theorem Cursor.IsPlaceOf.onward_eq_filter {source : String} {cursor : Cursor}
    (h : cursor.IsPlaceOf source) (sourceFile : Option String) :
    Scanner.onward source sourceFile cursor =
      (scan source sourceFile Settings.default).tokens.filter
        fun token => (cursor.offset : Int) ≤ token.offset := by
  obtain ⟨passed, hsplit, hplace⟩ := h.exists_split
  have hbehind : ∀ token ∈ tokensOf 0 passed, ¬ (cursor.offset : Int) ≤ token.offset := by
    intro token htoken
    have hwidth : ∀ piece ∈ passed, 0 < piece.width := by
      intro piece hpiece
      have hmem : piece ∈ pieces Rule.table none source.toList := by
        rw [hsplit]
        exact List.mem_append_left _ hpiece
      exact width_pos_of_mem hmem
    have hlt := (offset_of_mem_tokensOf htoken).2 hwidth
    omega
  have hahead : ∀ token ∈ tokensOf cursor.offset cursor.ahead,
      (cursor.offset : Int) ≤ token.offset := fun token htoken => (offset_of_mem_tokensOf htoken).1
  rw [Scanner.onward_eq, scan_default_tokens, hsplit, tokensOf_append, Nat.zero_add, ← hplace,
    List.filter_append, List.filter_eq_nil_iff.mpr (by simpa using hbehind), List.nil_append,
    List.filter_eq_self.mpr (by simpa using hahead)]

/-! ### The character before a place -/

/-- A line ending starts at a position, and a backslash directly before it takes it back. -/
def LineEnding.IsContinuedAt (text : List Char) (i : Nat) (ending : LineEnding) : Prop :=
  ending.StartsAt text i ∧ charBefore? text i = some '\\'

/-- The tokens that a scan of what is left of a source after some characters yields by itself,
further along by these characters. -/
def tokensBeyond (source : String) (sourceFile : Option String) (n : Nat) : List Token :=
  (scan (String.ofList (source.toList.drop n)) sourceFile Settings.default).tokens.map
    (Token.shift n)

theorem tokensBeyond_eq (source : String) (sourceFile : Option String) (n : Nat) :
    tokensBeyond source sourceFile n =
      tokensOf n (pieces Rule.table none (source.toList.drop n)) := by
  rw [tokensBeyond, scan_default_tokens, String.toList_ofList, ← tokensOf_add, Nat.zero_add]

/-- Where no line ending comes next, the character before has no say. -/
theorem pieces_of_atHead?_eq_none {rules : List Rule} {text : List Char}
    (h : LineEnding.atHead? text = none) (previous : Option Char) :
    pieces rules previous text = pieces rules none text := by
  cases text with
  | nil => rw [pieces_nil, pieces_nil]
  | cons c rest =>
    have hhead : Piece.atHead rules previous c rest = Piece.atHead rules none c rest := by
      unfold Piece.atHead
      rw [h]
    rw [pieces_cons, pieces_cons, hhead]

/-- Behind a line ending the text is cut as if it stood alone. -/
theorem pieces_of_atHead?_eq_some {rules : List Rule} {text : List Char} {ending : LineEnding}
    (h : LineEnding.atHead? text = some ending) (previous : Option Char) :
    pieces rules previous text = .lineEnd ending (previous == some '\\') ::
      pieces rules none (text.drop ending.chars.length) := by
  cases text with
  | nil => contradiction
  | cons c rest =>
    have hheads : Piece.Heads rules previous c rest (.lineEnd ending (previous == some '\\')) :=
      .lineEnd ending h
    have hlast : ending.chars.getLast? ≠ some '\\' := by cases ending <;> decide
    rw [pieces_cons, hheads.atHead_eq]
    exact congrArg _ (pieces_of_ne_backslash _ hlast)

theorem drop_eq_cons_of_getElem? {text : List Char} {i : Nat} {c : Char}
    (h : text[i]? = some c) : text.drop i = c :: text.drop (i + 1) := by
  obtain ⟨hi, hc⟩ := List.getElem?_eq_some_iff.mp h
  rw [List.drop_eq_getElem_cons hi, hc]

/-- A line ending that starts at a position is what the text from there on starts with. -/
theorem LineEnding.StartsAt.atHead?_drop {text : List Char} {i : Nat} {ending : LineEnding}
    (h : ending.StartsAt text i) : atHead? (text.drop i) = some ending := by
  cases ending with
  | crlf =>
    obtain ⟨hcr, hlf⟩ := h
    rw [drop_eq_cons_of_getElem? hcr, drop_eq_cons_of_getElem? hlf]
    rfl
  | cr =>
    obtain ⟨hcr, hlf⟩ := h
    rw [drop_eq_cons_of_getElem? hcr, atHead?.eq_2]
    rintro rest hrest
    apply hlf
    rw [← List.head?_drop, hrest]
    rfl
  | lf =>
    rw [drop_eq_cons_of_getElem? h.1]
    rfl

/-- After a backslash, what the text goes on with as a line ending is one. -/
theorem LineEnding.isContinuedAt_of_atHead? {text : List Char} {i : Nat} {ending : LineEnding}
    (h : atHead? (text.drop i) = some ending) (hbefore : charBefore? text i = some '\\') :
    ending.IsContinuedAt text i := by
  refine ⟨?_, hbefore⟩
  have hi : i < text.length := by
    apply Nat.lt_of_not_le
    intro hge
    rw [List.drop_eq_nil_of_le hge] at h
    contradiction
  have hlength : (text.take i).length = i := by
    rw [List.length_take]
    omega
  have hlast : (text.take i).getLast? = some '\\' := by
    rw [← charBefore?_append (text.take i) (text.drop i), List.take_append_drop, hlength, hbefore]
  have hstarts : ending.StartsAt (text.take i ++ text.drop i) (text.take i).length :=
    startsAt_of_atHead? h fun hcr => by
      rw [hlast] at hcr
      contradiction
  rwa [List.take_append_drop, hlength] at hstarts

/-- **The rest of a scan is a scan of the rest.**  At every place to which a scan comes, the tokens
that it still yields, which are its tokens from this offset on, are those that a scan of the text
ahead yields by itself, further along.  The exception is a line ending after a backslash: then they
are those of the text behind the line ending. -/
theorem onward_eq_tokensBeyond {source : String} {cursor : Cursor} (h : cursor.IsPlaceOf source)
    (sourceFile : Option String) :
    let onward := Scanner.onward source sourceFile cursor
    onward = (scan source sourceFile Settings.default).tokens.filter
        (fun token => (cursor.offset : Int) ≤ token.offset) ∧
      (∀ ending : LineEnding, ending.IsContinuedAt source.toList cursor.offset →
        onward = tokensBeyond source sourceFile (cursor.offset + ending.chars.length)) ∧
      ((∀ ending : LineEnding, ¬ ending.IsContinuedAt source.toList cursor.offset) →
        onward = tokensBeyond source sourceFile cursor.offset) := by
  intro onward
  have honward : onward = tokensOf cursor.offset
      (pieces Rule.table (charBefore? source.toList cursor.offset)
        (source.toList.drop cursor.offset)) := by
    rw [← h.ahead_eq]
    exact Scanner.onward_eq source sourceFile cursor
  refine ⟨h.onward_eq_filter sourceFile, ?_, ?_⟩
  · rintro ending ⟨hstarts, hbackslash⟩
    rw [honward, tokensBeyond_eq, pieces_of_atHead?_eq_some hstarts.atHead?_drop, hbackslash,
      List.drop_drop]
    rfl
  · intro hnone
    rw [honward, tokensBeyond_eq]
    congr 1
    by_cases hbackslash : charBefore? source.toList cursor.offset = some '\\'
    · -- After a backslash anything may come next but a line ending.
      apply pieces_of_atHead?_eq_none
      cases hending : LineEnding.atHead? (source.toList.drop cursor.offset) with
      | none => rfl
      | some ending =>
        exact absurd (LineEnding.isContinuedAt_of_atHead? hending hbackslash) (hnone ending)
    · exact pieces_of_ne_backslash _ hbackslash

/-- Between a backslash and the line ending that it takes back, the rest of a scan is a scan of what
comes behind the line ending. -/
theorem onward_between_backslash_and_crlf :
    let cursor : Cursor := ⟨2, [.lineEnd .crlf true, .lexeme .identifier ['b']]⟩
    cursor.IsPlaceOf "a\\\r\nb" ∧ LineEnding.crlf.IsContinuedAt "a\\\r\nb".toList 2 ∧
      Scanner.onward "a\\\r\nb" none cursor = tokensBeyond "a\\\r\nb" none 4 := by
  intro cursor
  have hcursor : (Scanner.make "a\\\r\nb" none Settings.default).cursor =
      ⟨0, [.lexeme .identifier ['a'], .unknown '\\', .lineEnd .crlf true,
        .lexeme .identifier ['b']]⟩ := by decide +kernel
  have hstart : (Scanner.make "a\\\r\nb" none Settings.default).cursor.IsPlaceOf "a\\\r\nb" :=
    .start
  rw [hcursor] at hstart
  have hplace : cursor.IsPlaceOf "a\\\r\nb" := hstart.next.next
  have hcontinued : LineEnding.crlf.IsContinuedAt "a\\\r\nb".toList 2 := by
    unfold LineEnding.IsContinuedAt LineEnding.StartsAt
    decide
  exact ⟨hplace, hcontinued, (onward_eq_tokensBeyond hplace none).2.1 .crlf hcontinued⟩

end TokenStream
