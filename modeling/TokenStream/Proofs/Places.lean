import TokenStream.Scan.Piece

/-!
# The places that a scan reaches

A scan stands between pieces: some of them are passed, the others are ahead.  Everything that is
proved about a scan at one of its places goes through the two facts of this module.  What lies
ahead is again cut into pieces by the same function, with the last passed character as the only
thing it knows of the past; and a piece yields the same token wherever it stands, but for the
offset.

## Main definitions

* `widthOf` — how many characters pieces in a row cover.
* `yieldOf` — what pieces in a row yield of one sort, such as tokens or reports.
* `Piece.Heads` — the ways in which a text starts with a piece.

## Main results

* `pieces_split` — **the pieces ahead of a place are the pieces of the text ahead of it**.
* `exists_heads_of_split` — a piece is the one that the text ahead of its place starts with.
* `mem_tokensOf_iff`, `exists_piece_at` — a token comes from one piece, and so does a character;
  `eq_of_split` says that it is one only.
* `exists_split_of_yieldOf`, `exists_split_of_tokensOf` — where a token or a report divides the
  others, its piece divides the pieces.
* `tokensOf_append`, `tokensOf_add` — the tokens of pieces that follow others.
-/

namespace TokenStream

/-- How many characters pieces in a row cover. -/
def widthOf : List Piece → Nat
  | [] => 0
  | piece :: rest => piece.width + widthOf rest

@[simp] theorem widthOf_nil : widthOf [] = 0 := rfl

@[simp] theorem widthOf_cons (piece : Piece) (rest : List Piece) :
    widthOf (piece :: rest) = piece.width + widthOf rest := rfl

@[simp] theorem widthOf_append (passed ahead : List Piece) :
    widthOf (passed ++ ahead) = widthOf passed + widthOf ahead := by
  induction passed with
  | nil => rw [List.nil_append, widthOf_nil, Nat.zero_add]
  | cons piece rest ih =>
    rw [List.cons_append, widthOf_cons, widthOf_cons, ih, Nat.add_assoc]

@[simp] theorem length_flatMap_chars (passed : List Piece) :
    (passed.flatMap Piece.chars).length = widthOf passed := by
  induction passed with
  | nil => rfl
  | cons piece rest ih => rw [List.flatMap_cons, List.length_append, ih, widthOf_cons, Piece.width]

/-- The pieces of a text cover as many characters as it has. -/
@[simp] theorem widthOf_pieces (rules : List Rule) (previous : Option Char) (text : List Char) :
    widthOf (pieces rules previous text) = text.length := by
  rw [← length_flatMap_chars, flatMap_chars_pieces]

/-! ### What is ahead of a place -/

/-- **The pieces ahead of a place are the pieces of the text ahead of it.**  Of the text that has
been passed, only its last character has a say in them. -/
theorem pieces_split {rules : List Rule} {previous : Option Char} {text : List Char}
    {passed ahead : List Piece} (h : pieces rules previous text = passed ++ ahead) :
    text = passed.flatMap Piece.chars ++ ahead.flatMap Piece.chars ∧
      pieces rules ((passed.flatMap Piece.chars).getLast?.or previous)
        (ahead.flatMap Piece.chars) = ahead := by
  have htext : text = passed.flatMap Piece.chars ++ ahead.flatMap Piece.chars := by
    rw [← List.flatMap_append, ← h, flatMap_chars_pieces]
  refine ⟨htext, ?_⟩
  clear htext
  -- The induction moves the place forward, so the text and the look-behind change with it.
  induction passed generalizing text previous with
  | nil =>
    rw [List.nil_append] at h
    rw [← h, flatMap_chars_pieces]
    simp
  | cons piece rest ih =>
    cases text with
    | nil => simp at h
    | cons c text =>
      rw [pieces_cons, List.cons_append] at h
      obtain ⟨hpiece, hrest⟩ := List.cons.inj h
      have hahead := ih hrest
      rw [hpiece] at hahead
      rw [List.flatMap_cons, List.getLast?_append]
      have hne : piece.chars ≠ [] := by
        rw [← hpiece]
        exact List.length_pos_iff.mp (Piece.width_atHead_pos rules previous c text)
      rw [List.getLast?_eq_some_getLast hne] at hahead ⊢
      rw [Option.or_assoc, Option.some_or]
      exact hahead

/-- The ways in which the text `c :: rest` starts with a piece, one for each sort of piece. -/
inductive Piece.Heads (rules : List Rule) (previous : Option Char) (c : Char) (rest : List Char) :
    Piece → Prop
  /-- A line ending comes first. -/
  | lineEnd (ending : LineEnding) (hending : LineEnding.atHead? (c :: rest) = some ending) :
      Heads rules previous c rest (.lineEnd ending (previous == some '\\'))
  /-- A blank that ends no line. -/
  | blank (hending : LineEnding.atHead? (c :: rest) = none) (hblank : isBlank c = true) :
      Heads rules previous c rest (.blank c)
  /-- What the first rule that recognises anything recognises. -/
  | lexeme (rule : Rule) (chars : List Char)
      (hending : LineEnding.atHead? (c :: rest) = none) (hblank : isBlank c = false)
      (hmatch : Rule.firstMatch? rules (c :: rest) = some (rule, chars)) :
      Heads rules previous c rest (.lexeme (rule.classify chars) chars)
  /-- A character with which no rule can do anything. -/
  | unknown (hending : LineEnding.atHead? (c :: rest) = none) (hblank : isBlank c = false)
      (hmatch : Rule.firstMatch? rules (c :: rest) = none) :
      Heads rules previous c rest (.unknown c)

/-- A text starts with its first piece in one of these ways. -/
theorem Piece.heads_atHead (rules : List Rule) (previous : Option Char) (c : Char)
    (rest : List Char) : Heads rules previous c rest (atHead rules previous c rest) := by
  unfold atHead
  split
  · next hending => exact .lineEnd _ hending
  · next hending =>
    split
    · next hblank => exact .blank hending hblank
    · next hblank =>
      rw [Bool.not_eq_true] at hblank
      split
      · next hmatch => exact .lexeme _ _ hending hblank hmatch
      · next hmatch => exact .unknown hending hblank hmatch

/-- A text that starts with a piece in one of these ways starts with that piece. -/
theorem Piece.Heads.atHead_eq {rules : List Rule} {previous : Option Char} {c : Char}
    {rest : List Char} {piece : Piece} (h : Heads rules previous c rest piece) :
    atHead rules previous c rest = piece := by
  cases h with
  | lineEnd ending hending => rw [atHead, hending]
  | blank hending hblank =>
    rw [atHead, hending]
    simp only [hblank, if_true]
  | lexeme rule chars hending hblank hmatch =>
    rw [atHead, hending]
    simp only [hblank, Bool.false_eq_true, if_false, hmatch]
  | unknown hending hblank hmatch =>
    rw [atHead, hending]
    simp only [hblank, Bool.false_eq_true, if_false, hmatch]

/-- A text starts with a piece that is not empty. -/
theorem Piece.Heads.chars_ne_nil {rules : List Rule} {previous : Option Char} {c : Char}
    {rest : List Char} {piece : Piece} (h : Heads rules previous c rest piece) :
    piece.chars ≠ [] := by
  cases h with
  | lineEnd ending => exact ending.chars_ne_nil
  | blank => exact List.cons_ne_nil _ _
  | lexeme rule chars hending hblank hmatch =>
    exact Rule.lexeme?_ne_nil (Rule.mem_of_firstMatch? hmatch).2
  | unknown => exact List.cons_ne_nil _ _

/-- A piece is the one that the text ahead of its place starts with. -/
theorem exists_heads_of_split {rules : List Rule} {previous : Option Char} {text : List Char}
    {passed ahead : List Piece} {piece : Piece}
    (h : pieces rules previous text = passed ++ piece :: ahead) :
    ∃ c rest, text = passed.flatMap Piece.chars ++ c :: rest ∧
      Piece.Heads rules ((passed.flatMap Piece.chars).getLast?.or previous) c rest piece ∧
      c :: rest = piece.chars ++ ahead.flatMap Piece.chars := by
  obtain ⟨htext, hahead⟩ := pieces_split h
  rw [List.flatMap_cons] at htext hahead
  cases hrest : piece.chars ++ ahead.flatMap Piece.chars with
  | nil => rw [hrest, pieces_nil] at hahead; contradiction
  | cons c rest =>
    rw [hrest] at htext hahead
    rw [pieces_cons] at hahead
    refine ⟨c, rest, htext, ?_, rfl⟩
    rw [← (List.cons.inj hahead).1]
    exact Piece.heads_atHead rules _ c rest

/-- Each piece of a text is one with which some text starts. -/
theorem exists_heads_of_mem {rules : List Rule} {previous : Option Char} {text : List Char}
    {piece : Piece} (h : piece ∈ pieces rules previous text) :
    ∃ before c rest, Piece.Heads rules before c rest piece := by
  obtain ⟨passed, ahead, hsplit⟩ := List.mem_iff_append.mp h
  obtain ⟨c, rest, -, hheads, -⟩ := exists_heads_of_split hsplit
  exact ⟨_, c, rest, hheads⟩

/-- Every character of pieces in a row belongs to one of them. -/
theorem exists_piece_at {ps : List Piece} {i : Nat} (h : i < widthOf ps) :
    ∃ passed piece ahead, ps = passed ++ piece :: ahead ∧ widthOf passed ≤ i ∧
      i < widthOf passed + piece.width := by
  induction ps generalizing i with
  | nil => simp at h
  | cons piece rest ih =>
    rw [widthOf_cons] at h
    by_cases hi : i < piece.width
    · exact ⟨[], piece, rest, rfl, by simp, by simpa using hi⟩
    · obtain ⟨passed, found, ahead, rfl, hle, hlt⟩ := ih (i := i - piece.width) (by omega)
      refine ⟨piece :: passed, found, ahead, rfl, ?_, ?_⟩ <;> rw [widthOf_cons] <;> omega

/-- The character at a position of a piece is one of the piece. -/
theorem mem_chars_of_split {rules : List Rule} {previous : Option Char} {text : List Char}
    {passed ahead : List Piece} {piece : Piece} {i : Nat} {c : Char}
    (h : pieces rules previous text = passed ++ piece :: ahead) (hle : widthOf passed ≤ i)
    (hlt : i < widthOf passed + piece.width) (hc : text[i]? = some c) : c ∈ piece.chars := by
  obtain ⟨htext, -⟩ := pieces_split h
  rw [htext, List.getElem?_append_right (by rwa [length_flatMap_chars]), length_flatMap_chars,
    List.flatMap_cons, List.getElem?_append_left (by rw [← Piece.width]; omega)] at hc
  exact List.mem_of_getElem? hc

/-- Pieces in a row that share a position are the same piece. -/
theorem eq_of_split {passed passed' ahead ahead' : List Piece} {piece piece' : Piece} {i : Nat}
    (h : passed ++ piece :: ahead = passed' ++ piece' :: ahead')
    (hle : widthOf passed ≤ i) (hlt : i < widthOf passed + piece.width)
    (hle' : widthOf passed' ≤ i) (hlt' : i < widthOf passed' + piece'.width) :
    piece = piece' := by
  rcases List.append_eq_append_iff.mp h with ⟨between, rfl, hahead⟩ | ⟨between, rfl, hahead⟩
  · cases between with
    | nil => exact (List.cons.inj hahead).1
    | cons first rest =>
      obtain ⟨rfl, -⟩ := List.cons.inj hahead
      rw [widthOf_append, widthOf_cons] at hle'
      omega
  · cases between with
    | nil => exact (List.cons.inj hahead).1.symm
    | cons first rest =>
      obtain ⟨rfl, -⟩ := List.cons.inj hahead
      rw [widthOf_append, widthOf_cons] at hle
      omega

/-! ### What pieces in a row yield -/

/-- What pieces in a row yield of one sort, the first of them at the given offset. -/
def yieldOf {α : Type} (yield? : Nat → Piece → Option α) (offset : Nat) : List Piece → List α
  | [] => []
  | piece :: rest => (yield? offset piece).toList ++ yieldOf yield? (offset + piece.width) rest

section Yield

variable {α : Type} {yield? : Nat → Piece → Option α}

@[simp] theorem yieldOf_nil (offset : Nat) : yieldOf yield? offset [] = [] := rfl

@[simp] theorem yieldOf_cons (offset : Nat) (piece : Piece) (rest : List Piece) :
    yieldOf yield? offset (piece :: rest) =
      (yield? offset piece).toList ++ yieldOf yield? (offset + piece.width) rest := rfl

/-- What pieces yield that follow others. -/
theorem yieldOf_append (offset : Nat) (passed ahead : List Piece) :
    yieldOf yield? offset (passed ++ ahead) =
      yieldOf yield? offset passed ++ yieldOf yield? (offset + widthOf passed) ahead := by
  induction passed generalizing offset with
  | nil => simp
  | cons piece rest ih =>
    rw [List.cons_append, yieldOf_cons, ih, yieldOf_cons, widthOf_cons, List.append_assoc,
      Nat.add_assoc]

/-- **What is yielded comes from one piece, what comes before it from the pieces before, and what
comes after it from the pieces after.** -/
theorem exists_split_of_yieldOf {offset : Nat} {ps : List Piece} {before after : List α} {x : α}
    (h : yieldOf yield? offset ps = before ++ x :: after) :
    ∃ passed piece ahead, ps = passed ++ piece :: ahead ∧
      yield? (offset + widthOf passed) piece = some x ∧
      yieldOf yield? offset passed = before ∧
      yieldOf yield? (offset + widthOf passed + piece.width) ahead = after := by
  induction ps generalizing offset before with
  | nil => simp at h
  | cons piece rest ih =>
    rw [yieldOf_cons] at h
    cases hpiece : yield? offset piece with
    | none =>
      rw [hpiece, Option.toList_none, List.nil_append] at h
      obtain ⟨passed, found, ahead, rfl, hfound, hbefore, hafter⟩ := ih h
      rw [Nat.add_assoc offset piece.width] at hfound hafter
      exact ⟨piece :: passed, found, ahead, rfl, hfound, by rw [yieldOf_cons, hpiece, hbefore]; rfl,
        hafter⟩
    | some y =>
      rw [hpiece, Option.toList_some, List.singleton_append] at h
      cases before with
      | nil =>
        obtain ⟨rfl, hafter⟩ := List.cons.inj h
        exact ⟨[], piece, rest, rfl, hpiece, rfl, hafter⟩
      | cons first before =>
        obtain ⟨rfl, hrest⟩ := List.cons.inj h
        obtain ⟨passed, found, ahead, rfl, hfound, hbefore, hafter⟩ := ih hrest
        rw [Nat.add_assoc offset piece.width] at hfound hafter
        exact ⟨piece :: passed, found, ahead, rfl, hfound,
          by rw [yieldOf_cons, hpiece, hbefore]; rfl, hafter⟩

/-- Something is yielded where a piece yields it. -/
theorem mem_yieldOf_iff {offset : Nat} {ps : List Piece} {x : α} :
    x ∈ yieldOf yield? offset ps ↔
      ∃ passed piece ahead, ps = passed ++ piece :: ahead ∧
        yield? (offset + widthOf passed) piece = some x := by
  constructor
  · intro h
    obtain ⟨before, after, hsplit⟩ := List.append_of_mem h
    obtain ⟨passed, piece, ahead, hps, hpiece, -, -⟩ := exists_split_of_yieldOf hsplit
    exact ⟨passed, piece, ahead, hps, hpiece⟩
  · rintro ⟨passed, piece, ahead, rfl, h⟩
    rw [yieldOf_append, yieldOf_cons, h]
    simp

end Yield

/-- The tokens of pieces in a row are one sort of what they yield. -/
theorem tokensOf_eq_yieldOf (offset : Nat) (ps : List Piece) :
    tokensOf offset ps = yieldOf Piece.token? offset ps := by
  induction ps generalizing offset with
  | nil => rfl
  | cons piece rest ih => rw [tokensOf_cons, yieldOf_cons, ih]

/-- The reports on pieces in a row are another. -/
theorem eventsOf_eq_yieldOf (offset : Nat) (ps : List Piece) :
    eventsOf offset ps = yieldOf Piece.event? offset ps := by
  induction ps generalizing offset with
  | nil => rfl
  | cons piece rest ih => rw [eventsOf_cons, yieldOf_cons, ih]

/-- The tokens of pieces that follow others. -/
theorem tokensOf_append (offset : Nat) (passed ahead : List Piece) :
    tokensOf offset (passed ++ ahead) =
      tokensOf offset passed ++ tokensOf (offset + widthOf passed) ahead := by
  simp only [tokensOf_eq_yieldOf]
  exact yieldOf_append offset passed ahead

/-- A token comes from one piece. -/
theorem mem_tokensOf_iff {offset : Nat} {ps : List Piece} {token : Token} :
    token ∈ tokensOf offset ps ↔
      ∃ passed piece ahead, ps = passed ++ piece :: ahead ∧
        piece.token? (offset + widthOf passed) = some token := by
  rw [tokensOf_eq_yieldOf]
  exact mem_yieldOf_iff

/-- Where a token divides the others, its piece divides the pieces. -/
theorem exists_split_of_tokensOf {ps : List Piece} {before after : List Token} {token : Token}
    (h : tokensOf 0 ps = before ++ token :: after) :
    ∃ passed piece ahead, ps = passed ++ piece :: ahead ∧
      piece.token? (widthOf passed) = some token ∧ tokensOf 0 passed = before ∧
      tokensOf (widthOf passed + piece.width) ahead = after := by
  rw [tokensOf_eq_yieldOf] at h
  obtain ⟨passed, piece, ahead, hps, hpiece, hbefore, hafter⟩ := exists_split_of_yieldOf h
  rw [← tokensOf_eq_yieldOf] at hbefore hafter
  rw [Nat.zero_add] at hpiece hafter
  exact ⟨passed, piece, ahead, hps, hpiece, hbefore, hafter⟩

/-- A piece further along yields the same token further along. -/
theorem Piece.token?_add (distance offset : Nat) (piece : Piece) :
    piece.token? (offset + distance) = (piece.token? offset).map (Token.shift distance) := by
  rcases piece with ⟨ending, _ | _⟩ | c | ⟨kind, chars⟩ | c <;> simp [Piece.token?, Token.shift]

/-- Pieces further along yield the same tokens further along. -/
theorem tokensOf_add (distance offset : Nat) (ps : List Piece) :
    tokensOf (offset + distance) ps = (tokensOf offset ps).map (Token.shift distance) := by
  induction ps generalizing offset with
  | nil => rfl
  | cons piece rest ih =>
    rw [tokensOf_cons, tokensOf_cons, List.map_append, ← ih, Piece.token?_add,
      Nat.add_right_comm]
    cases piece.token? offset <;> rfl

end TokenStream
