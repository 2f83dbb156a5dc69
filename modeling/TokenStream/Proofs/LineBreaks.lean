import TokenStream.Proofs.Forms
import TokenStream.Proofs.Places

/-!
# Line breaks in a text

Where the line endings of a text are can be read from its characters alone, without scanning it:
a carriage return starts one, and so does a line feed that has no carriage return before it.  A
scan finds a line ending only where there is one, because no place that it reaches lies between
a carriage return and its line feed.

## Main definitions

* `charBefore?` — the character before a position.
* `LineEnding.StartsAt` — a line ending of some form starts at a position.

## Main results

* `head?_ne_of_split` — **no place of a scan lies inside a carriage return and line feed**.
* `LineEnding.startsAt_of_atHead?` — where a text starts with a line ending, there is one.
* `continued_of_split` — a scan takes a line ending for continued if a backslash stands before it.
-/

namespace TokenStream

/-- The character before a position of a text, if there is one. -/
def charBefore? (text : List Char) (i : Nat) : Option Char := if i = 0 then none else text[i - 1]?

/-- The character before a place is the last that was passed. -/
theorem charBefore?_append (passed ahead : List Char) :
    charBefore? (passed ++ ahead) passed.length = passed.getLast? := by
  rcases List.eq_nil_or_concat passed with rfl | ⟨before, last, rfl⟩
  · rfl
  · simp [charBefore?]

namespace LineEnding

/-- A line ending starts at a position of a text.  A carriage return takes the line feed after
it along, so such a line feed starts nothing. -/
def StartsAt (text : List Char) (i : Nat) : LineEnding → Prop
  | crlf => text[i]? = some '\r' ∧ text[i + 1]? = some '\n'
  | cr => text[i]? = some '\r' ∧ text[i + 1]? ≠ some '\n'
  | lf => text[i]? = some '\n' ∧ charBefore? text i ≠ some '\r'

/-- Two characters decide about a line ending. -/
theorem atHead?_cons_cons (c d : Char) (rest : List Char) :
    atHead? (c :: d :: rest) =
      if c = '\r' then (if d = '\n' then some crlf else some cr)
      else if c = '\n' then some lf else none := by
  unfold atHead?
  split
  · next heq =>
    obtain ⟨rfl, htail⟩ := List.cons.inj heq
    obtain ⟨rfl, -⟩ := List.cons.inj htail
    rfl
  · next hne heq =>
    obtain ⟨rfl, rfl⟩ := List.cons.inj heq
    rw [if_pos rfl, if_neg fun hd => hne rest (by rw [hd])]
  · next heq =>
    obtain ⟨rfl, -⟩ := List.cons.inj heq
    rfl
  · next hcr hlf =>
    rw [if_neg fun hc => hcr (d :: rest) (by rw [hc]),
      if_neg fun hc => hlf (d :: rest) (by rw [hc])]

/-- The head of a text that starts with a line ending of a given form. -/
theorem atHead?_eq_some {text : List Char} {ending : LineEnding} (h : atHead? text = some ending) :
    match ending with
    | crlf => ∃ rest, text = '\r' :: '\n' :: rest
    | cr => ∃ rest, text = '\r' :: rest ∧ rest.head? ≠ some '\n'
    | lf => ∃ rest, text = '\n' :: rest := by
  unfold atHead? at h
  split at h
  · next rest => cases h; exact ⟨rest, rfl⟩
  · next rest hne =>
    cases h
    refine ⟨rest, rfl, fun hhead => ?_⟩
    obtain ⟨tail, rfl⟩ := List.head?_eq_some_iff.mp hhead
    exact hne tail rfl
  · next rest => cases h; exact ⟨rest, rfl⟩
  · contradiction

/-- A text that starts with no line ending starts with another character. -/
theorem ne_of_atHead?_eq_none {c : Char} {rest : List Char} (h : atHead? (c :: rest) = none) :
    c ≠ '\r' ∧ c ≠ '\n' := by
  cases rest with
  | nil => exact ⟨by rintro rfl; contradiction, by rintro rfl; contradiction⟩
  | cons d rest =>
    rw [atHead?_cons_cons] at h
    split at h
    · split at h <;> contradiction
    · next hcr =>
      refine ⟨hcr, fun hlf => ?_⟩
      rw [if_pos hlf] at h
      contradiction

/-- A text that starts with another character starts with no line ending. -/
theorem atHead?_eq_none {c : Char} (rest : List Char) (hcr : c ≠ '\r') (hlf : c ≠ '\n') :
    atHead? (c :: rest) = none := by
  cases hending : atHead? (c :: rest) with
  | none => rfl
  | some ending =>
    obtain ⟨more, hmore⟩ := chars_isPrefix hending
    cases ending <;> cases hmore <;> contradiction

/-- A line ending that a text starts with starts at its place, unless the place is between a
carriage return and its line feed. -/
theorem startsAt_of_atHead? {passed ahead : List Char} {ending : LineEnding}
    (h : atHead? ahead = some ending)
    (hplace : passed.getLast? = some '\r' → ahead.head? ≠ some '\n') :
    ending.StartsAt (passed ++ ahead) passed.length := by
  have hhead := atHead?_eq_some h
  cases ending with
  | crlf =>
    obtain ⟨rest, rfl⟩ := hhead
    simp [StartsAt]
  | cr =>
    obtain ⟨rest, rfl, hrest⟩ := hhead
    refine ⟨by simp, ?_⟩
    rw [List.getElem?_append_right (by omega), Nat.add_sub_cancel_left, List.getElem?_cons_succ,
      ← List.head?_eq_getElem?]
    exact hrest
  | lf =>
    obtain ⟨rest, rfl⟩ := hhead
    refine ⟨by simp, fun hbefore => ?_⟩
    rw [charBefore?_append] at hbefore
    exact hplace hbefore rfl

end LineEnding

/-! ### Places of a scan -/

/-- The character before a place of a scan is the last that was passed. -/
theorem charBefore?_of_split {rules : List Rule} {text : List Char} {passed ahead : List Piece}
    (h : pieces rules none text = passed ++ ahead) :
    charBefore? text (widthOf passed) = (passed.flatMap Piece.chars).getLast? := by
  obtain ⟨htext, -⟩ := pieces_split h
  rw [htext, ← length_flatMap_chars, charBefore?_append]

/-- A line ending is continued if a backslash stands before it. -/
theorem continued_of_split {rules : List Rule} {text : List Char} {passed ahead : List Piece}
    {ending : LineEnding} {continued : Bool}
    (h : pieces rules none text = passed ++ .lineEnd ending continued :: ahead) :
    continued = (charBefore? text (widthOf passed) == some '\\') := by
  obtain ⟨c, rest, -, hheads, -⟩ := exists_heads_of_split h
  rw [charBefore?_of_split h]
  cases hheads with
  | lineEnd => rw [Option.or_none]

/-- After a piece that ends in a carriage return there is no line feed. -/
theorem Piece.Heads.head?_ne_of_getLast? {rules : List Rule} {previous : Option Char} {c : Char}
    {rest ahead : List Char} {piece : Piece} (h : Piece.Heads rules previous c rest piece)
    (htext : c :: rest = piece.chars ++ ahead) (hlast : piece.chars.getLast? = some '\r') :
    ahead.head? ≠ some '\n' := by
  cases h with
  | lineEnd ending hending =>
    cases ending with
    | crlf => simp [chars, LineEnding.chars] at hlast
    | cr =>
      obtain ⟨tail, htail, hne⟩ := LineEnding.atHead?_eq_some hending
      simp only [chars, LineEnding.chars, List.cons_append, List.nil_append] at htext
      rw [htail] at htext
      rwa [← (List.cons.inj htext).2]
    | lf => simp [chars, LineEnding.chars] at hlast
  | blank hending =>
    simp only [chars, List.getLast?_singleton, Option.some.injEq] at hlast
    exact absurd hlast (LineEnding.ne_of_atHead?_eq_none hending).1
  | lexeme rule found hending hblank hmatch =>
    -- No lexeme ends in a carriage return, whatever its rule.
    have hend := Rule.canEnd_getLast (Rule.mem_of_firstMatch? hmatch).2 hlast
    cases rule <;> exact absurd hend (by decide)
  | unknown hending =>
    simp only [chars, List.getLast?_singleton, Option.some.injEq] at hlast
    exact absurd hlast (LineEnding.ne_of_atHead?_eq_none hending).1

/-- The last character that was passed is the last of the last piece. -/
theorem exists_concat_of_getLast? {rules : List Rule} {previous : Option Char} {text : List Char}
    {passed ahead : List Piece} {last : Char} (h : pieces rules previous text = passed ++ ahead)
    (hlast : (passed.flatMap Piece.chars).getLast? = some last) :
    ∃ before piece, passed = before ++ [piece] ∧ piece.chars.getLast? = some last ∧
      pieces rules previous text = before ++ piece :: ahead := by
  rcases List.eq_nil_or_concat passed with rfl | ⟨before, piece, rfl⟩
  · simp at hlast
  · rw [List.concat_eq_append] at h hlast ⊢
    rw [List.append_assoc, List.singleton_append] at h
    obtain ⟨c, rest, -, hheads, -⟩ := exists_heads_of_split h
    rw [List.flatMap_append, List.getLast?_append, List.flatMap_singleton,
      List.getLast?_eq_some_getLast hheads.chars_ne_nil, Option.some_or,
      ← List.getLast?_eq_some_getLast] at hlast
    exact ⟨before, piece, rfl, hlast, h⟩

/-- **No place of a scan lies inside a carriage return and line feed.** -/
theorem head?_ne_of_split {rules : List Rule} {text : List Char} {passed ahead : List Piece}
    (h : pieces rules none text = passed ++ ahead)
    (hlast : (passed.flatMap Piece.chars).getLast? = some '\r') :
    (ahead.flatMap Piece.chars).head? ≠ some '\n' := by
  obtain ⟨before, piece, rfl, hpiece, hsplit⟩ := exists_concat_of_getLast? h hlast
  obtain ⟨c, rest, -, hheads, hrest⟩ := exists_heads_of_split hsplit
  exact hheads.head?_ne_of_getLast? hrest hpiece

end TokenStream
