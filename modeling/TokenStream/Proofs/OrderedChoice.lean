/-!
# Patterns and their search

A pattern says in which ways a text may start.  A search with backtracking comes to these ways one
after the other: of two alternatives it tries the first one first, and it repeats something as often
as it can before it makes do with less.  What it comes to first is what a pattern recognises, and it
recognises nothing only if no way leads to an end.

So the meaning of a pattern is the list of all starts of a text that it matches, in the order in
which the search comes to them.

## Main definitions

* `Pattern` — patterns of single characters, sequences, alternatives and repetitions.
* `Pattern.search` — all that a search comes to, in its order.
* `Pattern.Matches` — what it means for a pattern to match a part of a text, without any order.

## Main results

* `Pattern.mem_search_iff` — **a search comes to everything that matches, and to nothing else**.
* `Pattern.search_seq_many` — a search for a repetition and what follows it, one round at a time.
-/

namespace TokenStream

/-- A pattern for the start of a text. -/
inductive Pattern
  /-- One character of a set. -/
  | one (set : Char → Bool)
  /-- Nothing, where the next character, if there is one, is not of a set. -/
  | notAhead (set : Char → Bool)
  /-- One pattern and then another. -/
  | seq (first second : Pattern)
  /-- One pattern or, as a second choice, another. -/
  | either (first second : Pattern)
  /-- A pattern any number of times, as often as possible. -/
  | many (body : Pattern)

namespace Pattern

/-! ### The search -/

/-- Goes on with another search behind each of the starts of a text that one has come to. -/
def andThen (fronts : List (List Char)) (search : List Char → List (List Char))
    (text : List Char) : List (List Char) :=
  fronts.flatMap fun front => (search (text.drop front.length)).map (front ++ ·)

/-- Repeats a search as often as possible.  Each repetition has to get further. -/
def repeated (search : List Char → List (List Char)) (text : List Char) : List (List Char) :=
  (search text).flatMap (fun front =>
    if (text.drop front.length).length < text.length then
      (repeated search (text.drop front.length)).map (front ++ ·)
    else []) ++ [[]]
termination_by text.length
decreasing_by assumption

/-- All starts of a text that match, in the order in which a search with backtracking comes to
them. -/
def search : Pattern → List Char → List (List Char)
  | one set, c :: _ => if set c then [[c]] else []
  | one _, [] => []
  | notAhead set, text => if text.head?.any set then [] else [[]]
  | seq first second, text => andThen (first.search text) second.search text
  | either first second, text => first.search text ++ second.search text
  | many body, text => repeated body.search text

/-- What a pattern recognises at the head of a text: what the search comes to first. -/
def first? (pattern : Pattern) (text : List Char) : Option (List Char) :=
  (pattern.search text).head?

/-! ### What matches -/

/-- A pattern matches a part of a text that has something after it. -/
inductive Matches : Pattern → List Char → List Char → Prop
  | one {set : Char → Bool} {c : Char} (after : List Char) (h : set c = true) :
      Matches (one set) [c] after
  | notAhead {set : Char → Bool} {after : List Char}
      (h : ∀ c, after.head? = some c → set c = false) : Matches (notAhead set) [] after
  | seq {first second : Pattern} {front back after : List Char}
      (hfirst : Matches first front (back ++ after)) (hsecond : Matches second back after) :
      Matches (seq first second) (front ++ back) after
  | left {first : Pattern} (second : Pattern) {lexeme after : List Char}
      (h : Matches first lexeme after) : Matches (either first second) lexeme after
  | right (first : Pattern) {second : Pattern} {lexeme after : List Char}
      (h : Matches second lexeme after) : Matches (either first second) lexeme after
  | stop (body : Pattern) (after : List Char) : Matches (many body) [] after
  | again {body : Pattern} {front back after : List Char} (hne : front ≠ [])
      (hfirst : Matches body front (back ++ after)) (hrest : Matches (many body) back after) :
      Matches (many body) (front ++ back) after

@[simp] theorem andThen_nil (search : List Char → List (List Char)) (text : List Char) :
    andThen [] search text = [] := rfl

@[simp] theorem andThen_cons (front : List Char) (fronts : List (List Char))
    (search : List Char → List (List Char)) (text : List Char) :
    andThen (front :: fronts) search text =
      (search (text.drop front.length)).map (front ++ ·) ++ andThen fronts search text := rfl

/-! ### What the search comes to -/

theorem mem_andThen {fronts : List (List Char)} {search : List Char → List (List Char)}
    {text lexeme : List Char} :
    lexeme ∈ andThen fronts search text ↔
      ∃ front ∈ fronts, ∃ back ∈ search (text.drop front.length), lexeme = front ++ back := by
  simp only [andThen, List.mem_flatMap, List.mem_map]
  constructor
  · rintro ⟨front, hfront, back, hback, rfl⟩
    exact ⟨front, hfront, back, hback, rfl⟩
  · rintro ⟨front, hfront, back, hback, rfl⟩
    exact ⟨front, hfront, back, hback, rfl⟩

theorem mem_repeated {search : List Char → List (List Char)} {text lexeme : List Char} :
    lexeme ∈ repeated search text ↔ lexeme = [] ∨
      ∃ front ∈ search text, (text.drop front.length).length < text.length ∧
        ∃ back ∈ repeated search (text.drop front.length), lexeme = front ++ back := by
  rw [repeated, List.mem_append, List.mem_singleton, List.mem_flatMap, or_comm]
  refine or_congr_right (exists_congr fun front => and_congr_right fun hfront => ?_)
  split
  · next hfurther =>
    rw [List.mem_map]
    constructor
    · rintro ⟨back, hback, rfl⟩
      exact ⟨hfurther, back, hback, rfl⟩
    · rintro ⟨-, back, hback, rfl⟩
      exact ⟨back, hback, rfl⟩
  · next hfurther =>
    constructor
    · intro h
      contradiction
    · rintro ⟨h, -⟩
      exact absurd h hfurther

/-- What the search comes to is a start of the text that matches. -/
theorem matches_of_mem_search {pattern : Pattern} {text lexeme : List Char}
    (h : lexeme ∈ pattern.search text) :
    ∃ after, text = lexeme ++ after ∧ pattern.Matches lexeme after := by
  induction pattern generalizing text lexeme with
  | one set =>
    cases text with
    | nil => simp [search] at h
    | cons c rest =>
      simp only [search] at h
      split at h
      · next hset =>
        rw [List.mem_singleton.mp h]
        exact ⟨rest, rfl, .one rest hset⟩
      · simp at h
  | notAhead set =>
    simp only [search] at h
    split at h
    · simp at h
    · next hset =>
      rw [List.mem_singleton.mp h]
      refine ⟨text, rfl, .notAhead fun c hc => ?_⟩
      simpa [hc] using hset
  | seq first second ih ih' =>
    obtain ⟨front, hfront, back, hback, rfl⟩ := mem_andThen.mp h
    obtain ⟨rest, rfl, hfirst⟩ := ih hfront
    rw [List.drop_left] at hback
    obtain ⟨after, rfl, hsecond⟩ := ih' hback
    exact ⟨after, (List.append_assoc _ _ _).symm, .seq hfirst hsecond⟩
  | either first second ih ih' =>
    rcases List.mem_append.mp h with hfirst | hsecond
    · obtain ⟨after, htext, hmatch⟩ := ih hfirst
      exact ⟨after, htext, .left second hmatch⟩
    · obtain ⟨after, htext, hmatch⟩ := ih' hsecond
      exact ⟨after, htext, .right first hmatch⟩
  | many body ih =>
    -- Each repetition leaves a shorter text to the next one.
    simp only [search] at h
    induction hlength : text.length using Nat.strongRecOn generalizing text lexeme with
    | ind n ih' =>
      rcases mem_repeated.mp h with rfl | ⟨front, hfront, hfurther, back, hback, rfl⟩
      · exact ⟨text, rfl, .stop body text⟩
      · obtain ⟨rest, rfl, hfirst⟩ := ih hfront
        rw [List.drop_left] at hback hfurther
        obtain ⟨after, rfl, hrest⟩ := ih' rest.length (hlength ▸ hfurther) hback rfl
        have hne : front ≠ [] := by
          rintro rfl
          exact Nat.lt_irrefl _ hfurther
        exact ⟨after, (List.append_assoc _ _ _).symm, .again hne hfirst hrest⟩

/-- The search comes to every start of the text that matches. -/
theorem mem_search_of_matches {pattern : Pattern} {lexeme after : List Char}
    (h : pattern.Matches lexeme after) : lexeme ∈ pattern.search (lexeme ++ after) := by
  induction h with
  | one after h => simp [search, h]
  | @notAhead set after h =>
    cases hhead : after.head? with
    | none => simp [search, hhead]
    | some c => simp [search, hhead, h c hhead]
  | @seq first second front back after hfirst hsecond ih ih' =>
    rw [List.append_assoc]
    refine mem_andThen.mpr ⟨front, ih, back, ?_, rfl⟩
    rwa [List.drop_left]
  | left second h ih => exact List.mem_append_left _ ih
  | right first h ih => exact List.mem_append_right _ ih
  | stop body after => exact mem_repeated.mpr (.inl rfl)
  | @again body front back after hne hfirst hrest ih ih' =>
    rw [List.append_assoc]
    refine mem_repeated.mpr (.inr ⟨front, ih, ?_, back, ?_, rfl⟩)
    · have hpos : 0 < front.length := List.length_pos_iff.mpr hne
      simp only [List.drop_left, List.length_append]
      omega
    · rwa [List.drop_left]

/-- **A search comes to everything that matches, and to nothing else.** -/
theorem mem_search_iff {pattern : Pattern} {text lexeme : List Char} :
    lexeme ∈ pattern.search text ↔
      ∃ after, text = lexeme ++ after ∧ pattern.Matches lexeme after := by
  constructor
  · exact matches_of_mem_search
  · rintro ⟨after, rfl, h⟩
    exact mem_search_of_matches h

/-- A pattern recognises nothing only if no start of the text matches. -/
theorem first?_eq_none_iff {pattern : Pattern} {text : List Char} :
    pattern.first? text = none ↔
      ∀ lexeme after, text = lexeme ++ after → ¬ pattern.Matches lexeme after := by
  rw [first?, List.head?_eq_none_iff, List.eq_nil_iff_forall_not_mem]
  constructor
  · intro h lexeme after htext hmatch
    exact h lexeme (mem_search_iff.mpr ⟨after, htext, hmatch⟩)
  · intro h lexeme hmem
    obtain ⟨after, htext, hmatch⟩ := mem_search_iff.mp hmem
    exact h lexeme after htext hmatch

/-! ### Repetitions -/

theorem andThen_append (fronts others : List (List Char)) (search : List Char → List (List Char))
    (text : List Char) :
    andThen (fronts ++ others) search text =
      andThen fronts search text ++ andThen others search text := List.flatMap_append

theorem andThen_nothing (search : List Char → List (List Char)) (text : List Char) :
    andThen [[]] search text = search text := by
  simp [andThen]

theorem andThen_assoc (fronts : List (List Char)) (search next : List Char → List (List Char))
    (text : List Char) :
    andThen (andThen fronts search text) next text =
      andThen fronts (fun rest => andThen (search rest) next rest) text := by
  simp only [andThen, List.flatMap_assoc, List.map_flatMap, List.flatMap_map, List.map_map,
    List.drop_drop, List.length_append]
  simp only [Function.comp_def, List.append_assoc]

/-- A search for a repetition and what follows it, one round at a time: one more repetition comes
before none.  The repetitions have to get further. -/
theorem search_seq_many {body last : Pattern} {text : List Char}
    (hfurther : ∀ front ∈ body.search text, front ≠ []) :
    ((many body).seq last).search text =
      andThen (body.search text) ((many body).seq last).search text ++ last.search text := by
  have hround : repeated body.search text =
      andThen (body.search text) (repeated body.search) text ++ [[]] := by
    rw [repeated, andThen, List.flatMap_def, List.flatMap_def]
    congr 2
    refine List.map_congr_left fun front hfront => if_pos ?_
    obtain ⟨after, rfl, -⟩ := matches_of_mem_search hfront
    have hpos : 0 < front.length := List.length_pos_iff.mpr (hfurther front hfront)
    rw [List.drop_left, List.length_append]
    omega
  show andThen (repeated body.search text) last.search text = _
  rw [hround, andThen_append, andThen_nothing, andThen_assoc]
  rfl

end Pattern

end TokenStream
