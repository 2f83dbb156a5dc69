import TokenStream.Proofs.Standalone

/-!
# Texts with line feeds only

A text can be brought into a form in which every line ending is a line feed: a carriage return with
the line feed after it becomes one line feed, and so does a carriage return by itself.  The forms of
lexemes hardly notice.  All but a literal in quotes hold no line ending at all; a text in double
quotes is the same literal with its line endings replaced; and a character in single quotes may not
have a line ending close by, because there characters are counted.

## Main definitions

* `LineEnding.unify` — the text with line feeds only.
* `LineEnding.unifyFrom` — the same one character at a time, knowing whether the one before was a
  carriage return.
* `ApostrophesClear` — no line ending comes close after a single quote.

## Main results

* `LineEnding.unify_append` — texts can be brought into this form part by part, unless the cut lies
  between a carriage return and its line feed.
* `Rule.lexeme?_unify` — **a rule recognises the same lexeme, brought into this form**.
-/

namespace TokenStream

namespace LineEnding

/-- The text with a line feed for every line ending. -/
def unify : List Char → List Char
  | [] => []
  | '\r' :: '\n' :: rest => '\n' :: unify rest
  | '\r' :: rest => '\n' :: unify rest
  | c :: rest => c :: unify rest

/-- A line feed for a carriage return. -/
def plain (c : Char) : Char := if c = '\r' then '\n' else c

/-- The text with line feeds only, one character at a time: a line feed after a carriage return has
been taken along with it. -/
def unifyFrom (afterReturn : Bool) : List Char → List Char
  | [] => []
  | c :: rest =>
    (if afterReturn && c == '\n' then [] else [plain c]) ++ unifyFrom (c == '\r') rest

theorem unifyFrom_cons (afterReturn : Bool) (c : Char) (rest : List Char) :
    unifyFrom afterReturn (c :: rest) =
      (if afterReturn && c == '\n' then [] else [plain c]) ++ unifyFrom (c == '\r') rest := rfl

theorem unifyFrom_false_cons (c : Char) (rest : List Char) :
    unifyFrom false (c :: rest) = plain c :: unifyFrom (c == '\r') rest := rfl

theorem plain_of_ne {c : Char} (h : c ≠ '\r') : plain c = c := if_neg h

theorem plain_eq_iff {c d : Char} (hcr : d ≠ '\r') (hlf : d ≠ '\n') : plain c = d ↔ c = d := by
  unfold plain
  split
  · next hc =>
    rw [hc]
    exact ⟨fun h => absurd h.symm hlf, fun h => absurd h.symm hcr⟩
  · rfl

/-- Without a line feed at the head, it does not matter what comes before. -/
theorem unifyFrom_eq_of_head? {text : List Char} (h : text.head? ≠ some '\n')
    (afterReturn : Bool) : unifyFrom afterReturn text = unifyFrom false text := by
  cases text with
  | nil => rfl
  | cons c rest =>
    have hc : (c == '\n') = false := by
      rw [beq_eq_false_iff_ne]
      rintro rfl
      exact h rfl
    rw [unifyFrom_cons, hc, Bool.and_false, if_neg (by simp), unifyFrom_false_cons]
    rfl

theorem unify_eq_unifyFrom (text : List Char) : unify text = unifyFrom false text := by
  fun_induction unify text with
  | case1 => rfl
  | case2 rest ih => rw [ih]; rfl
  | case3 rest hne ih =>
    have hhead : rest.head? ≠ some '\n' := by
      intro hhead
      obtain ⟨tail, rfl⟩ := List.head?_eq_some_iff.mp hhead
      exact hne tail rfl
    rw [ih, unifyFrom_false_cons]
    exact congrArg ('\n' :: ·) (unifyFrom_eq_of_head? hhead true).symm
  | case4 c rest _ hcr ih =>
    rw [ih, unifyFrom_false_cons, plain_of_ne hcr, beq_eq_false_iff_ne.mpr hcr]

@[simp] theorem unify_nil : unify [] = [] := rfl

theorem unify_cons {c : Char} (rest : List Char) (h : c ≠ '\r') :
    unify (c :: rest) = c :: unify rest := by
  rw [unify_eq_unifyFrom, unify_eq_unifyFrom, unifyFrom_false_cons, plain_of_ne h,
    beq_eq_false_iff_ne.mpr h]

theorem unifyFrom_append (afterReturn : Bool) (front back : List Char) :
    unifyFrom afterReturn (front ++ back) =
      unifyFrom afterReturn front ++
        unifyFrom (front.getLast?.elim afterReturn (· == '\r')) back := by
  induction front generalizing afterReturn with
  | nil => rfl
  | cons c rest ih =>
    rw [List.cons_append, unifyFrom_cons, unifyFrom_cons, ih, List.append_assoc,
      List.getLast?_cons]
    cases rest.getLast? <;> rfl

/-- Texts can be brought into the form part by part, unless the cut lies between a carriage return
and its line feed. -/
theorem unify_append {front back : List Char}
    (h : front.getLast? = some '\r' → back.head? ≠ some '\n') :
    unify (front ++ back) = unify front ++ unify back := by
  rw [unify_eq_unifyFrom, unify_eq_unifyFrom, unify_eq_unifyFrom, unifyFrom_append]
  congr 1
  cases hlast : front.getLast? with
  | none => rfl
  | some last =>
    by_cases hcr : last = '\r'
    · exact unifyFrom_eq_of_head? (h (by rw [hlast, hcr])) _
    · rw [Option.elim_some, beq_eq_false_iff_ne.mpr hcr]

/-- A text without a carriage return is in the form. -/
theorem unify_eq_self {text : List Char} (h : '\r' ∉ text) : unify text = text := by
  induction text with
  | nil => rfl
  | cons c rest ih =>
    rw [List.mem_cons, not_or] at h
    rw [unify_cons rest (Ne.symm h.1), ih h.2]

theorem getLast?_unify (text : List Char) : (unify text).getLast? = text.getLast?.map plain := by
  rcases List.eq_nil_or_concat text with rfl | ⟨front, last, rfl⟩
  · rfl
  · rw [List.concat_eq_append, List.getLast?_concat]
    by_cases hcut : front.getLast? = some '\r' ∧ [last].head? = some '\n'
    · -- The last two characters are one line ending.
      obtain ⟨hreturn, hlf⟩ := hcut
      obtain ⟨before, rfl⟩ := List.getLast?_eq_some_iff.mp hreturn
      obtain rfl : last = '\n' := Option.some.inj hlf
      rw [List.append_assoc, unify_append (by simp), List.getLast?_append]
      rfl
    · rw [not_and] at hcut
      rw [unify_append hcut, unify_eq_unifyFrom [last], List.getLast?_append]
      rfl

/-! ### Runs of characters -/

section Runs

variable {p : Char → Bool} (hcr : p '\r' = false) (hlf : p '\n' = false)

include hcr hlf

theorem takeWhile_unify (text : List Char) : (unify text).takeWhile p = text.takeWhile p := by
  induction text with
  | nil => rfl
  | cons c rest ih =>
    by_cases hc : c = '\r'
    · rw [unify_eq_unifyFrom, unifyFrom_false_cons, hc,
        List.takeWhile_cons_of_neg (by simp [plain, hlf]),
        List.takeWhile_cons_of_neg (by simp [hcr])]
    · rw [unify_cons rest hc, List.takeWhile_cons, List.takeWhile_cons, ih]

theorem dropWhile_unify (text : List Char) :
    (unify text).dropWhile p = unify (text.dropWhile p) := by
  induction text with
  | nil => rfl
  | cons c rest ih =>
    by_cases hc : c = '\r'
    · have hhead : unify (c :: rest) = '\n' :: unifyFrom true rest := by
        rw [unify_eq_unifyFrom, hc]
        rfl
      rw [List.dropWhile_cons_of_neg (by simp [hc, hcr]), hhead,
        List.dropWhile_cons_of_neg (by simp [hlf])]
    · rw [unify_cons rest hc, List.dropWhile_cons, List.dropWhile_cons, ih]
      split
      · rfl
      · rw [unify_cons rest hc]

end Runs

theorem isPrefix_unify_iff {lexeme : List Char} (h : ∀ c ∈ lexeme, c ≠ '\r' ∧ c ≠ '\n')
    (text : List Char) : lexeme <+: unify text ↔ lexeme <+: text := by
  induction lexeme generalizing text with
  | nil => simp
  | cons c lexeme ih =>
    rw [List.forall_mem_cons] at h
    cases text with
    | nil => rfl
    | cons d rest =>
      by_cases hd : d = '\r'
      · rw [unify_eq_unifyFrom, unifyFrom_false_cons, List.cons_prefix_cons, List.cons_prefix_cons,
          hd]
        constructor
        · rintro ⟨hc, -⟩
          exact absurd hc h.1.2
        · rintro ⟨hc, -⟩
          exact absurd hc h.1.1
      · rw [unify_cons rest hd, List.cons_prefix_cons, List.cons_prefix_cons, ih h.2]

/-- What has no carriage return is found as it is. -/
theorem map_unify_eq_self {found : Option (List Char)}
    (h : ∀ lexeme, found = some lexeme → '\r' ∉ lexeme) : found.map unify = found := by
  cases found with
  | none => rfl
  | some lexeme => rw [Option.map_some, unify_eq_self (h lexeme rfl)]

end LineEnding

open LineEnding

namespace Lexeme

/-! ### Numbers and words -/

theorem not_mem_of_integer? {text lexeme : List Char} (h : integer? text = some lexeme) :
    '\r' ∉ lexeme := by
  intro hmem
  exact absurd (of_mem_integer? h hmem) (by decide)

/-- Digits are the same on both sides. -/
theorem integer?_unify_eq (text : List Char) : integer? (unify text) = integer? text := by
  rw [integer?, integer?, takeWhile_unify (by decide) (by decide)]

theorem integer?_unify (text : List Char) : integer? (unify text) = (integer? text).map unify := by
  rw [map_unify_eq_self fun lexeme => not_mem_of_integer?, integer?_unify_eq]

theorem not_mem_of_float? {text lexeme : List Char} (h : float? text = some lexeme) :
    '\r' ∉ lexeme := by
  intro hmem
  exact absurd (of_mem_float? h hmem) (by decide)

theorem float?_unify (text : List Char) : float? (unify text) = (float? text).map unify := by
  rw [map_unify_eq_self fun lexeme => not_mem_of_float?, float?, float?, integer?_unify_eq,
    dropWhile_unify (by decide) (by decide)]
  -- Behind the digits a point stands on both sides or on none.
  cases text.dropWhile isDecimalDigit with
  | nil => rfl
  | cons c rest =>
    by_cases hpoint : c = '.'
    · subst hpoint
      rw [unify_cons rest (by decide)]
      simp only [integer?_unify_eq]
    · by_cases hcr : c = '\r'
      · subst hcr
        rw [unify_eq_unifyFrom, unifyFrom_false_cons]
        rfl
      · rw [unify_cons rest hcr]
        simp [hpoint]

theorem boolean?_unify (text : List Char) : boolean? (unify text) = (boolean? text).map unify := by
  have hform : ∀ lexeme, lexeme = "true".toList ∨ lexeme = "false".toList →
      ∀ c ∈ lexeme, c ≠ '\r' ∧ c ≠ '\n' := by
    rintro lexeme (rfl | rfl)
    · simp
    · simp
  have hcr : ∀ lexeme, boolean? text = some lexeme → '\r' ∉ lexeme := by
    intro lexeme h hmem
    exact (hform lexeme (boolean?_eq_some_iff.mp h).1 _ hmem).1 rfl
  rw [map_unify_eq_self hcr]
  apply Option.ext
  intro lexeme
  rw [boolean?_eq_some_iff, boolean?_eq_some_iff]
  refine and_congr_right fun hlexeme => ?_
  exact isPrefix_unify_iff (hform lexeme hlexeme) text

theorem not_mem_of_word? {text lexeme : List Char} (h : word? text = some lexeme) :
    '\r' ∉ lexeme := by
  intro hmem
  exact absurd (of_mem_word? h hmem) (by decide)

theorem word?_unify {c : Char} (rest : List Char) (h : c ≠ '\r') :
    word? (unify (c :: rest)) = (word? (c :: rest)).map unify := by
  rw [map_unify_eq_self fun lexeme => not_mem_of_word?, unify_cons rest h, word?, word?,
    takeWhile_unify (by decide) (by decide)]

/-! ### Literals in double quotes -/

theorem toFirstQuote?_unifyFrom (afterReturn : Bool) (text : List Char) :
    toFirstQuote? (unifyFrom afterReturn text) =
      (toFirstQuote? text).map (unifyFrom afterReturn) := by
  fun_induction toFirstQuote? text generalizing afterReturn with
  | case1 => rfl
  | case2 rest =>
    cases afterReturn <;> rfl
  | case3 c rest ih =>
    have hbackslash : unifyFrom afterReturn ('\\' :: c :: rest) =
        '\\' :: plain c :: unifyFrom (c == '\r') rest := by
      cases afterReturn <;> rfl
    rw [hbackslash, toFirstQuote?, ih, Option.map_map, Option.map_map]
    cases toFirstQuote? rest with
    | none => rfl
    | some found => cases afterReturn <;> rfl
  | case4 c rest hquote hescape ih =>
    rw [Option.map_map, unifyFrom_cons]
    split
    · next hdropped =>
      rw [List.nil_append, ih]
      congr 1
      funext found
      rw [Function.comp_apply, unifyFrom_cons, if_pos hdropped, List.nil_append]
    · next hkept =>
      have hstep : ∀ found, unifyFrom afterReturn (c :: found) =
          plain c :: unifyFrom (c == '\r') found := by
        intro found
        rw [unifyFrom_cons, if_neg hkept, List.singleton_append]
      rw [List.singleton_append]
      by_cases hbackslash : c = '\\'
      · -- A backslash that takes nothing along is the last character.
        cases rest with
        | nil => rw [hbackslash]; rfl
        | cons d rest => exact absurd rfl (hescape d rest hbackslash)
      · have hquote' : plain c ≠ '\x22' := fun h =>
          hquote ((plain_eq_iff (by decide) (by decide)).mp h)
        have hbackslash' : plain c ≠ '\\' := fun h =>
          hbackslash ((plain_eq_iff (by decide) (by decide)).mp h)
        rw [toFirstQuote?_cons _ hquote' hbackslash', ih, Option.map_map]
        congr 1
        funext found
        exact (hstep found).symm

theorem toLastQuote?_unifyFrom (afterReturn : Bool) (text : List Char) :
    toLastQuote? (unifyFrom afterReturn text) =
      (toLastQuote? text).map (unifyFrom afterReturn) := by
  induction text generalizing afterReturn with
  | nil => rfl
  | cons c rest ih =>
    rw [unifyFrom_cons, toLastQuote?]
    split
    · next hdropped =>
      obtain ⟨-, hlf⟩ := Bool.and_eq_true_iff.mp hdropped
      obtain rfl : c = '\n' := beq_iff_eq.mp hlf
      rw [List.nil_append, ih]
      cases toLastQuote? rest with
      | none => rfl
      | some found =>
        rw [Option.map_some, Option.map_some, unifyFrom_cons, if_pos hdropped, List.nil_append]
    · next hkept =>
      have hquote : plain c = '\x22' ↔ c = '\x22' := plain_eq_iff (by decide) (by decide)
      rw [List.singleton_append, toLastQuote?, ih]
      cases toLastQuote? rest with
      | some found =>
        simp only [Option.map_some]
        rw [unifyFrom_cons, if_neg hkept, List.singleton_append]
      | none =>
        by_cases hc : c = '\x22'
        · subst hc
          cases afterReturn <;> rfl
        · simp only [Option.map_none, if_neg hc, if_neg fun h => hc (hquote.mp h)]

theorem string?_unify {c : Char} (rest : List Char) (h : c ≠ '\r') :
    string? (unify (c :: rest)) = (string? (c :: rest)).map unify := by
  rw [unify_cons rest h]
  by_cases hc : c = '\x22'
  · subst hc
    have hunify : unify = unifyFrom false := funext unify_eq_unifyFrom
    rw [hunify, string?, string?, toFirstQuote?_unifyFrom, toLastQuote?_unifyFrom, ← Option.map_or,
      Option.map_map, Option.map_map]
    congr 1
  · rw [string?_eq_none _ hc, string?_eq_none _ hc]
    rfl

/-! ### Literals in single quotes -/

theorem quote_isPrefix_iff {text : List Char} :
    ['\x27'] <+: text ↔ text.head? = some '\x27' := by
  cases text with
  | nil => simp
  | cons c rest => simp [eq_comm]

/-- Of what follows three characters that start with a quote, only another quote matters. -/
theorem character?_congr (c d : Char) {rest other : List Char}
    (h : rest.head? = some '\x27' ↔ other.head? = some '\x27') :
    character? ('\x27' :: c :: d :: rest) = character? ('\x27' :: c :: d :: other) := by
  apply Option.ext
  intro lexeme
  have hfour : ∀ e, ['\x27', '\\', e, '\x27'] <+: '\x27' :: c :: d :: rest ↔
      ['\x27', '\\', e, '\x27'] <+: '\x27' :: c :: d :: other := by
    intro e
    simp only [List.cons_prefix_cons, quote_isPrefix_iff, h]
  have hthree : ∀ e, ['\x27', e, '\x27'] <+: '\x27' :: c :: d :: rest ↔
      ['\x27', e, '\x27'] <+: '\x27' :: c :: d :: other := by
    intro e
    simp only [List.cons_prefix_cons, List.nil_prefix]
  have hthird : ('\x27' :: c :: d :: rest)[3]? = some '\x27' ↔
      ('\x27' :: c :: d :: other)[3]? = some '\x27' := by
    simpa only [List.getElem?_cons_succ, ← List.head?_eq_getElem?] using h
  rw [character?_eq_some_iff, character?_eq_some_iff, hthird]
  constructor
  · rintro (⟨e, he, rfl, hstarts⟩ | ⟨e, he, rfl, hstarts, hno⟩)
    · exact .inl ⟨e, he, rfl, (hfour e).mp hstarts⟩
    · exact .inr ⟨e, he, rfl, (hthree e).mp hstarts, hno⟩
  · rintro (⟨e, he, rfl, hstarts⟩ | ⟨e, he, rfl, hstarts, hno⟩)
    · exact .inl ⟨e, he, rfl, (hfour e).mpr hstarts⟩
    · exact .inr ⟨e, he, rfl, (hthree e).mpr hstarts, hno⟩

/-- A character in quotes holds no carriage return if none comes close after the first quote. -/
theorem not_mem_of_character? {rest lexeme : List Char} (h : ∀ d ∈ rest.take 2, d ≠ '\r')
    (hlexeme : character? ('\x27' :: rest) = some lexeme) : '\r' ∉ lexeme := by
  rcases character?_eq_some_iff.mp hlexeme with
    ⟨c, -, rfl, more, hmore⟩ | ⟨c, -, rfl, ⟨more, hmore⟩, -⟩
  · obtain rfl : rest = '\\' :: c :: '\x27' :: more := (List.cons.inj hmore).2.symm
    simpa using Ne.symm (h c (by simp))
  · obtain rfl : rest = c :: '\x27' :: more := (List.cons.inj hmore).2.symm
    simpa using Ne.symm (h c (by simp))

end Lexeme

/-! ### Single quotes without a line ending close by -/

/-- No line ending comes close after a single quote: none of the two characters after it belongs to
one. -/
def ApostrophesClear : List Char → Prop
  | [] => True
  | c :: rest => (c = '\x27' → ∀ d ∈ rest.take 2, d ≠ '\r' ∧ d ≠ '\n') ∧ ApostrophesClear rest

/-- Whether no line ending comes close after a single quote can be decided along the text. -/
def ApostrophesClear.decide : (text : List Char) → Decidable (ApostrophesClear text)
  | [] => .isTrue trivial
  | c :: rest =>
    have := ApostrophesClear.decide rest
    have : Decidable (∀ d ∈ rest.take 2, d ≠ '\r' ∧ d ≠ '\n') := List.decidableBAll _ _
    inferInstanceAs (Decidable ((c = '\x27' → ∀ d ∈ rest.take 2, d ≠ '\r' ∧ d ≠ '\n') ∧
      ApostrophesClear rest))

instance : DecidablePred ApostrophesClear := ApostrophesClear.decide

theorem ApostrophesClear.of_append {front back : List Char}
    (h : ApostrophesClear (front ++ back)) : ApostrophesClear back := by
  induction front with
  | nil => exact h
  | cons c front ih => exact ih h.2

theorem Lexeme.character?_unify {c : Char} {rest : List Char} (hcr : c ≠ '\r')
    (hclear : ApostrophesClear (c :: rest)) :
    character? (unify (c :: rest)) = (character? (c :: rest)).map unify := by
  rw [unify_cons rest hcr]
  by_cases hc : c = '\x27'
  · subst hc
    have hnear : ∀ d ∈ rest.take 2, d ≠ '\r' := fun d hd => (hclear.1 rfl d hd).1
    rw [map_unify_eq_self fun lexeme => not_mem_of_character? hnear]
    match rest with
    | [] => rfl
    | [d] =>
      rw [unify_cons [] (hnear d (by simp))]
      rfl
    | d :: e :: more =>
      rw [unify_cons _ (hnear d (by simp)), unify_cons _ (hnear e (by simp))]
      apply character?_congr
      rw [← quote_isPrefix_iff, ← quote_isPrefix_iff]
      exact isPrefix_unify_iff (by simp) more
  · rw [character?_eq_none _ hc, character?_eq_none _ hc]
    rfl

/-! ### Rules -/

/-- **A rule recognises the same lexeme in the text with line feeds only**, with its own line
endings replaced. -/
theorem Rule.lexeme?_unify (rule : Rule) {c : Char} {rest : List Char} (hcr : c ≠ '\r')
    (hclear : ApostrophesClear (c :: rest)) :
    rule.lexeme? (unify (c :: rest)) = (rule.lexeme? (c :: rest)).map unify := by
  cases rule with
  | float => exact Lexeme.float?_unify _
  | integer => exact Lexeme.integer?_unify _
  | boolean => exact Lexeme.boolean?_unify _
  | string => exact Lexeme.string?_unify rest hcr
  | char => exact Lexeme.character?_unify hcr hclear
  | identifier => exact Lexeme.word?_unify rest hcr

/-- The first match is a match of the same rule. -/
theorem Rule.firstMatch?_unify (rules : List Rule) {c : Char} {rest : List Char} (hcr : c ≠ '\r')
    (hclear : ApostrophesClear (c :: rest)) :
    firstMatch? rules (unify (c :: rest)) =
      (firstMatch? rules (c :: rest)).map fun found => (found.1, unify found.2) := by
  unfold firstMatch?
  induction rules with
  | nil => rfl
  | cons rule rules ih =>
    rw [List.findSome?_cons, List.findSome?_cons, rule.lexeme?_unify hcr hclear]
    cases rule.lexeme? (c :: rest) with
    | none => exact ih
    | some lexeme => rfl

/-- A word holds no line ending, so its kind stays the same. -/
theorem Rule.classify_unify {rule : Rule} {text lexeme : List Char}
    (h : rule.lexeme? text = some lexeme) :
    rule.classify (unify lexeme) = rule.classify lexeme := by
  by_cases hrule : rule = identifier
  · subst hrule
    rw [unify_eq_self (Lexeme.not_mem_of_word? h)]
  · rw [classify, classify, if_neg fun h => hrule h.1, if_neg fun h => hrule h.1]

end TokenStream
