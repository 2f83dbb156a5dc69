import TokenStream.Proofs.Draining

/-!
# Which priorities matter

The rules are tried in a fixed order, but only two decisions of that order can be seen.  Rules
whose lexemes start with different characters never compete, whatever their places; that leaves
the two sorts of numbers and the two sorts of words.  A float is tried before an integer and a truth
value before a word, and any other order with these two priorities gives the same scanner.

## Main definitions

* `Rule.Family`, `Rule.family` — rules of one family can compete, rules of two cannot.
* `Rule.IsBefore` — a rule has its place before another.

## Main results

* `Rule.family_eq_of_isSome` — rules that recognise something in the same text are of one family.
* `Rule.firstMatch?_eq_of_isBefore` — the first match is the one before all that compete with it.
* `withRules_eq_make_of_priorities` — **only two priorities matter**.
-/

namespace TokenStream

namespace Rule

/-- The families of lexemes, each with starting characters of its own. -/
inductive Family
  /-- They start with a digit. -/
  | number
  /-- They start with a letter or the underscore. -/
  | word
  /-- They start with a double quote. -/
  | text
  /-- They start with a single quote. -/
  | character
deriving DecidableEq, Repr, Inhabited

/-- The family of the lexemes of a rule. -/
def family : Rule → Family
  | float | integer => .number
  | boolean | identifier => .word
  | string => .text
  | char => .character

/-- The family of the lexemes that start with a character, if there are any. -/
def familyAt? (c : Char) : Option Family :=
  if isDecimalDigit c then some .number
  else if Lexeme.isWordStart c then some .word
  else if c = '\x22' then some .text
  else if c = '\x27' then some .character
  else none

/-! ### Families -/

/-- No digit starts a word: the letters lie between the ASCII digits and those of other scripts. -/
theorem isDecimalDigit_of_isWordStart {c : Char} (h : Lexeme.isWordStart c = true) :
    isDecimalDigit c = false :=
  CharSet.contains_eq_false (by decide) (Lexeme.toNat_bounds_of_isWordStart h)

/-- The first character of a lexeme tells its family. -/
theorem familyAt?_of_canStart {rule : Rule} {c : Char} (h : rule.canStart c = true) :
    familyAt? c = some rule.family := by
  cases rule with
  | float => exact if_pos h
  | integer => exact if_pos h
  | boolean =>
    simp only [canStart, Bool.or_eq_true, beq_iff_eq] at h
    rcases h with rfl | rfl
    · decide
    · decide
  | string =>
    obtain rfl : c = '\x22' := beq_iff_eq.mp h
    decide
  | char =>
    obtain rfl : c = '\x27' := beq_iff_eq.mp h
    decide
  | identifier =>
    rw [familyAt?, isDecimalDigit_of_isWordStart h]
    exact if_pos h

/-- The head of a text in which a rule recognises something tells its family. -/
theorem familyAt?_of_isSome {rule : Rule} {c : Char} {rest : List Char}
    (h : (rule.lexeme? (c :: rest)).isSome) : familyAt? c = some rule.family := by
  apply familyAt?_of_canStart
  cases hstart : rule.canStart c with
  | true => rfl
  | false =>
    rw [lexeme?_eq_none_of_canStart rest hstart] at h
    contradiction

/-- Rules that recognise something in the same text are of one family. -/
theorem family_eq_of_isSome {rule other : Rule} {text : List Char}
    (h : (rule.lexeme? text).isSome) (hother : (other.lexeme? text).isSome) :
    rule.family = other.family := by
  cases text with
  | nil =>
    obtain ⟨lexeme, hlexeme⟩ := Option.isSome_iff_exists.mp h
    have hnil : lexeme = [] := List.prefix_nil.mp (lexeme?_isPrefix hlexeme)
    exact absurd hnil (lexeme?_ne_nil hlexeme)
  | cons c rest =>
    have hfamily := familyAt?_of_isSome h
    rw [familyAt?_of_isSome hother] at hfamily
    exact (Option.some.inj hfamily).symm

/-! ### The order of rules -/

/-- A rule has its place before another. -/
def IsBefore (rules : List Rule) (rule other : Rule) : Prop :=
  rules.idxOf rule < rules.idxOf other

instance (rules : List Rule) (rule other : Rule) : Decidable (IsBefore rules rule other) :=
  inferInstanceAs (Decidable (_ < _))

variable {rules : List Rule} {rule other : Rule} {text lexeme : List Char}

/-- Of two rules one has its place before the other. -/
theorem isBefore_or_isBefore (hmem : rule ∈ rules) (hne : rule ≠ other) :
    IsBefore rules rule other ∨ IsBefore rules other rule := by
  rcases Nat.lt_trichotomy (rules.idxOf rule) (rules.idxOf other) with hlt | heq | hgt
  · exact .inl hlt
  · -- The same place in the list holds the same rule.
    have hlt : rules.idxOf rule < rules.length := List.idxOf_lt_length_of_mem hmem
    have hlt' : rules.idxOf other < rules.length := heq ▸ hlt
    have hrule := List.getElem_idxOf hlt
    have hother := List.getElem_idxOf hlt'
    simp only [heq] at hrule
    exact absurd (hrule.symm.trans hother) hne
  · exact .inr hgt

/-- The first match is before all that compete with it. -/
theorem isBefore_of_firstMatch? (h : firstMatch? rules text = some (rule, lexeme))
    (hne : other ≠ rule) (hsome : (other.lexeme? text).isSome) : IsBefore rules rule other := by
  obtain ⟨before, first, after, rfl, hfound, hfree⟩ := List.findSome?_eq_some_iff.mp h
  obtain ⟨found, hlexeme, hpair⟩ := Option.map_eq_some_iff.mp hfound
  obtain ⟨rfl, rfl⟩ := Prod.mk.inj hpair
  -- Nothing before the first match recognises anything, so neither rule is there.
  have hnotBefore : ∀ candidate : Rule, (candidate.lexeme? text).isSome → candidate ∉ before := by
    intro candidate hcandidate hmem
    have hnone := Option.map_eq_none_iff.mp (hfree candidate hmem)
    rw [hnone] at hcandidate
    contradiction
  have hfirst : first ∉ before := hnotBefore first (Option.isSome_of_eq_some hlexeme)
  have hother : other ∉ before := hnotBefore other hsome
  rw [IsBefore, List.idxOf_append, if_neg hfirst, List.idxOf_append, if_neg hother,
    List.idxOf_cons_self, List.idxOf_cons, beq_eq_false_iff_ne.mpr (Ne.symm hne), cond_false]
  omega

/-- Where there is no first match, no rule recognises anything. -/
theorem lexeme?_eq_none_of_firstMatch? (h : firstMatch? rules text = none)
    (hmem : rule ∈ rules) : rule.lexeme? text = none := by
  rw [firstMatch?, List.findSome?_eq_none_iff] at h
  exact Option.map_eq_none_iff.mp (h rule hmem)

/-- There is a first match where a rule of the list recognises something. -/
theorem exists_firstMatch? (hmem : rule ∈ rules) (h : rule.lexeme? text = some lexeme) :
    ∃ first found, firstMatch? rules text = some (first, found) := by
  cases hfirst : firstMatch? rules text with
  | none =>
    rw [lexeme?_eq_none_of_firstMatch? hfirst hmem] at h
    contradiction
  | some first => exact ⟨first.1, first.2, rfl⟩

/-- A rule that is before all that compete with it is the first match. -/
theorem firstMatch?_eq_of_isBefore (hmem : rule ∈ rules) (h : rule.lexeme? text = some lexeme)
    (hbefore : ∀ other, other ≠ rule → (other.lexeme? text).isSome → IsBefore rules rule other) :
    firstMatch? rules text = some (rule, lexeme) := by
  obtain ⟨first, found, hfirst⟩ := exists_firstMatch? hmem h
  have hfound : first.lexeme? text = some found := (mem_of_firstMatch? hfirst).2
  by_cases hrule : first = rule
  · subst hrule
    rw [hfirst, Option.some.inj (hfound.symm.trans h)]
  · have hlt : IsBefore rules rule first := hbefore first hrule (Option.isSome_of_eq_some hfound)
    have hgt : IsBefore rules first rule :=
      isBefore_of_firstMatch? hfirst (Ne.symm hrule) (Option.isSome_of_eq_some h)
    exact absurd hlt (Nat.lt_asymm hgt)

/-- Two orders in which the same rules are first within each family have the same first matches. -/
theorem firstMatch?_congr_of_family {others : List Rule} (hall : ∀ rule, rule ∈ rules)
    (hothers : ∀ rule, rule ∈ others)
    (hsame : ∀ rule other : Rule, other ≠ rule → rule.family = other.family →
      IsBefore others rule other → IsBefore rules rule other) (text : List Char) :
    firstMatch? rules text = firstMatch? others text := by
  cases hfirst : firstMatch? others text with
  | none =>
    rw [firstMatch?, List.findSome?_eq_none_iff] at hfirst ⊢
    intro rule _
    exact hfirst rule (hothers rule)
  | some found =>
    obtain ⟨rule, lexeme⟩ := found
    have hlexeme : rule.lexeme? text = some lexeme := (mem_of_firstMatch? hfirst).2
    apply firstMatch?_eq_of_isBefore (hall rule) hlexeme
    intro other hne hsome
    have hfamily : rule.family = other.family :=
      family_eq_of_isSome (Option.isSome_of_eq_some hlexeme) hsome
    exact hsame rule other hne hfamily (isBefore_of_firstMatch? hfirst hne hsome)

/-- Where floats come before integers and truth values before words, the order of the other rules
has no say in the first match. -/
theorem firstMatch?_eq_table (hall : ∀ rule, rule ∈ rules) (hnumbers : IsBefore rules float integer)
    (hwords : IsBefore rules boolean identifier) (text : List Char) :
    firstMatch? rules text = firstMatch? table text := by
  have htable : ∀ rule : Rule, rule ∈ table := by
    intro rule
    cases rule <;> decide
  apply firstMatch?_congr_of_family hall htable
  intro rule other hne hfamily hbefore
  -- Two rules of one family are the numbers or the words, in the order of the table.
  cases rule with
  | float =>
    cases other with
    | integer => exact hnumbers
    | float => exact absurd rfl hne
    | _ => contradiction
  | boolean =>
    cases other with
    | identifier => exact hwords
    | boolean => exact absurd rfl hne
    | _ => contradiction
  | integer =>
    cases other with
    | float => exact absurd hbefore (by decide)
    | integer => exact absurd rfl hne
    | _ => contradiction
  | identifier =>
    cases other with
    | boolean => exact absurd hbefore (by decide)
    | identifier => exact absurd rfl hne
    | _ => contradiction
  | string =>
    cases other with
    | string => exact absurd rfl hne
    | _ => contradiction
  | char =>
    cases other with
    | char => exact absurd rfl hne
    | _ => contradiction

end Rule

/-! ### Scanners with rules in another order -/

/-- Rules with the same first matches cut every text into the same pieces. -/
theorem pieces_congr {rules others : List Rule}
    (h : ∀ text, Rule.firstMatch? rules text = Rule.firstMatch? others text)
    (previous : Option Char) (text : List Char) :
    pieces rules previous text = pieces others previous text := by
  have hhead : ∀ previous c rest,
      Piece.atHead rules previous c rest = Piece.atHead others previous c rest := by
    intro previous c rest
    rw [Piece.atHead, Piece.atHead, h]
  fun_induction pieces others previous text with
  | case1 previous => rw [pieces_nil]
  | case2 previous c rest piece ih => rw [pieces_cons, hhead, ih]

/-- The first token of a text that starts with a lexeme. -/
theorem head?_tokensOf_pieces {rules : List Rule} {rule : Rule} {c : Char}
    {rest lexeme : List Char} (hending : LineEnding.atHead? (c :: rest) = none)
    (hblank : isBlank c = false)
    (h : Rule.firstMatch? rules (c :: rest) = some (rule, lexeme)) :
    (tokensOf 0 (pieces rules none (c :: rest))).head? =
      some ⟨rule.classify lexeme, String.ofList lexeme, 0⟩ := by
  have hheads : Piece.Heads rules none c rest (.lexeme (rule.classify lexeme) lexeme) :=
    .lexeme rule lexeme hending hblank h
  rw [pieces_cons, hheads.atHead_eq]
  rfl

/-- Where two rules compete, equal tokens mean that the rule of the table is the first of them also
in the other order. -/
theorem isBefore_of_tokens_eq {rules : List Rule} (hall : ∀ rule, rule ∈ rules)
    {rule other : Rule} {c : Char} {rest lexeme lexeme' : List Char}
    (hending : LineEnding.atHead? (c :: rest) = none) (hblank : isBlank c = false)
    (hrule : Rule.firstMatch? Rule.table (c :: rest) = some (rule, lexeme))
    (hother : other.lexeme? (c :: rest) = some lexeme')
    (honly : ∀ third : Rule, third ≠ other → (third.lexeme? (c :: rest)).isSome → third = rule)
    (hkind : rule.classify lexeme ≠ other.classify lexeme')
    (hsame : tokensOf 0 (pieces rules none (c :: rest)) =
      tokensOf 0 (pieces Rule.table none (c :: rest))) :
    Rule.IsBefore rules rule other := by
  have hne : rule ≠ other := by
    rintro rfl
    rw [(Rule.mem_of_firstMatch? hrule).2] at hother
    rw [Option.some.inj hother] at hkind
    exact hkind rfl
  rcases Rule.isBefore_or_isBefore (hall rule) hne with hbefore | hafter
  · exact hbefore
  · -- The other rule would be the first match, and its token would have another kind.
    have hmatch : Rule.firstMatch? rules (c :: rest) = some (other, lexeme') := by
      apply Rule.firstMatch?_eq_of_isBefore (hall other) hother
      intro third hthird hsome
      rw [honly third hthird hsome]
      exact hafter
    have hhead := congrArg List.head? hsame
    rw [head?_tokensOf_pieces hending hblank hmatch,
      head?_tokensOf_pieces hending hblank hrule] at hhead
    have hkinds := congrArg Token.kind (Option.some.inj hhead)
    exact absurd hkinds.symm hkind

/-- **Only two priorities matter.**  With the rules in any order in which floats come before
integers and truth values before words, a scanner is the same as with the table: whatever the source
and the settings, its streams yield the same tokens, fail in the same way and leave it at the same
places.  An order without these two priorities can be told apart by the tokens of a scan. -/
theorem withRules_eq_make_of_priorities {rules : List Rule} (hperm : rules.Perm Rule.table) :
    (Rule.IsBefore rules .float .integer ∧ Rule.IsBefore rules .boolean .identifier →
      ∀ source sourceFile settings,
        Scanner.withRules rules source sourceFile settings =
          Scanner.make source sourceFile settings) ∧
    ((∀ source, ((Scanner.withRules rules source none Settings.default).drain .fresh).tokens =
        (scan source none Settings.default).tokens) →
      Rule.IsBefore rules .float .integer ∧ Rule.IsBefore rules .boolean .identifier) := by
  have hall : ∀ rule, rule ∈ rules := by
    intro rule
    rw [hperm.mem_iff]
    cases rule <;> decide
  constructor
  · rintro ⟨hnumbers, hwords⟩ source sourceFile settings
    have hmatch := Rule.firstMatch?_eq_table hall hnumbers hwords
    rw [Scanner.make, Scanner.withRules, Scanner.withRules, pieces_congr hmatch]
  · intro hsame
    have hpieces : ∀ text : List Char, tokensOf 0 (pieces rules none text) =
        tokensOf 0 (pieces Rule.table none text) := by
      intro text
      have htokens := hsame (String.ofList text)
      rwa [Scanner.drain_withRules_default, scan_default_tokens, String.toList_ofList] at htokens
    constructor
    · have hfloat : Rule.firstMatch? Rule.table ['1', '.', '5'] =
          some (.float, ['1', '.', '5']) := by decide
      have hinteger : Rule.integer.lexeme? ['1', '.', '5'] = some ['1'] := by decide
      refine isBefore_of_tokens_eq hall rfl rfl hfloat hinteger ?_ (by decide) (hpieces _)
      intro third hthird hsome
      cases third with
      | float => rfl
      | integer => exact absurd rfl hthird
      | _ => exact absurd hsome (by decide)
    · have hboolean : Rule.firstMatch? Rule.table ['t', 'r', 'u', 'e'] =
          some (.boolean, ['t', 'r', 'u', 'e']) := by decide
      have hword : Rule.identifier.lexeme? ['t', 'r', 'u', 'e'] = some ['t', 'r', 'u', 'e'] := by
        decide
      refine isBefore_of_tokens_eq hall rfl rfl hboolean hword ?_ (by decide) (hpieces _)
      intro third hthird hsome
      cases third with
      | boolean => rfl
      | identifier => exact absurd rfl hthird
      | _ => exact absurd hsome (by decide)

/-- Another order with these priorities: literals in quotes first, numbers last. -/
theorem withRules_eq_make_of_numbers_last :
    [Rule.string, .boolean, .char, .identifier, .float, .integer].Perm Rule.table ∧
      (Rule.IsBefore [Rule.string, .boolean, .char, .identifier, .float, .integer]
          .float .integer ∧
        Rule.IsBefore [Rule.string, .boolean, .char, .identifier, .float, .integer]
          .boolean .identifier) ∧
      Scanner.withRules [.string, .boolean, .char, .identifier, .float, .integer]
          "true1.5 'x' trueish" none (Settings.of true (some 20)) =
        Scanner.make "true1.5 'x' trueish" none (Settings.of true (some 20)) :=
  ⟨by decide, by decide,
    (withRules_eq_make_of_priorities (by decide)).1 (by decide) "true1.5 'x' trueish" none
      (Settings.of true (some 20))⟩

end TokenStream
