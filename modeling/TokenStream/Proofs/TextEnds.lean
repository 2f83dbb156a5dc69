import TokenStream.Proofs.Locality
import TokenStream.Proofs.Standalone

/-!
# Where a text in quotes ends

The rule for texts in quotes walks from the opening quote on and takes escapes along as pairs.
Where it ends can be told without a walk, from the characters around each quote: a quote closes the
text when the backslashes directly before it are even in number, and the first quote that does so is
where the text ends.  If there is none, every quote that is left counts as escaped, and the last one
of the source is the end.

## Main definitions

* `backslashesBefore` — how many backslashes stand directly before a position of a text in quotes.
* `ClosesAt` — a quote that closes the text that another one opens.
* `EndsAt` — the quote at which the text ends.

## Main results

* `Lexeme.exists_split_of_toFirstQuote?` — **the walk ends at the first quote after an even number
  of backslashes**.
* `lexemeAt?_string_iff` — **a text in quotes is recognised where a quote has another one behind it,
  and it ends at the first quote that closes it, or else at the last one of the source**.
-/

namespace TokenStream

namespace Lexeme

variable {text found : List Char}

/-! ### The two ways to end -/

theorem trailingBackslashes_cons_of_ne {c : Char} (hc : c ≠ '\\') (text : List Char) :
    trailingBackslashes (c :: text) = trailingBackslashes text := by
  rw [trailingBackslashes_cons, if_neg hc]
  split
  · next hall => rw [hall, Nat.add_zero]
  · rfl

/-- The walk ends behind an even number of backslashes. -/
theorem even_of_toFirstQuote? (h : toFirstQuote? text = some found) :
    ∃ body, found = body ++ ['\x22'] ∧ trailingBackslashes body % 2 = 0 := by
  fun_induction toFirstQuote? text generalizing found with
  | case1 => contradiction
  | case2 =>
    cases h
    exact ⟨[], rfl, rfl⟩
  | case3 c rest ih =>
    obtain ⟨tail, htail, rfl⟩ := Option.map_eq_some_iff.mp h
    obtain ⟨body, rfl, heven⟩ := ih htail
    refine ⟨'\\' :: c :: body, rfl, ?_⟩
    rw [trailingBackslashes_escape_cons, heven]
  | case4 c rest _ hescape ih =>
    obtain ⟨tail, htail, rfl⟩ := Option.map_eq_some_iff.mp h
    obtain ⟨body, rfl, heven⟩ := ih htail
    refine ⟨c :: body, rfl, ?_⟩
    rw [trailingBackslashes_cons_of_ne (ne_backslash_of_toFirstQuote? hescape htail), heven]

/-- **The walk ends at the first quote after an even number of backslashes.** -/
theorem exists_split_of_toFirstQuote? (h : toFirstQuote? text = some found) :
    ∃ body after, text = body ++ '\x22' :: after ∧ found = body ++ ['\x22'] ∧
      trailingBackslashes body % 2 = 0 ∧
      ∀ earlier more, text = earlier ++ '\x22' :: more → trailingBackslashes earlier % 2 = 0 →
        body.length ≤ earlier.length := by
  obtain ⟨body, rfl, heven⟩ := even_of_toFirstQuote? h
  obtain ⟨after, hafter⟩ := toFirstQuote?_isPrefix h
  refine ⟨body, after, ?_, rfl, heven, ?_⟩
  · rw [← hafter, List.append_assoc, List.singleton_append]
  · intro earlier more hmore hearlier
    -- The walk through the text up to the other quote ends there or before.
    have hwalk : (toFirstQuote? (earlier ++ ['\x22'])).isSome = true :=
      isSome_toFirstQuote? rfl hearlier
    obtain ⟨first, hfirst⟩ := Option.isSome_iff_exists.mp hwalk
    have hsame : toFirstQuote? text = some first := by
      have happend := toFirstQuote?_append more hfirst
      rwa [List.append_assoc, List.singleton_append, ← hmore] at happend
    rw [h] at hsame
    cases hsame
    have hlength := (toFirstQuote?_isPrefix hfirst).length_le
    simpa using hlength

/-- The last quote has no quote behind it. -/
theorem exists_split_of_toLastQuote? (h : toLastQuote? text = some found) :
    ∃ body after, text = body ++ '\x22' :: after ∧ found = body ++ ['\x22'] ∧
      '\x22' ∉ after := by
  fun_induction toLastQuote? text generalizing found with
  | case1 => contradiction
  | case2 c rest tail htail ih =>
    cases h
    obtain ⟨body, after, rfl, rfl, hafter⟩ := ih htail
    exact ⟨c :: body, after, rfl, rfl, hafter⟩
  | case3 rest hnone _ =>
    cases h
    refine ⟨[], rest, rfl, rfl, fun hquote => ?_⟩
    have hsome := isSome_toLastQuote?_iff.mpr hquote
    rw [hnone] at hsome
    contradiction
  | case4 => contradiction

end Lexeme

/-! ### Positions -/

/-- What stands at a position behind another divides the text behind that one. -/
theorem exists_split_behind {text : List Char} {p q : Nat} {c : Char} :
    p < q ∧ text[q]? = some c ↔
      ∃ body after, text.drop (p + 1) = body ++ c :: after ∧ q = p + 1 + body.length := by
  constructor
  · rintro ⟨hlt, hc⟩
    have hat : (text.drop (p + 1))[q - (p + 1)]? = some c := by
      rw [List.getElem?_drop, Nat.add_sub_cancel' hlt, hc]
    obtain ⟨hbound, -⟩ := List.getElem?_eq_some_iff.mp hat
    refine ⟨(text.drop (p + 1)).take (q - (p + 1)), (text.drop (p + 1)).drop (q - (p + 1) + 1),
      ?_, ?_⟩
    · rw [← drop_eq_cons_of_getElem? hat, List.take_append_drop]
    · rw [List.length_take]
      omega
  · rintro ⟨body, after, hsplit, rfl⟩
    refine ⟨by omega, ?_⟩
    rw [← List.getElem?_drop, hsplit, List.getElem?_append_right (Nat.le_refl _), Nat.sub_self]
    rfl

/-- How many backslashes stand directly before a position of a text in quotes, not counting beyond
the quote that opens it. -/
def backslashesBefore (text : List Char) (p q : Nat) : Nat :=
  trailingBackslashes ((text.take q).drop (p + 1))

/-- A quote closes the text that the quote at another position opens: it comes later, and the
backslashes directly before it are even in number. -/
structure ClosesAt (text : List Char) (p q : Nat) : Prop where
  /-- It comes later. -/
  later : p < q
  /-- It is a quote. -/
  quote : text[q]? = some '\x22'
  /-- The backslashes before it have escaped one another. -/
  even : backslashesBefore text p q % 2 = 0

/-- The quote at which the text ends that the quote at another position opens. -/
inductive EndsAt (text : List Char) (p q : Nat) : Prop
  /-- The first quote that closes it. -/
  | first (closes : ClosesAt text p q) (earlier : ∀ r < q, ¬ ClosesAt text p r)
  /-- The last quote of the source, where none closes it. -/
  | last (unclosed : ∀ r, ¬ ClosesAt text p r) (later : p < q)
      (quote : text[q]? = some '\x22') (final : ∀ r, q < r → text[r]? ≠ some '\x22')

section

variable {text body after : List Char} {p q : Nat}

theorem backslashesBefore_eq (hsplit : text.drop (p + 1) = body ++ after) :
    backslashesBefore text p (p + 1 + body.length) = trailingBackslashes body := by
  rw [backslashesBefore, List.drop_take, hsplit, Nat.add_sub_cancel_left, List.take_left]

/-- A quote that closes a text has an even number of backslashes between it and what comes
before. -/
theorem closesAt_iff :
    ClosesAt text p q ↔ ∃ body after, text.drop (p + 1) = body ++ '\x22' :: after ∧
      q = p + 1 + body.length ∧ trailingBackslashes body % 2 = 0 := by
  constructor
  · rintro ⟨hlater, hquote, heven⟩
    obtain ⟨body, after, hsplit, rfl⟩ := exists_split_behind.mp ⟨hlater, hquote⟩
    rw [backslashesBefore_eq hsplit] at heven
    exact ⟨body, after, hsplit, rfl, heven⟩
  · rintro ⟨body, after, hsplit, rfl, heven⟩
    obtain ⟨hlater, hquote⟩ := exists_split_behind.mpr ⟨body, after, hsplit, rfl⟩
    exact ⟨hlater, hquote, by rw [backslashesBefore_eq hsplit, heven]⟩

/-- A text ends at a quote that comes later. -/
theorem EndsAt.quote (h : EndsAt text p q) : p < q ∧ text[q]? = some '\x22' := by
  cases h with
  | first closes => exact ⟨closes.later, closes.quote⟩
  | last _ later quote => exact ⟨later, quote⟩

/-- A text ends at one quote only. -/
theorem EndsAt.unique {q' : Nat} (h : EndsAt text p q) (h' : EndsAt text p q') : q = q' := by
  cases h with
  | first closes earlier =>
    cases h' with
    | first closes' earlier' =>
      rcases Nat.lt_trichotomy q q' with hlt | heq | hgt
      · exact absurd closes (earlier' q hlt)
      · exact heq
      · exact absurd closes' (earlier q' hgt)
    | last unclosed => exact absurd closes (unclosed q)
  | last unclosed _ quote final =>
    cases h' with
    | first closes' => exact absurd closes' (unclosed q')
    | last _ _ quote' final' =>
      rcases Nat.lt_trichotomy q q' with hlt | heq | hgt
      · exact absurd quote' (final q' hlt)
      · exact heq
      · exact absurd quote (final' q hgt)

/-- The text from one position to another, both included. -/
theorem take_drop_eq {c d : Char} (hp : text[p]? = some c)
    (hsplit : text.drop (p + 1) = body ++ d :: after) :
    (text.drop p).take (p + 1 + body.length + 1 - p) = c :: (body ++ [d]) := by
  have hlength : p + 1 + body.length + 1 - p = (body ++ [d]).length + 1 := by
    rw [List.length_append, List.length_singleton]
    omega
  have hrest : text.drop (p + 1) = (body ++ [d]) ++ after := by
    rw [hsplit, List.append_assoc, List.singleton_append]
  rw [hlength, drop_eq_cons_of_getElem? hp, List.take_succ_cons, hrest, List.take_left]

/-- Where a text in quotes is recognised, it ends. -/
theorem exists_endsAt_of_string? {lexeme : List Char} (hopen : text[p]? = some '\x22')
    (h : Lexeme.string? (text.drop p) = some lexeme) :
    ∃ q, EndsAt text p q ∧ lexeme = (text.drop p).take (q + 1 - p) := by
  have hdrop : text.drop p = '\x22' :: text.drop (p + 1) := drop_eq_cons_of_getElem? hopen
  rw [hdrop, Lexeme.string?] at h
  obtain ⟨found, hfound, rfl⟩ := Option.map_eq_some_iff.mp h
  rcases Option.or_eq_some_iff.mp hfound with hfirst | ⟨hnone, hlast⟩
  · obtain ⟨body, after, hsplit, rfl, heven, hleast⟩ :=
      Lexeme.exists_split_of_toFirstQuote? hfirst
    refine ⟨p + 1 + body.length, .first (closesAt_iff.mpr ⟨body, after, hsplit, rfl, heven⟩) ?_,
      (take_drop_eq hopen hsplit).symm⟩
    intro r hr hcloses
    obtain ⟨earlier, more, hmore, rfl, hearlier⟩ := closesAt_iff.mp hcloses
    have hle := hleast earlier more hmore hearlier
    omega
  · obtain ⟨body, after, hsplit, rfl, hafter⟩ := Lexeme.exists_split_of_toLastQuote? hlast
    obtain ⟨hlater, hquote⟩ := exists_split_behind.mpr ⟨body, after, hsplit, rfl⟩
    refine ⟨p + 1 + body.length, .last ?_ hlater hquote ?_, (take_drop_eq hopen hsplit).symm⟩
    · intro r hcloses
      obtain ⟨earlier, more, hmore, -, hearlier⟩ := closesAt_iff.mp hcloses
      have hsome := Lexeme.isSome_toFirstQuote? hmore hearlier
      rw [hnone] at hsome
      contradiction
    · intro r hr hquote'
      -- A quote that comes later would be one of the characters behind the last quote.
      apply hafter
      have hlate : p + 1 + body.length < r ∧ text[r]? = some '\x22' := ⟨hr, hquote'⟩
      obtain ⟨between, more, hmore, -⟩ := exists_split_behind.mp hlate
      have hdrop' : text.drop (p + 1 + body.length + 1) = after := by
        rw [Nat.add_assoc, ← List.drop_drop, hsplit, ← List.drop_drop, List.drop_left]
        rfl
      rw [← hdrop', hmore]
      simp

end

/-- **Where a text in quotes ends.**  The rule recognises something at a position if a quote stands
there and another one somewhere behind it.  What it recognises reaches up to the first quote that
closes the text, with an even number of backslashes directly before it; if no quote closes it, up
to the last quote of the source. -/
theorem lexemeAt?_string_iff (source : String) (p : Nat) :
    let text := source.toList
    ((Rule.string.lexemeAt? source p).isSome = true ↔
        text[p]? = some '\x22' ∧ ∃ q, p < q ∧ text[q]? = some '\x22') ∧
      ∀ lexeme, Rule.string.lexemeAt? source p = some lexeme ↔
        text[p]? = some '\x22' ∧
          ∃ q, EndsAt text p q ∧ lexeme = String.ofList ((text.drop p).take (q + 1 - p)) := by
  intro text
  have hrule : Rule.string.lexemeAt? source p =
      (Lexeme.string? (text.drop p)).map String.ofList := rfl
  have hsome : (Lexeme.string? (text.drop p)).isSome = true ↔
      text[p]? = some '\x22' ∧ ∃ q, p < q ∧ text[q]? = some '\x22' := by
    rw [Lexeme.isSome_string?_iff]
    constructor
    · rintro ⟨rest, hrest, hquote⟩
      have hopen : text[p]? = some '\x22' := by
        rw [← List.head?_drop, hrest]
        rfl
      rw [drop_eq_cons_of_getElem? hopen] at hrest
      obtain ⟨body, after, hsplit⟩ := List.append_of_mem hquote
      rw [← (List.cons.inj hrest).2] at hsplit
      exact ⟨hopen, _, exists_split_behind.mpr ⟨body, after, hsplit, rfl⟩⟩
    · rintro ⟨hopen, q, hquote⟩
      obtain ⟨body, after, hsplit, -⟩ := exists_split_behind.mp hquote
      refine ⟨_, drop_eq_cons_of_getElem? hopen, ?_⟩
      rw [hsplit]
      simp
  rw [hrule, Option.isSome_map]
  refine ⟨hsome, fun lexeme => ?_⟩
  rw [Option.map_eq_some_iff]
  constructor
  · rintro ⟨chars, hchars, rfl⟩
    obtain ⟨hopen, -⟩ := hsome.mp (Option.isSome_of_eq_some hchars)
    obtain ⟨q, hends, rfl⟩ := exists_endsAt_of_string? hopen hchars
    exact ⟨hopen, q, hends, rfl⟩
  · rintro ⟨hopen, q, hends, rfl⟩
    obtain ⟨chars, hchars⟩ := Option.isSome_iff_exists.mp (hsome.mpr ⟨hopen, q, hends.quote⟩)
    obtain ⟨q', hends', rfl⟩ := exists_endsAt_of_string? hopen hchars
    rw [hends.unique hends']
    exact ⟨_, hchars, rfl⟩

end TokenStream
