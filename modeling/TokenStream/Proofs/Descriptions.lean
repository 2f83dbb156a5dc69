import TokenStream.Proofs.WrittenTexts
import TokenStream.Proofs.WrittenIntegers
import TokenStream.Token.Basic

/-!
# Descriptions of tokens

The description of a token shows its kind, its text between quotes and its offset.  The text may
hold anything that stands around it, quotes, commas and brackets included; but a shown text can be
read from the left: its first character tells the quote, every escape tells how long it is, and no
character is shown in a form that starts with the quote.  So a description determines what it shows,
and it determines the token where the text has not been cut.

## Main definitions

* `Hex.value?` — the number that a row of digits writes.
* `Quoted.IsQuote` — one of the two quotes.
* `Quoted.first?` — the first character that is shown, and the rest.

## Main results

* `Quoted.first?_escape_append` — a shown character is read back.
* `Quoted.encode_append_inj` — **a shown text ends where it ends**, whatever stands behind it.
* `Token.describe_eq_iff` — a description determines the kind, the excerpt and the offset.
* `Token.eq_of_describe_eq` — **short tokens with one description are one token**.
-/

namespace TokenStream

/-! ### Numbers with a fixed number of digits -/

namespace Hex

/-- The number that a row of digits writes, if all of them are digits. -/
def value? (cs : List Char) : Option Nat :=
  cs.foldlM (fun n c => (digit? c).map (n * 16 + ·)) 0

/-- A number is read back from any number of digits in which it has room. -/
theorem value?_digits {width n : Nat} (h : n < Nat.pow 16 width) :
    value? (digits width n) = some n := by
  induction width generalizing n with
  | zero =>
    obtain rfl := Nat.lt_one_iff.mp h
    rfl
  | succ width ih =>
    have hroom : n / 16 < Nat.pow 16 width := Nat.div_lt_of_lt_mul (Nat.mul_comm _ _ ▸ h)
    have hfront := ih hroom
    unfold value? at hfront ⊢
    rw [digits, List.foldlM_append, hfront]
    simp only [List.foldlM_cons, List.foldlM_nil, digit?_digit _ (Nat.mod_lt n (by decide))]
    have hsum : n / 16 * 16 + n % 16 = n := by omega
    exact congrArg some hsum

end Hex

/-! ### Characters between quotes -/

namespace Quoted

/-- One of the two quotes. -/
def IsQuote (c : Char) : Prop := c = '\x27' ∨ c = '\x22'

/-- How many digits follow a letter that stands before the digits of a code point. -/
def width? (letter : Char) : Option Nat :=
  match letter with
  | 'x' => some 2
  | 'u' => some 4
  | 'U' => some 8
  | _ => none

/-- What a character after a backslash stands for, if no digits follow it. -/
def unescaped (c : Char) : Char :=
  match c with
  | 'n' => '\n'
  | 'r' => '\r'
  | 't' => '\t'
  | c => c

/-- The first character that is shown in a row of characters, and what stands behind its form. -/
def first? : List Char → Option (Char × List Char)
  | '\\' :: c :: rest =>
    match width? c with
    | some width => (Hex.value? (rest.take width)).map fun n => (Char.ofNat n, rest.drop width)
    | none => some (unescaped c, rest)
  | c :: rest => some (c, rest)
  | [] => none

variable {quote c d : Char} {cs ds rest rest' : List Char}

theorem isQuote_quoteFor (cs : List Char) : IsQuote (quoteFor cs) := by
  unfold quoteFor
  split
  · exact .inr rfl
  · exact .inl rfl

theorem first?_plain (h : c ≠ '\\') (rest : List Char) : first? (c :: rest) = some (c, rest) :=
  first?.eq_2 c rest fun _ _ hc _ => h hc

theorem first?_letter (h : width? c = none) (rest : List Char) :
    first? ('\\' :: c :: rest) = some (unescaped c, rest) := by
  simp only [first?, h]

/-- The digits of a code point are read as its character. -/
theorem first?_number {letter : Char} {width : Nat} (hwidth : width? letter = some width)
    (h : c.toNat < Nat.pow 16 width) (rest : List Char) :
    first? ('\\' :: letter :: Hex.digits width c.toNat ++ rest) = some (c, rest) := by
  have htake : (Hex.digits width c.toNat ++ rest).take width = Hex.digits width c.toNat :=
    List.take_left' (Hex.length_digits _ _)
  have hdrop : (Hex.digits width c.toNat ++ rest).drop width = rest :=
    List.drop_left' (Hex.length_digits _ _)
  simp only [List.cons_append, first?, hwidth, htake, hdrop, Hex.value?_digits h, Option.map_some,
    Char.ofNat_toNat]

/-- **A shown character is read back**, with what stands behind its form. -/
theorem first?_escape_append (hquote : IsQuote quote) (c : Char) (rest : List Char) :
    first? (escape quote c ++ rest) = some (c, rest) := by
  have hbounds := Units.toNat_bounds c
  unfold escape
  split
  · next hself =>
    -- Quotes and backslashes stand for themselves behind a backslash.
    have hwidth : width? c = none ∧ unescaped c = c := by
      rcases hself with rfl | rfl
      · rcases hquote with rfl | rfl <;> decide
      · decide
    rw [List.cons_append, List.singleton_append, first?_letter hwidth.1, hwidth.2]
  split
  · next hfeed => subst hfeed; rfl
  split
  · next hreturn => subst hreturn; rfl
  split
  · next htab => subst htab; rfl
  split
  · next hself _ _ _ _ => exact first?_plain (not_or.mp hself).2 rest
  split
  · next hroom => exact first?_number rfl hroom rest
  split
  · next hroom => exact first?_number rfl hroom rest
  · have hroom : c.toNat < Nat.pow 16 8 := by
      have hlarge : 0x110000 ≤ Nat.pow 16 8 := by decide
      omega
    exact first?_number rfl hroom rest

/-- The forms of two characters with the same quote are no beginnings of each other. -/
theorem escape_append_inj (hquote : IsQuote quote)
    (h : escape quote c ++ rest = escape quote d ++ rest') : c = d ∧ rest = rest' := by
  have hread := first?_escape_append hquote c rest
  rw [h, first?_escape_append hquote d rest'] at hread
  cases hread
  exact ⟨rfl, rfl⟩

/-- The form of a character starts with a backslash, or it is the character and not the quote. -/
theorem escape_eq (quote c : Char) :
    (∃ tail, escape quote c = '\\' :: tail) ∨ escape quote c = [c] ∧ c ≠ quote := by
  unfold escape
  split
  · exact .inl ⟨_, rfl⟩
  · next hself =>
    split
    · exact .inl ⟨_, rfl⟩
    split
    · exact .inl ⟨_, rfl⟩
    split
    · exact .inl ⟨_, rfl⟩
    split
    · exact .inr ⟨rfl, (not_or.mp hself).1⟩
    split
    · exact .inl ⟨_, rfl⟩
    split
    · exact .inl ⟨_, rfl⟩
    · exact .inl ⟨_, rfl⟩

/-- Between quotes nothing is shown in a form that starts with the quote. -/
theorem escape_append_ne (hquote : IsQuote quote) (c : Char) (rest rest' : List Char) :
    escape quote c ++ rest ≠ quote :: rest' := by
  have hbackslash : '\\' ≠ quote := by
    rcases hquote with rfl | rfl <;> decide
  intro h
  rcases escape_eq quote c with ⟨tail, hform⟩ | ⟨hform, hne⟩
  · rw [hform] at h
    exact hbackslash (List.cons.inj h).1
  · rw [hform] at h
    exact hne (List.cons.inj h).1

/-! ### Quoted texts -/

/-- Characters that are shown up to the quote are found again, and what stands behind it. -/
theorem flatMap_escape_append_inj (hquote : IsQuote quote)
    (h : cs.flatMap (escape quote) ++ quote :: rest =
      ds.flatMap (escape quote) ++ quote :: rest') : cs = ds ∧ rest = rest' := by
  -- Both rows are over at the same place, since no form of a character starts with the quote.
  induction cs generalizing ds with
  | nil =>
    cases ds with
    | nil => exact ⟨rfl, (List.cons.inj h).2⟩
    | cons d ds =>
      rw [List.flatMap_cons, List.append_assoc] at h
      exact absurd h.symm (escape_append_ne hquote d _ _)
  | cons c cs ih =>
    rw [List.flatMap_cons, List.append_assoc] at h
    cases ds with
    | nil => exact absurd h (escape_append_ne hquote c _ _)
    | cons d ds =>
      rw [List.flatMap_cons, List.append_assoc] at h
      obtain ⟨rfl, hbehind⟩ := escape_append_inj hquote h
      obtain ⟨rfl, hrest⟩ := ih hbehind
      exact ⟨rfl, hrest⟩

/-- **A shown text ends where it ends**: what stands behind it has no say in how it is read. -/
theorem encode_append_inj (h : encode cs ++ rest = encode ds ++ rest') :
    cs = ds ∧ rest = rest' := by
  simp only [encode, List.cons_append, List.append_assoc, List.nil_append] at h
  -- The first character is the quote of either text.
  obtain ⟨hquote, hinside⟩ := List.cons.inj h
  rw [← hquote] at hinside
  exact flatMap_escape_append_inj (isQuote_quoteFor cs) hinside

end Quoted

/-! ### Integers -/

/-- Different integers are written differently. -/
theorem Integer.digits_inj {m n : Int} : digits m = digits n ↔ m = n := by
  refine ⟨fun h => ?_, congrArg digits⟩
  obtain ⟨numeral, hread, hm⟩ := Numeral.read?_digits m Numeral.ends_nil
  obtain ⟨numeral', hread', hn⟩ := Numeral.read?_digits n Numeral.ends_nil
  rw [h, hread'] at hread
  cases hread
  rw [hm] at hn
  exact Option.some.inj hn

namespace Token

/-! ### Kinds -/

namespace Kind

/-- The name of a kind is what stands before the first comma. -/
theorem takeWhile_name_append (kind : Kind) (rest : List Char) :
    (kind.name.toList ++ ',' :: rest).takeWhile (· != ',') = kind.name.toList := by
  cases kind <;> rfl

/-- A name is found again before a comma, and what stands behind it. -/
theorem name_append_inj {kind kind' : Kind} {rest rest' : List Char}
    (h : kind.name.toList ++ ',' :: rest = kind'.name.toList ++ ',' :: rest') :
    kind = kind' ∧ rest = rest' := by
  have hname : kind.name.toList = kind'.name.toList := by
    rw [← takeWhile_name_append kind rest, h, takeWhile_name_append]
  have hkind : some kind = some kind' := by
    rw [← ofName?_name, ← ofName?_name, String.toList_injective hname]
  rw [hname] at h
  exact ⟨Option.some.inj hkind, (List.cons.inj (List.append_cancel_left h)).2⟩

end Kind

/-! ### Descriptions -/

variable {token token' : Token}

/-- The characters of a description, from the left. -/
theorem toList_describe (token : Token) :
    token.describe.toList =
      "Token(".toList ++ (token.kind.name.toList ++ ',' :: ' ' ::
        (Quoted.encode (excerpt token.text).toList ++ (", @".toList ++
          (Integer.digits token.offset ++ [')'])))) := by
  simp [describe, quoted, Integer.text]

/-- **A description determines the kind, the excerpt and the offset**, and nothing else. -/
theorem describe_eq_iff :
    token.describe = token'.describe ↔
      token.kind = token'.kind ∧ excerpt token.text = excerpt token'.text ∧
        token.offset = token'.offset := by
  constructor
  · intro h
    have hchars := congrArg String.toList h
    rw [toList_describe, toList_describe] at hchars
    obtain ⟨hkind, hbehind⟩ := Kind.name_append_inj (List.append_cancel_left hchars)
    obtain ⟨htext, hbehind⟩ := Quoted.encode_append_inj (List.cons.inj hbehind).2
    have hdigits := List.append_cancel_right (List.append_cancel_left hbehind)
    exact ⟨hkind, String.toList_injective htext, Integer.digits_inj.mp hdigits⟩
  · rintro ⟨hkind, htext, hoffset⟩
    rw [describe, describe, hkind, htext, hoffset]

/-- A short text is shown whole. -/
theorem excerpt_eq_self {text : String} (h : text.length ≤ 20) : excerpt text = text :=
  if_neg (Nat.not_lt.mpr h)

/-- **Short tokens with one description are one token.** -/
theorem eq_of_describe_eq (hshort : token.text.length ≤ 20) (hshort' : token'.text.length ≤ 20)
    (h : token.describe = token'.describe) : token = token' := by
  obtain ⟨hkind, htext, hoffset⟩ := describe_eq_iff.mp h
  rw [excerpt_eq_self hshort, excerpt_eq_self hshort'] at htext
  cases token
  cases token'
  cases hkind
  cases htext
  cases hoffset
  rfl

/-- A text with both quotes, a comma, a line feed and a character without a visible form, at an
offset that is reached in two ways. -/
theorem describe_shift_of_quotes :
    (⟨.char, "'\x22, @\n\x7f'", -3⟩ : Token).text.length ≤ 20 ∧
      (⟨.char, "'\x22, @\n\x7f'", 4⟩ : Token).text.length ≤ 20 ∧
      (⟨.char, "'\x22, @\n\x7f'", -3⟩ : Token).describe =
        ((⟨.char, "'\x22, @\n\x7f'", 4⟩ : Token).shift (-7)).describe ∧
      (⟨.char, "'\x22, @\n\x7f'", -3⟩ : Token) =
        (⟨.char, "'\x22, @\n\x7f'", 4⟩ : Token).shift (-7) :=
  ⟨by decide, by decide, by decide +kernel,
    eq_of_describe_eq (by decide) (by decide) (by decide +kernel)⟩

/-- The bound is needed for both texts: a text of twenty characters that ends in three points is
shown like a longer one that has been cut. -/
example : (⟨.unknown, "12345678901234567...", 0⟩ : Token).describe =
    (⟨.unknown, "123456789012345678901", 0⟩ : Token).describe :=
  describe_eq_iff.mpr ⟨rfl, by decide, rfl⟩

end Token

end TokenStream
