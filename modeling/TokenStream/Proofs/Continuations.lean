import TokenStream.Proofs.EndsOfLine
import TokenStream.Proofs.Locality

/-!
# Line continuations and what is reported of them

Whether a line ending is continued is decided by the raw character before it.  No blank, no line
ending and no lexeme ends with a backslash, so that character is always one that no rule recognises:
what takes a line ending back is an unknown character of its own, and the report on it comes right
before the report on the line ending.  A strict scan stops before every unknown character, so it
comes to no line ending after a backslash, and has nothing to report at all.

## Main definitions

* `Drained.records` — the log records of a scan that reach a listener.
* `Event.unknown?` — the token of the character on which an event reports.
* `ReportsContinuations` — what a scan reports of its source agrees with its tokens.
* `PassesInSilence` — a scan reports nothing and takes no line ending back.

## Main results

* `Piece.Heads.eq_unknown_of_getLast?` — **only an unknown character ends with a backslash**.
* `eventsOf_eq_nil` — nothing is reported on the way to the first unknown character.
* `scan_reports_continuations` — **a scan reports the line endings behind its unknown backslashes,
  each right behind the backslash, and a strict scan reports nothing and takes no line ending
  back**.
-/

namespace TokenStream

/-- The log records of a scan that reach a listener who has set a level. -/
def Drained.records (threshold : Level) (drained : Drained) : List LogRecord :=
  threshold.heard (drained.events.map Event.record)

/-- The token of the character on which an event reports, if it is about an unknown character. -/
def Event.unknown? : Event → Option Token
  | .unknownCharacter c offset => some ⟨.unknown, String.ofList [c], offset⟩
  | .lineContinuation _ => none

/-- What a scan reports of its source agrees with its tokens. -/
structure ReportsContinuations (source : List Char) (drained : Drained) : Prop where
  /-- A listener for debugging hears of every report. -/
  heard : drained.records .debug = drained.events.map Event.record
  /-- Reported are the line endings directly behind an unknown backslash, and no others. -/
  continued : ∀ i : Nat, .lineContinuation i ∈ drained.events ↔
    (∃ ending : LineEnding, ending.StartsAt source i) ∧
      ∃ token ∈ drained.tokens, token.kind = .unknown ∧ token.text = "\\" ∧ token.offset + 1 = i
  /-- The report right before is that on the backslash. -/
  preceded : ∀ before i after, drained.events = before ++ .lineContinuation i :: after →
    ∃ j, i = j + 1 ∧ before.getLast? = some (.unknownCharacter '\\' j)
  /-- The other reports are those on the unknown characters among the tokens, one for each of them,
  in their order and with their offsets. -/
  unknown : drained.events.filterMap Event.unknown? = drained.tokens.filter (·.kind = .unknown)

/-- A scan reports nothing and takes no line ending back. -/
structure PassesInSilence (source : List Char) (drained : Drained) : Prop where
  /-- No record reaches a listener, not even one for debugging. -/
  silent : drained.records .debug = []
  /-- Where a line ending starts in what has been passed, a line ends, unless this is inside of a
  literal. -/
  ended : ∀ i < drained.scanner.position, (∃ ending : LineEnding, ending.StartsAt source i) →
    ¬ InLiteral source drained.tokens i →
      ∃ token ∈ drained.tokens, token.kind = .endOfLine ∧ token.offset = i

/-! ### Backslashes before a place -/

/-- **Only an unknown character ends with a backslash.** -/
theorem Piece.Heads.eq_unknown_of_getLast? {rules : List Rule} {previous : Option Char} {c : Char}
    {rest : List Char} {piece : Piece} (h : Heads rules previous c rest piece)
    (hlast : piece.chars.getLast? = some '\\') : piece = .unknown '\\' := by
  cases h with
  | lineEnd ending => cases ending <;> simp [chars, LineEnding.chars] at hlast
  | blank hending hblank =>
    obtain rfl : c = '\\' := by simpa [chars] using hlast
    exact absurd hblank (by decide)
  | lexeme rule found hending hblank hmatch =>
    have hend := Rule.canEnd_getLast (Rule.mem_of_firstMatch? hmatch).2 hlast
    cases rule <;> exact absurd hend (by decide)
  | unknown =>
    obtain rfl : c = '\\' := by simpa [chars] using hlast
    rfl

section Places

variable {rules : List Rule} {text : List Char} {passed ahead : List Piece}

/-- Right before a line ending that is continued, an unknown backslash has been passed. -/
theorem exists_backslash_of_continued {ending : LineEnding}
    (h : pieces rules none text = passed ++ .lineEnd ending true :: ahead) :
    ∃ before, passed = before ++ [.unknown '\\'] := by
  have hlast : (passed.flatMap Piece.chars).getLast? = some '\\' := by
    rw [← charBefore?_of_split h, ← beq_iff_eq]
    exact (continued_of_split h).symm
  obtain ⟨before, piece, rfl, hpiece, hsplit⟩ := exists_concat_of_getLast? h hlast
  obtain ⟨c, rest, -, hheads, -⟩ := exists_heads_of_split hsplit
  exact ⟨before, by rw [hheads.eq_unknown_of_getLast? hpiece]⟩

/-- Right behind an unknown backslash, a line ending is continued. -/
theorem ahead_eq_of_startsAt {ending : LineEnding}
    (h : pieces rules none text = passed ++ .unknown '\\' :: ahead)
    (hstarts : ending.StartsAt text (widthOf passed + 1)) :
    ∃ more, ahead = .lineEnd ending true :: more := by
  have hnext : pieces rules none text = (passed ++ [.unknown '\\']) ++ ahead := by
    rw [h, List.append_cons]
  obtain ⟨htext, hahead⟩ := pieces_split hnext
  have hlast : ((passed ++ [Piece.unknown '\\']).flatMap Piece.chars).getLast? = some '\\' := by
    rw [List.flatMap_append, List.getLast?_append]
    rfl
  have hwidth : ((passed ++ [Piece.unknown '\\']).flatMap Piece.chars).length =
      widthOf passed + 1 := by
    rw [length_flatMap_chars, widthOf_append]
    rfl
  have hhead : LineEnding.atHead? (ahead.flatMap Piece.chars) = some ending := by
    have hdrop := hstarts.atHead?_drop
    rwa [htext, ← hwidth, List.drop_left] at hdrop
  rw [hlast, Option.some_or, pieces_of_atHead?_eq_some hhead] at hahead
  exact ⟨_, hahead.symm⟩

/-- The report on a continued line ending comes from one. -/
theorem Piece.eq_lineEnd_of_event? {piece : Piece} {offset i : Nat}
    (h : piece.event? offset = some (.lineContinuation i)) :
    ∃ ending, piece = .lineEnd ending true ∧ i = offset := by
  cases piece with
  | lineEnd ending continued =>
    cases continued with
    | false => contradiction
    | true =>
      cases h
      exact ⟨ending, rfl, rfl⟩
  | blank => contradiction
  | lexeme => contradiction
  | unknown => cases h

/-- Nothing is reported on the way to the first unknown character. -/
theorem eventsOf_eq_nil (h : pieces rules none text = passed ++ ahead)
    (hknown : ∀ piece ∈ passed, ∀ c, piece ≠ .unknown c) : eventsOf 0 passed = [] := by
  rw [eventsOf_eq_yieldOf, List.eq_nil_iff_forall_not_mem]
  intro event hevent
  obtain ⟨before, piece, after, rfl, hpiece⟩ := mem_yieldOf_iff.mp hevent
  cases piece with
  | lineEnd ending continued =>
    cases continued with
    | false => contradiction
    | true =>
      -- The backslash before it would be an unknown character.
      rw [List.append_assoc, List.cons_append] at h
      obtain ⟨earlier, rfl⟩ := exists_backslash_of_continued h
      exact hknown (.unknown '\\') (by simp) '\\' rfl
  | blank => contradiction
  | lexeme => contradiction
  | unknown c => exact hknown (.unknown c) (by simp) c rfl

/-- An unknown character among the tokens comes from a piece of its own. -/
theorem eq_unknown_of_token? {piece : Piece} {token : Token}
    (h : pieces rules none text = passed ++ piece :: ahead)
    (htoken : piece.token? (widthOf passed) = some token) (hkind : token.kind = .unknown) :
    ∃ c, piece = .unknown c ∧ token.text = String.ofList [c] := by
  by_cases hpiece : ∃ c, piece = .unknown c
  · obtain ⟨c, rfl⟩ := hpiece
    cases htoken
    exact ⟨c, rfl, rfl⟩
  · have hmem : piece ∈ pieces rules none text := by
      rw [h]
      simp
    exact absurd hkind (kind_ne_unknown_of_mem hmem (fun c hc => hpiece ⟨c, hc⟩) htoken)

/-- The reports on unknown characters are those on the tokens of this kind. -/
theorem filterMap_eventsOf {ps : List Piece} (offset : Nat)
    (hsub : ∀ piece ∈ ps, piece ∈ pieces rules none text) :
    (eventsOf offset ps).filterMap Event.unknown? =
      (tokensOf offset ps).filter (·.kind = .unknown) := by
  induction ps generalizing offset with
  | nil => rfl
  | cons piece rest ih =>
    rw [List.forall_mem_cons] at hsub
    rw [eventsOf_cons, tokensOf_cons, List.filterMap_append, List.filter_append, ih _ hsub.2]
    congr 1
    cases piece with
    | lineEnd ending continued => cases continued <;> rfl
    | blank c => rfl
    | lexeme kind chars =>
      have htoken : (Piece.lexeme kind chars).token? offset =
          some ⟨kind, String.ofList chars, offset⟩ := rfl
      have hkind : kind ≠ .unknown := kind_ne_unknown_of_mem hsub.1 (by simp) htoken
      simp [Piece.event?, Piece.token?, hkind]
    | unknown c => rfl

end Places

/-! ### Reports of a scan -/

/-- All that is reported is for debugging, and reaches a listener on that level. -/
theorem Drained.records_debug (drained : Drained) :
    drained.records .debug = drained.events.map Event.record := by
  apply List.filter_eq_self.mpr
  intro record _
  exact decide_eq_true (Nat.zero_le _)

/-- What all the pieces of a source report agrees with their tokens. -/
theorem reportsContinuations_of_pieces {rules : List Rule} {text : List Char} {drained : Drained}
    (htokens : drained.tokens = tokensOf 0 (pieces rules none text))
    (hevents : drained.events = eventsOf 0 (pieces rules none text)) :
    ReportsContinuations text drained := by
  constructor
  case heard => exact drained.records_debug
  case continued =>
    intro i
    rw [htokens, hevents, eventsOf_eq_yieldOf, mem_yieldOf_iff]
    simp only [Nat.zero_add]
    constructor
    · rintro ⟨passed, piece, ahead, hsplit, hpiece⟩
      obtain ⟨ending, rfl, rfl⟩ := Piece.eq_lineEnd_of_event? hpiece
      refine ⟨⟨ending, LineEnding.startsAt_of_split hsplit⟩, ?_⟩
      obtain ⟨before, rfl⟩ := exists_backslash_of_continued hsplit
      rw [List.append_assoc, List.singleton_append] at hsplit
      refine ⟨⟨.unknown, "\\", widthOf before⟩, ?_, rfl, rfl, ?_⟩
      · exact mem_tokensOf_iff.mpr ⟨before, .unknown '\\', _, hsplit, by rw [Nat.zero_add]; rfl⟩
      · rw [widthOf_append]
        rfl
    · rintro ⟨⟨ending, hstarts⟩, token, htoken, hkind, htext, hoffset⟩
      obtain ⟨passed, piece, ahead, hsplit, hfound⟩ := mem_tokensOf_iff.mp htoken
      rw [Nat.zero_add] at hfound
      obtain ⟨hplace, -, -⟩ := token_of_split hsplit hfound
      obtain ⟨c, rfl, hchar⟩ := eq_unknown_of_token? hsplit hfound hkind
      obtain rfl : c = '\\' := by
        have hsame : "\\".toList = [c] := by rw [← htext, hchar, String.toList_ofList]
        exact (List.cons.inj hsame).1.symm
      obtain rfl : i = widthOf passed + 1 := by omega
      obtain ⟨more, rfl⟩ := ahead_eq_of_startsAt hsplit hstarts
      refine ⟨passed ++ [.unknown '\\'], .lineEnd ending true, more, ?_, ?_⟩
      · rw [hsplit, List.append_assoc, List.singleton_append]
      · rw [widthOf_append]
        rfl
  case preceded =>
    intro before i after hsplits
    rw [hevents, eventsOf_eq_yieldOf] at hsplits
    obtain ⟨passed, piece, ahead, hsplit, hpiece, rfl, -⟩ := exists_split_of_yieldOf hsplits
    rw [Nat.zero_add] at hpiece
    obtain ⟨ending, rfl, rfl⟩ := Piece.eq_lineEnd_of_event? hpiece
    obtain ⟨before, rfl⟩ := exists_backslash_of_continued hsplit
    refine ⟨widthOf before, ?_, ?_⟩
    · rw [widthOf_append]
      rfl
    · rw [yieldOf_append, List.getLast?_append, Nat.zero_add]
      rfl
  case unknown =>
    rw [htokens, hevents]
    exact filterMap_eventsOf 0 fun _ h => h

/-- A strict scan passes pieces none of which is an unknown character; what it yields and reports
comes from them. -/
theorem exists_passed_of_strict {settings : Settings} (hstrict : settings.isStrict = true)
    (source : String) (sourceFile : Option String) :
    ∃ passed ahead, pieces Rule.table none source.toList = passed ++ ahead ∧
      (∀ piece ∈ passed, ∀ c, piece ≠ .unknown c) ∧
      (scan source sourceFile settings).tokens = tokensOf 0 passed ∧
      (scan source sourceFile settings).events = eventsOf 0 passed ∧
      (scan source sourceFile settings).scanner.position = widthOf passed := by
  let scanner := Scanner.make source sourceFile settings
  cases hlength : scanner.lengthFailure? with
  | some failure =>
    have hdrained : scan source sourceFile settings = ⟨[], some failure, scanner, []⟩ :=
      Scanner.drain_fresh_of_fault hlength
    rw [hdrained]
    exact ⟨[], _, rfl, by simp, rfl, rfl, rfl⟩
  | none =>
    have hdrained : scan source sourceFile settings = scanner.drainRunning :=
      Scanner.drain_fresh_of_fits hlength
    have hdrain : scanner.cursor.drain scanner.settings.isStrict =
        Cursor.drainFrom true 0 (pieces Rule.table none source.toList) := by
      rw [show scanner.settings.isStrict = true from hstrict]
      rfl
    rw [hdrained]
    simp only [Scanner.drainRunning, hdrain, Scanner.position]
    rcases Cursor.drainFrom_strict_cases 0 (pieces Rule.table none source.toList) with
      ⟨hknown, hsame⟩ | ⟨passed, c, ahead, hsplit, hknown, hstop⟩
    · rw [hsame, Cursor.drainFrom_lenient]
      exact ⟨_, [], (List.append_nil _).symm, hknown, rfl, rfl, Nat.zero_add _⟩
    · rw [hstop]
      exact ⟨passed, _, hsplit, hknown, rfl, rfl, Nat.zero_add _⟩

/-- A strict scan reports nothing and takes no line ending back. -/
theorem passesInSilence_of_strict {settings : Settings} (hstrict : settings.isStrict = true)
    (source : String) (sourceFile : Option String) :
    PassesInSilence source.toList (scan source sourceFile settings) := by
  obtain ⟨passed, ahead, hpieces, hknown, htokens, hevents, hposition⟩ :=
    exists_passed_of_strict hstrict source sourceFile
  constructor
  case silent =>
    rw [Drained.records_debug, hevents, eventsOf_eq_nil hpieces hknown]
    rfl
  case ended =>
    rintro i hi ⟨ending, hstarts⟩ houtside
    rw [hposition] at hi
    obtain ⟨before, piece, after, rfl, hle, hlt⟩ := exists_piece_at hi
    rw [List.append_assoc, List.cons_append] at hpieces
    have hmem : ∀ token, piece.token? (widthOf before) = some token →
        token ∈ (scan source sourceFile settings).tokens := by
      intro token htoken
      rw [htokens]
      exact mem_tokensOf_iff.mpr ⟨before, piece, after, rfl, by rwa [Nat.zero_add]⟩
    rcases lineEnd_or_isQuoted_of_split hpieces hle hlt hstarts.starts with
      ⟨found, continued, rfl, hplace⟩ | ⟨kind, chars, rfl, hquoted⟩
    · cases continued with
      | false => exact ⟨_, hmem _ rfl, rfl, by rw [← hplace]⟩
      | true =>
        -- The backslash before it would be an unknown character.
        obtain ⟨earlier, rfl⟩ := exists_backslash_of_continued hpieces
        exact absurd rfl (hknown (.unknown '\\') (by simp) '\\')
    · exact absurd ⟨_, hmem _ rfl, hquoted, (covers_iff_of_split hpieces rfl).mpr ⟨hle, hlt⟩⟩
        houtside

/-- **A scan reports the line endings behind its unknown backslashes**, each right behind the
backslash, and of its other reports each is on one of its unknown characters.  **A strict scan
reports nothing and takes no line ending back**, whether it comes to its end or fails. -/
theorem scan_reports_continuations (source : String) (sourceFile : Option String) :
    ReportsContinuations source.toList (scan source sourceFile Settings.default) ∧
      ∀ settings : Settings, settings.isStrict = true →
        PassesInSilence source.toList (scan source sourceFile settings) := by
  constructor
  · have hdrained := scan_default source sourceFile
    exact reportsContinuations_of_pieces (congrArg Drained.tokens hdrained)
      (congrArg Drained.events hdrained)
  · intro settings hstrict
    exact passesInSilence_of_strict hstrict source sourceFile

/-- A backslash takes a line ending back also if it comes right behind another backslash. -/
example : ((scan "\\\\\r\n@" none Settings.default).records .debug).map LogRecord.message =
    ["Unknown character '\\\\' at offset 0", "Unknown character '\\\\' at offset 1",
      "Line continuation at offset 2", "Unknown character '@' at offset 4"] := by decide +kernel

end TokenStream
