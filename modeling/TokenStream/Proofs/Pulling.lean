import TokenStream.Proofs.Draining
import TokenStream.Proofs.Spans

/-!
# Pulls of a stream

A pull takes a scanner over some of the pieces ahead of it, or leaves it where it is.  What it
hands out is the first of the tokens that the scanner still had to hand out, and it leaves the
others for the pulls that come later, of whatever stream.  So the tokens that a fresh stream would
still yield measure how far a scanner has got.

To drain a stream is to pull it until it has ended: the tokens, the failure, the place and the
reports are those of the pulls, one after the other.

## Main definitions

* `Cursor.Passes` — the pieces between two places of a scan.
* `Cursor.LeadsTo` — the ways in which a scan goes on to its next token.
* `Scanner.GoesOn` — a stream goes on through the source when it is pulled.
* `Scanner.Pulls` — the ways in which a stream answers a pull.
* `Scanner.left` — the tokens that a fresh stream would still yield.
* `Scanner.PullsToEnd` — what a stream comes to that is pulled until it has ended.

## Main results

* `Cursor.leadsTo_advance`, `Scanner.pulls_pull` — there are no other ways.
* `Cursor.drain_eq_followedBy` — **a scan goes to its end by way of its next token**, and does
  the rest from there.
* `Scanner.left_pull` — what a pull hands out is the first of the tokens that are left.
* `Scanner.drain_eq_followedBy`, `Scanner.pullsToEnd_iff` — **a stream is drained by pulling it
  until it has ended**.
-/

namespace TokenStream

namespace Cursor

/-! ### The pieces between two places -/

/-- Some pieces lie between two places of a scan. -/
structure Passes (before : Cursor) (passed : List Piece) (after : Cursor) : Prop where
  /-- They are the first of those ahead. -/
  split : before.ahead = passed ++ after.ahead
  /-- They lead from one offset to the other. -/
  place : after.offset = before.offset + widthOf passed

variable {before between after : Cursor} {passed further : List Piece}

theorem Passes.refl (cursor : Cursor) : cursor.Passes [] cursor := ⟨rfl, rfl⟩

theorem Passes.trans (h : before.Passes passed between) (h' : between.Passes further after) :
    before.Passes (passed ++ further) after := by
  constructor
  case split => rw [h.split, h'.split, List.append_assoc]
  case place => rw [h'.place, h.place, widthOf_append, Nat.add_assoc]

theorem Passes.cons {offset : Nat} (piece : Piece) {rest : List Piece}
    (h : Passes ⟨offset + piece.width, rest⟩ passed after) :
    Passes ⟨offset, piece :: rest⟩ (piece :: passed) after :=
  (show Passes ⟨offset, piece :: rest⟩ [piece] ⟨offset + piece.width, rest⟩ from
    ⟨rfl, by rw [widthOf_cons, widthOf_nil, Nat.add_zero]⟩).trans h

/-- Behind all that was ahead there is nothing. -/
theorem Passes.ahead_eq_nil (h : before.Passes before.ahead after) : after.ahead = [] :=
  List.self_eq_append_right.mp h.split

/-! ### The way to the next token -/

/-- The ways in which a scan goes on to its next token. -/
inductive LeadsTo (strict : Bool) (cursor : Cursor) : Outcome → Cursor → Prop
  /-- It comes to a piece that yields a token, and goes past it. -/
  | token {skipped : List Piece} {piece : Piece} {token : Token} {after : Cursor}
      (passes : cursor.Passes (skipped ++ [piece]) after)
      (found : piece.token? (cursor.offset + widthOf skipped) = some token) :
      LeadsTo strict cursor (.token token) after
  /-- It comes to an unknown character and is strict. -/
  | refused {skipped : List Piece} {c : Char} {after : Cursor}
      (passes : cursor.Passes skipped after) (stands : after.ahead.head? = some (.unknown c))
      (isStrict : strict = true) : LeadsTo strict cursor (.refused c) after
  /-- It comes to the end. -/
  | finished {after : Cursor} (passes : cursor.Passes cursor.ahead after) :
      LeadsTo strict cursor .finished after

/-- A piece without a token lengthens the way. -/
theorem LeadsTo.cons {strict : Bool} {offset : Nat} (piece : Piece) {rest : List Piece}
    {outcome : Outcome} (h : LeadsTo strict ⟨offset + piece.width, rest⟩ outcome after) :
    LeadsTo strict ⟨offset, piece :: rest⟩ outcome after := by
  cases h with
  | @token skipped last _ _ passes found =>
    rw [Nat.add_assoc, ← widthOf_cons] at found
    exact .token (passes.cons piece) found
  | refused passes stands isStrict => exact .refused (passes.cons piece) stands isStrict
  | finished passes => exact .finished (passes.cons piece)

/-- A scan goes on to its next token in one of these ways. -/
theorem leadsTo_advance (strict : Bool) (cursor : Cursor) :
    LeadsTo strict cursor (cursor.advance strict).outcome (cursor.advance strict).cursor := by
  obtain ⟨offset, ahead⟩ := cursor
  simp only [advance]
  induction ahead generalizing offset with
  | nil => exact .finished ⟨rfl, rfl⟩
  | cons piece rest ih =>
    rw [advanceFrom]
    split
    · next c hrefused =>
      -- Only an unknown character is refused, and only by a strict scan.
      cases piece with
      | unknown c' =>
        cases strict with
        | true =>
          obtain rfl : c' = c := Option.some.inj hrefused
          exact .refused (.refl _) rfl rfl
        | false => contradiction
      | _ => contradiction
    · next token _ htoken =>
      have hpasses : Passes ⟨offset, piece :: rest⟩ ([] ++ [piece]) ⟨offset + piece.width, rest⟩ :=
        (Passes.refl _).cons piece
      exact .token hpasses htoken
    · next => exact (ih (offset + piece.width)).cons piece

end Cursor

/-- The token of an outcome. -/
def Outcome.token? : Outcome → Option Token
  | .token found => some found
  | _ => none

/-- The way to where a scan ends, if it goes by way of the next token. -/
def Advance.followedBy (way : Advance) (later : Cursor.Drain) : Cursor.Drain :=
  { later with
    tokens := way.outcome.token?.toList ++ later.tokens
    events := way.events ++ later.events }

namespace Cursor

/-- **A scan goes to its end by way of its next token**, and does the rest from there.  Where there
is no next token nothing is left to be done. -/
theorem drain_eq_followedBy (strict : Bool) (cursor : Cursor) :
    cursor.drain strict =
      (cursor.advance strict).followedBy ((cursor.advance strict).cursor.drain strict) := by
  obtain ⟨offset, ahead⟩ := cursor
  simp only [advance, drain]
  induction ahead generalizing offset with
  | nil => rfl
  | cons piece rest ih =>
    rw [advanceFrom]
    split
    · next c hrefused =>
      simp only [drainFrom, hrefused]
      rfl
    · next hrefused htoken =>
      simp only [drainFrom, hrefused, htoken]
      rfl
    · next hrefused htoken =>
      -- The piece is passed in silence, or with a report.
      simp only [drainFrom, hrefused, htoken, ih (offset + piece.width), Advance.followedBy,
        Option.toList_none, List.nil_append, List.append_assoc]

/-- At the end of the source nothing is left to be done. -/
theorem drain_of_ahead_nil {cursor : Cursor} (strict : Bool) (h : cursor.ahead = []) :
    cursor.drain strict = ⟨[], none, cursor, []⟩ := by
  obtain ⟨offset, ahead⟩ := cursor
  cases h
  rfl

/-- A strict scan does not go on from before an unknown character. -/
theorem advance_of_head?_unknown {cursor : Cursor} {c : Char}
    (h : cursor.ahead.head? = some (.unknown c)) :
    cursor.advance true = ⟨.refused c, cursor, []⟩ := by
  obtain ⟨offset, ahead⟩ := cursor
  obtain ⟨rest, rfl⟩ := List.head?_eq_some_iff.mp h
  rfl

/-- A strict scan does nothing before an unknown character. -/
theorem drain_of_head?_unknown {cursor : Cursor} {c : Char}
    (h : cursor.ahead.head? = some (.unknown c)) :
    cursor.drain true = ⟨[], some c, cursor, []⟩ := by
  obtain ⟨offset, ahead⟩ := cursor
  obtain ⟨rest, rfl⟩ := List.head?_eq_some_iff.mp h
  rfl

end Cursor

/-! ### Pulls of streams -/

/-- The token that a pull hands out. -/
def Pull.token? (pull : Pull) : Option Token :=
  match pull.result with
  | .ok token => token
  | .error _ => none

namespace Scanner

/-- A stream in a given phase goes on through the source when it is pulled. -/
def GoesOn (scanner : Scanner) (phase : Phase) : Prop :=
  phase = .running ∨ phase = .fresh ∧ scanner.lengthFailure? = none

theorem GoesOn.fits {scanner : Scanner} {phase : Phase} (h : scanner.GoesOn phase)
    (hrunning : phase = .running → scanner.lengthFailure? = none) :
    scanner.lengthFailure? = none := by
  rcases h with hphase | ⟨-, hfits⟩
  · exact hrunning hphase
  · exact hfits

/-- The ways in which a stream answers a pull. -/
inductive Pulls (scanner : Scanner) : Phase → Pull → Prop
  /-- It has ended before. -/
  | ended : Pulls scanner .ended ⟨.ok none, .ended, scanner, []⟩
  /-- It is pulled for the first time, and the length of the source is at fault. -/
  | unfit {failure : Failure} (fault : scanner.lengthFailure? = some failure) :
      Pulls scanner .fresh ⟨.error failure, .ended, scanner, []⟩
  /-- It hands out a token. -/
  | token {phase : Phase} {skipped : List Piece} {piece : Piece} {token : Token}
      {after : Cursor} {events : List Event} (goesOn : scanner.GoesOn phase)
      (passes : scanner.cursor.Passes (skipped ++ [piece]) after)
      (found : piece.token? (scanner.position + widthOf skipped) = some token) :
      Pulls scanner phase ⟨.ok (some token), .running, { scanner with cursor := after }, events⟩
  /-- It fails before an unknown character. -/
  | refused {phase : Phase} {skipped : List Piece} {c : Char} {after : Cursor}
      {events : List Event} (goesOn : scanner.GoesOn phase)
      (passes : scanner.cursor.Passes skipped after)
      (stands : after.ahead.head? = some (.unknown c))
      (isStrict : scanner.settings.isStrict = true) :
      Pulls scanner phase ⟨.error (scanner.refusal after.offset c), .ended,
        { scanner with cursor := after }, events⟩
  /-- It comes to the end of the source. -/
  | finished {phase : Phase} {after : Cursor} {events : List Event}
      (goesOn : scanner.GoesOn phase)
      (passes : scanner.cursor.Passes scanner.cursor.ahead after) :
      Pulls scanner phase ⟨.ok none, .ended, { scanner with cursor := after }, events⟩

theorem pull_of_goesOn {scanner : Scanner} {phase : Phase} (h : scanner.GoesOn phase) :
    scanner.pull phase = scanner.resume := by
  rcases h with rfl | ⟨rfl, hfits⟩
  · rfl
  · rw [pull, hfits]

/-- A stream that goes on does so in one of the last three ways. -/
theorem pulls_resume {scanner : Scanner} {phase : Phase} (h : scanner.GoesOn phase) :
    scanner.Pulls phase scanner.resume := by
  have hway := Cursor.leadsTo_advance scanner.settings.isStrict scanner.cursor
  unfold resume
  generalize scanner.cursor.advance scanner.settings.isStrict = way at hway
  obtain ⟨outcome, after, events⟩ := way
  cases hway with
  | token passes found => exact .token h passes found
  | refused passes stands isStrict => exact .refused h passes stands isStrict
  | finished passes => exact .finished h passes

/-- A stream answers a pull in one of these ways. -/
theorem pulls_pull (scanner : Scanner) (phase : Phase) :
    scanner.Pulls phase (scanner.pull phase) := by
  cases phase with
  | ended => exact .ended
  | running => exact pulls_resume (.inl rfl)
  | fresh =>
    rw [pull]
    split
    · next hfault => exact .unfit hfault
    · next hnone => exact pulls_resume (.inr ⟨rfl, hnone⟩)

/-! ### The way of a scanner -/

/-- One scanner is another one, or that one further on. -/
structure Reaches (before after : Scanner) : Prop where
  /-- It has the same source and the same settings. -/
  same : after = { before with cursor := after.cursor }
  /-- Some pieces lie between their places. -/
  passes : ∃ passed, before.cursor.Passes passed after.cursor

variable {scanner before between after : Scanner} {phase : Phase} {pull : Pull}
  {failure : Failure}

theorem Reaches.refl (scanner : Scanner) : scanner.Reaches scanner := ⟨rfl, [], .refl _⟩

theorem Reaches.trans (h : before.Reaches between) (h' : between.Reaches after) :
    before.Reaches after := by
  obtain ⟨passed, hpassed⟩ := h.passes
  obtain ⟨further, hfurther⟩ := h'.passes
  refine ⟨?_, passed ++ further, hpassed.trans hfurther⟩
  rw [h'.same, h.same]

theorem Reaches.position_le (h : before.Reaches after) : before.position ≤ after.position := by
  obtain ⟨passed, hpassed⟩ := h.passes
  rw [position, position, hpassed.place]
  exact Nat.le_add_right _ _

theorem Reaches.lengthFailure?_eq (h : before.Reaches after) :
    after.lengthFailure? = before.lengthFailure? := by
  rw [h.same]
  rfl

/-- A scanner is at the end of a source that is not too long. -/
structure IsThrough (scanner : Scanner) : Prop where
  /-- Nothing is ahead. -/
  ahead : scanner.cursor.ahead = []
  /-- The length is not at fault. -/
  fits : scanner.lengthFailure? = none

/-- The way of a scanner ends with the pieces. -/
theorem Reaches.isThrough (h : before.Reaches after) (hbefore : before.IsThrough) :
    after.IsThrough := by
  obtain ⟨passed, hpassed⟩ := h.passes
  constructor
  case ahead => exact (List.append_eq_nil_iff.mp (hpassed.split.symm.trans hbefore.ahead)).2
  case fits => rw [h.lengthFailure?_eq, hbefore.fits]

/-- A scanner on its way through a source has some of the pieces behind it, and the others ahead. -/
theorem Reaches.exists_split {source : String} {sourceFile : Option String} {settings : Settings}
    (h : (make source sourceFile settings).Reaches after) :
    ∃ passed, pieces Rule.table none source.toList = passed ++ after.cursor.ahead ∧
      after.position = widthOf passed := by
  obtain ⟨passed, hpassed⟩ := h.passes
  exact ⟨passed, hpassed.split, hpassed.place.trans (Nat.zero_add _)⟩

theorem Reaches.position_le_length {source : String} {sourceFile : Option String}
    {settings : Settings} (h : (make source sourceFile settings).Reaches after) :
    after.position ≤ source.length := by
  obtain ⟨passed, hsplit, hplace⟩ := h.exists_split
  have htotal := congrArg widthOf hsplit
  rw [widthOf_pieces, String.length_toList, widthOf_append] at htotal
  omega

/-- A pull takes a scanner further on, or leaves it where it is. -/
theorem Pulls.reaches (h : scanner.Pulls phase pull) : scanner.Reaches pull.scanner := by
  cases h with
  | ended => exact .refl _
  | unfit => exact .refl _
  | token _ passes => exact ⟨rfl, _, passes⟩
  | refused _ passes => exact ⟨rfl, _, passes⟩
  | finished _ passes => exact ⟨rfl, _, passes⟩

/-- After a token has been handed out, the scanner stands where its span stops. -/
theorem Pulls.position_of_token {source : String} {sourceFile : Option String}
    {settings : Settings} (h : scanner.Pulls phase pull)
    (hreaches : (make source sourceFile settings).Reaches scanner) {token : Token}
    (hresult : pull.result = .ok (some token)) :
    pull.scanner.position = token.stopIn source.toList := by
  cases h with
  | @token _ skipped piece found next _ _ passes stands =>
    obtain rfl : found = token := Option.some.inj (Except.ok.inj hresult)
    obtain ⟨passed, hsplit, hplace⟩ := hreaches.exists_split
    have hpiece : pieces Rule.table none source.toList =
        (passed ++ skipped) ++ piece :: next.ahead := by
      rw [hsplit, passes.split, List.append_assoc, List.append_assoc, List.singleton_append]
    have hafter : next.offset = widthOf (passed ++ skipped) + piece.width := by
      rw [passes.place, ← position, hplace, widthOf_append, widthOf_append, widthOf_cons,
        widthOf_nil, Nat.add_zero, Nat.add_assoc]
    rw [hplace, ← widthOf_append] at stands
    rw [(token_of_split hpiece stands).2.2, position, hafter]
  | _ => cases hresult

theorem Pulls.ended_of_none (h : scanner.Pulls phase pull) (hresult : pull.result = .ok none) :
    pull.phase = .ended := by
  cases h with
  | ended => rfl
  | finished => rfl
  | _ => cases hresult

/-- A stream that ends without a failure ends when the scanner is through. -/
theorem Pulls.isThrough (h : scanner.Pulls phase pull)
    (hresult : ∀ failure, pull.result ≠ .error failure)
    (hrunning : phase = .running → scanner.lengthFailure? = none)
    (hended : phase = .ended → scanner.IsThrough) (hafter : pull.phase = .ended) :
    pull.scanner.IsThrough := by
  cases h with
  | ended => exact hended rfl
  | unfit => exact absurd rfl (hresult _)
  | token => cases hafter
  | refused => exact absurd rfl (hresult _)
  | finished goesOn passes =>
    exact ⟨passes.ahead_eq_nil, goesOn.fits hrunning⟩

/-- If the length of the source is at fault, no stream gets past its first pull. -/
theorem Pulls.unfit_of_lengthFailure (h : scanner.Pulls phase pull)
    (hfault : scanner.lengthFailure? = some failure) (hrunning : phase ≠ .running) :
    pull.scanner = scanner ∧ pull.phase = .ended := by
  have hstops : ¬ scanner.GoesOn phase := by
    rintro (hphase | ⟨-, hfits⟩)
    · exact hrunning hphase
    · rw [hfault] at hfits
      contradiction
  cases h with
  | ended => exact ⟨rfl, rfl⟩
  | unfit => exact ⟨rfl, rfl⟩
  | token goesOn => exact absurd goesOn hstops
  | refused goesOn => exact absurd goesOn hstops
  | finished goesOn => exact absurd goesOn hstops

/-- A scanner stands before an unknown character, at which streams fail. -/
def Refuses (scanner : Scanner) (failure : Failure) : Prop :=
  ∃ c, scanner.cursor.ahead.head? = some (.unknown c) ∧ scanner.settings.isStrict = true ∧
    failure = scanner.refusal scanner.position c

/-- A stream that goes on from before an unknown character fails there, and leaves the scanner
where it is. -/
theorem Refuses.resume_eq (h : scanner.Refuses failure) :
    scanner.resume = ⟨.error failure, .ended, scanner, []⟩ := by
  obtain ⟨c, hhead, hstrict, rfl⟩ := h
  rw [resume, hstrict, Cursor.advance_of_head?_unknown hhead]
  rfl

/-- The failure before an unknown character names the place of the scanner. -/
theorem Refuses.offset_eq {error : ScanError} (h : scanner.Refuses (.source error)) :
    error.offset = some (scanner.position : Int) := by
  obtain ⟨c, -, -, herror⟩ := h
  cases herror
  rfl

theorem Refuses.not_isThrough (h : scanner.Refuses failure) : ¬ scanner.IsThrough := by
  rintro ⟨hahead, -⟩
  obtain ⟨c, hhead, -⟩ := h
  rw [hahead] at hhead
  contradiction

/-- Before an unknown character no stream of a strict scanner gets any further. -/
theorem Refuses.pull_scanner (h : scanner.Refuses failure) (phase : Phase) :
    (scanner.pull phase).scanner = scanner := by
  cases phase with
  | ended => rfl
  | running => exact congrArg Pull.scanner h.resume_eq
  | fresh =>
    rw [Scanner.pull]
    split
    · rfl
    · exact congrArg Pull.scanner h.resume_eq

/-- A length at fault has no place but the file. -/
theorem lengthFailure?_source {error : ScanError}
    (h : scanner.lengthFailure? = some (.source error)) :
    error.offset = none ∧ error.sourceFile = scanner.sourceFile := by
  simp only [lengthFailure?] at h
  split at h
  · contradiction
  · cases h
    exact ⟨rfl, rfl⟩
  · cases h

/-- A failure with an offset comes from an unknown character, which stays ahead. -/
theorem Pulls.refuses (h : scanner.Pulls phase pull) {error : ScanError}
    (herror : pull.result = .error (.source error)) (hoffset : error.offset ≠ none) :
    scanner.GoesOn phase ∧ pull.scanner.Refuses (.source error) := by
  cases h with
  | ended => contradiction
  | unfit fault =>
    cases herror
    exact absurd (lengthFailure?_source fault).1 hoffset
  | token => contradiction
  | refused goesOn passes stands isStrict =>
    refine ⟨goesOn, _, stands, isStrict, ?_⟩
    cases herror
    rfl
  | finished => contradiction

/-! ### What is left -/

/-- The tokens that a fresh stream would still yield. -/
def left (scanner : Scanner) : List Token := (scanner.drain .fresh).tokens

/-- Nothing is left in a source that is too long. -/
theorem left_of_lengthFailure {scanner : Scanner} {failure : Failure}
    (h : scanner.lengthFailure? = some failure) : scanner.left = [] := by
  rw [left, drain_fresh_of_fault h]

/-- In any other source the tokens ahead are left. -/
theorem left_of_no_lengthFailure {scanner : Scanner} (h : scanner.lengthFailure? = none) :
    scanner.left = (scanner.cursor.drain scanner.settings.isStrict).tokens := by
  rw [left, drain_fresh_of_fits h]
  rfl

/-- Nothing is left at the end of the source. -/
theorem IsThrough.left_eq {scanner : Scanner} (h : scanner.IsThrough) : scanner.left = [] := by
  rw [left_of_no_lengthFailure h.fits, Cursor.drain_of_ahead_nil _ h.ahead]

/-- Nothing is left before an unknown character. -/
theorem Refuses.left_eq {scanner : Scanner} {failure : Failure} (h : scanner.Refuses failure) :
    scanner.left = [] := by
  obtain ⟨c, hhead, hstrict, -⟩ := h
  cases hlength : scanner.lengthFailure? with
  | some failure => exact left_of_lengthFailure hlength
  | none => rw [left_of_no_lengthFailure hlength, hstrict, Cursor.drain_of_head?_unknown hhead]

/-- A stream that hands out nothing leaves nothing to hand out. -/
theorem Pulls.left_eq_nil {scanner : Scanner} {phase : Phase} {pull : Pull}
    (h : scanner.Pulls phase pull)
    (hrunning : phase = .running → scanner.lengthFailure? = none)
    (hended : phase = .ended → scanner.IsThrough) (hnone : pull.token? = none) :
    pull.scanner.left = [] := by
  cases h with
  | ended => exact (hended rfl).left_eq
  | unfit fault => exact left_of_lengthFailure fault
  | token => contradiction
  | @refused _ _ c after _ _ _ stands isStrict =>
    have hrefuses : Refuses { scanner with cursor := after } (scanner.refusal after.offset c) :=
      ⟨c, stands, isStrict, rfl⟩
    exact hrefuses.left_eq
  | @finished _ after _ goesOn passes =>
    have hthrough : IsThrough { scanner with cursor := after } :=
      ⟨passes.ahead_eq_nil, goesOn.fits hrunning⟩
    exact hthrough.left_eq

/-- A stream that goes on takes its scanner to the next token. -/
theorem resume_eq (scanner : Scanner) :
    scanner.resume.token? =
        (scanner.cursor.advance scanner.settings.isStrict).outcome.token? ∧
      scanner.resume.scanner = { scanner with
        cursor := (scanner.cursor.advance scanner.settings.isStrict).cursor } := by
  unfold resume
  generalize scanner.cursor.advance scanner.settings.isStrict = way
  obtain ⟨outcome, after, events⟩ := way
  cases outcome <;> exact ⟨rfl, rfl⟩

/-- What a pull hands out is the first of the tokens that are left, and it leaves the others.  A
stream that is running has passed the check of the length. -/
theorem left_pull (scanner : Scanner) {phase : Phase}
    (h : phase = .running → scanner.lengthFailure? = none) :
    scanner.left = (scanner.pull phase).token?.toList ++ (scanner.pull phase).scanner.left := by
  have hresume : scanner.lengthFailure? = none →
      scanner.left = scanner.resume.token?.toList ++ scanner.resume.scanner.left := by
    intro hlength
    obtain ⟨htoken, hscanner⟩ := scanner.resume_eq
    have hafter : scanner.resume.scanner.lengthFailure? = none := by rw [hscanner]; exact hlength
    rw [left_of_no_lengthFailure hlength, left_of_no_lengthFailure hafter, htoken, hscanner]
    exact congrArg Cursor.Drain.tokens (scanner.cursor.drain_eq_followedBy _)
  cases phase with
  | ended => rfl
  | running => exact hresume (h rfl)
  | fresh =>
    rw [pull]
    split
    · rfl
    · next hlength => exact hresume hlength

end Scanner

/-! ### Pulls up to the end -/

/-- The failure of a pull. -/
def Pull.failure? (pull : Pull) : Option Failure :=
  match pull.result with
  | .ok _ => none
  | .error failure => some failure

/-- What pulling to the end comes to, if a pull comes first. -/
def Pull.followedBy (pull : Pull) (later : Drained) : Drained where
  tokens := pull.token?.toList ++ later.tokens
  stopped := pull.failure?.or later.stopped
  scanner := later.scanner
  events := pull.events ++ later.events

namespace Scanner

/-- What a stream comes to that is pulled until it has ended. -/
inductive PullsToEnd : Scanner → Phase → Drained → Prop
  /-- It has ended. -/
  | ended (scanner : Scanner) : PullsToEnd scanner .ended ⟨[], none, scanner, []⟩
  /-- It is pulled, and then pulled on. -/
  | pull {scanner : Scanner} {phase : Phase} {later : Drained} (goesOn : phase ≠ .ended)
      (rest : PullsToEnd (scanner.pull phase).scanner (scanner.pull phase).phase later) :
      PullsToEnd scanner phase ((scanner.pull phase).followedBy later)

/-- A stream that goes on is drained by one pull and by draining what this leaves. -/
theorem drainRunning_eq_followedBy (scanner : Scanner) :
    scanner.drainRunning =
      scanner.resume.followedBy (scanner.resume.scanner.drain scanner.resume.phase) := by
  have hway := Cursor.leadsTo_advance scanner.settings.isStrict scanner.cursor
  unfold drainRunning resume
  rw [Cursor.drain_eq_followedBy]
  generalize scanner.cursor.advance scanner.settings.isStrict = way at hway
  obtain ⟨outcome, after, events⟩ := way
  cases hway with
  | token passes found => rfl
  | refused passes stands isStrict =>
    rw [isStrict, Cursor.drain_of_head?_unknown stands]
    rfl
  | finished passes =>
    rw [Cursor.drain_of_ahead_nil _ passes.ahead_eq_nil]
    rfl

/-- A stream is drained by one pull and by draining what this leaves. -/
theorem drain_eq_followedBy (scanner : Scanner) (phase : Phase) :
    scanner.drain phase =
      (scanner.pull phase).followedBy
        ((scanner.pull phase).scanner.drain (scanner.pull phase).phase) := by
  cases phase with
  | ended => rfl
  | running => exact scanner.drainRunning_eq_followedBy
  | fresh =>
    rw [drain, pull]
    split
    · rfl
    · exact scanner.drainRunning_eq_followedBy

/-- A pull that does not end its stream takes the scanner further on. -/
theorem Pulls.length_ahead_lt {scanner : Scanner} {phase : Phase} {pull : Pull}
    (h : scanner.Pulls phase pull) (hphase : pull.phase ≠ .ended) :
    pull.scanner.cursor.ahead.length < scanner.cursor.ahead.length := by
  cases h with
  | @token _ skipped piece _ after _ _ passes =>
    have hlength := congrArg List.length passes.split
    rw [List.length_append, List.length_append, List.length_singleton] at hlength
    show after.ahead.length < scanner.cursor.ahead.length
    omega
  | _ => contradiction

theorem pullsToEnd_drain (scanner : Scanner) (phase : Phase) :
    scanner.PullsToEnd phase (scanner.drain phase) := by
  -- By induction on how much is ahead, which is less after every pull but the last.
  induction hlength : scanner.cursor.ahead.length using Nat.strongRecOn
    generalizing scanner phase with
  | ind n ih =>
    by_cases hphase : phase = .ended
    · subst hphase
      exact .ended scanner
    · rw [drain_eq_followedBy]
      apply PullsToEnd.pull hphase
      by_cases hafter : (scanner.pull phase).phase = .ended
      · rw [hafter]
        exact .ended _
      · have hshorter := (scanner.pulls_pull phase).length_ahead_lt hafter
        exact ih _ (hlength ▸ hshorter) _ _ rfl

/-- **A stream is drained by pulling it until it has ended**: all that a drain comes to is what the
pulls come to, one after the other. -/
theorem pullsToEnd_iff {scanner : Scanner} {phase : Phase} {drained : Drained} :
    scanner.PullsToEnd phase drained ↔ scanner.drain phase = drained := by
  constructor
  · intro h
    induction h with
    | ended => rfl
    | pull _ _ ih => rw [drain_eq_followedBy, ih]
  · rintro rfl
    exact pullsToEnd_drain scanner phase

end Scanner

end TokenStream
