import TokenStream.Proofs.Sharing

/-!
# One pass for all streams

However many streams a scanner has, and in whatever order they are made, pulled and closed, they
share one pass through the source.  A stream that is suspended while others move the scanner goes
on from where the scanner is by then; so no token is handed out twice, and none is skipped.

The invariant says how what has been handed out, what a fresh stream would still yield, the place
of the scanner and the phases of the streams belong together.  Each action preserves it.

## Main definitions

* `handedOut` — the tokens handed out so far, to whichever stream.
* `IsIntact` — a stream has been made, and since then it has neither been closed nor failed.
* `OnePass` — the invariant.
* `SharedPass` — what streams can rely on at their next action.

## Main results

* `OnePass.takesTurn`, `OnePass.runStreams` — a turn preserves the invariant, and so does a run.
* `streams_share_one_pass` — **streams of one scanner share one pass, along every schedule**.
-/

namespace TokenStream

/-! ### What has happened -/

/-- The tokens handed out so far, to whichever stream. -/
def handedOut (turns : List Turn) : List Token := turns.filterMap fun turn => turn.answer.token?

theorem handedOut_concat (turns : List Turn) (turn : Turn) :
    handedOut (turns ++ [turn]) = handedOut turns ++ turn.answer.token?.toList := by
  rw [handedOut, List.filterMap_append]
  cases h : turn.answer.token? <;> simp [handedOut, h]

/-- A stream has been made, and since then it has neither been closed nor failed. -/
def IsIntact (stream : String) (turns : List Turn) : Prop :=
  ∃ before answer since, turns = before ++ ⟨.create stream, answer⟩ :: since ∧
    ∀ turn ∈ since, ¬ turn.Breaks stream

/-- A stream that is intact has just been made, or was intact before. -/
theorem isIntact_concat {stream : String} {turns : List Turn} {turn : Turn}
    (h : IsIntact stream (turns ++ [turn])) :
    turn.action = .create stream ∨ IsIntact stream turns ∧ ¬ turn.Breaks stream := by
  obtain ⟨before, answer, since, hturns, hsince⟩ := h
  rcases List.eq_nil_or_concat since with rfl | ⟨since, last, rfl⟩
  · left
    obtain ⟨-, hlast⟩ := List.append_inj' hturns rfl
    rw [(List.cons.inj hlast).1]
  · right
    rw [List.concat_eq_append] at hturns hsince
    rw [← List.cons_append, ← List.append_assoc] at hturns
    obtain ⟨rfl, hlast⟩ := List.append_inj' hturns rfl
    obtain rfl : turn = last := (List.cons.inj hlast).1
    exact ⟨⟨before, answer, since, rfl, fun other hother => hsince other (by simp [hother])⟩,
      hsince turn (by simp)⟩

/-- A stream stays intact through a turn that does not break it. -/
theorem IsIntact.concat {stream : String} {turns : List Turn} (h : IsIntact stream turns)
    {turn : Turn} (hbreaks : ¬ turn.Breaks stream) : IsIntact stream (turns ++ [turn]) := by
  obtain ⟨before, answer, since, rfl, hsince⟩ := h
  refine ⟨before, answer, since ++ [turn], by simp, fun other hother => ?_⟩
  rcases List.mem_append.mp hother with hearlier | hnow
  · exact hsince other hearlier
  · rw [List.mem_singleton.mp hnow]
    exact hbreaks

/-! ### The invariant -/

/-- What has been handed out, what is left, the place of the scanner and the phases of the streams,
after some turns since the start. -/
structure OnePass (start : Scanner) (turns : List Turn) (scanner : Scanner)
    (phase? : String → Option Phase) : Prop where
  /-- The scanner is the one from the start, further on. -/
  reaches : start.Reaches scanner
  /-- What has been handed out and what is left are what was left at the start. -/
  accounted : handedOut turns ++ scanner.left = start.left
  /-- If the length of the source is at fault, the scanner has not moved. -/
  unfit : ∀ failure, start.lengthFailure? = some failure →
    scanner = start ∧ ∀ stream, phase? stream ≠ some .running
  /-- A stream that is intact ends only when the scanner is through. -/
  intact : ∀ stream, IsIntact stream turns →
    ∃ phase, phase? stream = some phase ∧ (phase = .ended → scanner.IsThrough)
  /-- After a failure with an offset the scanner stands before the unknown character. -/
  refused : ∀ turn ∈ turns, ∀ error, turn.answer = .failed (.scan (.source error)) →
    error.offset ≠ none → start.lengthFailure? = none ∧ scanner.Refuses (.source error)

namespace OnePass

variable {start scanner : Scanner} {turns : List Turn} {session : Session} {name : String}

/-- The invariant holds before the first turn. -/
theorem nil (start : Scanner) : OnePass start [] start (fun _ => none) := by
  constructor
  case reaches => exact .refl _
  case accounted => rfl
  case unfit => exact fun _ _ => ⟨rfl, fun _ => by simp⟩
  case intact =>
    rintro stream ⟨before, answer, since, hturns, -⟩
    simp at hturns
  case refused => exact fun _ hturn => absurd hturn List.not_mem_nil

/-- A stream that is running has passed the check of the length. -/
theorem fits_of_running (h : OnePass start turns scanner session.phase?) {stream : String}
    (hphase : session.phase? stream = some .running) : scanner.lengthFailure? = none := by
  rw [h.reaches.lengthFailure?_eq]
  cases hfault : start.lengthFailure? with
  | none => rfl
  | some failure => exact absurd hphase ((h.unfit failure hfault).2 stream)

/-- A turn preserves the invariant. -/
theorem takesTurn (h : OnePass start turns scanner session.phase?) {turn : Turn}
    {after : Scanner} {last : Session} (hturn : session.TakesTurn name scanner turn after last) :
    OnePass start (turns ++ [turn]) after last.phase? := by
  have heffect := hturn.effect
  have hrunning : session.phase? turn.action.stream = some .running →
      scanner.lengthFailure? = none := h.fits_of_running
  constructor
  case reaches => exact h.reaches.trans heffect.reaches
  case accounted =>
    rw [handedOut_concat, List.append_assoc, ← heffect.left hrunning, h.accounted]
  case unfit =>
    intro failure hfailure
    obtain ⟨hscanner, hphases⟩ := h.unfit failure hfailure
    obtain ⟨hafter, hphase⟩ :=
      heffect.unfit (h.reaches.lengthFailure?_eq.trans hfailure) (hphases _)
    refine ⟨hafter.trans hscanner, fun stream => ?_⟩
    by_cases hstream : stream = turn.action.stream
    · rw [hstream]
      exact hphase
    · rw [hturn.others stream hstream]
      exact hphases stream
  case intact =>
    intro stream hintact
    -- The stream of the turn has just been made, or goes on; any other keeps its phase.
    by_cases hstream : stream = turn.action.stream
    · rcases isIntact_concat hintact with hcreate | ⟨hbefore, hbreaks⟩
      · rw [hstream]
        rw [hcreate] at heffect ⊢
        exact ⟨.fresh, heffect.phase_of_create, by simp⟩
      · subst hstream
        obtain ⟨phase, hphase, hended⟩ := h.intact _ hbefore
        obtain ⟨next, hnext⟩ := heffect.exists_phase hphase
        refine ⟨next, hnext, ?_⟩
        rintro rfl
        exact heffect.isThrough hbreaks hrunning
          (fun h => hended (Option.some.inj (hphase.symm.trans h))) hnext
    · rcases isIntact_concat hintact with hcreate | ⟨hbefore, -⟩
      · rw [hcreate] at hstream
        exact absurd rfl hstream
      · obtain ⟨phase, hphase, hended⟩ := h.intact stream hbefore
        rw [hturn.others stream hstream]
        exact ⟨phase, hphase, fun h => heffect.reaches.isThrough (hended h)⟩
  case refused =>
    intro other hother error hanswer hoffset
    -- No turn after the failure moves the scanner.
    rcases List.mem_append.mp hother with hearlier | hnow
    · obtain ⟨hfit, hrefuses⟩ := h.refused other hearlier error hanswer hoffset
      rw [heffect.eq_of_refuses hrefuses]
      exact ⟨hfit, hrefuses⟩
    · rw [List.mem_singleton.mp hnow] at hanswer
      obtain ⟨⟨phase, hphase, hgoesOn⟩, hrefuses⟩ := heffect.refuses hanswer hoffset
      refine ⟨?_, hrefuses⟩
      rw [← h.reaches.lengthFailure?_eq]
      exact hgoesOn.fits fun hnow => hrunning (hnow ▸ hphase)

/-- A run preserves the invariant. -/
theorem runStreams (h : OnePass start turns scanner session.phase?)
    (hshares : session.Shares name scanner) (schedule : List StreamAction) :
    ∃ after, (session.runStreams name schedule).2.Shares name after ∧
      OnePass start (turns ++ (session.runStreams name schedule).1) after
        (session.runStreams name schedule).2.phase? := by
  induction schedule generalizing session turns scanner with
  | nil =>
    rw [Session.runStreams_nil, List.append_nil]
    exact ⟨scanner, hshares, h⟩
  | cons action schedule ih =>
    obtain ⟨after, hturn⟩ := hshares.perform action
    -- What is shown between two turns concerns no stream.
    have hnext : OnePass start (turns ++ [⟨action, (session.perform (action.on name)).1⟩]) after
        (session.perform (action.on name)).2.shown.phase? := by
      have hpreserved := h.takesTurn hturn
      exact hpreserved
    obtain ⟨last, hlast, hpass⟩ := ih hnext hturn.shares.shown
    rw [List.append_assoc, List.singleton_append] at hpass
    rw [Session.runStreams_cons]
    exact ⟨last, hlast, hpass⟩

section Turn

variable {turn : Turn} {after : Scanner} {last : Session} {stream : String}

/-- A stream that is intact comes to its end only when everything is handed out. -/
theorem handedOut_of_none (h : OnePass start turns scanner session.phase?)
    (hturn : session.TakesTurn name scanner turn after last) (haction : turn.action = .pull stream)
    (hintact : IsIntact stream turns) (hanswer : turn.answer = .token none) :
    handedOut turns = start.left := by
  have hbreaks : ¬ turn.Breaks stream := by
    rintro (hclose | ⟨-, fault, hfailed⟩)
    · rw [haction] at hclose
      contradiction
    · rw [hanswer] at hfailed
      contradiction
  have hnext := h.takesTurn hturn
  obtain ⟨phase, hphase, hended⟩ := hnext.intact stream (hintact.concat hbreaks)
  have hlast := hturn.effect.ended_of_token_none hanswer
  rw [haction, StreamAction.stream, hphase] at hlast
  have hthrough := hended (Option.some.inj hlast)
  have hall := hnext.accounted
  rw [handedOut_concat, hanswer, hthrough.left_eq, List.append_nil] at hall
  rw [← hall]
  exact (List.append_nil _).symm

/-- A stream that is intact answers a pull by what the scanner comes to in its phase. -/
theorem exists_phase (h : OnePass start turns scanner session.phase?)
    (hturn : session.TakesTurn name scanner turn after last) (haction : turn.action = .pull stream)
    (hintact : IsIntact stream turns) :
    ∃ phase, session.phase? stream = some phase ∧ (phase = .ended → scanner.IsThrough) ∧
      turn.answer = (scanner.pull phase).answer := by
  obtain ⟨phase, hphase, hended⟩ := h.intact stream hintact
  have heffect := hturn.effect
  rw [haction, StreamAction.stream, hphase] at heffect
  exact ⟨phase, hphase, hended, heffect.answer_eq⟩

/-- A stream that is intact hands out a token as long as there is one left. -/
theorem exists_token (h : OnePass start turns scanner session.phase?)
    (hturn : session.TakesTurn name scanner turn after last) (haction : turn.action = .pull stream)
    (hintact : IsIntact stream turns) (hmore : handedOut turns ≠ start.left) :
    ∃ token, turn.answer = .token (some token) := by
  obtain ⟨phase, hphase, hended, hanswer⟩ := h.exists_phase hturn haction hintact
  have hrunning : phase = .running → scanner.lengthFailure? = none :=
    fun hnow => h.fits_of_running (hnow ▸ hphase)
  cases htoken : (scanner.pull phase).token? with
  | some token => exact ⟨token, hanswer.trans (Pull.answer_of_token? htoken)⟩
  | none =>
    -- Nothing would be left, so everything would have been handed out.
    have hnothing := (scanner.pulls_pull phase).left_eq_nil hrunning hended htoken
    have hleft := scanner.left_pull hrunning
    rw [htoken, hnothing] at hleft
    have hall := h.accounted
    rw [hleft] at hall
    exact absurd ((List.append_nil _).symm.trans hall) hmore

/-- A stream that is intact fails before an unknown character. -/
theorem answer_of_refuses (h : OnePass start turns scanner session.phase?)
    (hturn : session.TakesTurn name scanner turn after last) (haction : turn.action = .pull stream)
    (hintact : IsIntact stream turns) (hfits : start.lengthFailure? = none) {failure : Failure}
    (hrefuses : scanner.Refuses failure) : turn.answer = .failed (.scan failure) := by
  obtain ⟨phase, -, hended, hanswer⟩ := h.exists_phase hturn haction hintact
  have hgoesOn : scanner.GoesOn phase := by
    cases phase with
    | fresh => exact .inr ⟨rfl, h.reaches.lengthFailure?_eq.trans hfits⟩
    | running => exact .inl rfl
    | ended => exact absurd (hended rfl) hrefuses.not_isThrough
  rw [hanswer, Scanner.pull_of_goesOn hgoesOn, hrefuses.resume_eq]
  rfl

/-- A stream that is intact fails if the length of the source is at fault. -/
theorem answer_of_unfit (h : OnePass start turns scanner session.phase?)
    (hturn : session.TakesTurn name scanner turn after last) (haction : turn.action = .pull stream)
    (hintact : IsIntact stream turns) {failure : Failure}
    (hfault : start.lengthFailure? = some failure) : turn.answer = .failed (.scan failure) := by
  obtain ⟨phase, hphase, hended, hanswer⟩ := h.exists_phase hturn haction hintact
  obtain ⟨hscanner, hrunning⟩ := h.unfit failure hfault
  rw [hscanner] at hended hanswer
  cases phase with
  | fresh =>
    rw [hanswer, Scanner.pull, hfault]
    rfl
  | running => exact absurd hphase (hrunning stream)
  | ended =>
    have hfits := (hended rfl).fits
    rw [hfault] at hfits
    contradiction

end Turn

end OnePass

/-! ### What streams can rely on -/

/-- What streams can rely on when a turn comes after others and takes the scanner from one place to
another. -/
structure SharedPass (source : String) (sourceFile : Option String) (settings : Settings)
    (turns : List Turn) (before : Scanner) (turn : Turn) (after : Scanner) : Prop where
  /-- Nothing is lost and nothing is handed out twice: the tokens are those of one fresh stream of a
  fresh scanner, from the first on. -/
  handed : handedOut (turns ++ [turn]) <+: (scan source sourceFile settings).tokens
  /-- The scanner never goes back. -/
  forward : before.position ≤ after.position
  /-- It never leaves the source. -/
  inside : after.position ≤ source.length
  /-- After a token it stands where the span of the token stops. -/
  stops : ∀ token, turn.answer = .token (some token) → after.position = token.stopIn source.toList
  /-- Making and closing streams does not move it. -/
  still : (∀ stream, turn.action ≠ .pull stream) → after = before ∧ turn.answer.token? = none
  /-- As long as there are tokens left, a stream that is intact hands out the next one. -/
  progress : ∀ stream, turn.action = .pull stream → IsIntact stream turns →
    handedOut turns ≠ (scan source sourceFile settings).tokens →
    ∃ token, turn.answer = .token (some token)
  /-- A stream that is intact does not end before everything is handed out. -/
  complete : ∀ stream, turn.action = .pull stream → IsIntact stream turns →
    turn.answer = .token none → handedOut turns = (scan source sourceFile settings).tokens
  /-- After a failure with an offset, each stream that is intact fails in the same way, and the
  scanner stays at this offset. -/
  refused : ∀ earlier ∈ turns, ∀ error offset,
    earlier.answer = .failed (.scan (.source error)) → error.offset = some offset →
    after.position = offset ∧
      ∀ stream, turn.action = .pull stream → IsIntact stream turns → turn.answer = earlier.answer
  /-- If the source is longer than the limit, each stream that is intact fails without an offset,
  and nothing is ever handed out. -/
  tooLong : ∀ limit, settings.checkLength source.length = .exceeded limit →
    handedOut (turns ++ [turn]) = [] ∧ after.position = 0 ∧
      ∀ stream, turn.action = .pull stream → IsIntact stream turns →
        ∃ error, turn.answer = .failed (.scan (.source error)) ∧ error.offset = none ∧
          error.sourceFile = sourceFile

/-- What streams can rely on follows from the invariant. -/
theorem OnePass.sharedPass {source : String} {sourceFile : Option String} {settings : Settings}
    {turns : List Turn} {before after : Scanner} {session last : Session} {name : String}
    {turn : Turn}
    (h : OnePass (Scanner.make source sourceFile settings) turns before session.phase?)
    (hturn : session.TakesTurn name before turn after last) :
    SharedPass source sourceFile settings turns before turn after := by
  have heffect := hturn.effect
  have hnext := h.takesTurn hturn
  have hall : handedOut (turns ++ [turn]) ++ after.left =
      (scan source sourceFile settings).tokens := hnext.accounted
  constructor
  case handed => exact ⟨after.left, hall⟩
  case forward => exact heffect.reaches.position_le
  case inside => exact hnext.reaches.position_le_length
  case stops => exact fun token hanswer => heffect.position_of_token h.reaches hanswer
  case still => exact heffect.eq_of_ne_pull
  case progress => exact fun stream haction hintact => h.exists_token hturn haction hintact
  case complete => exact fun stream haction hintact => h.handedOut_of_none hturn haction hintact
  case refused =>
    intro earlier hearlier error offset hfailed hoffset
    obtain ⟨hfits, hrefuses⟩ := h.refused earlier hearlier error hfailed (by simp [hoffset])
    have hplace := hrefuses.offset_eq
    rw [hoffset] at hplace
    rw [heffect.eq_of_refuses hrefuses, hfailed]
    exact ⟨(Option.some.inj hplace).symm, fun stream haction hintact =>
      h.answer_of_refuses hturn haction hintact hfits hrefuses⟩
  case tooLong =>
    intro limit hlimit
    have hfault := Scanner.lengthFailure?_of_exceeded sourceFile hlimit
    have hnone : (scan source sourceFile settings).tokens = [] :=
      Scanner.left_of_lengthFailure hfault
    rw [hnone] at hall
    refine ⟨(List.append_eq_nil_iff.mp hall).1, ?_, fun stream haction hintact => ?_⟩
    · rw [(hnext.unfit _ hfault).1]
      rfl
    · exact ⟨_, h.answer_of_unfit hturn haction hintact hfault, rfl, rfl⟩

/-- **Streams of one scanner share one pass, along every schedule.** -/
theorem streams_share_one_pass (name source : String) (sourceFile : Option String)
    (settings : Settings) (schedule : List StreamAction) (action : StreamAction) :
    let start := Session.start.addScanner name (.make source sourceFile settings)
    let turns := (start.runStreams name schedule).1
    let session := (start.runStreams name schedule).2
    let answer := (session.perform (action.on name)).1
    let last := (session.perform (action.on name)).2
    ∃ before after, session.scanner? name = some before ∧ last.scanner? name = some after ∧
      SharedPass source sourceFile settings turns before ⟨action, answer⟩ after := by
  intro start turns session answer last
  obtain ⟨before, hshares, hpass⟩ :=
    (OnePass.nil (.make source sourceFile settings)).runStreams
      (Session.shares_addScanner name _) schedule
  obtain ⟨after, hturn⟩ := hshares.perform action
  exact ⟨before, after, hshares.scanner?, hturn.shares.scanner?, hpass.sharedPass hturn⟩

/-- Two streams take turns; closing one of them leaves the rest to the other. -/
example :
    handedOut ((Session.start.addScanner "s" (.make "a b\r\nc" none Settings.default)).runStreams
      "s" [.create "x", .create "y", .pull "x", .pull "y", .close "x", .pull "x", .pull "y"]).1 =
      [⟨.identifier, "a", 0⟩, ⟨.identifier, "b", 2⟩, ⟨.endOfLine, "\n", 3⟩] := by
  decide +kernel

end TokenStream
