import TokenStream.Proofs.Pulling
import TokenStream.Session.Step

/-!
# What is done with the streams of a scanner

The streams of a scanner are made, pulled and closed.  Each of these concerns one stream and the
scanner: what comes of it is settled by where the scanner is and by the phase of this stream,
whatever the other streams are at.

## Main definitions

* `StreamAction`, `Turn` — what can be done with the streams of a scanner, and the answer to it.
* `Turn.Breaks` — a turn closes a stream, or is a pull at which the stream fails.
* `StreamAction.Effect` — what an action makes of the scanner and of its stream.

## Main results

* `StreamAction.Effect.left` — **an action hands out the first of the tokens that are left, or
  leaves all of them**.
* `StreamAction.Effect.position_of_token` — after a token the scanner stands where its span stops.
* `StreamAction.Effect.isThrough`, `StreamAction.Effect.refuses` — why a stream ends.
-/

namespace TokenStream

/-! ### Actions and their answers -/

/-- What can be done with the streams of a scanner. -/
inductive StreamAction
  /-- Make a stream. -/
  | create (stream : String)
  /-- Pull a stream once. -/
  | pull (stream : String)
  /-- End a stream. -/
  | close (stream : String)
deriving DecidableEq, Repr, Inhabited

namespace StreamAction

/-- The stream with which something is done. -/
def stream : StreamAction → String
  | create name | pull name | close name => name

/-- The action of a session, for streams of the scanner under a name. -/
def on (scanner : String) : StreamAction → Action
  | create name => .stream scanner name
  | pull name => .next name
  | close name => .close name

end StreamAction

/-- Something done with a stream, and the answer to it. -/
structure Turn where
  /-- What is done. -/
  action : StreamAction
  /-- What it comes to. -/
  answer : Answer
deriving Repr, Inhabited

/-- A turn closes a stream, or is a pull at which the stream fails. -/
def Turn.Breaks (turn : Turn) (stream : String) : Prop :=
  turn.action = .close stream ∨
    turn.action = .pull stream ∧ ∃ fault, turn.answer = .failed fault

/-- The token in an answer. -/
def Answer.token? : Answer → Option Token
  | .token found => found
  | _ => none

/-- The answer that a pull is. -/
def Pull.answer (pull : Pull) : Answer :=
  match pull.result with
  | .ok token => .token token
  | .error failure => .failed (.scan failure)

/-- A pull answers with the token that it hands out. -/
@[simp] theorem Pull.token?_answer (pull : Pull) : pull.answer.token? = pull.token? := by
  unfold answer token?
  cases pull.result <;> rfl

theorem Pull.answer_eq_failed {pull : Pull} {failure : Failure}
    (h : pull.answer = .failed (.scan failure)) : pull.result = .error failure := by
  unfold answer at h
  cases hresult : pull.result with
  | ok token => rw [hresult] at h; contradiction
  | error other => rw [hresult] at h; cases h; rfl

theorem Pull.answer_eq_token {pull : Pull} {token? : Option Token}
    (h : pull.answer = .token token?) : pull.result = .ok token? := by
  unfold answer at h
  cases hresult : pull.result with
  | ok other => rw [hresult] at h; cases h; rfl
  | error failure => rw [hresult] at h; cases h

/-! ### The effect of an action -/

/-- What an action makes of the scanner and of the phase of its stream, if there is one. -/
inductive StreamAction.Effect (scanner : Scanner) :
    StreamAction → Option Phase → Answer → Scanner → Option Phase → Prop
  /-- A stream is made, in the place of one that had its name. -/
  | create {name : String} {phase? : Option Phase} :
      Effect scanner (.create name) phase? .done scanner (some .fresh)
  /-- A stream is pulled. -/
  | pull {name : String} {phase : Phase} :
      Effect scanner (.pull name) (some phase) (scanner.pull phase).answer
        (scanner.pull phase).scanner (some (scanner.pull phase).phase)
  /-- A stream is closed. -/
  | close {name : String} {phase : Phase} :
      Effect scanner (.close name) (some phase) .done scanner (some .ended)
  /-- There is no such stream. -/
  | unknown {action : StreamAction} (old : ∀ name, action ≠ .create name) :
      Effect scanner action none (.failed (.unknownName action.stream)) scanner none

theorem Pull.answer_of_token? {pull : Pull} {token : Token} (h : pull.token? = some token) :
    pull.answer = .token (some token) := by
  unfold token? at h
  unfold answer
  cases hresult : pull.result with
  | ok other => rw [hresult] at h; cases h; rfl
  | error failure => rw [hresult] at h; cases h

namespace StreamAction.Effect

variable {scanner after : Scanner} {action : StreamAction} {phase? last? : Option Phase}
  {answer : Answer}

/-- An action takes the scanner further on, or leaves it where it is. -/
theorem reaches (h : action.Effect scanner phase? answer after last?) : scanner.Reaches after := by
  cases h with
  | pull => exact (Scanner.pulls_pull scanner _).reaches
  | _ => exact .refl _

/-- Only a pull moves the scanner or hands out a token. -/
theorem eq_of_ne_pull (h : action.Effect scanner phase? answer after last?)
    (hpull : ∀ name, action ≠ .pull name) : after = scanner ∧ answer.token? = none := by
  cases h with
  | pull => exact absurd rfl (hpull _)
  | _ => exact ⟨rfl, rfl⟩

/-- What an action hands out is the first of the tokens that are left, and it leaves the others. -/
theorem left (h : action.Effect scanner phase? answer after last?)
    (hrunning : phase? = some .running → scanner.lengthFailure? = none) :
    scanner.left = answer.token?.toList ++ after.left := by
  cases h with
  | pull =>
    rw [Pull.token?_answer]
    exact scanner.left_pull fun hphase => hrunning (congrArg some hphase)
  | _ => rfl

/-- If the length of the source is at fault, no stream gets past its first pull. -/
theorem unfit (h : action.Effect scanner phase? answer after last?) {failure : Failure}
    (hfault : scanner.lengthFailure? = some failure) (hrunning : phase? ≠ some .running) :
    after = scanner ∧ last? ≠ some .running := by
  cases h with
  | @pull _ phase =>
    have hphase : phase ≠ .running := fun h => hrunning (congrArg some h)
    obtain ⟨hscanner, hended⟩ :=
      (scanner.pulls_pull phase).unfit_of_lengthFailure hfault hphase
    exact ⟨hscanner, by simp [hended]⟩
  | create => exact ⟨rfl, by simp⟩
  | close => exact ⟨rfl, by simp⟩
  | unknown => exact ⟨rfl, by simp⟩

theorem exists_phase (h : action.Effect scanner phase? answer after last?) {phase : Phase}
    (hphase : phase? = some phase) : ∃ next, last? = some next := by
  cases h with
  | unknown => contradiction
  | _ => exact ⟨_, rfl⟩

theorem phase_of_create {stream : String}
    (h : Effect scanner (.create stream) phase? answer after last?) : last? = some .fresh := by
  cases h with
  | create => rfl
  | unknown old => exact absurd rfl (old stream)

/-- A stream that is not broken ends only when the scanner is through. -/
theorem isThrough (h : action.Effect scanner phase? answer after last?)
    (hbreaks : ¬ Turn.Breaks ⟨action, answer⟩ action.stream)
    (hrunning : phase? = some .running → scanner.lengthFailure? = none)
    (hended : phase? = some .ended → scanner.IsThrough) (hlast : last? = some .ended) :
    after.IsThrough := by
  cases h with
  | create => contradiction
  | close => exact absurd (.inl rfl) hbreaks
  | unknown => contradiction
  | @pull name phase =>
    have hresult : ∀ failure, (scanner.pull phase).result ≠ .error failure := by
      intro failure hfailure
      exact hbreaks (.inr ⟨rfl, .scan failure, by simp only [Pull.answer, hfailure]⟩)
    exact (scanner.pulls_pull phase).isThrough hresult (fun h => hrunning (congrArg some h))
      (fun h => hended (congrArg some h)) (Option.some.inj hlast)

/-- A stream without a further token has ended. -/
theorem ended_of_token_none (h : action.Effect scanner phase? answer after last?)
    (hanswer : answer = .token none) : last? = some .ended := by
  cases h with
  | pull =>
    have hended := (Scanner.pulls_pull scanner _).ended_of_none (Pull.answer_eq_token hanswer)
    exact congrArg some hended
  | _ => cases hanswer

/-- A scanner that stands before an unknown character stays there. -/
theorem eq_of_refuses (h : action.Effect scanner phase? answer after last?) {failure : Failure}
    (hrefuses : scanner.Refuses failure) : after = scanner := by
  cases h with
  | pull => exact hrefuses.pull_scanner _
  | _ => rfl

/-- A stream that exists answers by what a pull in its phase comes to. -/
theorem answer_eq {stream : String} {phase : Phase}
    (h : Effect scanner (.pull stream) (some phase) answer after last?) :
    answer = (scanner.pull phase).answer := by
  cases h with
  | pull => rfl

/-- A failure with an offset leaves the scanner before an unknown character. -/
theorem refuses (h : action.Effect scanner phase? answer after last?) {error : ScanError}
    (hanswer : answer = .failed (.scan (.source error))) (hoffset : error.offset ≠ none) :
    (∃ phase, phase? = some phase ∧ scanner.GoesOn phase) ∧ after.Refuses (.source error) := by
  cases h with
  | @pull _ phase =>
    obtain ⟨hgoesOn, hrefuses⟩ :=
      (scanner.pulls_pull phase).refuses (Pull.answer_eq_failed hanswer) hoffset
    exact ⟨⟨phase, rfl, hgoesOn⟩, hrefuses⟩
  | _ => cases hanswer

/-- After a token has been handed out, the scanner stands where its span stops. -/
theorem position_of_token (h : action.Effect scanner phase? answer after last?)
    {source : String} {sourceFile : Option String} {settings : Settings}
    (hreaches : (Scanner.make source sourceFile settings).Reaches scanner) {token : Token}
    (hanswer : answer = .token (some token)) : after.position = token.stopIn source.toList := by
  cases h with
  | pull =>
    exact (Scanner.pulls_pull scanner _).position_of_token hreaches
      (Pull.answer_eq_token hanswer)
  | _ => cases hanswer

end StreamAction.Effect

end TokenStream
