import TokenStream.Value.Basic

/-!
# Settings

Two settings decide how far a scan goes: a strict scan stops at a character that no rule
recognises, and a limit refuses sources that are too long.  Settings come from outside and are
kept as they come; what they mean is decided when they are used.

## Main definitions

* `Settings` — the two settings.
* `Settings.ofValue` — settings from the entries of an object.
* `Settings.isStrict` — whether a scan is strict.
* `Settings.checkLength` — whether a length passes the limit.
-/

namespace TokenStream

/-- The settings of a scan, as they were given. -/
structure Settings where
  /-- A scan is strict if this counts as a yes. -/
  strict : Value
  /-- The greatest length of a source; null for no limit. -/
  maxSourceLength : Value
deriving Repr, Inhabited

namespace Settings

/-- Scans are not strict and have no limit unless settings say so. -/
def default : Settings := ⟨.bool false, .null⟩

/-- A value that is no object cannot give settings; its sort is named. -/
structure NotObject where
  /-- The name of the value's sort. -/
  typeName : String
deriving DecidableEq, Repr, Inhabited

/-- The fault in words. -/
def NotObject.message (fault : NotObject) : String :=
  quoted fault.typeName ++ " object has no attribute 'items'"

/-- The settings that an object gives.  A missing entry leaves a setting at its default, other
entries are ignored, and values are not checked. -/
def ofValue : Value → Except NotObject Settings
  | .object fields =>
    .ok ⟨(Value.lookup? "strict" fields).getD default.strict,
      (Value.lookup? "max_source_length" fields).getD default.maxSourceLength⟩
  | value => .error ⟨value.typeName⟩

/-- Whether a scan stops at a character that no rule recognises. -/
def isStrict (settings : Settings) : Bool := settings.strict.isTruthy

/-- What comparing a length with the limit comes to. -/
inductive LengthCheck
  /-- The length is within the limit. -/
  | within
  /-- The length is greater than the limit. -/
  | exceeded (limit : Value)
  /-- The limit is no number but of the named sort. -/
  | incomparable (typeName : String)
deriving Repr, Inhabited

/-- Compares a length with the limit.  Truth values count as one and zero. -/
def checkLength (settings : Settings) (length : Nat) : LengthCheck :=
  let limit := settings.maxSourceLength
  match limit with
  | .null => .within
  | .bool b => if b.toNat < length then .exceeded limit else .within
  | .int n => if n < length then .exceeded limit else .within
  | .float x => if (Binary64.ofFloat x).isBelow length then .exceeded limit else .within
  | .text _ | .list _ | .object _ => .incomparable limit.typeName

end Settings

end TokenStream
