/-!
# Sets of characters

A set of characters is a list of inclusive ranges of code points, which is how the standard
publishes a property of characters.

## Main definitions

* `CharSet` — the ranges of a set.
* `CharSet.contains` — whether a character lies in one of them.
-/

namespace TokenStream

/-- A set of characters, given by inclusive ranges of code points. -/
structure CharSet where
  /-- The lowest and the highest code point of each range. -/
  ranges : List (Nat × Nat)
deriving DecidableEq, Repr, Inhabited

/-- A character is in the set when its code point lies in one of the ranges. -/
def CharSet.contains (set : CharSet) (c : Char) : Bool :=
  set.ranges.any fun range => range.1 ≤ c.toNat && c.toNat ≤ range.2

/-- Membership in words: some range has the code point between its ends. -/
theorem CharSet.contains_iff {set : CharSet} {c : Char} :
    set.contains c = true ↔ ∃ range ∈ set.ranges, range.1 ≤ c.toNat ∧ c.toNat ≤ range.2 := by
  simp [contains]

/-- A character between two code points is in no set that leaves out all from the one to the
other. -/
theorem CharSet.contains_eq_false {set : CharSet} {c : Char} {low high : Nat}
    (hfree : ∀ range ∈ set.ranges, range.2 < low ∨ high < range.1)
    (h : low ≤ c.toNat ∧ c.toNat ≤ high) : set.contains c = false := by
  rw [← Bool.not_eq_true]
  intro hcontains
  obtain ⟨range, hrange, hle, hge⟩ := contains_iff.mp hcontains
  have := hfree range hrange
  omega

end TokenStream
