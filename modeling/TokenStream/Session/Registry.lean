/-!
# Registries

A registry keeps things under names, in the order in which the names were first used.

## Main definitions

* `Registry` — the names with what is kept under them.
* `Registry.find?`, `Registry.put` — looking up a name, and keeping something under one.

## Main results

* `Registry.find?_put_self`, `Registry.find?_put_of_ne` — **what is put under a name is found
  there, and nothing else changes**.
-/

namespace TokenStream

/-- Things kept under names. -/
structure Registry (α : Type) where
  /-- The names with what is kept under them, in the order in which they were first used. -/
  entries : List (String × α)
deriving Repr, Inhabited

namespace Registry

variable {α : Type}

/-- A registry without names. -/
def empty : Registry α := ⟨[]⟩

/-- What entries have under a name. -/
def findIn? (name : String) : List (String × α) → Option α
  | [] => none
  | (other, held) :: rest => if other = name then some held else findIn? name rest

/-- Puts a thing under a name, in the place of what is there, or at the end. -/
def putIn (name : String) (thing : α) : List (String × α) → List (String × α)
  | [] => [(name, thing)]
  | (other, held) :: rest =>
    if other = name then (name, thing) :: rest else (other, held) :: putIn name thing rest

/-- What is kept under a name. -/
def find? (registry : Registry α) (name : String) : Option α := findIn? name registry.entries

/-- Keeps a thing under a name, in the place of what was there. -/
def put (registry : Registry α) (name : String) (thing : α) : Registry α :=
  ⟨putIn name thing registry.entries⟩

theorem findIn?_putIn (name other : String) (thing : α) (entries : List (String × α)) :
    findIn? other (putIn name thing entries) =
      if name = other then some thing else findIn? other entries := by
  induction entries with
  | nil => simp [putIn, findIn?]
  | cons entry rest ih =>
    obtain ⟨key, held⟩ := entry
    simp only [putIn]
    split <;> simp only [findIn?, ih] <;> grind

/-- What is put under a name is found there. -/
@[simp] theorem find?_put_self (registry : Registry α) (name : String) (thing : α) :
    (registry.put name thing).find? name = some thing := by
  simp [find?, put, findIn?_putIn]

/-- Putting something under a name changes nothing under the others. -/
theorem find?_put_of_ne (registry : Registry α) {name other : String} (thing : α)
    (h : name ≠ other) : (registry.put name thing).find? other = registry.find? other := by
  simp [find?, put, findIn?_putIn, h]

end Registry

end TokenStream
