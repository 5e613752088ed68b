import LiveMetrics.Json.Value

/-!
# Reading records

A record with named fields is spelled by an object, in which members of other names are left
alone, or by an array of the fields in their order. `Record.ofTree?` finds the parts of a tree that
belong to the fields; `Record.required?` and `Record.optional?` read one of them.
-/

set_option autoImplicit false

namespace LiveMetrics.Json

/-- The parts of a tree that belong to named fields. -/
structure Record where
  fields : List (String × Tree)

namespace Record

/-- The members whose names are fields, if every name can be read and no field occurs twice. The
values of other members need only be well formed. -/
def knownMembers? (names : List String) :
    List (String × Tree) → List (List Char × Tree) → Option (List (String × Tree))
  | found, [] => some found.reverse
  | found, (raw, tree) :: rest =>
    match unescape? raw with
    | none => none
    | some name =>
      if names.contains name then
        if (found.lookup name).isSome then none
        else knownMembers? names ((name, tree) :: found) rest
      else knownMembers? names found rest

/-- The fields of the given names, from an object or from an array that is not too long. -/
def ofTree? (names : List String) : Tree → Option Record
  | .object members => (knownMembers? names [] members).map Record.mk
  | .array items => if items.length ≤ names.length then some ⟨names.zip items⟩ else none
  | _ => none

/-- Reads a field that must be there. -/
def required? {α : Type} (r : Record) (name : String) (read : Tree → Option α) : Option α :=
  (r.fields.lookup name).bind read

/-- Reads a field that has a value of its own when it is not there. -/
def optional? {α : Type} (r : Record) (name : String) (read : Tree → Option α) (absent : α) :
    Option α :=
  match r.fields.lookup name with
  | some tree => read tree
  | none => some absent

end Record

namespace Tree

def text? : Tree → Option String
  | .string raw => unescape? raw
  | _ => none

/-- A whole number within bounds; neither a point nor an exponent is allowed, nor a negative
zero. -/
def integer? (low high : Int) : Tree → Option Int
  | .number n => n.integer?.bind fun i => if low ≤ i ∧ i ≤ high then some i else none
  | _ => none

def natural? (high : Nat) (t : Tree) : Option Nat :=
  (t.integer? 0 high).map Int.toNat

/-- Any number, as a double. -/
def double? : Tree → Option Double
  | .number n => n.value?.bind Value.double?
  | _ => none

/-- `null` for nothing, or what `read` reads. -/
def nullable? {α : Type} (read : Tree → Option α) : Tree → Option (Option α)
  | .null => some none
  | t => (read t).map some

end Tree

end LiveMetrics.Json
