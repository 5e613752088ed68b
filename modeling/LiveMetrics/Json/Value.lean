import LiveMetrics.Json.Tree

/-!
# JSON values

The meaning of a JSON document: `Tree.value?` reads a tree strictly, `Value.parse?` a text. A whole
number that fits into 64 bits stays exact, every other number becomes the nearest double and must
be finite. An object keeps all its members in order; looking one up finds the first.
-/

set_option autoImplicit false

namespace LiveMetrics.Json

inductive Value where
  | null
  | bool (b : Bool)
  | integer (n : Int)
  | float (d : Double)
  | string (s : String)
  | array (items : List Value)
  | object (members : List (String × Value))
  deriving Repr, Inhabited

/-- Whether a whole number fits into 64 bits, with a sign if it is negative. -/
def fitsWord (n : Int) : Bool :=
  -Int.pow 2 63 ≤ n && n < Int.pow 2 64

/-- The double nearest to a number as written; zero has no sign. -/
def Numeral.double? (n : Numeral) : Option Double :=
  let units := Binary64.decimalUnits n.mantissa (n.exponent - n.places)
  if Binary64.top ≤ units then none
  else some (Double.ofUnits (n.negative && n.mantissa != 0) units)

/-- The whole number that a numeral without point and exponent means; a negative zero is none. -/
def Numeral.integer? (n : Numeral) : Option Int :=
  if n.plain && !(n.negative && n.mantissa == 0) then
    some (if n.negative then -(n.mantissa : Int) else n.mantissa)
  else none

/-- A number as a value: exact if it is whole and fits, else a finite double. -/
def Numeral.value? (n : Numeral) : Option Value :=
  match n.integer? with
  | some i => if fitsWord i then some (.integer i) else n.double?.map .float
  | none => n.double?.map .float

mutual

/-- The value of a tree, if all its strings, keys and numbers have one. -/
def Tree.value? : Tree → Option Value
  | .null => some .null
  | .bool b => some (.bool b)
  | .number n => n.value?
  | .string raw => (unescape? raw).map .string
  | .array items => (itemValues? items).map .array
  | .object members => (memberValues? members).map .object

def itemValues? : List Tree → Option (List Value)
  | [] => some []
  | t :: rest => do
    let v ← t.value?
    let vs ← itemValues? rest
    return v :: vs

def memberValues? : List (List Char × Tree) → Option (List (String × Value))
  | [] => some []
  | (raw, t) :: rest => do
    let key ← unescape? raw
    let v ← t.value?
    let vs ← memberValues? rest
    return (key, v) :: vs

end

namespace Value

/-- The value of a text that is exactly one JSON document. -/
def parse? (text : String) : Option Value :=
  (Tree.parse? text.toList).bind Tree.value?

/-- The first member of that name; `none` also for what is no object. -/
def get? (name : String) : Value → Option Value
  | .object members => members.lookup name
  | _ => none

def double? : Value → Option Double
  | .integer n => some (Double.ofInt n)
  | .float d => some d
  | _ => none

/-- A number as a whole number of 64 bits with a sign: exact if it is one, else by way of a double,
cut and clamped. -/
def int64? : Value → Option Int
  | .integer n => if n < Int.pow 2 63 then some n else some (Double.ofInt n).toInt64
  | .float d => some d.toInt64
  | _ => none

def text? : Value → Option String
  | .string s => some s
  | _ => none

end Value

end LiveMetrics.Json
