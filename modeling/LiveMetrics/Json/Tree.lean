import LiveMetrics.Json.Token

/-!
# The shape of a JSON text

`Tree.parse?` reads one JSON document as a tree whose strings and numbers are still as they are
written. It accepts whatever is well formed by the rules for values that nobody looks at; who does
look at a part of the tree reads it further (`Json/Value`, `Json/Record`).

The parser keeps the containers that are still open on a stack, so it takes one token at a time
and nests as deep as the text does.
-/

set_option autoImplicit false

namespace LiveMetrics.Json

/-- A JSON document with its strings and numbers as written; the members of an object keep their
order, repeated keys included. -/
inductive Tree where
  | null
  | bool (b : Bool)
  | number (n : Numeral)
  | string (raw : List Char)
  | array (items : List Tree)
  | object (members : List (List Char × Tree))
  deriving Repr, Inhabited

/-- A container that is still open, with what it holds so far in reverse; an open object waits for
the value of `key`. -/
inductive Frame where
  | array (items : List Tree)
  | object (members : List (List Char × Tree)) (key : List Char)

/-- What may come next, and which containers are open. -/
inductive Parse where
  /-- A value. -/
  | value (outer : List Frame)
  /-- The first item of an array, or its end. -/
  | firstItem (outer : List Frame)
  /-- The first key of an object, or its end. -/
  | firstKey (outer : List Frame)
  /-- A further key. -/
  | key (members : List (List Char × Tree)) (outer : List Frame)
  /-- The colon behind a key. -/
  | colon (members : List (List Char × Tree)) (key : List Char) (outer : List Frame)
  /-- The end of the innermost container, a comma, or the end of the text. -/
  | after (tree : Tree) (outer : List Frame)

/-- Takes a token where a value may begin. -/
def Parse.begin (outer : List Frame) : Token → Option Parse
  | .null => some (.after .null outer)
  | .bool b => some (.after (.bool b) outer)
  | .number n => some (.after (.number n) outer)
  | .string raw => some (.after (.string raw) outer)
  | .openBracket => some (.firstItem outer)
  | .openBrace => some (.firstKey outer)
  | _ => none

def Parse.step : Parse → Token → Option Parse
  | .value outer, token => Parse.begin outer token
  | .firstItem outer, .closeBracket => some (.after (.array []) outer)
  | .firstItem outer, token => Parse.begin (.array [] :: outer) token
  | .firstKey outer, .closeBrace => some (.after (.object []) outer)
  | .firstKey outer, .string raw => some (.colon [] raw outer)
  | .key members outer, .string raw => some (.colon members raw outer)
  | .colon members raw outer, .colon => some (.value (.object members raw :: outer))
  | .after tree (.array items :: outer), .comma => some (.value (.array (tree :: items) :: outer))
  | .after tree (.array items :: outer), .closeBracket =>
    some (.after (.array (tree :: items).reverse) outer)
  | .after tree (.object members raw :: outer), .comma =>
    some (.key ((raw, tree) :: members) outer)
  | .after tree (.object members raw :: outer), .closeBrace =>
    some (.after (.object ((raw, tree) :: members).reverse) outer)
  | _, _ => none

def Parse.run (p : Parse) (tokens : List Token) : Option Parse :=
  tokens.foldlM Parse.step p

/-- The document that a list of tokens spells, if it spells exactly one. -/
def Tree.ofTokens? (tokens : List Token) : Option Tree :=
  match Parse.run (.value []) tokens with
  | some (.after tree []) => some tree
  | _ => none

/-- The document that a text spells, if it spells exactly one. -/
def Tree.parse? (text : List Char) : Option Tree :=
  (Token.scan text).bind Tree.ofTokens?

end LiveMetrics.Json
