import Mathlib.Data.List.Infix
import McManager.Services.Interface

namespace McManager.Web

/-- A decoded JSON value. -/
inductive Json
  | null
  | bool (b : Bool)
  | int (n : Int)
  | float (text : String)
  | str (s : String)
  | arr (items : List Json)
  | obj (members : List (String × Json))

/-- The members of a JSON object, each key once. -/
abbrev Body := List (String × Json)

namespace Json

def str? : Json → Option String
  | str s => some s
  | _ => none

/-- `type(value) is int`. -/
def int? : Json → Option Int
  | int n => some n
  | _ => none

/-- A non-empty list of texts. -/
def strings? : Json → Option (List String)
  | arr [] => none
  | arr items => items.mapM str?
  | _ => none

end Json

/-- The characters `str.strip` strips. -/
def isSpace (c : Char) : Bool :=
  let n := c.toNat
  9 ≤ n && n ≤ 13 || 28 ≤ n && n ≤ 32 || n == 0x85 || n == 0xa0 || n == 0x1680 ||
    0x2000 ≤ n && n ≤ 0x200a || n == 0x2028 || n == 0x2029 || n == 0x202f || n == 0x205f ||
    n == 0x3000

/-- `str.strip`. -/
def strip (s : String) : String :=
  String.ofList (((s.toList.dropWhile isSpace).reverse.dropWhile isSpace).reverse)

/-- `part in text`. -/
def contains (text part : String) : Bool := decide (part.toList <:+: text.toList)

/-- What a route answers. -/
inductive Response
  | error (code message : String)
  | operation (operation : Operation) (replayed : Bool) (queuePosition : Option Nat)
  | world (row : World)
  deriving DecidableEq, Repr

/-- `_idempotency_key`: a key of its own without the header, none for an empty header. -/
def idempotencyKey (header : Option String) : Prog (Option String) :=
  match header with
  | none => do
    let key ← uuid "key"
    pure (some key)
  | some value => pure ((some (strip value)).filter (· ≠ ""))

end McManager.Web
