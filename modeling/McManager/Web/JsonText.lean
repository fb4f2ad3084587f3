import McManager.Framework.OrderedDict
import McManager.Services.Realtime

/-! The text of a JSON value: what `json.dumps` writes, and what is read from a text. -/

namespace McManager.JsonText

open Framework Web

abbrev Text := List Char

section Writing

/-- The text of a string. -/
def quote (s : String) : Text := '"' :: (s.toList.flatMap Realtime.escaped ++ ['"'])

mutual

/-- `json.dumps`, with so many blanks after a comma and after a colon. -/
def render (gap : Nat) : Json → Text
  | .null => "null".toList
  | .bool true => "true".toList
  | .bool false => "false".toList
  | .int n => (toString n).toList
  | .float text => text.toList
  | .str s => quote s
  | .arr items => '[' :: renderItems gap items
  | .obj members => '\x7b' :: renderMembers gap members

/-- The rest of an array. -/
def renderItems (gap : Nat) : List Json → Text
  | [] => [']']
  | [v] => render gap v ++ [']']
  | v :: w :: vs => render gap v ++ ',' :: (List.replicate gap ' ' ++ renderItems gap (w :: vs))

/-- The rest of an object. -/
def renderMembers (gap : Nat) : List (String × Json) → Text
  | [] => ['\x7d']
  | [(k, v)] => quote k ++ ':' :: (List.replicate gap ' ' ++ (render gap v ++ ['\x7d']))
  | (k, v) :: m :: ms => quote k ++ ':' :: (List.replicate gap ' ' ++ (render gap v ++
      ',' :: (List.replicate gap ' ' ++ renderMembers gap (m :: ms))))

end

end Writing

section Reading

def isBlank (c : Char) : Bool := c = ' ' || c = '\t' || c = '\n' || c = '\r'

/-- A digit of `\uXXXX`. -/
def hexDigit (c : Char) : Option Nat :=
  if '0' ≤ c ∧ c ≤ '9' then some (c.toNat - 48)
  else if 'a' ≤ c ∧ c ≤ 'f' then some (c.toNat - 87)
  else if 'A' ≤ c ∧ c ≤ 'F' then some (c.toNat - 55)
  else none

/-- Four hexadecimal digits. -/
def unit : Text → Option (Nat × Text)
  | a :: b :: c :: d :: rest => do
    let a ← hexDigit a
    let b ← hexDigit b
    let c ← hexDigit c
    let d ← hexDigit d
    some (4096 * a + 256 * b + 16 * c + d, rest)
  | _ => none

/-- The character of `\uXXXX`, or of two of these; half a pair is no character here. -/
def unicode (cs : Text) : Option (Char × Text) := do
  let (high, rest) ← unit cs
  if 0xd800 ≤ high ∧ high < 0xdc00 then
    match rest with
    | '\\' :: 'u' :: rest => do
      let (low, rest) ← unit rest
      if 0xdc00 ≤ low ∧ low < 0xe000 then
        some (Char.ofNat (0x10000 + (high - 0xd800) * 1024 + (low - 0xdc00)), rest)
      else none
    | _ => none
  else if 0xdc00 ≤ high ∧ high < 0xe000 then none
  else some (Char.ofNat high, rest)

/-- The character after a backslash. -/
def escape : Text → Option (Char × Text)
  | [] => none
  | c :: rest =>
    if c = '"' ∨ c = '\\' ∨ c = '/' then some (c, rest)
    else if c = 'n' then some ('\n', rest)
    else if c = 'r' then some ('\r', rest)
    else if c = 't' then some ('\t', rest)
    else if c = 'b' then some (Char.ofNat 8, rest)
    else if c = 'f' then some (Char.ofNat 12, rest)
    else if c = 'u' then unicode rest
    else none

/-- One character of a string. -/
def character : Text → Option (Char × Text)
  | [] => none
  | c :: rest => if c = '\\' then escape rest else if c.toNat < 32 then none else some (c, rest)

/-- A string up to its closing quote, of at most so many characters. -/
def string : Nat → Text → Option (Text × Text)
  | 0, _ => none
  | _, [] => none
  | n + 1, c :: cs =>
    if c = '"' then some ([], cs)
    else do
      let (d, rest) ← character (c :: cs)
      let (s, rest) ← string n rest
      some (d :: s, rest)

/-- A whole number without a sign. -/
def natural (cs : Text) : Bool :=
  !cs.isEmpty && cs.all Char.isDigit && (cs.length == 1 || cs.head? != some '0')

def intLiteral (cs : Text) : Option Int :=
  match cs with
  | '-' :: ds => if natural ds then some (-(Nat.ofDigitChars 10 ds 0 : Int)) else none
  | ds => if natural ds then some (Nat.ofDigitChars 10 ds 0 : Int) else none

/-- The exponent of a number, if there is one. -/
def exponent : Text → Bool
  | [] => true
  | e :: ds =>
    let ds := if ds.head? = some '-' ∨ ds.head? = some '+' then ds.tail else ds
    (e = 'e' || e = 'E') && !ds.isEmpty && ds.all Char.isDigit

/-- What follows the whole part of a number. -/
def fraction (cs : Text) : Bool :=
  match cs with
  | '.' :: rest => !(rest.takeWhile Char.isDigit).isEmpty && exponent (rest.dropWhile Char.isDigit)
  | rest => exponent rest

def numberChar (c : Char) : Bool :=
  c.isDigit || c = '-' || c = '+' || c = '.' || c = 'e' || c = 'E'

/-- A number with a fraction or an exponent. -/
def floatLiteral (cs : Text) : Bool :=
  let ds := if cs.head? = some '-' then cs.tail else cs
  cs.all numberChar && cs.any (fun c => c = '.' || c = 'e' || c = 'E') &&
    natural (ds.takeWhile Char.isDigit) && fraction (ds.dropWhile Char.isDigit)

def number (cs : Text) : Option (Json × Text) :=
  let token := cs.takeWhile numberChar
  match intLiteral token with
  | some n => some (.int n, cs.dropWhile numberChar)
  | none =>
    if floatLiteral token then some (.float (String.ofList token), cs.dropWhile numberChar) else none

def keyword (word : String) (v : Json) (cs : Text) : Option (Json × Text) :=
  if word.toList <+: cs then some (v, cs.drop word.length) else none

mutual

/-- A value, through at most so many others. -/
def value : Nat → Text → Option (Json × Text)
  | 0, _ => none
  | n + 1, cs =>
    match cs.dropWhile isBlank with
    | [] => none
    | c :: rest =>
      if c = '"' then (string rest.length rest).map fun s => (.str (String.ofList s.1), s.2)
      else if c = '[' then
        match rest.dropWhile isBlank with
        | ']' :: rest => some (.arr [], rest)
        | rest => (items n rest).map fun vs => (.arr vs.1, vs.2)
      else if c = '\x7b' then
        match rest.dropWhile isBlank with
        | '\x7d' :: rest => some (.obj [], rest)
        | rest => (members n rest).map fun ms => (.obj (OrderedDict.ofList ms.1), ms.2)
      else if c = 'n' then keyword "ull" .null rest
      else if c = 't' then keyword "rue" (.bool true) rest
      else if c = 'f' then keyword "alse" (.bool false) rest
      else number (c :: rest)

def items : Nat → Text → Option (List Json × Text)
  | 0, _ => none
  | n + 1, cs => do
    let (v, rest) ← value n cs
    match rest.dropWhile isBlank with
    | ',' :: rest => do
      let (vs, rest) ← items n rest
      some (v :: vs, rest)
    | ']' :: rest => some ([v], rest)
    | _ => none

def members : Nat → Text → Option (List (String × Json) × Text)
  | 0, _ => none
  | n + 1, cs =>
    match cs.dropWhile isBlank with
    | '"' :: rest => do
      let (k, rest) ← string rest.length rest
      match rest.dropWhile isBlank with
      | ':' :: rest => do
        let (v, rest) ← value n rest
        match rest.dropWhile isBlank with
        | ',' :: rest => do
          let (ms, rest) ← members n rest
          some ((String.ofList k, v) :: ms, rest)
        | '\x7d' :: rest => some ([(String.ofList k, v)], rest)
        | _ => none
      | _ => none
    | _ => none

end

/-- `json.loads`, and `JSON.parse` in the browser. -/
def loads (cs : Text) : Option Json :=
  match value (cs.length + 1) cs with
  | some (v, rest) => if rest.all isBlank then some v else none
  | none => none

end Reading

mutual

/-- A value as Python has it: a float is written as a number, and a dictionary has each key once. -/
def Sound : Json → Prop
  | .float text => floatLiteral text.toList = true
  | .arr items => SoundItems items
  | .obj members => (members.map (·.1)).Nodup ∧ SoundMembers members
  | _ => True

def SoundItems : List Json → Prop
  | [] => True
  | v :: vs => Sound v ∧ SoundItems vs

def SoundMembers : List (String × Json) → Prop
  | [] => True
  | (_, v) :: ms => Sound v ∧ SoundMembers ms

end

end McManager.JsonText
