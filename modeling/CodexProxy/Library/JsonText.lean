import CodexProxy.Library.Decode
import Mathlib.Data.List.DropRight

/-! A reader and writers of JSON text, as a reference for what codecs do. They cover
the integral fragment: a number with a fraction, with an exponent or outside the
64-bit ranges is not read, and neither is an escaped surrogate pair. -/
namespace JsonText

def hexDigit (n : Nat) : Char := Char.ofNat (if n < 10 then 48 + n else 87 + n)

def escape (c : Char) : List Char :=
  if c = '"' then ['\\', '"']
  else if c = '\\' then ['\\', '\\']
  else if c = '\n' then ['\\', 'n']
  else if c = '\r' then ['\\', 'r']
  else if c = '\t' then ['\\', 't']
  else if c.toNat = 8 then ['\\', 'b']
  else if c.toNat = 12 then ['\\', 'f']
  else if c.toNat < 32 then
    ['\\', 'u', '0', '0', hexDigit (c.toNat / 16), hexDigit (c.toNat % 16)]
  else [c]

def writeString (s : String) : List Char := '"' :: s.toList.flatMap escape ++ ['"']

def writeInteger (n : Json.Integer) : List Char :=
  if n.val < 0 then '-' :: Nat.toDigits 10 n.val.natAbs else Nat.toDigits 10 n.val.toNat

/-- The indentation of a line, or compact text. -/
abbrev Layout := Option Nat

def Layout.inner (layout : Layout) : Layout := layout.map (· + 1)

def gap : Layout → List Char
  | none => []
  | some n => '\n' :: List.replicate (2 * n) ' '

/-- Bracket a sequence of texts. -/
def writeSequence (layout : Layout) (left right : Char) : List (List Char) → List Char
  | [] => [left, right]
  | t :: ts =>
    left :: gap layout.inner ++ t ++ ts.flatMap (fun t => ',' :: gap layout.inner ++ t) ++
      gap layout ++ [right]

def writeColon (layout : Layout) : List Char := if layout = none then [':'] else [':', ' ']

mutual
def writeValue (layout : Layout) : Json → List Char
  | .null => ['n', 'u', 'l', 'l']
  | .bool true => ['t', 'r', 'u', 'e']
  | .bool false => ['f', 'a', 'l', 's', 'e']
  | .number (.int n) => writeInteger n
  | .number (.float _) => ['n', 'u', 'l', 'l']
  | .string s => writeString s
  | .array items => writeSequence layout '[' ']' (writeItems layout.inner items)
  | .object ms => writeSequence layout '{' '}' (writeMembers layout.inner ms)

def writeItems (layout : Layout) : List Json → List (List Char)
  | [] => []
  | v :: vs => writeValue layout v :: writeItems layout vs

def writeMembers (layout : Layout) : Json.Members → List (List Char)
  | [] => []
  | (k, v) :: ms =>
    (writeString k ++ writeColon layout ++ writeValue layout v) :: writeMembers layout ms
end

/-- A reader consumes a front of the text and returns what is left. -/
abbrev Reader (α : Type) := List Char → Option (α × List Char)

def isSpace (c : Char) : Bool := c == ' ' || c == '\n' || c == '\r' || c == '\t'

def skip (cs : List Char) : List Char := cs.dropWhile isSpace

def hexValue (c : Char) : Option Nat :=
  if '0' ≤ c ∧ c ≤ '9' then some (c.toNat - 48)
  else if 'a' ≤ c ∧ c ≤ 'f' then some (c.toNat - 87)
  else if 'A' ≤ c ∧ c ≤ 'F' then some (c.toNat - 55)
  else none

def unescape (c : Char) : Option Char :=
  if c = '"' ∨ c = '\\' ∨ c = '/' then some c
  else if c = 'n' then some '\n'
  else if c = 'r' then some '\r'
  else if c = 't' then some '\t'
  else if c = 'b' then some (Char.ofNat 8)
  else if c = 'f' then some (Char.ofNat 12)
  else none

/-- The character of a `\u` escape. -/
def unicode (a b c d : Char) : Option Char := do
  let n := ((((← hexValue a) * 16 + (← hexValue b)) * 16 + (← hexValue c)) * 16) + (← hexValue d)
  if 0xD800 ≤ n ∧ n < 0xE000 then none else some (Char.ofNat n)

/-- The rest of a string after its opening quote. -/
def readChars : List Char → Option (List Char × List Char)
  | [] => none
  | c :: rest =>
    if c = '"' then some ([], rest)
    else if c = '\\' then
      match rest with
      | 'u' :: a :: b :: c :: d :: rest =>
        (unicode a b c d).bind fun u => (readChars rest).map fun p => (u :: p.1, p.2)
      | e :: rest => (unescape e).bind fun u => (readChars rest).map fun p => (u :: p.1, p.2)
      | [] => none
    else if c.toNat < 32 then none
    else (readChars rest).map fun p => (c :: p.1, p.2)

def readString : Reader String
  | [] => none
  | c :: rest =>
    if c = '"' then (readChars rest).map fun p => (String.ofList p.1, p.2) else none

/-- A fraction or an exponent would follow. -/
def continuesNumber (rest : List Char) : Bool :=
  rest.head?.any fun c => c == '.' || c == 'e' || c == 'E'

/-- An integer within the 64-bit ranges; there is no negative zero. -/
def toInteger (negative : Bool) (m : Nat) : Option Json.Integer :=
  let val : Int := if negative then -(m : Int) else m
  if h : -2 ^ 63 ≤ val ∧ val < 2 ^ 64 then
    if negative ∧ m = 0 then none else some { val, lower := h.1, upper := h.2 }
  else none

def readNatural (negative : Bool) : Reader Json := fun cs =>
  let digits := cs.takeWhile Char.isDigit
  let rest := cs.dropWhile Char.isDigit
  let m := Nat.ofDigitChars 10 digits 0
  -- the only numeral with a leading zero is zero itself
  if digits = Nat.toDigits 10 m ∧ !continuesNumber rest then
    (toInteger negative m).map fun n => (.number (.int n), rest)
  else none

def readNumber : Reader Json
  | '-' :: rest => readNatural true rest
  | cs => readNatural false cs

def readLiteral (text : List Char) (v : Json) : Reader Json := fun cs =>
  if text.isPrefixOf cs then some (v, cs.drop text.length) else none

def readScalar : Reader Json := fun cs =>
  readLiteral ['n', 'u', 'l', 'l'] .null cs <|>
  readLiteral ['t', 'r', 'u', 'e'] (.bool true) cs <|>
  readLiteral ['f', 'a', 'l', 's', 'e'] (.bool false) cs <|>
  (readString cs).map (fun p => (.string p.1, p.2)) <|>
  readNumber cs

/-- Items up to the closing bracket; at most `fuel` of them. -/
def readMore (item : Reader α) (right : Char) : Nat → Reader (List α)
  | 0, _ => none
  | fuel + 1, cs =>
    match item cs with
    | none => none
    | some (a, rest) =>
      match skip rest with
      | [] => none
      | c :: rest =>
        if c = right then some ([a], rest)
        else if c = ',' then (readMore item right fuel rest).map fun p => (a :: p.1, p.2)
        else none

/-- A bracketed sequence after its opening bracket. -/
def readSequence (item : Reader α) (right : Char) : Reader (List α) := fun cs =>
  match skip cs with
  | [] => none
  | c :: rest => if c = right then some ([], rest) else readMore item right cs.length cs

def readMember (value : Reader Json) : Reader (String × Json) := fun cs =>
  match readString (skip cs) with
  | none => none
  | some (k, rest) =>
    match skip rest with
    | ':' :: rest => (value rest).map fun p => ((k, p.1), p.2)
    | _ => none

/-- A value with at most this many nested containers. -/
def readValue : Nat → Reader Json
  | 0 => fun cs => readScalar (skip cs)
  | depth + 1 => fun cs =>
    match skip cs with
    | '[' :: rest => (readSequence (readValue depth) ']' rest).map fun p => (.array p.1, p.2)
    | '{' :: rest =>
      (readSequence (readMember (readValue depth)) '}' rest).map fun p => (.object p.1, p.2)
    | cs => readScalar cs

/-- One value and nothing after it. -/
def readText (cs : List Char) : Option Json :=
  match readValue Json.maxDepth cs with
  | some (v, rest) => if skip rest = [] then some v else none
  | none => none

/-- A form feed is not JSON whitespace, and unescaped it is nothing else either. -/
def read (bs : List UInt8) : Option Json :=
  if 12 ∈ bs then none
  else (String.fromUTF8? ⟨(Bytes.trimAscii bs).toArray⟩).bind fun s => readText s.toList

def write (v : Json) : String := String.ofList (writeValue none v)
def writePretty (v : Json) : String := String.ofList (writeValue (some 0) v)

end JsonText
