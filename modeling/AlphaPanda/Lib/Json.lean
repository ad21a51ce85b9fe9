import AlphaPanda.Lib.Dict

/-!
# JSON

Values, and the texts that `json.dumps` writes and `json.loads` reads. What
floats there are, and how they are written and read, is a parameter. Strings
are of Unicode scalar values: a lone surrogate is read as U+FFFD.
-/

-- ---------------------------------------------------------------------------
-- Numbers
-- ---------------------------------------------------------------------------

/-- The text of a number. It has no point where `frac` is empty, and no
exponent where `exp` is. -/
structure Literal where
  negative : Bool
  int : List Char
  frac : List Char := []
  expSign : List Char := []
  exp : List Char := []
  deriving DecidableEq

namespace Literal

def isInt (t : Literal) : Bool := t.frac = [] ∧ t.exp = []

def fracText (t : Literal) : List Char := if t.frac = [] then [] else '.' :: t.frac

def expText (t : Literal) : List Char := if t.exp = [] then [] else 'e' :: (t.expSign ++ t.exp)

def text (t : Literal) : List Char :=
  (if t.negative then ['-'] else []) ++ (t.int ++ (t.fracText ++ t.expText))

/-- Of the form that JSON allows: the first digit is zero only if it is the
only one. -/
structure Valid (t : Literal) : Prop where
  int : t.int = ['0'] ∨ t.int ≠ [] ∧ t.int.head? ≠ some '0' ∧ ∀ c ∈ t.int, c.isDigit
  frac : ∀ c ∈ t.frac, c.isDigit
  exp : ∀ c ∈ t.exp, c.isDigit
  expSign : t.expSign = [] ∨ t.exp ≠ [] ∧ (t.expSign = ['+'] ∨ t.expSign = ['-'])

instance (cs : List Char) : Decidable (∀ c ∈ cs, c.isDigit) := List.decidableBAll _ cs

instance (t : Literal) : Decidable t.Valid :=
  decidable_of_iff
    ((t.int = ['0'] ∨ t.int ≠ [] ∧ t.int.head? ≠ some '0' ∧ ∀ c ∈ t.int, c.isDigit) ∧
      (∀ c ∈ t.frac, c.isDigit) ∧ (∀ c ∈ t.exp, c.isDigit) ∧
        (t.expSign = [] ∨ t.exp ≠ [] ∧ (t.expSign = ['+'] ∨ t.expSign = ['-'])))
    ⟨fun ⟨hint, hfrac, hexp, hsign⟩ => ⟨hint, hfrac, hexp, hsign⟩,
      fun h => ⟨h.int, h.frac, h.exp, h.expSign⟩⟩

def ofInt (n : ℤ) : Literal := { negative := n < 0, int := Nat.toDigits 10 n.natAbs }

def toInt (t : Literal) : ℤ :=
  if t.negative then -Nat.ofDigitChars 10 t.int 0 else Nat.ofDigitChars 10 t.int 0

end Literal

/-- The finite floats. `float` is `none` where a number is too large. -/
structure Floats where
  Finite : Type
  repr : Finite → Literal
  float : Literal → Option Finite
  valid : ∀ x, (repr x).Valid
  not_int : ∀ x, (repr x).isInt = false
  float_repr : ∀ x, float (repr x) = some x

/-- What JSON represents, and the floats that are not finite. -/
inductive Json (F : Type) where
  | null
  | bool (b : Bool)
  | int (n : ℤ)
  | float (x : F)
  | nan
  | infinity (negative : Bool)
  | str (s : String)
  | array (items : List (Json F))
  | object (entries : List (String × Json F))

namespace Json

mutual

def Distinct : Json F → Prop
  | .array vs => DistinctItems vs
  | .object es => (es.map Prod.fst).Nodup ∧ DistinctEntries es
  | _ => True

def DistinctItems : List (Json F) → Prop
  | [] => True
  | v :: vs => v.Distinct ∧ DistinctItems vs

def DistinctEntries : List (String × Json F) → Prop
  | [] => True
  | (_, v) :: es => v.Distinct ∧ DistinctEntries es

end

def hexDigit (n : ℕ) : Char := if n < 10 then Char.ofNat (48 + n) else Char.ofNat (87 + n)

def escapeUnit (n : ℕ) : List Char :=
  ['\\', 'u', hexDigit (n / 4096 % 16), hexDigit (n / 256 % 16), hexDigit (n / 16 % 16), hexDigit (n % 16)]

def units (c : Char) : List ℕ :=
  if c.toNat < 0x10000 then [c.toNat]
  else [0xd800 + (c.toNat - 0x10000) / 0x400, 0xdc00 + (c.toNat - 0x10000) % 0x400]

def shortEscape : Char → Option Char
  | '"' => some '"'
  | '\\' => some '\\'
  | '\n' => some 'n'
  | '\r' => some 'r'
  | '\t' => some 't'
  | '\x0c' => some 'f'
  | '\x08' => some 'b'
  | _ => none

/-- What is not printable ASCII is escaped. -/
def escape (c : Char) : List Char :=
  match shortEscape c with
  | some e => ['\\', e]
  | none => if 0x20 ≤ c.toNat ∧ c.toNat ≤ 0x7e then [c] else (units c).flatMap escapeUnit

def quote (s : String) : List Char := '"' :: (s.toList.flatMap escape ++ ['"'])

section
variable (fl : Floats)

mutual

def dumps : Json fl.Finite → List Char
  | .null => "null".toList
  | .bool b => (if b then "true" else "false").toList
  | .int n => (Literal.ofInt n).text
  | .float x => (fl.repr x).text
  | .nan => "NaN".toList
  | .infinity negative => (if negative then "-Infinity" else "Infinity").toList
  | .str s => quote s
  | .array [] => ['[', ']']
  | .array (v :: vs) => '[' :: (dumps v ++ (dumpsItems vs ++ [']']))
  | .object [] => ['{', '}']
  | .object ((k, v) :: es) => '{' :: (quote k ++ (':' :: ' ' :: dumps v ++ (dumpsEntries es ++ ['}'])))

def dumpsItems : List (Json fl.Finite) → List Char
  | [] => []
  | v :: vs => ',' :: ' ' :: dumps v ++ dumpsItems vs

def dumpsEntries : List (String × Json fl.Finite) → List Char
  | [] => []
  | (k, v) :: es => ',' :: ' ' :: quote k ++ (':' :: ' ' :: dumps v ++ dumpsEntries es)

end

end

-- ---------------------------------------------------------------------------
-- Reading numbers and strings
-- ---------------------------------------------------------------------------

def scanInt : List Char → Option (List Char × List Char)
  | [] => none
  | '0' :: cs => some (['0'], cs)
  | c :: cs =>
    if c.isDigit then some (c :: cs.takeWhile Char.isDigit, cs.dropWhile Char.isDigit) else none

def scanFrac : List Char → List Char × List Char
  | '.' :: cs =>
    if cs.takeWhile Char.isDigit = [] then ([], '.' :: cs)
    else (cs.takeWhile Char.isDigit, cs.dropWhile Char.isDigit)
  | cs => ([], cs)

def scanSign : List Char → List Char × List Char
  | '+' :: cs => (['+'], cs)
  | '-' :: cs => (['-'], cs)
  | cs => ([], cs)

def scanExp : List Char → (List Char × List Char) × List Char
  | [] => (([], []), [])
  | c :: cs =>
    let (sign, ds) := scanSign cs
    if (c = 'e' ∨ c = 'E') ∧ ds.takeWhile Char.isDigit ≠ [] then
      ((sign, ds.takeWhile Char.isDigit), ds.dropWhile Char.isDigit)
    else (([], []), c :: cs)

def scanMinus : List Char → Bool × List Char
  | '-' :: cs => (true, cs)
  | cs => (false, cs)

/-- `(-?(?:0|[1-9][0-9]*))(\.[0-9]+)?([eE][-+]?[0-9]+)?` -/
def scanNumber (cs : List Char) : Option (Literal × List Char) := do
  let (negative, cs) := scanMinus cs
  let (digits, cs) ← scanInt cs
  let (frac, cs) := scanFrac cs
  let ((expSign, exp), cs) := scanExp cs
  some (⟨negative, digits, frac, expSign, exp⟩, cs)

def hexValue (c : Char) : Option ℕ :=
  let n := c.toNat
  if 48 ≤ n ∧ n ≤ 57 then some (n - 48)
  else if 97 ≤ n ∧ n ≤ 102 then some (n - 87)
  else if 65 ≤ n ∧ n ≤ 70 then some (n - 55)
  else none

def hexUnit (a b c d : Char) : Option ℕ := do
  some (4096 * (← hexValue a) + 256 * (← hexValue b) + 16 * (← hexValue c) + (← hexValue d))

def unescape : Char → Option ℕ
  | '"' => some 0x22
  | '\\' => some 0x5c
  | '/' => some 0x2f
  | 'b' => some 0x08
  | 'f' => some 0x0c
  | 'n' => some 0x0a
  | 'r' => some 0x0d
  | 't' => some 0x09
  | _ => none

/-- Up to the closing quote: code points, and the units of `\uXXXX`. -/
def scanUnits : List Char → Option (List ℕ × List Char)
  | [] => none
  | '"' :: cs => some ([], cs)
  | '\\' :: 'u' :: a :: b :: c :: d :: cs => do
    let n ← hexUnit a b c d
    let (us, rest) ← scanUnits cs
    some (n :: us, rest)
  | '\\' :: c :: cs => do
    let n ← unescape c
    let (us, rest) ← scanUnits cs
    some (n :: us, rest)
  | c :: cs => do
    guard (0x20 ≤ c.toNat ∧ c ≠ '\\')
    let (us, rest) ← scanUnits cs
    some (c.toNat :: us, rest)

def unitChar (n : ℕ) : Char := if n.isValidChar then Char.ofNat n else Char.ofNat 0xfffd

/-- A high surrogate and a low one are one character. -/
def joinUnits : List ℕ → List Char
  | [] => []
  | [n] => [unitChar n]
  | h :: l :: us =>
    if 0xd800 ≤ h ∧ h ≤ 0xdbff ∧ 0xdc00 ≤ l ∧ l ≤ 0xdfff then
      Char.ofNat (0x10000 + 0x400 * (h - 0xd800) + (l - 0xdc00)) :: joinUnits us
    else unitChar h :: joinUnits (l :: us)

def scanString (cs : List Char) : Option (String × List Char) :=
  (scanUnits cs).map fun (us, rest) => (String.ofList (joinUnits us), rest)

-- ---------------------------------------------------------------------------
-- Reading values
-- ---------------------------------------------------------------------------

def isSpace (c : Char) : Bool := c = ' ' ∨ c = '\t' ∨ c = '\n' ∨ c = '\r'

def skipSpace (cs : List Char) : List Char := cs.dropWhile isSpace

section
variable (fl : Floats)

def ofLiteral (t : Literal) : Json fl.Finite :=
  if t.isInt then .int t.toInt
  else match fl.float t with
    | some x => .float x
    | none => .infinity t.negative

def words : List (String × Json fl.Finite) :=
  [("null", .null), ("true", .bool true), ("false", .bool false), ("NaN", .nan),
   ("Infinity", .infinity false), ("-Infinity", .infinity true)]

def scanAtom (cs : List Char) : Option (Json fl.Finite × List Char) :=
  match (words fl).find? fun w => w.1.toList <+: cs with
  | some (w, v) => some (v, cs.drop w.toList.length)
  | none => (scanNumber cs).map fun (t, rest) => (ofLiteral fl t, rest)

mutual

def scanValue : ℕ → List Char → Option (Json fl.Finite × List Char)
  | 0, _ => none
  | _ + 1, '"' :: cs => (scanString cs).map fun (s, rest) => (.str s, rest)
  | n + 1, '[' :: cs =>
    match skipSpace cs with
    | ']' :: rest => some (.array [], rest)
    | cs => (scanItems n cs).map fun (vs, rest) => (.array vs, rest)
  | n + 1, '{' :: cs =>
    match skipSpace cs with
    | '}' :: rest => some (.object [], rest)
    | cs => (scanEntries n cs).map fun (es, rest) => (.object (Dict.ofList es).entries, rest)
  | _ + 1, cs => scanAtom fl cs

def scanItems : ℕ → List Char → Option (List (Json fl.Finite) × List Char)
  | 0, _ => none
  | n + 1, cs => do
    let (v, cs) ← scanValue n cs
    match skipSpace cs with
    | ']' :: rest => some ([v], rest)
    | ',' :: cs => (scanItems n (skipSpace cs)).map fun (vs, rest) => (v :: vs, rest)
    | _ => none

def scanEntries : ℕ → List Char → Option (List (String × Json fl.Finite) × List Char)
  | n + 1, '"' :: cs => do
    let (k, cs) ← scanString cs
    match skipSpace cs with
    | ':' :: cs => do
      let (v, cs) ← scanValue n (skipSpace cs)
      match skipSpace cs with
      | '}' :: rest => some ([(k, v)], rest)
      | ',' :: cs => (scanEntries n (skipSpace cs)).map fun (es, rest) => ((k, v) :: es, rest)
      | _ => none
    | _ => none
  | _, _ => none

end

/-- What `json.loads` returns; `none` where it raises. Of two levels of the
recursion one reads a character. -/
def loads (text : String) : Option (Json fl.Finite) := do
  let cs := skipSpace text.toList
  let (v, rest) ← scanValue fl (2 * cs.length) cs
  guard (skipSpace rest = [])
  some v

end

end Json
