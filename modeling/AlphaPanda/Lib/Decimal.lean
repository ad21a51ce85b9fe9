import Mathlib.Algebra.Order.Ring.Rat
import Mathlib.Data.Rat.Floor

/-!
# Decimal numbers

Python's `Decimal` and `float` as exact rationals with the two infinities and
NaN. An ordering comparison with NaN raises, so what may be compared without
raising (`ExtRat`) is a type of its own.

`Decimal.ofText` reads what `Decimal(text)` accepts and `Decimal.ofFloatText`
what `float(text)` accepts; digits are the ASCII ones.
-/

/-- A number that can be compared. -/
inductive ExtRat where
  | negInf
  | fin (q : ℚ)
  | posInf
  deriving DecidableEq, Repr

/-- A signalling NaN counts as a NaN: both raise wherever they are compared. -/
inductive Decimal where
  | num (x : ExtRat)
  | nan
  deriving DecidableEq, Repr

namespace ExtRat

def le : ExtRat → ExtRat → Bool
  | .negInf, _ => true
  | _, .posInf => true
  | .fin a, .fin b => a ≤ b
  | _, _ => false

/-- `a * x`; `none` where it is undefined (zero times an infinity). -/
def mulLeft (a : ℚ) : ExtRat → Option ExtRat
  | .fin q => some (.fin (a * q))
  | .posInf => if a = 0 then none else some (if 0 < a then .posInf else .negInf)
  | .negInf => if a = 0 then none else some (if 0 < a then .negInf else .posInf)

end ExtRat

namespace Decimal

def ofRat (q : ℚ) : Decimal := .num (.fin q)

def truthy (d : Decimal) : Bool := d ≠ .ofRat 0

/-- `a // b` rounds towards zero; `none` where it raises InvalidOperation,
having more digits than the default precision. -/
def floorDiv (a b : ℚ) : Option ℤ :=
  if |a / b| < 10 ^ 28 then some (if 0 ≤ a / b then ⌊a / b⌋ else ⌈a / b⌉) else none

theorem floorDiv_eq_none : floorDiv a b = none ↔ ¬|a / b| < 10 ^ 28 := by
  unfold floorDiv
  split <;> simp_all

theorem floorDiv_mul_le (ha : 0 ≤ a) (hb : 0 < b) (h : floorDiv a b = some limit) (hn : n ≤ limit) :
    n * b ≤ a := by
  have hq : 0 ≤ a / b := div_nonneg ha hb.le
  rw [floorDiv, if_pos hq] at h
  split at h
  · cases h
    exact (le_div_iff₀ hb).mp (Int.le_floor.mp hn)
  · cases h

def neg : Decimal → Decimal
  | .num .negInf => .num .posInf
  | .num (.fin q) => .ofRat (-q)
  | .num .posInf => .num .negInf
  | .nan => .nan

def add : Decimal → Decimal → Decimal
  | .num (.fin a), .num (.fin b) => .ofRat (a + b)
  | .num .negInf, .num .posInf | .num .posInf, .num .negInf => .nan
  | .num (.fin _), .num x | .num x, .num _ => .num x
  | .nan, _ | _, .nan => .nan

def abs : Decimal → Decimal
  | .num (.fin q) => .ofRat |q|
  | .num _ => .num .posInf
  | .nan => .nan

def div : Decimal → Decimal → Decimal
  | .num (.fin a), .num (.fin b) => .ofRat (a / b)
  | .num (.fin _), .num _ => .ofRat 0
  | .num .negInf, .num (.fin b) => .num (if b < 0 then .posInf else .negInf)
  | .num .posInf, .num (.fin b) => .num (if b < 0 then .negInf else .posInf)
  | _, _ => .nan

/-- `a > x`; a NaN is not greater than anything. -/
def gt : Decimal → Decimal → Bool
  | .num x, .num y => !x.le y
  | _, _ => false

theorem gt_add_neg (x y : Decimal) :
    x.gt (x.add y.neg) ↔ (∃ q, x = .ofRat q) ∧ y.gt (.ofRat 0) := by
  rcases x with (_ | a | _) | _ <;> rcases y with (_ | b | _) | _ <;>
    simp [gt, add, neg, ofRat, ExtRat.le]

-- ---------------------------------------------------------------------------
-- Reading a text
-- ---------------------------------------------------------------------------

def isSpace (c : Char) : Bool :=
  c.toNat ∈ [0x20, 0x85, 0xa0, 0x1680, 0x2028, 0x2029, 0x202f, 0x205f, 0x3000] ∨
    (0x09 ≤ c.toNat ∧ c.toNat ≤ 0x0d) ∨ (0x1c ≤ c.toNat ∧ c.toNat ≤ 0x1f) ∨
    (0x2000 ≤ c.toNat ∧ c.toNat ≤ 0x200a)

def strip (cs : List Char) : List Char :=
  ((cs.dropWhile isSpace).reverse.dropWhile isSpace).reverse

def digitsValue (cs : List Char) : ℕ := cs.foldl (fun n c => 10 * n + (c.toNat - 48)) 0

/-- `m * 10 ^ e`. -/
def scale (m e : ℤ) : ℚ := if 0 ≤ e then m * 10 ^ e.toNat else mkRat m (10 ^ (-e).toNat)

def readSign : List Char → Bool × List Char
  | '-' :: cs => (true, cs)
  | '+' :: cs => (false, cs)
  | cs => (false, cs)

def readExponent : List Char → Option ℤ
  | [] => some 0
  | c :: cs =>
    let (neg, digits) := readSign cs
    if (c = 'e' ∨ c = 'E') ∧ digits ≠ [] ∧ digits.all Char.isDigit then
      some (if neg then -digitsValue digits else digitsValue digits)
    else none

def readDigits (neg : Bool) (cs : List Char) : Option Decimal :=
  let int := cs.takeWhile Char.isDigit
  let rest := cs.dropWhile Char.isDigit
  let (frac, rest) := match rest with
    | '.' :: rest => (rest.takeWhile Char.isDigit, rest.dropWhile Char.isDigit)
    | rest => ([], rest)
  let m : ℤ := digitsValue (int ++ frac)
  if int = [] ∧ frac = [] then none
  else (readExponent rest).map fun e =>
    ofRat (scale (if neg then -m else m) (e - frac.length))

def readInfinity (neg : Bool) (cs : List Char) : Option Decimal :=
  if cs = "inf".toList ∨ cs = "infinity".toList then
    some (.num (if neg then .negInf else .posInf))
  else none

def readNaN (cs : List Char) : Option Decimal :=
  let cs := if cs.head? = some 's' then cs.tail else cs
  if cs.take 3 = "nan".toList ∧ (cs.drop 3).all Char.isDigit then some .nan else none

/-- `Decimal(text)`; `none` where it raises. -/
def ofText (s : String) : Option Decimal :=
  let (neg, cs) := readSign ((strip s.toList).filter (· ≠ '_'))
  readDigits neg cs <|> readInfinity neg (cs.map Char.toLower) <|> readNaN (cs.map Char.toLower)

def underscoresOk : Option Char → List Char → Bool
  | _, [] => true
  | before, '_' :: cs =>
    (before.any Char.isDigit && cs.head?.any Char.isDigit) && underscoresOk (some '_') cs
  | _, c :: cs => underscoresOk (some c) cs

/-- `float(text)`; `none` where it raises. -/
def ofFloatText (s : String) : Option Decimal :=
  let (neg, cs) := readSign (strip s.toList)
  let lower := cs.map Char.toLower
  if underscoresOk none cs then
    readDigits neg (cs.filter (· ≠ '_')) <|> readInfinity neg lower <|>
      (if lower = "nan".toList then some .nan else none)
  else none

example : [ofText " -1_0.50e1 ", ofText "NaN12", ofText "1..2", ofFloatText "1__0"] =
    [some (ofRat (-105)), some .nan, none, none] := by decide +kernel

end Decimal
