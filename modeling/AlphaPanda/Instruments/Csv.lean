import AlphaPanda.Events
import AlphaPanda.Exceptions

/-!
# Instruments from a CSV file

`InstrumentCSVLoader` and `Instrument.from_csv_row`, on the rows that
`csv.DictReader` yields for the lines that are neither blank nor comments.
-/

namespace AlphaPanda.Instruments

def strip (s : String) : String := String.ofList (Decimal.strip s.toList)

def parseInt (s : String) : Option ℤ :=
  let (neg, cs) := Decimal.readSign (Decimal.strip s.toList)
  let digits := cs.filter (· ≠ '_')
  if digits ≠ [] ∧ digits.all Char.isDigit ∧ Decimal.underscoresOk none cs then
    some (if neg then -Decimal.digitsValue digits else Decimal.digitsValue digits)
  else none

def readNumber (least most : ℕ) (cs : List Char) : Option ℕ :=
  if least ≤ cs.length ∧ cs.length ≤ most ∧ cs.all Char.isDigit then some (Decimal.digitsValue cs)
  else none

def daysInMonth (year month : ℕ) : ℕ :=
  if month = 2 then if (4 ∣ year ∧ ¬ 100 ∣ year) ∨ 400 ∣ year then 29 else 28
  else if month ∈ [4, 6, 9, 11] then 30
  else 31

/-- `datetime.strptime(s, '%Y-%m-%d')`; a day may be padded with a blank. -/
def parseDate (s : String) : Option (ℕ × ℕ × ℕ) :=
  match s.splitOn "-" with
  | [y, m, d] => do
    let year ← readNumber 4 4 y.toList
    let month ← readNumber 1 2 m.toList
    let day ← match d.toList with
      | [' ', c] => readNumber 1 1 [c]
      | cs => readNumber 1 2 cs
    if 1 ≤ year ∧ 1 ≤ month ∧ month ≤ 12 ∧ 1 ≤ day ∧ day ≤ daysInMonth year month then
      some (year, month, day)
    else none
  | _ => none

/-- A row of `csv.DictReader`: a short line leaves its last fields `None`, a
long one has `extra` fields. -/
structure RawRow where
  fields : Dict String (Option String)
  extra : Bool := false

/-- A CSV file: its name, and its rows or why it is not read. -/
structure CsvFile where
  name : String
  rows : Except Exc (List RawRow)

abbrev Row := Dict String Value

def requiredFields : List String := ["instrument_token", "tradingsymbol", "name", "exchange"]

def RawRow.text (row : RawRow) (field : String) : Option String := (row.fields.get? field).bind id

/-- `_validate_row`. A row on which it raises is skipped as an invalid one is. -/
def validateRow (row : RawRow) : Bool :=
  requiredFields.all (fun field => (row.text field).any fun s => strip s ≠ "") &&
    (row.text "instrument_token").any fun s => (parseInt s).isSome

def cleanValue (key : String) (value : Option String) : Value :=
  let cleaned := strip (value.getD "")
  if cleaned = "" ∧ key ∉ requiredFields then .null
  else if (strip key).toLower = "instrument_token" ∧ cleaned ≠ "" then
    match parseInt cleaned with
    | some n => .int n
    | none => .str cleaned
  else .str cleaned

def cleanRow (row : RawRow) : Option Row :=
  if row.extra then none
  else some (.ofList (row.fields.entries.map fun e => ((strip e.1).toLower, cleanValue e.1 e.2)))

def loadInstruments (rows : List RawRow) : List Row :=
  rows.filterMap fun row => if validateRow row then cleanRow row else none

def CsvFile.data (file : CsvFile) : List Row :=
  match file.rows with
  | .ok rows => loadInstruments rows
  | .error _ => []

-- ---------------------------------------------------------------------------
-- Instruments
-- ---------------------------------------------------------------------------

/-- The columns of `instruments` that a load writes; `is_active` has no value
before the row is flushed. -/
structure Instrument where
  instrumentToken : ℤ
  exchangeToken : ℤ
  tradingsymbol : String
  name : String
  exchange : String
  segment : Option String
  instrumentType : Option String
  lastPrice : Option Decimal
  tickSize : Option Decimal
  lotSize : Option ℤ
  expiry : Option (ℕ × ℕ × ℕ)
  strike : Option Decimal
  isActive : Option Bool := none
  sourceFile : String
  deriving DecidableEq

def toInt : Value → Except Exc ℤ
  | .bool b => .ok (if b then 1 else 0)
  | .int n => .ok n
  | .float repr =>
    match Decimal.ofText repr with
    | some (.num (.fin q)) => .ok (if 0 ≤ q then ⌊q⌋ else ⌈q⌉)
    | some (.num _) => .error ⟨"OverflowError", "cannot convert float infinity to integer", .builtin⟩
    | _ => .error ⟨"ValueError", "cannot convert float NaN to integer", .builtin⟩
  | .str s =>
    match parseInt s with
    | some n => .ok n
    | none => .error ⟨"ValueError", s!"invalid literal for int() with base 10: '{s}'", .builtin⟩
  | v => .error ⟨"TypeError", s!"int() argument must be a string, a bytes-like object or a real " ++
      s!"number, not '{v.typeName}'", .builtin⟩

def Row.token (row : Row) : Except Exc ℤ := toInt ((row.get? "instrument_token").getD .null)

def stripValue : Value → Except Exc String
  | .str s => .ok (strip s)
  | v => .error ⟨"AttributeError", s!"'{v.typeName}' object has no attribute 'strip'", .builtin⟩

def Row.text (row : Row) (field : String) : Except Exc String :=
  match row.get? field with
  | some v => stripValue v
  | none => .error ⟨"KeyError", s!"'{field}'", .builtin⟩

/-- `row.get(field, '').strip() or None`: raises for an empty field. -/
def Row.optionalText (row : Row) (field : String) : Except Exc (Option String) := do
  let s ← stripValue ((row.get? field).getD (.str ""))
  pure (if s = "" then none else some s)

/-- The text `safe_decimal`, `safe_int` and the expiry are read from, if there
is one. It raises for a truthy value that is no text. -/
def Row.safeText (row : Row) (field : String) : Except Exc (Option String) :=
  let v := (row.get? field).getD .null
  if v.truthy then do
    let s ← stripValue v
    pure (if s = "" then none else some s)
  else pure none

/-- `safe_decimal(row.get(field))`. It does not catch what `Decimal` raises. -/
def Row.safeDecimal (row : Row) (field : String) : Except Exc (Option Decimal) := do
  match ← row.safeText field with
  | none => pure none
  | some s =>
    match Decimal.ofText s with
    | some d => pure (some d)
    | none => throw ⟨"InvalidOperation", "[<class 'decimal.ConversionSyntax'>]", .builtin⟩

def Row.safeInt (row : Row) (field : String) : Except Exc (Option ℤ) := do
  let s ← row.safeText field
  pure (s.bind parseInt)

def Row.date (row : Row) (field : String) : Except Exc (Option (ℕ × ℕ × ℕ)) := do
  let s ← row.safeText field
  pure (s.bind parseDate)

def Instrument.fromCsvRow (row : Row) (sourceFile : String) : Except Exc Instrument := do
  let expiry ← row.date "expiry"
  let instrumentToken ← row.token
  let exchangeToken ← row.safeInt "exchange_token"
  let tradingsymbol ← row.text "tradingsymbol"
  let name ← row.text "name"
  let exchange ← row.text "exchange"
  let segment ← row.optionalText "segment"
  let instrumentType ← row.optionalText "instrument_type"
  let lastPrice ← row.safeDecimal "last_price"
  let tickSize ← row.safeDecimal "tick_size"
  let lotSize ← row.safeInt "lot_size"
  let strike ← row.safeDecimal "strike"
  pure
    { instrumentToken, exchangeToken := exchangeToken.getD 0, tradingsymbol, name, exchange, segment,
      instrumentType, lastPrice, tickSize, lotSize, expiry, strike, sourceFile }

end AlphaPanda.Instruments
