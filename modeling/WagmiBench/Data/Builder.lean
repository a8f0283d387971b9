import WagmiBench.Core.PackLoader
import WagmiBench.Lib.DecimalText
import WagmiBench.Lib.Raises

/-!
# The pack builder's rows

`data/builder.py`: the decimal texts of an upstream archive as integers of the pack, and the bar rows
made of them. Prices are quantised to ticks, the high up and the low down; amounts are converted
exactly or not at all.
-/

namespace WagmiBench.Data

open WagmiBench.Lib WagmiBench.Core

/-! ## What is raised -/

/-- What is wrong with a row, or with one of its cells. -/
inductive RowProblem where
  | notExactDecimal (value : Text)
  | negative
  | inexact (value : Text) (scale : ℤ)
  | notInteger (value : Text)
  | notMilliseconds
  | tooFewColumns (given maximum : ℕ)
  | lowExceeds
  | highBelow
  deriving DecidableEq

/-- What the builder raises. -/
inductive BuildError where
  /-- `PackBuildError` at a row or cell. -/
  | row (label : Text) (problem : RowProblem)
  /-- Any other `PackBuildError`. -/
  | pack (message : Text)
  /-- The `ValueError` of `int` on more digits than the interpreter converts. -/
  | digits
  | index
  deriving DecidableEq

abbrev Build := Except BuildError

/-- The parts of Python's Unicode handling the reader rests on. -/
structure Unicode where
  /-- `int(text)`, where it does not raise `ValueError`. -/
  int : Text → Option ℤ
  /-- The letters and digits of a text in lower case. -/
  headerToken : Text → Text
  /-- `repr(text)` -/
  repr : Text → Text

/-- The message of a `PackBuildError` at a row or cell. -/
def RowProblem.message (unicode : Unicode) (label : Text) : RowProblem → Text
  | .notExactDecimal value => label ++ txt " is not an exact decimal: " ++ unicode.repr value
  | .negative => label ++ txt " must be non-negative"
  | .inexact value scale => label ++ txt "=" ++ unicode.repr value ++
      txt " cannot be represented exactly at scale " ++ decimalInt scale
  | .notInteger value => label ++ txt " must be an integer: " ++ unicode.repr value
  | .notMilliseconds => label ++ txt " microseconds must convert exactly to milliseconds"
  | .tooFewColumns given maximum => label ++ txt " has " ++ decimal given ++
      txt " columns; requires index " ++ decimal maximum
  | .lowExceeds => label ++ txt ": low exceeds another OHLC value"
  | .highBelow => label ++ txt ": high is below another OHLC value"

/-! ## Decimal texts -/

/-- `str.isspace` of one character. -/
def isSpace (c : CodePoint) : Bool :=
  (0x09 ≤ c.val && c.val ≤ 0x0D) || (0x1C ≤ c.val && c.val ≤ 0x20) || c.val == 0x85 ||
    c.val == 0xA0 || c.val == 0x1680 || (0x2000 ≤ c.val && c.val ≤ 0x200A) || c.val == 0x2028 ||
    c.val == 0x2029 || c.val == 0x202F || c.val == 0x205F || c.val == 0x3000

/-- `str.strip` -/
def strip (value : Text) : Text :=
  ((value.dropWhile isSpace).reverse.dropWhile isSpace).reverse

section Decimals

variable (limits : Json.Limits)

/-- `int` of decimal digits. -/
def intOfDigits (digits : Text) : Build ℕ := do
  require (digits.length ≤ limits.maxDigits) .digits
  return ofDecimal digits

/-- `int(match.group("exponent") or "0")` -/
def intOfExponent : Option Exponent → Build ℤ
  | none => .ok 0
  | some exponent => do
    let n ← intOfDigits limits exponent.digits
    return Sign.apply exponent.sign n

/-- `_power_of_ten` -/
def powerOfTen (exponent : ℤ) : Build ℕ := do
  require (0 ≤ exponent) (.pack (txt "internal decimal exponent must be non-negative"))
  return 10 ^ exponent.toNat

/-- How a price is rounded. -/
inductive Rounding where
  | floor
  | ceil
  | nearest
  deriving DecidableEq, Repr

/-- `_price_ticks` -/
def priceTicks (value : Text) (tickSizeMicro : ℕ+) (label : Text) (rounding : Rounding) :
    Build ℤ :=
  match matchDecimal (strip value) with
  | none => .error (.row label (.notExactDecimal value))
  | some d => do
    require (d.sign ≠ some .minus) (.row label .negative)
    let digits ← intOfDigits limits (d.whole ++ d.fractionDigits)
    let power ← intOfExponent limits d.exponent
    let exponent := power - d.fractionDigits.length
    let (numerator, denominator) ←
      if 0 ≤ exponent then do
        let power ← powerOfTen exponent
        pure (digits * power * 1_000_000, (tickSizeMicro : ℕ))
      else do
        let power ← powerOfTen (-exponent)
        pure (digits * 1_000_000, power * tickSizeMicro)
    let quotient := numerator / denominator
    let remainder := numerator % denominator
    if rounding = .ceil ∧ remainder ≠ 0 then return (quotient + 1 : ℕ)
    else if rounding = .nearest ∧ denominator ≤ remainder * 2 then return (quotient + 1 : ℕ)
    else return quotient

/-- `_scaled_decimal` -/
def scaledDecimal (value : Text) (scale : ℤ) (label : Text) : Build ℤ :=
  match matchDecimal (strip value) with
  | none => .error (.row label (.notExactDecimal value))
  | some d => do
    let sign : ℤ := if d.sign = some .minus then -1 else 1
    let digits ← intOfDigits limits (d.whole ++ d.fractionDigits)
    let exponent ← intOfExponent limits d.exponent
    let decimalPower := exponent - d.fractionDigits.length
    if 0 ≤ decimalPower then do
      let power ← powerOfTen decimalPower
      return sign * digits * power * scale
    else do
      let numerator := sign * digits * scale
      let denominator ← powerOfTen (-decimalPower)
      let quotient := numerator.natAbs / denominator
      let remainder := numerator.natAbs % denominator
      require (remainder = 0) (.row label (.inexact value scale))
      return if 0 ≤ numerator then (quotient : ℤ) else -quotient

/-! ## Bar rows -/

/-- A converted bar row. -/
structure BarRecord where
  ts : ℤ
  availableAt : ℤ
  o : ℤ
  h : ℤ
  l : ℤ
  c : ℤ
  vBase1e8 : ℤ
  deriving DecidableEq

/-- Where the columns of a bar archive stand. -/
structure BarColumns where
  ts : ℕ
  open_ : ℕ
  high : ℕ
  low : ℕ
  close : ℕ
  volume : ℕ

def BarColumns.values (columns : BarColumns) : List ℕ :=
  [columns.ts, columns.open_, columns.high, columns.low, columns.close, columns.volume]

/-- The unit of an archive's timestamps. -/
inductive TimestampUnit where
  | ms
  | us
  deriving DecidableEq, Repr

variable (unicode : Unicode)

/-- `_header_map`, from a column on. -/
def headerMap : ℕ → List (Text × ℕ) → List Text → Build (List (Text × ℕ))
  | _, header, [] => .ok header
  | index, header, value :: row => do
    let token := unicode.headerToken value
    if token = [] then headerMap (index + 1) header row
    else do
      require (header.lookup token = none)
        (.pack (txt "duplicate CSV header: " ++ unicode.repr value))
      headerMap (index + 1) (header ++ [(token, index)]) row

/-- `_header_index` -/
def headerIndex (header : List (Text × ℕ)) (candidates : List String) : Build ℕ :=
  match candidates.findSome? fun candidate => header.lookup (txt candidate) with
  | some index => .ok index
  | none => .error (.pack (txt "CSV header is missing one of the required columns: [" ++
      (txt ", ").intercalate (candidates.map fun name => unicode.repr (txt name)) ++ txt "]"))

/-- `_bar_columns` -/
def barColumns (rows : List (List Text)) : Build (ℕ × BarColumns) :=
  match rows with
  | [] => .error (.pack (txt "bar CSV is empty"))
  | first :: _ =>
    if first.head?.any (fun cell => (unicode.int (strip cell)).isNone) then do
      let header ← headerMap unicode 0 [] first
      let ts ← headerIndex unicode header ["opentime", "timestamp", "ts"]
      let open_ ← headerIndex unicode header ["open"]
      let high ← headerIndex unicode header ["high"]
      let low ← headerIndex unicode header ["low"]
      let close ← headerIndex unicode header ["close"]
      let volume ← headerIndex unicode header ["volume", "baseassetvolume", "vol"]
      return (1, ⟨ts, open_, high, low, close, volume⟩)
    else return (0, ⟨0, 1, 2, 3, 4, 5⟩)

/-- `_require_columns` -/
def requireColumns (row : List Text) (indices : List ℕ) (label : Text) : Build Unit := do
  let maximum := indices.foldl max 0
  require (maximum < row.length) (.row label (.tooFewColumns row.length maximum))

/-- `row[index]` -/
def cell (row : List Text) (index : ℕ) : Build Text :=
  match row[index]? with
  | none => .error .index
  | some value => .ok value

/-- `_timestamp_ms` -/
def timestampMs (value : Text) (unit : TimestampUnit) (label : Text) : Build ℤ :=
  match unicode.int (strip value) with
  | none => .error (.row label (.notInteger value))
  | some raw => do
    require (0 ≤ raw) (.row label .negative)
    match unit with
    | .ms => return raw
    | .us => do
      require (raw % 1000 = 0) (.row label .notMilliseconds)
      return raw / 1000

/-- `_nonnegative` -/
def nonnegative (value : ℤ) (label : Text) : Build ℤ := do
  require (0 ≤ value) (.row label .negative)
  return value

/-- What one archive is converted with. -/
structure BarArchive where
  role : SeriesRole
  intervalMs : ℤ
  timestampUnit : TimestampUnit
  tickSizeMicro : ℕ+
  windowStartTs : ℤ
  windowEndTs : ℤ
  sourceUrl : Text

variable (archive : BarArchive)

/-- The label of a row. -/
def BarArchive.label (index : ℕ) : Text :=
  archive.sourceUrl ++ txt " CSV row " ++ decimal index

/-- The label of a cell. -/
def cellLabel (label : Text) (name : String) : Text := label ++ txt " " ++ txt name

/-- The volume of a row. -/
def barVolume (columns : BarColumns) (label : Text) (row : List Text) : Build ℤ :=
  if archive.role = .trade then do
    let raw ← cell row columns.volume
    let volume ← scaledDecimal limits raw 100_000_000 (cellLabel label "volume")
    nonnegative volume (cellLabel label "volume")
  else .ok 0

/-- A price cell of a row in ticks. -/
def barPrice (label : Text) (row : List Text) (index : ℕ) (name : String) (rounding : Rounding) :
    Build ℤ := do
  let raw ← cell row index
  priceTicks limits raw archive.tickSizeMicro (cellLabel label name) rounding

/-- One row of `_convert_bar_rows`, unless it is blank or outside the window. -/
def convertBarRow (columns : BarColumns) (label : Text) (row : List Text) :
    Build (Option BarRecord) :=
  if row.all (fun value => strip value = []) then .ok none
  else do
    requireColumns row columns.values label
    let rawTs ← cell row columns.ts
    let ts ← timestampMs unicode rawTs archive.timestampUnit (cellLabel label "ts")
    if ts < archive.windowStartTs ∨ archive.windowEndTs ≤ ts then return none
    else do
      let openTicks ← barPrice limits archive label row columns.open_ "open" .nearest
      let highTicks ← barPrice limits archive label row columns.high "high" .ceil
      let lowTicks ← barPrice limits archive label row columns.low "low" .floor
      let closeTicks ← barPrice limits archive label row columns.close "close" .nearest
      require (lowTicks ≤ min (min openTicks closeTicks) highTicks) (.row label .lowExceeds)
      require (max (max openTicks closeTicks) lowTicks ≤ highTicks) (.row label .highBelow)
      let volume ← barVolume limits archive columns label row
      return some ⟨ts, ts + archive.intervalMs, openTicks, highTicks, lowTicks, closeTicks, volume⟩

/-- The loop of `_convert_bar_rows`, from a row on. -/
def convertRowsFrom (columns : BarColumns) : ℕ → List (List Text) → Build (List BarRecord)
  | _, [] => .ok []
  | index, row :: rows => do
    let record ← convertBarRow limits unicode archive columns (archive.label index) row
    let records ← convertRowsFrom columns (index + 1) rows
    return record.toList ++ records

/-- `_convert_bar_rows` -/
def convertBarRows (rows : List (List Text)) : Build (List BarRecord) := do
  let (start, columns) ← barColumns unicode rows
  convertRowsFrom limits unicode archive columns (start + 1) (rows.drop start)

end Decimals

end WagmiBench.Data
