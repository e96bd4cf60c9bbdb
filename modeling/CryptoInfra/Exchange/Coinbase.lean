import CryptoInfra.Json
import CryptoInfra.Numeral

/-!
# The exchange on request

The quotes, the last trade and the order book of a ticker are read from the body of one response
each. Accesses throw, and a caught exception turns the whole result into none. The body is the
document which the parser delivers; a value the parser stumbles over counts as null, since every
access to either reports an error.
-/

namespace CryptoInfra

open Numeral (Number)

/-- The floating-point numbers of the C library. -/
structure DoubleFormat (Double : Type) where
  /-- The number for a value. -/
  round : Number → Double
  /-- The values which a conversion reports as out of range. -/
  outOfRange : Number → Bool

/-- Best bid and best ask; a number is missing as long as it is not initialized. -/
structure BBO (Double : Type) where
  /-- Price of the best bid. -/
  bid : Option Double
  /-- Price of the best ask. -/
  ask : Option Double

/-- The last trade; a number is missing as long as it is not initialized. -/
structure LatestTrade (Double : Type) where
  /-- Price of the trade. -/
  price : Option Double
  /-- Size of the trade. -/
  size : Option Double

/-- Price, volume and number of orders of the levels of both sides. -/
structure OrderbookState (Double : Type) where
  /-- The bids, in order. -/
  bids : List (Double × Double × UInt64)
  /-- The asks, in order. -/
  asks : List (Double × Double × UInt64)

namespace Coinbase

/-- Address of the ticker. -/
def tickerUrl (ticker : String) : String :=
  "https://api.exchange.coinbase.com/products/" ++ ticker ++ "/ticker"

/-- Address of the order book. -/
def bookUrl (ticker : String) : String :=
  "https://api.exchange.coinbase.com/products/" ++ ticker ++ "/book?level=2"

/-- The integer which digits with an optional sign denote, if it fits into 64 bits. -/
def integer (literal : List Char) : Option ℤ :=
  let negative : Bool := literal.head? = some '-'
  let digits := if negative then literal.tail else literal
  let value := Numeral.applySign negative (Numeral.decimal.value digits : ℤ)
  if digits ≠ [] ∧ digits.all Char.isDigit ∧ (digits.head? = some '0' → digits.length = 1) ∧
      -2 ^ 63 ≤ value ∧ value < 2 ^ 63 then
    some value
  else
    none

/-- The integer of a number. -/
def getInt64 : Option Json → Option ℤ
  | some (.number literal) => integer literal.toList
  | _ => none

section Reading

variable {Double : Type} (format : DoubleFormat Double)

/-- Convert a text in place and report whether it is a numeral as a whole. -/
def stringViewToDouble (view : String) (value : Option Double) : Bool × Option Double :=
  if view = "" then
    (false, value)
  else
    let parsed := Numeral.strtod view.toList
    (parsed.2 = [], some (format.round parsed.1))

/-- Convert the numeral in front of a text; without a numeral and out of range this throws. -/
def stod (text : String) : Option Double :=
  let parsed := Numeral.strtod text.toList
  if parsed.2 = text.toList ∨ format.outOfRange parsed.1 = true then
    none
  else
    some (format.round parsed.1)

/-- Read the value at an index of an entry; a value that is no string counts as the empty text. -/
def readValue (level : Double × Double × UInt64) (value : Option Json) (index : ℕ) :
    Option (Double × Double × UInt64) :=
  match index with
  | 0 => (stod format ((Json.text value).getD "")).map fun first => (first, level.2)
  | 1 => (stod format ((Json.text value).getD "")).map fun second =>
      (level.1, second, level.2.2)
  | 2 => (getInt64 value).map fun third => (level.1, level.2.1, UInt64.ofInt third)
  | _ => some level

/-- Read the values of an entry in order, zeros first. -/
def parseLevel (elem : Option Json) : Option (Double × Double × UInt64) :=
  (Json.elements elem).zipIdx.foldlM
    (fun level value => readValue format level value.1 value.2)
    (format.round (.finite 0), format.round (.finite 0), 0)

/-- Read entries until a number of levels is reached. -/
def parseEntries (maxLevels : ℤ) : (count : ℕ) → List Json →
    Option (List (Double × Double × UInt64))
  | _, [] => some []
  | count, elem :: rest =>
      if maxLevels ≤ count then
        some []
      else do
        let level ← parseLevel format (some elem)
        let levels ← parseEntries maxLevels (count + 1) rest
        return level :: levels

/-- The levels of a side. -/
def parseLevels (input : Option Json) (maxLevels : ℤ) :
    Option (List (Double × Double × UInt64)) :=
  match input with
  | some (.array entries) => parseEntries format maxLevels 0 entries
  | _ => none

variable (returnRequest : String → Option (Option Json))

/-- Two numbers of the ticker, whose conversions are not checked. -/
def returnTicker (first second : String) (ticker : String) :
    Option (Option Double × Option Double) := do
  let doc ← returnRequest (tickerUrl ticker)
  let firstText ← Json.text (Json.field first doc)
  let secondText ← Json.text (Json.field second doc)
  return ((stringViewToDouble format firstText none).2,
    (stringViewToDouble format secondText none).2)

/-- Best bid and best ask of a ticker. -/
def returnBBO (ticker : String) : Option (BBO Double) :=
  (returnTicker format returnRequest "ask" "bid" ticker).map fun numbers =>
    { bid := numbers.2, ask := numbers.1 }

/-- Last trade of a ticker. -/
def returnLastTrade (ticker : String) : Option (LatestTrade Double) :=
  (returnTicker format returnRequest "price" "size" ticker).map fun numbers =>
    { price := numbers.1, size := numbers.2 }

/-- The best levels of the order book of a ticker. -/
def returnCurrentOrderbook (ticker : String) (maxLevels : ℤ) : Option (OrderbookState Double) := do
  let doc ← returnRequest (bookUrl ticker)
  let bids ← parseLevels format (Json.field "bids" doc) maxLevels
  let asks ← parseLevels format (Json.field "asks" doc) maxLevels
  return { bids, asks }

end Reading

end Coinbase

end CryptoInfra
