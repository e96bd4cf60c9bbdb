import CryptoInfra.Json
import CryptoInfra.Numeral
import CryptoInfra.Orderbook.Basic

/-!
# The exchange feeds

Each connection hands the documents it receives to its handler, which collects the order entries of
the document and then applies them, under the lock, to the book it shares with the other connection.
Prices are adjusted by the fee of the exchange. Arithmetic is exact: an update at a price that is no
finite number has no outcome here, and neither has one of infinite volume.
-/

namespace CryptoInfra

open Numeral (Number)

/-- Convert a text which is a numeral as a whole. -/
def convertToDouble (text : String) : Option Number :=
  let parsed := Numeral.strtod text.toList
  if parsed.2 = [] then some parsed.1 else none

/-! ## Coinbase -/

namespace CoinbaseWs

/-- Fee of the exchange. -/
def feePercentage : ℚ := 2 / 1000

/-- The names of the currencies at the exchange. -/
def idToCurrency : List (UInt32 × String) :=
  [(1, "BTC-USD"), (2, "ETH-USD"), (3, "XRP-USD"), (4, "SOL-USD"), (5, "DOGE-USD")]

/-- The name of a currency at the exchange, if it has one. -/
def getCurrencyName (currencyId : UInt32) : Option String := idToCurrency.lookup currencyId

/-- The update of one entry; entries with a missing field or a bad number are skipped. -/
def readUpdate (update : Option Json) : Option (String × Number × Number) := do
  let side ← Json.text (Json.field "side" update)
  let _eventTime ← Json.text (Json.field "event_time" update)
  let priceLevelStr ← Json.text (Json.field "price_level" update)
  let newQuantityStr ← Json.text (Json.field "new_quantity" update)
  let price ← convertToDouble priceLevelStr
  let volume ← convertToDouble newQuantityStr
  return (side, price, volume)

/-- The event types which carry entries. -/
def isBookEvent (event : Option Json) : Bool :=
  match Json.text (Json.field "type" event) with
  | some type => type = "update" || type = "snapshot"
  | none => false

/-- The updates of one event; events of other types are skipped. -/
def readEvent (event : Option Json) : List (String × Number × Number) :=
  if isBookEvent event then
    (Json.elements (Json.field "updates" event)).filterMap readUpdate
  else
    []

/-- The updates of a message, in order. -/
def aggregatedUpdates (message : Option Json) : List (String × Number × Number) :=
  (Json.elements (Json.field "events" message)).flatMap readEvent

/-- Everything but a bid counts as an ask. -/
def sideOf (side : String) : Side :=
  if side = "bid" then .bid else .ask

end CoinbaseWs

/-! ## Crypto.com -/

namespace CryptoWs

/-- Fee of the exchange. -/
def feePercentage : ℚ := 15 / 10000

/-- The names of the order books of the currencies at the exchange. -/
def idToCurrency : List (UInt32 × String) :=
  [(1, "book.BTCUSD-PERP.50"), (2, "book.ETHUSD-PERP.50"), (3, "book.XRPUSD-PERP.50"),
    (4, "book.SOLUSD-PERP.50"), (5, "book.DOGEUSD-PERP.50")]

/-- The name of the order book of a currency at the exchange, if it has one. -/
def getCurrencyName (currencyId : UInt32) : Option String := idToCurrency.lookup currencyId

/-- The texts of an entry. -/
structure OrderTexts where
  /-- Text of the price. -/
  priceLevelStr : String := ""
  /-- Text of the quantity. -/
  newQuantityStr : String := ""
  /-- Text of the number of orders, which is not used. -/
  numOrdersStr : String := ""

/-- Read the value at an index of an entry; a value that is no string leaves the text alone. -/
def OrderTexts.read (texts : OrderTexts) (value : Option Json) (index : ℕ) : OrderTexts :=
  match index with
  | 0 => { texts with priceLevelStr := (Json.text value).getD texts.priceLevelStr }
  | 1 => { texts with newQuantityStr := (Json.text value).getD texts.newQuantityStr }
  | 2 => { texts with numOrdersStr := (Json.text value).getD texts.numOrdersStr }
  | _ => texts

/-- Read the values of an entry in order. -/
def readTexts (order : Option Json) : OrderTexts :=
  (Json.elements order).zipIdx.foldl (fun texts value => texts.read value.1 value.2) {}

/-- The update of one entry; entries with a bad number are skipped. -/
def readOrder (isBid : Bool) (order : Option Json) : Option (Bool × Number × Number) := do
  let texts := readTexts order
  let price ← convertToDouble texts.priceLevelStr
  let volume ← convertToDouble texts.newQuantityStr
  return (isBid, price, volume)

/-- The updates of the entries of a side. -/
def processOrders (orders : Option Json) (isBid : Bool) : List (Bool × Number × Number) :=
  (Json.elements orders).filterMap (readOrder isBid)

/-- The updates of both sides of a book, all asks before all bids. -/
def processBook (book : Option Json) : List (Bool × Number × Number) :=
  processOrders (Json.field "asks" book) false ++ processOrders (Json.field "bids" book) true

/-- The updates of a message, in order; messages on other channels are skipped. -/
def aggregatedUpdates (message : Option Json) : List (Bool × Number × Number) :=
  let result := Json.field "result" message
  let channel := (Json.text (Json.field "channel" result)).getD ""
  if channel = "book" then
    (Json.elements (Json.field "data" result)).flatMap processBook
  else if channel = "book.update" then
    (Json.elements (Json.field "data" result)).flatMap fun data =>
      processBook (Json.field "update" data)
  else
    []

/-- The side of an update. -/
def sideOf (isBid : Bool) : Side :=
  if isBid then .bid else .ask

end CryptoWs

/-! ## Connections -/

/-- The two connections of a book. -/
inductive Feed where
  | coinbase
  | crypto
  deriving DecidableEq

/-- Prices of the book. -/
def exactPrice : Number → Option ℚ
  | .finite price => some price
  | _ => none

/-- Volumes of the book. What is not positive is only compared with zero, so that it acts as zero
does. -/
def exactVolume : Number → Option Volume
  | .finite volume => some volume
  | .infinite true => some 0
  | .infinite false => none
  | .nan => some 0

namespace Feed

/-- The name under which a connection registers its exchange. -/
def exchangeId : Feed → String
  | .coinbase => "coinbase"
  | .crypto => "crypto"

/-- Fee of the exchange. -/
def feePercentage : Feed → ℚ
  | .coinbase => CoinbaseWs.feePercentage
  | .crypto => CryptoWs.feePercentage

/-- The name under which a connection subscribes to a currency, if its exchange has one. -/
def getCurrencyName : Feed → UInt32 → Option String
  | .coinbase => CoinbaseWs.getCurrencyName
  | .crypto => CryptoWs.getCurrencyName

/-- The price of the book for a price of the exchange. -/
def adjusted (feed : Feed) (side : Side) (price : ℚ) : ℚ :=
  match side with
  | .bid => price * (1 - feed.feePercentage)
  | .ask => price * (1 + feed.feePercentage)

/-- The updates of a message, in order. -/
def aggregatedUpdates : Feed → Option Json → List (Side × Number × Number)
  | .coinbase, message =>
      (CoinbaseWs.aggregatedUpdates message).map fun update =>
        (CoinbaseWs.sideOf update.1, update.2)
  | .crypto, message =>
      (CryptoWs.aggregatedUpdates message).map fun update => (CryptoWs.sideOf update.1, update.2)

/-- The call on the book for one update. -/
def call (feed : Feed) (update : Side × Number × Number) : Option (Call ℚ) := do
  let price ← exactPrice update.2.1
  let volume ← exactVolume update.2.2
  return .update update.1 feed.exchangeId (feed.adjusted update.1 price) volume

/-- Apply the updates of a message to the book, with the snapshots this sends. -/
def handleMessage (feed : Feed) (message : Option Json) (book : Orderbook ℚ) :
    Option (Orderbook ℚ × List (Socket × Snapshot ℚ Volume)) := do
  let calls ← (feed.aggregatedUpdates message).mapM feed.call
  return History.run Orderbook.step book calls

/-- A new connection registers its exchange. -/
def connect (feed : Feed) (book : Orderbook ℚ) : Orderbook ℚ :=
  book.initializeExchange feed.exchangeId

/-- A fresh book with its two connections. -/
def sharedBook (currencyId : UInt32) : Orderbook ℚ :=
  connect .crypto (connect .coinbase (Orderbook.new currencyId))

/-- Handle the messages of both connections in order of arrival. -/
def handleMessages : List (Feed × Option Json) → Orderbook ℚ →
    Option (Orderbook ℚ × List (Socket × Snapshot ℚ Volume))
  | [], book => some (book, [])
  | (feed, message) :: messages, book => do
      let handled ← feed.handleMessage message book
      let final ← handleMessages messages handled.1
      return (final.1, handled.2 ++ final.2)

end Feed

end CryptoInfra
