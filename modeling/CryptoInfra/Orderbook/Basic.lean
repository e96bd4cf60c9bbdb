import CryptoInfra.History
import CryptoInfra.OrderedMap
import Mathlib.Algebra.BigOperators.Group.Finset.Basic
import Mathlib.Algebra.Order.Ring.Rat
import Mathlib.Data.Finmap

/-!
# The aggregated order book

The book keeps, for each side, an aggregated map from prices to total volumes and a ledger of the
volume every exchange holds at every price. Prices are elements of a total order and volumes are
exact numbers. An update writes the ledger, recomputes the total at its price, evicts the worst
levels, and publishes the best levels to the subscribed sockets unless the shared flag says that
they are already published.
-/

namespace CryptoInfra

/-- Exact volumes. -/
abbrev Volume := ℚ

/-- Socket descriptors. -/
abbrev Socket := ℤ

/-- The volume each exchange holds at each price. -/
abbrev ExchangeOrderMap (Price : Type*) := Finmap fun _ : String => Finmap fun _ : Price => Volume

/-- Capacity of an aggregated side. -/
def maxLevels : ℕ := 10000

/-- Depth of the levels whose changes are published. -/
def topLevels : ℕ := 5

/-- The payload of a snapshot and the currency it is about. -/
structure Snapshot (Price Quantity : Type*) where
  /-- Currency of the book. -/
  currencyId : UInt32
  /-- Price of the best bid. -/
  bestBidPrice : Price
  /-- Volume of the best bid. -/
  bestBidVolume : Quantity
  /-- Price of the best ask. -/
  bestAskPrice : Price
  /-- Volume of the best ask. -/
  bestAskVolume : Quantity
  deriving DecidableEq

/-! ## One side -/

/-- The aggregated map of one side together with its exchange ledger. -/
structure BookSide (Price : Type*) (before : Price → Price → Prop) where
  /-- Total volume of every listed price, best price first. -/
  ordersMap : OrderedMap Price Volume before
  /-- Volume of every exchange at every price. -/
  exchanges : ExchangeOrderMap Price

section Side

variable {Price : Type*} {before : Price → Price → Prop}

/-- Evict the worst level until the map is within capacity. -/
def rebalance (ordersMap : OrderedMap Price Volume before) : OrderedMap Price Volume before :=
  if maxLevels < ordersMap.size then rebalance ordersMap.eraseLast else ordersMap
termination_by ordersMap.size
decreasing_by
  rw [OrderedMap.size_eraseLast]
  omega

variable [DecidableEq Price]

/-- The volume an exchange holds at a price, zero when it holds none. -/
def volumeAt (exchanges : ExchangeOrderMap Price) (exchangeId : String) (price : Price) : Volume :=
  match exchanges.lookup exchangeId with
  | some levels => (levels.lookup price).getD 0
  | none => 0

/-- Write the volume of an exchange at a price, registering the exchange if it is unknown. -/
def storeVolume (exchangeId : String) (price : Price) (newVolume : Volume)
    (exchanges : ExchangeOrderMap Price) : ExchangeOrderMap Price :=
  exchanges.insert exchangeId
    (((exchanges.lookup exchangeId).getD ∅).insert price newVolume)

/-- Erase the volume of a known exchange at a price. -/
def eraseVolume (exchangeId : String) (price : Price) (exchanges : ExchangeOrderMap Price) :
    ExchangeOrderMap Price :=
  match exchanges.lookup exchangeId with
  | some levels => exchanges.insert exchangeId (levels.erase price)
  | none => exchanges

/-- The volume all exchanges together hold at a price. -/
def getTotalVolumeAtPrice (price : Price) (exchanges : ExchangeOrderMap Price) : Volume :=
  ∑ exchangeId ∈ exchanges.keys, volumeAt exchanges exchangeId price

variable [IsStrictTotalOrder Price before] [DecidableRel before]

/-- Drop the volume of one exchange at a price and recompute the aggregated level. -/
def deleteLevel (exchangeId : String) (price : Price) (side : BookSide Price before) :
    BookSide Price before :=
  let exchanges := eraseVolume exchangeId price side.exchanges
  let totalVolume := getTotalVolumeAtPrice price exchanges
  if 0 < totalVolume then
    { ordersMap := side.ordersMap.insert price totalVolume, exchanges }
  else
    { ordersMap := side.ordersMap.erase price, exchanges }

/-- Set the volume of one exchange at a price, recompute the aggregated level and evict. -/
def updateLevel (exchangeId : String) (price : Price) (newVolume : Volume)
    (side : BookSide Price before) : BookSide Price before :=
  if 0 < newVolume then
    let exchanges := storeVolume exchangeId price newVolume side.exchanges
    let totalVolume := getTotalVolumeAtPrice price exchanges
    if 0 < totalVolume then
      { ordersMap := rebalance (side.ordersMap.insert price totalVolume), exchanges }
    else
      { ordersMap := rebalance (side.ordersMap.erase price), exchanges }
  else
    deleteLevel exchangeId price side

/-- Whether a price lies before the last of the first `topLevels` keys. -/
def isInFirstNKeys (ordersMap : OrderedMap Price Volume before) (price : Price) : Bool :=
  if ordersMap.size < topLevels then
    true
  else
    match ordersMap.entries[topLevels - 1]? with
    | some level => before price level.1
    | none => false

/-- Register an exchange without any volume. -/
def initializeLedger (exchangeId : String) (exchanges : ExchangeOrderMap Price) :
    ExchangeOrderMap Price :=
  match exchanges.lookup exchangeId with
  | some _ => exchanges
  | none => exchanges.insert exchangeId ∅

end Side

/-! ## The book -/

/-- An order book for one currency. -/
structure Orderbook (Price : Type*) [LinearOrder Price] where
  /-- Aggregated bids, highest price first. -/
  bids : OrderedMap Price Volume (· > ·)
  /-- Aggregated asks, lowest price first. -/
  asks : OrderedMap Price Volume (· < ·)
  /-- Bid ledger. -/
  exchangeBids : ExchangeOrderMap Price
  /-- Ask ledger. -/
  exchangeAsks : ExchangeOrderMap Price
  /-- Sockets which receive the snapshots, in order of arrival. -/
  clientSendList : List Socket
  /-- The best levels have been published since they last changed. -/
  topLevelsUpdated : Bool
  /-- Currency of the book. -/
  currencyId : UInt32

namespace Orderbook

variable {Price : Type*} [LinearOrder Price]

/-- A book without orders or clients. -/
def new (currencyId : UInt32) : Orderbook Price where
  bids := OrderedMap.empty
  asks := OrderedMap.empty
  exchangeBids := ∅
  exchangeAsks := ∅
  clientSendList := []
  topLevelsUpdated := false
  currencyId := currencyId

/-- The best level of both sides, when neither is empty. -/
def topOfBook (book : Orderbook Price) : Option (Snapshot Price Volume) :=
  match book.bids.first, book.asks.first with
  | some bid, some ask => some
      { currencyId := book.currencyId
        bestBidPrice := bid.1
        bestBidVolume := bid.2
        bestAskPrice := ask.1
        bestAskVolume := ask.2 }
  | _, _ => none

/-- Send the best levels to every client, unless they are already published, a side is empty or
there is no client. -/
def sendSnapshot (book : Orderbook Price) :
    Orderbook Price × List (Socket × Snapshot Price Volume) :=
  if book.topLevelsUpdated ∨ book.bids.size = 0 ∨ book.asks.size = 0 ∨
      book.clientSendList.length = 0 then
    (book, [])
  else
    ({ book with topLevelsUpdated := true },
      book.clientSendList.flatMap fun clientSocket =>
        book.topOfBook.toList.map fun snapshot => (clientSocket, snapshot))

/-- Apply one bid level of an exchange and publish. -/
def updateBid (exchangeId : String) (price : Price) (newVolume : Volume)
    (book : Orderbook Price) : Orderbook Price × List (Socket × Snapshot Price Volume) :=
  let side := updateLevel exchangeId price newVolume
    { ordersMap := book.bids, exchanges := book.exchangeBids }
  let updated := { book with bids := side.ordersMap, exchangeBids := side.exchanges }
  if isInFirstNKeys updated.bids price then
    sendSnapshot { updated with topLevelsUpdated := false }
  else
    sendSnapshot updated

/-- Apply one ask level of an exchange and publish. -/
def updateAsk (exchangeId : String) (price : Price) (newVolume : Volume)
    (book : Orderbook Price) : Orderbook Price × List (Socket × Snapshot Price Volume) :=
  let side := updateLevel exchangeId price newVolume
    { ordersMap := book.asks, exchanges := book.exchangeAsks }
  let updated := { book with asks := side.ordersMap, exchangeAsks := side.exchanges }
  if isInFirstNKeys updated.asks price then
    sendSnapshot { updated with topLevelsUpdated := false }
  else
    sendSnapshot updated

/-- The bid volume an exchange holds at a price. -/
def getExchangeBidVolume (book : Orderbook Price) (exchangeId : String) (price : Price) : Volume :=
  volumeAt book.exchangeBids exchangeId price

/-- The ask volume an exchange holds at a price. -/
def getExchangeAskVolume (book : Orderbook Price) (exchangeId : String) (price : Price) : Volume :=
  volumeAt book.exchangeAsks exchangeId price

/-- Register an exchange on both sides. -/
def initializeExchange (exchangeId : String) (book : Orderbook Price) : Orderbook Price :=
  { book with
    exchangeBids := initializeLedger exchangeId book.exchangeBids
    exchangeAsks := initializeLedger exchangeId book.exchangeAsks }

/-- Append a client unless it is already listed. -/
def addClient (clientSocket : Socket) (book : Orderbook Price) : Orderbook Price :=
  if clientSocket ∈ book.clientSendList then
    book
  else
    { book with clientSendList := book.clientSendList ++ [clientSocket] }

/-- Remove the first occurrence of a client, if there is one. -/
def removeClient (clientSocket : Socket) (book : Orderbook Price) : Orderbook Price :=
  { book with clientSendList := book.clientSendList.erase clientSocket }

end Orderbook

/-! ## Sides and calls -/

/-- The two sides of a book. -/
inductive Side where
  | bid
  | ask
  deriving DecidableEq

namespace Side

/-- The comparator of a side: a better price comes before a worse one. -/
@[reducible]
def before {Price : Type*} [LinearOrder Price] : Side → Price → Price → Prop
  | .bid => (· > ·)
  | .ask => (· < ·)

instance {Price : Type*} [LinearOrder Price] (side : Side) :
    IsStrictTotalOrder Price side.before := by
  cases side <;> exact inferInstance

instance {Price : Type*} [LinearOrder Price] (side : Side) :
    DecidableRel (@Side.before Price _ side) :=
  match side with
  | .bid => fun left right => inferInstanceAs (Decidable (left > right))
  | .ask => fun left right => inferInstanceAs (Decidable (left < right))

end Side

/-- One call on a book. -/
inductive Call (Price : Type*) where
  | initializeExchange (exchangeId : String)
  | update (side : Side) (exchangeId : String) (price : Price) (newVolume : Volume)
  | addClient (clientSocket : Socket)
  | removeClient (clientSocket : Socket)

namespace Orderbook

variable {Price : Type*} [LinearOrder Price]

/-- The aggregated map and ledger of a side. -/
def side (book : Orderbook Price) : (side : Side) → BookSide Price side.before
  | .bid => { ordersMap := book.bids, exchanges := book.exchangeBids }
  | .ask => { ordersMap := book.asks, exchanges := book.exchangeAsks }

/-- The volume an exchange holds at a price of a side. -/
def getExchangeVolume (book : Orderbook Price) (side : Side) :
    (exchangeId : String) → (price : Price) → Volume :=
  match side with
  | .bid => book.getExchangeBidVolume
  | .ask => book.getExchangeAskVolume

/-- Execute one call, with the snapshots it sends. -/
def step (book : Orderbook Price) : Call Price →
    Orderbook Price × List (Socket × Snapshot Price Volume)
  | .initializeExchange exchangeId => (book.initializeExchange exchangeId, [])
  | .update .bid exchangeId price newVolume => updateBid exchangeId price newVolume book
  | .update .ask exchangeId price newVolume => updateAsk exchangeId price newVolume book
  | .addClient clientSocket => (book.addClient clientSocket, [])
  | .removeClient clientSocket => (book.removeClient clientSocket, [])

/-- Execute calls in order on a fresh book. -/
def run (currencyId : UInt32) (calls : List (Call Price)) :
    Orderbook Price × List (Socket × Snapshot Price Volume) :=
  History.run step (new currencyId) calls

end Orderbook

end CryptoInfra
