import CryptoInfra.Orderbook.Ledger
import CryptoInfra.Websockets.Quotes
import Mathlib.Tactic.NormNum

/-!
# The feeds refine their quotes

Seen from outside, a connection maintains the last quantity quoted for every price of its exchange.
The book holds exactly these quantities, for bids at the price less the fee and for asks at the
price plus the fee: adjusting is a bijection, the two exchanges write to different parts of the
ledgers, and every handler keeps the order of each side.
-/

namespace CryptoInfra

open Numeral (Decimal)

namespace Feed

/-! ## Adjusted prices -/

/-- The price of the exchange for a price of the book. -/
def quoted (feed : Feed) (side : Side) (level : ℚ) : ℚ :=
  match side with
  | .bid => level / (1 - feed.feePercentage)
  | .ask => level / (1 + feed.feePercentage)

theorem adjusted_quoted (feed : Feed) (side : Side) (level : ℚ) :
    feed.adjusted side (feed.quoted side level) = level := by
  cases feed <;> cases side <;>
    norm_num [adjusted, quoted, feePercentage, CoinbaseWs.feePercentage, CryptoWs.feePercentage]

theorem adjusted_inj {feed : Feed} {side : Side} {left right : ℚ} :
    feed.adjusted side left = feed.adjusted side right ↔ left = right := by
  cases feed <;> cases side <;>
    norm_num [adjusted, feePercentage, CoinbaseWs.feePercentage, CryptoWs.feePercentage]

theorem exchangeId_inj {left right : Feed} : left.exchangeId = right.exchangeId ↔ left = right := by
  cases left <;> cases right <;> simp [exchangeId]

end Feed

/-! ## One message -/

/-- The quantity of a quote for a price. -/
def quantityAt (price : ℚ) (quote : ℚ × Volume) : Option Volume :=
  if quote.1 = price then some quote.2 else none

namespace Feed

/-- The call for a quote. -/
def callOfQuote (feed : Feed) (quote : Side × ℚ × Volume) : Call ℚ :=
  .update quote.1 feed.exchangeId (feed.adjusted quote.1 quote.2.1) quote.2.2

/-- An exchange's calls set what its quotes say, and nothing for the other one. -/
theorem latest_updateOf_calls (sender feed : Feed) (side : Side) (price : ℚ)
    (read : List (Side × ℚ × Volume)) :
    History.latest (updateOf side feed.exchangeId (feed.adjusted side price))
        (read.map sender.callOfQuote) =
      if sender = feed then History.latest (quantityAt price) (onSide side read) else none := by
  rw [History.latest, List.filterMap_map]
  split <;> rename_i same
  · subst same
    rw [History.latest, onSide, List.filterMap_filterMap]
    congr 1
    apply List.filterMap_congr
    intro quote _
    by_cases here : quote.1 = side
    · simp [callOfQuote, updateOf, here, quantityAt, adjusted_inj]
    · simp [callOfQuote, updateOf, here]
  · rw [List.getLast?_eq_none_iff, List.filterMap_eq_nil_iff]
    intro quote _
    simp [callOfQuote, updateOf, exchangeId_inj, same]

/-- A well-formed message sets the last quantity it quotes for a price, and leaves prices which it
does not quote, and the other exchange, alone. -/
theorem handleMessage_of_carries {sender : Feed} {message : Option Json} {quotes : Quotes}
    (carried : Carries sender message quotes) (book : Orderbook ℚ) :
    ∃ after sent, sender.handleMessage message book = some (after, sent) ∧
      ∀ (feed : Feed) side price,
        after.getExchangeVolume side feed.exchangeId (feed.adjusted side price) =
          ((if sender = feed then History.latest (quantityAt price) (quotes side)
            else none).map fun volume => max volume 0).getD
              (book.getExchangeVolume side feed.exchangeId (feed.adjusted side price)) := by
  obtain ⟨read, updates, sides⟩ := aggregatedUpdates_of_carries carried
  have calls : (read.map updateOfQuote).mapM sender.call = some (read.map sender.callOfQuote) := by
    rw [List.mapM_map]
    exact List.mapM_pure
  have handled : sender.handleMessage message book =
      some (History.run Orderbook.step book (read.map sender.callOfQuote)) := by
    rw [handleMessage, updates, calls]
    rfl
  refine ⟨_, _, handled, ?_⟩
  intro feed side price
  rw [Orderbook.getExchangeVolume_historyRun, latest_updateOf_calls, sides]

end Feed

/-! ## Deliveries -/

/-- A message which arrived on a connection, with the quotes it carries. -/
structure Delivery where
  /-- The connection. -/
  feed : Feed
  /-- The document. -/
  message : Option Json
  /-- What the document quotes. -/
  quotes : Quotes

/-- The quotes of one exchange on a side, in order of arrival. -/
def quotedBy (deliveries : List Delivery) (feed : Feed) (side : Side) : List (ℚ × Volume) :=
  deliveries.flatMap fun delivery => if delivery.feed = feed then delivery.quotes side else []

/-- The quantity an exchange quoted last for a price; none, and one which is not positive, count as
zero. -/
def lastQuantity (deliveries : List Delivery) (feed : Feed) (side : Side) (price : ℚ) : Volume :=
  max ((History.latest (quantityAt price) (quotedBy deliveries feed side)).getD 0) 0

/-- Handle deliveries in order of arrival. -/
def handleDeliveries (deliveries : List Delivery) (book : Orderbook ℚ) :
    Option (Orderbook ℚ × List (Socket × Snapshot ℚ Volume)) :=
  Feed.handleMessages (deliveries.map fun delivery => (delivery.feed, delivery.message)) book

/-- Well-formed deliveries leave the last quantity quoted for a price, or the volume before. -/
theorem handleDeliveries_of_carries {deliveries : List Delivery}
    (carried : ∀ delivery ∈ deliveries,
      Carries delivery.feed delivery.message delivery.quotes) (book : Orderbook ℚ) :
    ∃ after sent, handleDeliveries deliveries book = some (after, sent) ∧
      ∀ (feed : Feed) side price,
        after.getExchangeVolume side feed.exchangeId (feed.adjusted side price) =
          ((History.latest (quantityAt price) (quotedBy deliveries feed side)).map fun volume =>
            max volume 0).getD
              (book.getExchangeVolume side feed.exchangeId (feed.adjusted side price)) := by
  induction deliveries generalizing book with
  | nil => exact ⟨book, [], rfl, fun feed side price => rfl⟩
  | cons delivery deliveries induction =>
      obtain ⟨next, first, handled, sets⟩ :=
        Feed.handleMessage_of_carries (carried delivery List.mem_cons_self) book
      obtain ⟨after, later, rest, volumes⟩ :=
        induction (fun other member => carried other (List.mem_cons_of_mem _ member)) next
      refine ⟨after, first ++ later, ?_, ?_⟩
      · rw [handleDeliveries] at rest ⊢
        simp [Feed.handleMessages, handled, rest]
      · intro feed side price
        rw [volumes, sets, quotedBy, quotedBy, List.flatMap_cons, History.latest_append]
        cases History.latest (quantityAt price) (deliveries.flatMap fun delivery =>
            if delivery.feed = feed then delivery.quotes side else []) with
        | some quantity => rfl
        | none =>
            rw [Option.none_or]
            split <;> rfl

theorem getExchangeVolume_sharedBook (currencyId : UInt32) (side : Side) (exchangeId : String)
    (level : ℚ) : (Feed.sharedBook currencyId).getExchangeVolume side exchangeId level = 0 := by
  have nothing : volumeAt (∅ : ExchangeOrderMap ℚ) exchangeId level = 0 := by simp [volumeAt]
  cases side <;>
    simp [Feed.sharedBook, Feed.connect, Orderbook.initializeExchange, Orderbook.side,
      Orderbook.new, nothing]

/-- The book ends with the last quoted quantities at the adjusted prices. -/
theorem volumes_of_carries (currencyId : UInt32) {deliveries : List Delivery}
    (carried : ∀ delivery ∈ deliveries,
      Carries delivery.feed delivery.message delivery.quotes) :
    ∃ book snapshots,
      handleDeliveries deliveries (Feed.sharedBook currencyId) = some (book, snapshots) ∧
        ∀ (feed : Feed) side price,
          book.getExchangeVolume side feed.exchangeId (feed.adjusted side price) =
            lastQuantity deliveries feed side price := by
  obtain ⟨book, snapshots, handled, volumes⟩ :=
    handleDeliveries_of_carries carried (Feed.sharedBook currencyId)
  refine ⟨book, snapshots, handled, ?_⟩
  intro feed side price
  rw [volumes, getExchangeVolume_sharedBook, lastQuantity]
  cases History.latest (quantityAt price) (quotedBy deliveries feed side) with
  | none => exact (max_self 0).symm
  | some quantity => rfl

/-- A volume in the book was quoted for the price of the exchange. -/
theorem exists_quote_of_volume {deliveries : List Delivery} {book : Orderbook ℚ}
    (volumes : ∀ (feed : Feed) side price,
      book.getExchangeVolume side feed.exchangeId (feed.adjusted side price) =
        lastQuantity deliveries feed side price)
    {feed : Feed} {side : Side} {level : ℚ}
    (holds : book.getExchangeVolume side feed.exchangeId level ≠ 0) :
    ∃ quote ∈ quotedBy deliveries feed side, level = feed.adjusted side quote.1 := by
  rw [← feed.adjusted_quoted side level, volumes, lastQuantity] at holds
  cases found : History.latest (quantityAt (feed.quoted side level))
      (quotedBy deliveries feed side) with
  | none =>
      rw [found] at holds
      exact absurd (max_self 0) holds
  | some quantity =>
      obtain ⟨quote, member, selected⟩ := History.exists_of_latest found
      rw [quantityAt] at selected
      split at selected <;> rename_i same
      · exact ⟨quote, member, by rw [same, feed.adjusted_quoted]⟩
      · exact nomatch selected

/-- For well-formed messages in any order of arrival, the fresh book of the two connections ends
with the last quoted quantity of every price of an exchange, for bids at the price less the fee and
for asks at the price plus the fee, with volume at no other prices, and with volumes that depend on
the quotes of the exchange only. -/
theorem feeds_refine_quotes (currencyId : UInt32) (deliveries : List Delivery)
    (carried : ∀ delivery ∈ deliveries,
      Carries delivery.feed delivery.message delivery.quotes) :
    ∃ book snapshots,
      handleDeliveries deliveries (Feed.sharedBook currencyId) = some (book, snapshots) ∧
        ∀ feed : Feed,
          (∀ price,
            book.getExchangeVolume .bid feed.exchangeId (price * (1 - feed.feePercentage)) =
                lastQuantity deliveries feed .bid price ∧
              book.getExchangeVolume .ask feed.exchangeId (price * (1 + feed.feePercentage)) =
                lastQuantity deliveries feed .ask price) ∧
          (∀ level,
            (book.getExchangeVolume .bid feed.exchangeId level ≠ 0 →
              ∃ quote ∈ quotedBy deliveries feed .bid,
                level = quote.1 * (1 - feed.feePercentage)) ∧
            (book.getExchangeVolume .ask feed.exchangeId level ≠ 0 →
              ∃ quote ∈ quotedBy deliveries feed .ask,
                level = quote.1 * (1 + feed.feePercentage))) ∧
          ∀ side others, (∀ delivery ∈ others,
              Carries delivery.feed delivery.message delivery.quotes) →
            quotedBy others feed side = quotedBy deliveries feed side →
              ∃ other sent,
                handleDeliveries others (Feed.sharedBook currencyId) = some (other, sent) ∧
                  ∀ level, other.getExchangeVolume side feed.exchangeId level =
                    book.getExchangeVolume side feed.exchangeId level := by
  obtain ⟨book, snapshots, handled, volumes⟩ := volumes_of_carries currencyId carried
  refine ⟨book, snapshots, handled, ?_⟩
  intro feed
  refine ⟨?_, ?_, ?_⟩
  · intro price
    exact ⟨volumes feed .bid price, volumes feed .ask price⟩
  · intro level
    exact ⟨exists_quote_of_volume volumes, exists_quote_of_volume volumes⟩
  · intro side others carried_others same
    obtain ⟨other, sent, handled_other, volumes_other⟩ :=
      volumes_of_carries currencyId carried_others
    refine ⟨other, sent, handled_other, ?_⟩
    intro level
    rw [← feed.adjusted_quoted side level, volumes, volumes_other, lastQuantity, lastQuantity,
      same]

theorem decimal_ten : Decimal "10".toList 10 := .of_digits rfl rfl rfl

theorem decimal_three : Decimal "3".toList 3 := .of_digits rfl rfl rfl

/-- Coinbase quotes one bid. -/
def bidMessage : Option Json :=
  some (.object [("events", .array [.object [("type", .string "update"),
    ("updates", .array [.object [("side", .string "bid"), ("event_time", .string "now"),
      ("price_level", .string "10"), ("new_quantity", .string "3")]])]])])

/-- Crypto.com quotes one ask. -/
def askMessage : Option Json :=
  some (.object [("result", .object [("channel", .string "book"),
    ("data", .array [.object [("asks", .array [.array [.string "10", .string "3", .string "1"]]),
      ("bids", .array [])]])])])

/-- Each exchange quotes one price. -/
def oneQuoteEach : List Delivery :=
  [{ feed := .coinbase, message := bidMessage, quotes := fun side => onSide side [(.bid, 10, 3)] },
   { feed := .crypto, message := askMessage, quotes := fun side => onSide side [(.ask, 10, 3)] }]

theorem carries_oneQuoteEach : ∀ delivery ∈ oneQuoteEach,
    Carries delivery.feed delivery.message delivery.quotes := by
  intro delivery member
  rcases List.mem_cons.mp member with rfl | member
  · have quoted : Carries .coinbase bidMessage fun side =>
        onSide side [[(.bid, 10, 3)]].flatten := by
      refine .events rfl (.cons (.book rfl (Or.inr rfl) rfl (.cons ?_ .nil)) .nil)
      exact .quote rfl (Or.inl ⟨rfl, rfl⟩) rfl rfl decimal_ten rfl decimal_three
    exact quoted
  · obtain rfl := List.mem_singleton.mp member
    have quoted : Carries .crypto askMessage fun side =>
        [fun side => onSide side [(.ask, 10, 3)]].flatMap fun quotes => quotes side := by
      refine .data rfl rfl (Or.inl rfl) (.cons (.book rfl ?_) .nil)
      exact .sides rfl (.cons (.quote decimal_ten decimal_three) .nil) rfl .nil
    simpa using quoted

theorem feeds_refine_quotes_oneQuoteEach :
    ∃ book snapshots,
      handleDeliveries oneQuoteEach (Feed.sharedBook 1) = some (book, snapshots) ∧
        book.getExchangeVolume .bid "coinbase" (10 * (1 - 2 / 1000)) = 3 ∧
          book.getExchangeVolume .ask "crypto" (10 * (1 + 15 / 10000)) = 3 := by
  obtain ⟨book, snapshots, handled, volumes⟩ :=
    feeds_refine_quotes 1 oneQuoteEach carries_oneQuoteEach
  have bid := ((volumes .coinbase).1 10).1
  have ask := ((volumes .crypto).1 10).2
  refine ⟨book, snapshots, handled, bid.trans ?_, ask.trans ?_⟩
  · simp [lastQuantity, quotedBy, oneQuoteEach, onSide, quantityAt, History.latest]
  · simp [lastQuantity, quotedBy, oneQuoteEach, onSide, quantityAt, History.latest]

end CryptoInfra
