import CryptoInfra.Websockets.Refinement

/-!
# Snapshots

A snapshot lists the whole book of an exchange. The handlers apply it as they apply any other
message, entry by entry, so that it sets the levels it lists and leaves all others as they were.
-/

namespace CryptoInfra

/-- A snapshot with the quotes it lists: the only event of a message of Coinbase, or the only data
element of the book channel of Crypto.com. -/
inductive ListsBook : Feed → Option Json → Quotes → Prop where
  | event {message : Option Json} {event : Json} {entries : List Json}
      {quotes : List (Side × ℚ × Volume)}
      (alone : Json.field "events" message = some (.array [event]))
      (typed : Json.field "type" (some event) = some (.string "snapshot"))
      (listed : Json.field "updates" (some event) = some (.array entries))
      (each : List.Forall₂ CoinbaseWs.Entry entries quotes) :
      ListsBook .coinbase message fun side => onSide side quotes
  | data {message : Option Json} {data : Json} {quotes : Quotes}
      (on_channel : Json.field "channel" (Json.field "result" message) = some (.string "book"))
      (alone : Json.field "data" (Json.field "result" message) = some (.array [data]))
      (sides : CryptoWs.Book (some data) quotes) : ListsBook .crypto message quotes

theorem ListsBook.carries {feed : Feed} {message : Option Json} {quotes : Quotes}
    (snapshot : ListsBook feed message quotes) : Carries feed message quotes := by
  cases snapshot with
  | event alone typed listed each =>
      have carried := Carries.events alone (.cons (.book typed (Or.inl rfl) listed each) .nil)
      simpa using carried
  | data on_channel alone sides =>
      have carried :=
        Carries.data on_channel alone (Or.inl rfl) (.cons (.book rfl sides) .nil)
      simpa using carried

/-- Without repetition, the last quantity quoted for a price is the only one. -/
theorem latest_quantityAt {quotes : List (ℚ × Volume)} (distinct : (quotes.map Prod.fst).Nodup)
    {quote : ℚ × Volume} (member : quote ∈ quotes) :
    History.latest (quantityAt quote.1) quotes = some quote.2 := by
  cases found : History.latest (quantityAt quote.1) quotes with
  | none =>
      rw [History.latest, List.getLast?_eq_none_iff, List.filterMap_eq_nil_iff] at found
      exact absurd (found quote member) (by simp [quantityAt])
  | some quantity =>
      obtain ⟨other, listed, selected⟩ := History.exists_of_latest found
      rw [quantityAt] at selected
      split at selected <;> rename_i same
      · rw [← Option.some.inj selected,
          List.inj_on_of_nodup_map distinct listed member same]
      · cases selected

theorem latest_quantityAt_of_unlisted {quotes : List (ℚ × Volume)} {price : ℚ}
    (unlisted : ∀ quote ∈ quotes, quote.1 ≠ price) :
    History.latest (quantityAt price) quotes = none := by
  rw [History.latest, List.getLast?_eq_none_iff, List.filterMap_eq_nil_iff]
  intro quote member
  simp [quantityAt, unlisted quote member]

/-- A snapshot without repeated prices sets the quantities it lists and nothing else. -/
theorem exists_snapshot_set {feed : Feed} {message : Option Json} {quotes : Quotes}
    (snapshot : ListsBook feed message quotes)
    (distinct : ∀ side, ((quotes side).map Prod.fst).Nodup) (book : Orderbook ℚ) :
    ∃ after sent, feed.handleMessage message book = some (after, sent) ∧
      ∀ side,
        (∀ quote ∈ quotes side,
          after.getExchangeVolume side feed.exchangeId (feed.adjusted side quote.1) =
            max quote.2 0) ∧
        ∀ level, (∀ quote ∈ quotes side, level ≠ feed.adjusted side quote.1) →
          after.getExchangeVolume side feed.exchangeId level =
            book.getExchangeVolume side feed.exchangeId level := by
  obtain ⟨after, sent, handled, volumes⟩ := Feed.handleMessage_of_carries snapshot.carries book
  refine ⟨after, sent, handled, ?_⟩
  intro side
  constructor
  · intro quote member
    rw [volumes, if_pos rfl, latest_quantityAt (distinct side) member]
    rfl
  · intro level unlisted
    have elsewhere : ∀ quote ∈ quotes side, quote.1 ≠ feed.quoted side level := by
      rintro quote member same
      exact unlisted quote member (by rw [same, feed.adjusted_quoted])
    rw [← feed.adjusted_quoted side level, volumes, if_pos rfl,
      latest_quantityAt_of_unlisted elsewhere]
    rfl

/-- In every reachable book a snapshot without repeated prices leaves the quantities it lists at
their prices, less the fee for bids and plus the fee for asks, nothing where a quantity is not
positive, and at all other prices what the exchange held before. -/
theorem snapshot_sets_listed_levels (currencyId : UInt32) (calls : List (Call ℚ)) (feed : Feed)
    (message : Option Json) (quotes : Quotes) (snapshot : ListsBook feed message quotes)
    (distinct : ∀ side, ((quotes side).map Prod.fst).Nodup) :
    let book := (Orderbook.run currencyId calls).1
    ∃ after sent, feed.handleMessage message book = some (after, sent) ∧
      ((∀ quote ∈ quotes .bid,
          after.getExchangeVolume .bid feed.exchangeId (quote.1 * (1 - feed.feePercentage)) =
            max quote.2 0) ∧
        ∀ level, (∀ quote ∈ quotes .bid, level ≠ quote.1 * (1 - feed.feePercentage)) →
          after.getExchangeVolume .bid feed.exchangeId level =
            book.getExchangeVolume .bid feed.exchangeId level) ∧
      (∀ quote ∈ quotes .ask,
          after.getExchangeVolume .ask feed.exchangeId (quote.1 * (1 + feed.feePercentage)) =
            max quote.2 0) ∧
        ∀ level, (∀ quote ∈ quotes .ask, level ≠ quote.1 * (1 + feed.feePercentage)) →
          after.getExchangeVolume .ask feed.exchangeId level =
            book.getExchangeVolume .ask feed.exchangeId level := by
  intro book
  obtain ⟨after, sent, handled, sides⟩ := exists_snapshot_set snapshot distinct book
  exact ⟨after, sent, handled, sides .bid, sides .ask⟩

/-- A snapshot of Coinbase with one bid. -/
def snapshotMessage : Option Json :=
  some (.object [("events", .array [.object [("type", .string "snapshot"),
    ("updates", .array [.object [("side", .string "bid"), ("event_time", .string "now"),
      ("price_level", .string "10"), ("new_quantity", .string "3")]])]])])

/-- The quotes of the snapshot. -/
def snapshotQuotes : Quotes := fun side => onSide side [(.bid, 10, 3)]

theorem listsBook_snapshotMessage : ListsBook .coinbase snapshotMessage snapshotQuotes := by
  refine .event rfl rfl rfl (.cons ?_ .nil)
  exact .quote rfl (Or.inl ⟨rfl, rfl⟩) rfl rfl decimal_ten rfl decimal_three

theorem distinct_snapshotQuotes (side : Side) : ((snapshotQuotes side).map Prod.fst).Nodup := by
  cases side <;> simp [snapshotQuotes, onSide]

/-- Coinbase holds another level before the snapshot. -/
def callsBeforeSnapshot : List (Call ℚ) :=
  [.update .bid "coinbase" (9 * (1 - 2 / 1000)) 5]

theorem held_before_snapshot :
    (Orderbook.run 1 callsBeforeSnapshot).1.getExchangeVolume .bid Feed.coinbase.exchangeId
      (9 * (1 - 2 / 1000)) = 5 := by
  rw [Orderbook.getExchangeVolume_eq, Orderbook.side_run, volumeAt_sideRun]
  simp [recentVolume, History.latest, updateOf, callsBeforeSnapshot, Feed.exchangeId]

theorem snapshot_sets_listed_levels_snapshotMessage :
    ∃ after sent,
      Feed.coinbase.handleMessage snapshotMessage (Orderbook.run 1 callsBeforeSnapshot).1 =
          some (after, sent) ∧
        after.getExchangeVolume .bid "coinbase" (10 * (1 - 2 / 1000)) = 3 ∧
        after.getExchangeVolume .bid "coinbase" (9 * (1 - 2 / 1000)) = 5 := by
  obtain ⟨after, sent, handled, ⟨listed, unlisted⟩, -⟩ :=
    snapshot_sets_listed_levels 1 callsBeforeSnapshot .coinbase snapshotMessage snapshotQuotes
      listsBook_snapshotMessage distinct_snapshotQuotes
  refine ⟨after, sent, handled, ?_, ?_⟩
  · exact listed (10, 3) (by simp [snapshotQuotes, onSide])
  · refine (unlisted _ ?_).trans held_before_snapshot
    norm_num [snapshotQuotes, onSide, Feed.feePercentage, CoinbaseWs.feePercentage]

/-- What a replacement of the book of an exchange would leave: volume exactly at the prices of the
positive quotes, less or plus the fee, with their quantities. -/
structure Replaces (feed : Feed) (quotes : Quotes) (after : Orderbook ℚ) : Prop where
  /-- The bids with volume are the positive quotes. -/
  bids : ∀ level, after.getExchangeVolume .bid feed.exchangeId level ≠ 0 ↔
    ∃ quote ∈ quotes .bid, 0 < quote.2 ∧ level = quote.1 * (1 - feed.feePercentage)
  /-- The asks with volume are the positive quotes. -/
  asks : ∀ level, after.getExchangeVolume .ask feed.exchangeId level ≠ 0 ↔
    ∃ quote ∈ quotes .ask, 0 < quote.2 ∧ level = quote.1 * (1 + feed.feePercentage)
  /-- They have the quantities of the bids. -/
  bidVolumes : ∀ quote ∈ quotes .bid, 0 < quote.2 →
    after.getExchangeVolume .bid feed.exchangeId (quote.1 * (1 - feed.feePercentage)) = quote.2
  /-- They have the quantities of the asks. -/
  askVolumes : ∀ quote ∈ quotes .ask, 0 < quote.2 →
    after.getExchangeVolume .ask feed.exchangeId (quote.1 * (1 + feed.feePercentage)) = quote.2

/-- The level which the snapshot does not list stays in the ledger. -/
theorem snapshot_keeps_unlisted_level :
    ListsBook .coinbase snapshotMessage snapshotQuotes ∧
      (∀ side, ((snapshotQuotes side).map Prod.fst).Nodup) ∧
        ∃ after sent,
          Feed.coinbase.handleMessage snapshotMessage (Orderbook.run 1 callsBeforeSnapshot).1 =
              some (after, sent) ∧
            ¬ Replaces .coinbase snapshotQuotes after := by
  obtain ⟨after, sent, handled, sides⟩ := exists_snapshot_set listsBook_snapshotMessage
    distinct_snapshotQuotes (Orderbook.run 1 callsBeforeSnapshot).1
  refine ⟨listsBook_snapshotMessage, distinct_snapshotQuotes, after, sent, handled, ?_⟩
  intro replaces
  have other : ∀ quote ∈ snapshotQuotes .bid,
      9 * (1 - 2 / 1000) ≠ quote.1 * (1 - Feed.coinbase.feePercentage) := by
    norm_num [snapshotQuotes, onSide, Feed.feePercentage, CoinbaseWs.feePercentage]
  have held : after.getExchangeVolume .bid Feed.coinbase.exchangeId (9 * (1 - 2 / 1000)) ≠ 0 := by
    rw [(sides .bid).2 _ other, held_before_snapshot]
    decide
  obtain ⟨quote, member, -, same⟩ := (replaces.bids _).mp held
  exact other quote member same

end CryptoInfra
