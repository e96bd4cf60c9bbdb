import CryptoInfra.Orderbook.Consolidated
import CryptoInfra.System.Serialization

/-!
# What the books show

The threads of both exchanges adjust and aggregate what their messages quote, through a book which
requests and other messages reach at the same time. While no thread is in the middle of a message,
the best levels of the book are the best of the last quotes of both exchanges. A currency which the
exchanges do not know is quoted by nobody, and nothing is ever sent for it.
-/

namespace CryptoInfra

namespace Feed

theorem quoted_adjusted (feed : Feed) (side : Side) (price : ℚ) :
    feed.quoted side (feed.adjusted side price) = price :=
  adjusted_inj.mp (feed.adjusted_quoted side _)

end Feed

/-! ## Currencies without a name -/

/-- Both exchanges know the currencies from one to five. -/
theorem Feed.getCurrencyName_ne_none_iff {feed : Feed} {currencyId : UInt32} :
    feed.getCurrencyName currencyId ≠ none ↔ currencyId ∈ [1, 2, 3, 4, 5] := by
  cases feed <;>
    simp [getCurrencyName, CoinbaseWs.getCurrencyName, CoinbaseWs.idToCurrency,
      CryptoWs.getCurrencyName, CryptoWs.idToCurrency, List.lookup_eq_none_iff] <;>
    tauto

namespace Orderbook

variable {Price : Type*} [LinearOrder Price]

/-- Calls which set no volume send nothing and leave both sides empty. -/
theorem run_of_no_updates {currencyId : UInt32} {calls : List (Call Price)}
    (quiet : calls.filter Call.isUpdate = []) :
    (run currencyId calls).2 = [] ∧
      ∀ here, ((run currencyId calls).1.side here).ordersMap = OrderedMap.empty := by
  constructor
  · induction calls using List.reverseRecOn with
    | nil => rfl
    | append_singleton calls call induction =>
        rw [List.filter_append, List.append_eq_nil_iff] at quiet
        rw [run_snoc, induction quiet.1]
        cases call with
        | update here exchangeId price newVolume => simp [Call.isUpdate] at quiet
        | initializeExchange exchangeId => rfl
        | addClient clientSocket => rfl
        | removeClient clientSocket => rfl
  · intro here
    have levels := sameLevels_run_filter currencyId calls here (.refl ((new currencyId).side here))
    rw [quiet] at levels
    rw [levels.ordersMap]
    cases here <;> rfl

end Orderbook

namespace Backend

variable {history : List BackendEvent} {sends : List (Socket × Snapshot ℚ Volume)}
  {backend : Backend}

/-- No thread handles a message for a currency which is not one of the five. -/
theorem messagesFor_of_unknown (run : Sends history sends backend) {currency : UInt32}
    (unknown : currency ∉ [1, 2, 3, 4, 5]) : messagesFor currency history = [] := by
  obtain ⟨events, -, accounts⟩ := exists_accounts run
  rw [List.eq_nil_iff_forall_not_mem]
  intro message member
  exact unknown (Feed.getCurrencyName_ne_none_iff.mp (accounts.defined currency message member).1)

/-- Calls for a currency which is not one of the five set no volume. -/
theorem quiet_of_unknown {events : List (Event ℚ)} (accounts : Accounts history events backend)
    (run : Sends history sends backend) {currency : UInt32} (unknown : currency ∉ [1, 2, 3, 4, 5]) :
    (events.filterMap (Event.callOn currency)).filter Call.isUpdate = [] := by
  have whole := accounts.serialized currency
  rw [messagesFor_of_unknown run unknown] at whole
  exact (List.append_eq_nil_iff.mp whole).1

/-- Snapshots are for the five currencies. -/
theorem known_of_sends (run : Sends history sends backend) :
    ∀ sent ∈ sends, sent.2.currencyId ∈ [1, 2, 3, 4, 5] := by
  obtain ⟨events, inner, accounts⟩ := exists_accounts run
  intro sent member
  by_contra unknown
  have listed : sent ∈ Server.sendsFor sent.2.currencyId sends :=
    List.mem_filter.mpr ⟨member, decide_eq_true rfl⟩
  rw [Server.sendsFor_eq inner,
    (Orderbook.run_of_no_updates (quiet_of_unknown accounts run unknown)).1] at listed
  cases listed

/-- Anybody may open a book for any currency, but every snapshot is for one of the five currencies
which the exchanges know, and the books of all others stay empty. -/
theorem unknown_currencies_stay_silent (history : List BackendEvent)
    (sends : List (Socket × Snapshot ℚ Volume)) (backend : Backend)
    (run : Sends history sends backend) :
    (∀ sent ∈ sends, sent.2.currencyId ∈ [1, 2, 3, 4, 5]) ∧
      ∀ currency, currency ∉ [1, 2, 3, 4, 5] →
        ∀ here, ((backend.server.book currency).side here).ordersMap = OrderedMap.empty := by
  obtain ⟨events, inner, accounts⟩ := exists_accounts run
  refine ⟨known_of_sends run, fun currency unknown here => ?_⟩
  rw [Server.book_eq inner]
  exact (Orderbook.run_of_no_updates (quiet_of_unknown accounts run unknown)).2 here

/-- A client opens the book of a currency without a name, and a thread of the book starts. -/
def unknownHistory : List BackendEvent :=
  [.accepted 4, .received 4 (.received (ClientRequest.subscribe 9 1).buffer), .started 9 .coinbase]

theorem unknown_currencies_stay_silent_unknownHistory :
    ∃ sends backend, Sends unknownHistory sends backend ∧
      backend.workers 9 .coinbase = some .returned ∧
        ∀ here, ((backend.server.book 9).side here).ordersMap = OrderedMap.empty := by
  have executed : ∃ outcome ∈ History.execute Enabled step new unknownHistory,
      outcome.2.workers 9 .coinbase = some .returned := by
    decide +kernel
  obtain ⟨⟨sends, backend⟩, ran, returned⟩ := executed
  have run : Sends unknownHistory sends backend := History.emits_of_execute ran
  exact ⟨sends, backend, run, returned,
    (unknown_currencies_stay_silent unknownHistory sends backend run).2 9 (by decide)⟩

end Backend

/-! ## The best of all quotes -/

/-- The prices of the book at which some exchange quoted volume last. -/
def quotedLevels (deliveries : List Delivery) (side : Side) : Set ℚ :=
  {level | ∃ feed : Feed, 0 < lastQuantity deliveries feed side (feed.quoted side level)}

/-- The volume both exchanges together quoted last for a price of the book. -/
def quotedTotal (deliveries : List Delivery) (side : Side) (level : ℚ) : Volume :=
  lastQuantity deliveries .coinbase side (Feed.coinbase.quoted side level) +
    lastQuantity deliveries .crypto side (Feed.crypto.quoted side level)

/-- All prices of the book which have been quoted, with volume or without. -/
def everQuoted (deliveries : List Delivery) (side : Side) : Set ℚ :=
  {level | ∃ feed : Feed, ∃ quote ∈ quotedBy deliveries feed side,
    level = feed.adjusted side quote.1}

/-- A snapshot shows the best prices of the book at which some exchange quoted volume last, with
what both exchanges together quoted there. -/
structure ShowsQuotes (deliveries : List Delivery) (snapshot : Snapshot ℚ Volume) : Prop where
  /-- The best bid is the greatest quoted one. -/
  bid : IsGreatest (quotedLevels deliveries .bid) snapshot.bestBidPrice
  /-- The volume of the best bid. -/
  bidVolume : snapshot.bestBidVolume = quotedTotal deliveries .bid snapshot.bestBidPrice
  /-- The best ask is the least quoted one. -/
  ask : IsLeast (quotedLevels deliveries .ask) snapshot.bestAskPrice
  /-- The volume of the best ask. -/
  askVolume : snapshot.bestAskVolume = quotedTotal deliveries .ask snapshot.bestAskPrice

/-- Every quoted price is the adjusted price of a quote of one of the exchanges. -/
theorem everQuoted_subset (deliveries : List Delivery) (side : Side) :
    everQuoted deliveries side ⊆
      (((quotedBy deliveries .coinbase side).map fun quote =>
          Feed.coinbase.adjusted side quote.1) ++
        (quotedBy deliveries .crypto side).map fun quote =>
          Feed.crypto.adjusted side quote.1).toFinset := by
  rintro level ⟨feed, quote, member, rfl⟩
  rw [List.coe_toFinset, Set.mem_ofPred_eq, List.mem_append]
  cases feed with
  | coinbase => exact Or.inl (List.mem_map.mpr ⟨quote, member, rfl⟩)
  | crypto => exact Or.inr (List.mem_map.mpr ⟨quote, member, rfl⟩)

theorem finite_everQuoted (deliveries : List Delivery) (side : Side) :
    (everQuoted deliveries side).Finite :=
  (Finset.finite_toSet _).subset (everQuoted_subset deliveries side)

theorem ncard_everQuoted_le (deliveries : List Delivery) (side : Side) :
    (everQuoted deliveries side).ncard ≤
      (quotedBy deliveries .coinbase side).length + (quotedBy deliveries .crypto side).length := by
  calc (everQuoted deliveries side).ncard
      ≤ _ := Set.ncard_le_ncard (everQuoted_subset deliveries side) (Finset.finite_toSet _)
    _ = _ := Set.ncard_coe_finset _
    _ ≤ _ := List.toFinset_card_le _
    _ = _ := by rw [List.length_append, List.length_map, List.length_map]

/-- The updates of well-formed messages are those of what they quote. -/
theorem Feed.calls_of_carries {feed : Feed} {message : Option Json} {quotes : Quotes}
    (carried : Carries feed message quotes) :
    ∃ read : List (Side × ℚ × Volume), feed.calls message = some (read.map feed.callOfQuote) ∧
      ∀ side, onSide side read = quotes side := by
  obtain ⟨read, updates, sides⟩ := aggregatedUpdates_of_carries carried
  refine ⟨read, ?_, sides⟩
  rw [calls, updates, List.mapM_map]
  exact List.mapM_pure

theorem exists_quote_of_update {deliveries : List Delivery}
    (carried : ∀ delivery ∈ deliveries, Carries delivery.feed delivery.message delivery.quotes)
    {call : Call ℚ} (member : call ∈
      updatesOf (deliveries.map fun delivery => (delivery.feed, delivery.message))) :
    ∃ (feed : Feed) (side : Side), ∃ quote ∈ quotedBy deliveries feed side,
      call = .update side feed.exchangeId (feed.adjusted side quote.1) quote.2 := by
  rw [updatesOf, List.mem_flatMap] at member
  obtain ⟨message, handed, applied⟩ := member
  obtain ⟨delivery, listed, rfl⟩ := List.mem_map.mp handed
  obtain ⟨read, calls, sides⟩ := Feed.calls_of_carries (carried delivery listed)
  rw [calls, Option.getD_some] at applied
  obtain ⟨⟨side, quote⟩, quoted, rfl⟩ := List.mem_map.mp applied
  refine ⟨delivery.feed, side, quote, ?_, rfl⟩
  rw [quotedBy, List.mem_flatMap]
  refine ⟨delivery, listed, ?_⟩
  rw [if_pos rfl, ← sides side, onSide, List.mem_filterMap]
  exact ⟨(side, quote), quoted, if_pos rfl⟩

section Quoted

variable {deliveries : List Delivery} {calls : List (Call ℚ)}

/-- Only quotes make prices live. -/
theorem exists_quote_of_live
    (carried : ∀ delivery ∈ deliveries, Carries delivery.feed delivery.message delivery.quotes)
    (updates : calls.filter Call.isUpdate =
      updatesOf (deliveries.map fun delivery => (delivery.feed, delivery.message)))
    {front : List (Call ℚ)} (within : front <+: calls) {here : Side} {exchangeId : String}
    {price : ℚ} (live : 0 < recentVolume front here exchangeId price) :
    ∃ feed : Feed, exchangeId = feed.exchangeId ∧ ∃ quote ∈ quotedBy deliveries feed here,
      price = feed.adjusted here quote.1 := by
  cases found : History.latest (updateOf here exchangeId price) front with
  | none =>
      rw [recentVolume, found] at live
      exact absurd live (by simp)
  | some volume =>
      obtain ⟨call, member, sets⟩ := History.exists_of_latest found
      cases call with
      | update side updatedExchange updated newVolume =>
          rw [updateOf, Option.ite_none_right_eq_some] at sets
          obtain ⟨⟨rfl, rfl, rfl⟩, -⟩ := sets
          have applied : Call.update side updatedExchange updated newVolume ∈
              calls.filter Call.isUpdate := List.mem_filter.mpr ⟨within.mem member, rfl⟩
          rw [updates] at applied
          obtain ⟨feed, quotedSide, quote, quoted, same⟩ := exists_quote_of_update carried applied
          obtain ⟨rfl, rfl, rfl, -⟩ := Call.update.inj same
          exact ⟨feed, rfl, quote, quoted, rfl⟩
      | initializeExchange registered => cases sets
      | addClient clientSocket => cases sets
      | removeClient clientSocket => cases sets

/-- As long as few prices are quoted at all, few are live. -/
theorem fewLive_of_quotes
    (carried : ∀ delivery ∈ deliveries, Carries delivery.feed delivery.message delivery.quotes)
    (few : ∀ side, (everQuoted deliveries side).ncard ≤ maxLevels) (front : List (Call ℚ))
    (within : front <+:
      updatesOf (deliveries.map fun delivery => (delivery.feed, delivery.message))) :
    FewLive front := by
  have updates : (updatesOf (deliveries.map fun delivery =>
      (delivery.feed, delivery.message))).filter Call.isUpdate =
        updatesOf (deliveries.map fun delivery => (delivery.feed, delivery.message)) := by
    rw [List.filter_eq_self]
    intro call member
    obtain ⟨feed, side, quote, -, rfl⟩ := exists_quote_of_update carried member
    rfl
  intro here
  have quoted : livePrices front here ⊆ everQuoted deliveries here := by
    rintro price ⟨exchangeId, live⟩
    obtain ⟨feed, -, quote, member, same⟩ := exists_quote_of_live carried updates within live
    exact ⟨feed, quote, member, same⟩
  exact (Set.ncard_le_ncard quoted (finite_everQuoted deliveries here)).trans (few here)

/-- Calls which set no volume make no difference to which prices are live. -/
theorem fewLive_filter_iff (calls : List (Call ℚ)) :
    FewLive (calls.filter Call.isUpdate) ↔ FewLive calls := by
  have volumes : ∀ here exchangeId price,
      recentVolume (calls.filter Call.isUpdate) here exchangeId price =
        recentVolume calls here exchangeId price := by
    intro here exchangeId price
    rw [recentVolume, History.latest, List.filterMap_filter, recentVolume, History.latest]
    congr 4
    funext call
    cases call <;> rfl
  simp only [FewLive, livePrices, volumes]

/-- What an exchange quoted last is what its last update set. -/
theorem recentVolume_eq_lastQuantity
    (carried : ∀ delivery ∈ deliveries, Carries delivery.feed delivery.message delivery.quotes)
    (updates : calls.filter Call.isUpdate =
      updatesOf (deliveries.map fun delivery => (delivery.feed, delivery.message)))
    (feed : Feed) (here : Side) (level : ℚ) :
    recentVolume calls here feed.exchangeId level =
      lastQuantity deliveries feed here (feed.quoted here level) := by
  have defined : ∀ message ∈ deliveries.map fun delivery => (delivery.feed, delivery.message),
      message.1.calls message.2 ≠ none := by
    intro message member
    obtain ⟨delivery, listed, rfl⟩ := List.mem_map.mp member
    obtain ⟨read, calls, -⟩ := Feed.calls_of_carries (carried delivery listed)
    rw [calls]
    nofun
  obtain ⟨book, snapshots, handled, volumes⟩ := volumes_of_carries 1 carried
  rw [handleDeliveries, Feed.handleMessages_eq defined, Option.some_inj] at handled
  have levels := Orderbook.sameLevels_run_filter 1 calls here (sameLevels_sharedBook 1 here)
  rw [updates, handled] at levels
  have same := levels.volumes feed.exchangeId level
  rw [Orderbook.side_run, volumeAt_sideRun, ← Orderbook.getExchangeVolume_eq] at same
  rw [same, ← volumes, feed.adjusted_quoted]

theorem livePrices_eq_quotedLevels
    (carried : ∀ delivery ∈ deliveries, Carries delivery.feed delivery.message delivery.quotes)
    (updates : calls.filter Call.isUpdate =
      updatesOf (deliveries.map fun delivery => (delivery.feed, delivery.message)))
    (here : Side) : livePrices calls here = quotedLevels deliveries here := by
  ext level
  constructor
  · rintro ⟨exchangeId, live⟩
    obtain ⟨feed, rfl, -⟩ := exists_quote_of_live carried updates List.prefix_rfl live
    exact ⟨feed, by rwa [recentVolume_eq_lastQuantity carried updates] at live⟩
  · rintro ⟨feed, quoted⟩
    exact ⟨feed.exchangeId, by rwa [recentVolume_eq_lastQuantity carried updates]⟩

theorem recentTotal_eq_quotedTotal
    (carried : ∀ delivery ∈ deliveries, Carries delivery.feed delivery.message delivery.quotes)
    (updates : calls.filter Call.isUpdate =
      updatesOf (deliveries.map fun delivery => (delivery.feed, delivery.message)))
    (here : Side) (level : ℚ) :
    recentTotal calls here level = quotedTotal deliveries here level := by
  have support : (Function.support fun exchangeId => recentVolume calls here exchangeId level) ⊆
      (({"coinbase", "crypto"} : Finset String) : Set String) := by
    intro exchangeId nonzero
    have live : 0 < recentVolume calls here exchangeId level :=
      lt_of_le_of_ne (le_max_right _ _) (Ne.symm nonzero)
    obtain ⟨feed, rfl, -⟩ := exists_quote_of_live carried updates List.prefix_rfl live
    cases feed <;> simp [Feed.exchangeId]
  have different : "coinbase" ≠ "crypto" := by decide
  rw [recentTotal, finsum_eq_sum_of_support_subset _ support, Finset.sum_pair different,
    quotedTotal, ← recentVolume_eq_lastQuantity carried updates,
    ← recentVolume_eq_lastQuantity carried updates]
  rfl

/-- The best levels after the updates of what both exchanges quote, as long as few prices are live,
are the best of what they quoted last. -/
theorem topOfBook_run_iff_showsQuotes {currency : UInt32}
    (carried : ∀ delivery ∈ deliveries, Carries delivery.feed delivery.message delivery.quotes)
    (updates : calls.filter Call.isUpdate =
      updatesOf (deliveries.map fun delivery => (delivery.feed, delivery.message)))
    (few : ∀ front, front <+:
      updatesOf (deliveries.map fun delivery => (delivery.feed, delivery.message)) →
        FewLive front) (snapshot : Snapshot ℚ Volume) :
    (Orderbook.run currency calls).1.topOfBook = some snapshot ↔
      snapshot.currencyId = currency ∧ ShowsQuotes deliveries snapshot := by
  have lists : (Orderbook.run currency calls).1.ListsLive calls := by
    apply lists_run_of_few
    intro front within
    rw [← fewLive_filter_iff]
    exact few _ (updates ▸ within.filter Call.isUpdate)
  have live := livePrices_eq_quotedLevels carried updates
  have totals := recentTotal_eq_quotedTotal carried updates
  rw [topOfBook_run_iff lists]
  refine and_congr_right fun _ => ?_
  constructor
  · rintro ⟨bid, bidVolume, ask, askVolume⟩
    rw [live] at bid ask
    rw [totals] at bidVolume askVolume
    exact ⟨bid, bidVolume, ask, askVolume⟩
  · rintro ⟨bid, bidVolume, ask, askVolume⟩
    rw [← live] at bid ask
    rw [← totals] at bidVolume askVolume
    exact ⟨bid, bidVolume, ask, askVolume⟩

end Quoted

namespace Backend

/-- While no thread of a book is in the middle of a message, the book has been through the updates
of the messages which its threads were handed. -/
theorem exists_updates (run : Sends history sends backend) {currency : UInt32}
    {messages : List (Feed × Option Json)} (handed : messagesFor currency history = messages)
    (unlocked : backend.allInHand currency = []) :
    ∃ calls : List (Call ℚ), calls.filter Call.isUpdate = updatesOf messages ∧
      backend.server.book currency = (Orderbook.run currency calls).1 := by
  obtain ⟨events, inner, accounts⟩ := exists_accounts run
  have updates := accounts.serialized currency
  rw [unlocked, List.append_nil, handed, appliedTo] at updates
  exact ⟨_, updates, Server.book_eq inner currency⟩

/-- As long as the messages which the threads of a currency were handed never make more prices live
than a side may hold, the best levels of the book are, whenever no thread is in the middle of a
message, the best prices which some exchange quoted with volume last, with the volume of both
exchanges. -/
theorem best_quotes_reach_the_book (history : List BackendEvent)
    (sends : List (Socket × Snapshot ℚ Volume)) (backend : Backend)
    (run : Sends history sends backend) (currency : UInt32) (deliveries : List Delivery)
    (handed : messagesFor currency history =
      deliveries.map fun delivery => (delivery.feed, delivery.message))
    (carried : ∀ delivery ∈ deliveries, Carries delivery.feed delivery.message delivery.quotes)
    (few : ∀ front, front <+: updatesOf (messagesFor currency history) → FewLive front)
    (unlocked : backend.allInHand currency = []) (snapshot : Snapshot ℚ Volume) :
    (backend.server.book currency).topOfBook = some snapshot ↔
      snapshot.currencyId = currency ∧ ShowsQuotes deliveries snapshot := by
  obtain ⟨calls, updates, book⟩ := exists_updates run handed unlocked
  rw [book]
  exact topOfBook_run_iff_showsQuotes carried updates (handed ▸ few) snapshot

/-- Each thread handles its message. -/
def quotedHistory : List BackendEvent :=
  handedHistory ++ [.applied 1 .coinbase, .delivered 1 .crypto askMessage, .applied 1 .crypto]

/-- The best of the two messages. -/
def quotedSnapshot : Snapshot ℚ Volume where
  currencyId := 1
  bestBidPrice := Feed.coinbase.adjusted .bid 10
  bestBidVolume := 3
  bestAskPrice := Feed.crypto.adjusted .ask 10
  bestAskVolume := 3

theorem lastQuantity_oneQuoteEach (feed : Feed) (side : Side) (price : ℚ) :
    0 < lastQuantity oneQuoteEach feed side price ↔
      (feed = .coinbase ∧ side = .bid ∨ feed = .crypto ∧ side = .ask) ∧ 10 = price := by
  by_cases same : 10 = price <;> cases feed <;> cases side <;>
    simp [lastQuantity, quotedBy, oneQuoteEach, onSide, quantityAt, History.latest, same]

theorem quotedLevels_oneQuoteEach :
    quotedLevels oneQuoteEach .bid = {Feed.coinbase.adjusted .bid 10} ∧
      quotedLevels oneQuoteEach .ask = {Feed.crypto.adjusted .ask 10} := by
  have at_ten : ∀ (feed : Feed) side level, 10 = feed.quoted side level ↔
      level = feed.adjusted side 10 := by
    intro feed side level
    have injective : feed.adjusted side 10 = feed.adjusted side (feed.quoted side level) ↔
        10 = feed.quoted side level := Feed.adjusted_inj
    rw [← injective, feed.adjusted_quoted, eq_comm]
  constructor <;> ext level <;> simp [quotedLevels, lastQuantity_oneQuoteEach, at_ten]

theorem showsQuotes_oneQuoteEach : ShowsQuotes oneQuoteEach quotedSnapshot := by
  refine ⟨?_, ?_, ?_, ?_⟩
  · rw [quotedLevels_oneQuoteEach.1]
    exact isGreatest_singleton
  · simp [quotedSnapshot, quotedTotal, Feed.quoted_adjusted, lastQuantity, quotedBy, oneQuoteEach,
      onSide, quantityAt, History.latest]
  · rw [quotedLevels_oneQuoteEach.2]
    exact isLeast_singleton
  · simp [quotedSnapshot, quotedTotal, Feed.quoted_adjusted, lastQuantity, quotedBy, oneQuoteEach,
      onSide, quantityAt, History.latest]

theorem fewLive_oneQuoteEach : ∀ front, front <+:
    updatesOf (oneQuoteEach.map fun delivery => (delivery.feed, delivery.message)) →
      FewLive front :=
  fewLive_of_quotes carries_oneQuoteEach fun side =>
    (ncard_everQuoted_le _ side).trans (by cases side <;> decide)

theorem best_quotes_reach_the_book_quotedHistory :
    ∃ sends backend, Sends quotedHistory sends backend ∧
      (backend.server.book 1).topOfBook = some quotedSnapshot := by
  have executed : ∃ outcome ∈ History.execute Enabled step new quotedHistory,
      outcome.2.allInHand 1 = [] := by
    decide +kernel
  obtain ⟨⟨sends, backend⟩, ran, unlocked⟩ := executed
  have run : Sends quotedHistory sends backend := History.emits_of_execute ran
  refine ⟨sends, backend, run, ?_⟩
  exact (best_quotes_reach_the_book quotedHistory sends backend run 1 oneQuoteEach rfl
    carries_oneQuoteEach fewLive_oneQuoteEach unlocked quotedSnapshot).mpr
      ⟨rfl, showsQuotes_oneQuoteEach⟩

end Backend

end CryptoInfra
