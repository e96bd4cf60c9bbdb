import CryptoInfra.Orderbook.Ledger

/-!
# Interleavings of the feeds

Both feeds write to one book under a mutex, so a run is some interleaving of their updates. The
ledgers depend only on the updates of every exchange and price in their own order. As long as no
eviction takes a level away, the aggregated maps are functions of the ledgers and depend on nothing
else either.
-/

namespace CryptoInfra

variable {Price : Type*} [LinearOrder Price]

/-! ## Evictions -/

section Side

variable {before : Price → Price → Prop} [IsStrictTotalOrder Price before] [DecidableRel before]

/-- The map which a positive update hands to `rebalance`. -/
def rebalanceInput (exchangeId : String) (price : Price) (newVolume : Volume)
    (bookSide : BookSide Price before) : OrderedMap Price Volume before :=
  let totalVolume := getTotalVolumeAtPrice price
    (storeVolume exchangeId price newVolume bookSide.exchanges)
  if 0 < totalVolume then bookSide.ordersMap.insert price totalVolume
  else bookSide.ordersMap.erase price

theorem rebalanceInput_eq {exchangeId : String} {price : Price} {newVolume : Volume}
    (positive : 0 < newVolume) (bookSide : BookSide Price before) :
    rebalanceInput exchangeId price newVolume bookSide =
      bookSide.ordersMap.alter price
        (levelAfter price (updateLevel exchangeId price newVolume bookSide).exchanges) := by
  rw [exchanges_updateLevel, if_pos positive, rebalanceInput, levelAfter]
  split <;> rfl

end Side

/-- The call updates this side, and `rebalance` erases at least one level. -/
def BookSide.ErasesLevel {here : Side} (bookSide : BookSide Price here.before) :
    Call Price → Prop
  | .update side exchangeId price newVolume =>
      side = here ∧ 0 < newVolume ∧
        rebalance (rebalanceInput exchangeId price newVolume bookSide) ≠
          rebalanceInput exchangeId price newVolume bookSide
  | _ => False

/-- No call of the run makes `rebalance` erase a level. -/
def ErasesNothing (calls : List (Call Price)) : Prop :=
  ∀ here front call, front ++ [call] <+: calls → ¬ (sideRun here front).ErasesLevel call

theorem ErasesNothing.of_append {front rest : List (Call Price)}
    (nothing : ErasesNothing (front ++ rest)) : ErasesNothing front :=
  fun here earlier call within =>
    nothing here earlier call (within.trans (List.prefix_append front rest))

/-- An update which evicts nothing makes its price list the new total. -/
theorem ordersMap_updateLevel_of_not_erases {here : Side} {bookSide : BookSide Price here.before}
    {exchangeId : String} {price : Price} {newVolume : Volume}
    (kept : ¬ bookSide.ErasesLevel (.update here exchangeId price newVolume)) :
    (updateLevel exchangeId price newVolume bookSide).ordersMap =
      bookSide.ordersMap.alter price
        (levelAfter price (updateLevel exchangeId price newVolume bookSide).exchanges) := by
  rw [ordersMap_updateLevel]
  dsimp only
  split <;> rename_i positive
  · rw [BookSide.ErasesLevel, not_and, not_and, not_not] at kept
    rw [← rebalance_eq_take, ← rebalanceInput_eq positive]
    exact kept rfl positive
  · rfl

/-- While nothing was evicted, the aggregated map lists exactly the positive totals. -/
theorem lookup_sideRun {here : Side} {calls : List (Call Price)} (nothing : ErasesNothing calls)
    (price : Price) :
    (sideRun here calls).ordersMap.lookup price =
      levelAfter price (sideRun here calls).exchanges := by
  induction calls using List.reverseRecOn with
  | nil => simp [OrderedMap.lookup, OrderedMap.find, levelAfter, getTotalVolumeAtPrice]
  | append_singleton calls call induction =>
      have listed := induction nothing.of_append
      have kept := nothing here calls call List.prefix_rfl
      rw [sideRun_snoc]
      cases call with
      | update side exchangeId updatedPrice newVolume =>
          rw [BookSide.step]
          split <;> rename_i same
          · subst same
            rw [ordersMap_updateLevel_of_not_erases kept, OrderedMap.lookup_alter]
            split <;> rename_i updated
            · rw [updated]
            · rw [listed, levelAfter, levelAfter, total_updateLevel_of_ne updated]
          · exact listed
      | initializeExchange exchangeId =>
          simpa only [BookSide.step, levelAfter, total_initializeLedger] using listed
      | addClient clientSocket => exact listed
      | removeClient clientSocket => exact listed

/-! ## Short runs -/

theorem size_sideRun_le (here : Side) (calls : List (Call Price)) :
    (sideRun here calls).ordersMap.size ≤ calls.length := by
  induction calls using List.reverseRecOn with
  | nil => exact le_rfl
  | append_singleton calls call induction =>
      have longer := induction.trans (Nat.le_succ calls.length)
      rw [sideRun_snoc, List.length_append, List.length_singleton]
      cases call with
      | update side exchangeId price newVolume =>
          rw [BookSide.step]
          split
          · have one_more := (sideRun here calls).ordersMap.size_alter_le price
              (levelAfter price
                (updateLevel exchangeId price newVolume (sideRun here calls)).exchanges)
            rw [ordersMap_updateLevel]
            dsimp only
            split
            · rw [OrderedMap.size_take]
              omega
            · omega
          · exact longer
      | initializeExchange exchangeId => exact longer
      | addClient clientSocket => exact longer
      | removeClient clientSocket => exact longer

/-- A run which is no longer than the capacity evicts nothing. -/
theorem erasesNothing_of_length_le {calls : List (Call Price)} (short : calls.length ≤ maxLevels) :
    ErasesNothing calls := by
  intro here front call within erases
  have length := within.length_le
  rw [List.length_append, List.length_singleton] at length
  have size := size_sideRun_le here front
  cases call with
  | update side exchangeId price newVolume =>
      obtain ⟨rfl, positive, changed⟩ := erases
      have one_more := (sideRun side front).ordersMap.size_alter_le price
        (levelAfter price
          (updateLevel exchangeId price newVolume (sideRun side front)).exchanges)
      rw [rebalance_eq_take, rebalanceInput_eq positive] at changed
      exact changed (OrderedMap.take_of_size_le (by omega))
  | initializeExchange exchangeId => exact erases
  | addClient clientSocket => exact erases
  | removeClient clientSocket => exact erases

/-! ## Independence -/

theorem recentVolume_initialized (registered : List String) (calls : List (Call Price))
    (here : Side) (exchangeId : String) (price : Price) :
    recentVolume (registered.map Call.initializeExchange ++ calls) here exchangeId price =
      max (((calls.filterMap (updateOf here exchangeId price)).getLast?).getD 0) 0 := by
  have silent : (registered.map Call.initializeExchange).filterMap
      (updateOf here exchangeId price) = [] := by
    rw [List.filterMap_eq_nil_iff]
    intro call member
    obtain ⟨registration, -, rfl⟩ := List.mem_map.mp member
    rfl
  rw [recentVolume, History.latest, List.filterMap_append, silent, List.nil_append]

/-- Two runs which agree on the updates of every exchange and price of a side, each in its own
order, end with the same ledgers; if neither evicts a level, they end with the same aggregated
sides. -/
theorem interleavings_agree (currencyId : UInt32) (registered : List String)
    (left right : List (Call Price))
    (same : ∀ here exchangeId price,
      left.filterMap (updateOf here exchangeId price) =
        right.filterMap (updateOf here exchangeId price)) :
    let initial := registered.map Call.initializeExchange
    let leftBook := (Orderbook.run currencyId (initial ++ left)).1
    let rightBook := (Orderbook.run currencyId (initial ++ right)).1
    (∀ here exchangeId price,
        leftBook.getExchangeVolume here exchangeId price =
          rightBook.getExchangeVolume here exchangeId price) ∧
      (ErasesNothing (initial ++ left) → ErasesNothing (initial ++ right) →
        leftBook.bids = rightBook.bids ∧ leftBook.asks = rightBook.asks) := by
  intro initial leftBook rightBook
  have volumes : ∀ here exchangeId price,
      volumeAt (sideRun here (initial ++ left)).exchanges exchangeId price =
        volumeAt (sideRun here (initial ++ right)).exchanges exchangeId price := by
    intro here exchangeId price
    rw [volumeAt_sideRun, volumeAt_sideRun, recentVolume_initialized, recentVolume_initialized,
      same]
  constructor
  · intro here exchangeId price
    rw [Orderbook.getExchangeVolume_eq, Orderbook.getExchangeVolume_eq, Orderbook.side_run,
      Orderbook.side_run, volumes]
  · intro left_kept right_kept
    have maps : ∀ here, (leftBook.side here).ordersMap = (rightBook.side here).ordersMap := by
      intro here
      rw [Orderbook.side_run, Orderbook.side_run]
      apply OrderedMap.eq_of_lookup
      intro price
      rw [lookup_sideRun left_kept, lookup_sideRun right_kept, levelAfter, levelAfter,
        total_congr fun exchangeId => volumes here exchangeId price]
    exact ⟨maps .bid, maps .ask⟩

/-- One bid of each feed, and an ask which both feeds quote. -/
def coinbaseFirst : List (Call ℕ) :=
  [.update .bid "coinbase" 10 1, .update .ask "coinbase" 12 1, .update .bid "crypto" 10 2,
    .update .ask "crypto" 12 0]

/-- The same updates, the other feed being faster. -/
def cryptoFirst : List (Call ℕ) :=
  [.update .bid "crypto" 10 2, .update .ask "crypto" 12 0, .update .bid "coinbase" 10 1,
    .update .ask "coinbase" 12 1]

theorem interleavings_agree_two_feeds :
    let initial := ["coinbase", "crypto"].map Call.initializeExchange
    let leftBook := (Orderbook.run 1 (initial ++ coinbaseFirst)).1
    let rightBook := (Orderbook.run 1 (initial ++ cryptoFirst)).1
    (∀ here exchangeId price,
        leftBook.getExchangeVolume here exchangeId price =
          rightBook.getExchangeVolume here exchangeId price) ∧
      leftBook.bids = rightBook.bids ∧ leftBook.asks = rightBook.asks := by
  have same : ∀ here exchangeId price,
      coinbaseFirst.filterMap (updateOf here exchangeId price) =
        cryptoFirst.filterMap (updateOf here exchangeId price) := by
    intro here exchangeId price
    by_cases coinbase : "coinbase" = exchangeId
    · subst coinbase
      simp [coinbaseFirst, cryptoFirst, updateOf, List.filterMap_cons]
    · simp [coinbaseFirst, cryptoFirst, updateOf, List.filterMap_cons, coinbase]
  have agree := interleavings_agree 1 ["coinbase", "crypto"] coinbaseFirst cryptoFirst same
  exact ⟨agree.1, agree.2 (erasesNothing_of_length_le (by decide))
    (erasesNothing_of_length_le (by decide))⟩

end CryptoInfra
