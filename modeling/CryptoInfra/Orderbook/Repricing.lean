import CryptoInfra.Orderbook.Consolidated

/-!
# Prices in other units

A book compares prices and never calculates with them, and it treats its two sides alike. If prices
are renamed such that they compare as before, or such that they compare the other way around while
the sides change places, every run renames its levels and its snapshots and is otherwise the same.
-/

namespace CryptoInfra

variable {Price Other : Type*} [LinearOrder Price] [LinearOrder Other]

/-! ## Renamed prices -/

/-- Prices are renamed, and sides change places or not, such that a price is better than another one
exactly if it was so before. -/
structure Repricing (reprice : Price → Other) (turn : Side → Side) : Prop where
  /-- The order of a side becomes that of its place. -/
  alike : ∀ here left right,
    (turn here).before (reprice left) (reprice right) ↔ here.before left right
  /-- Sides keep their places or change them. -/
  turned : ∀ here, turn (turn here) = here

/-- The best price and volume of a side. -/
def Snapshot.best (snapshot : Snapshot Price Volume) : Side → Price × Volume
  | .bid => (snapshot.bestBidPrice, snapshot.bestBidVolume)
  | .ask => (snapshot.bestAskPrice, snapshot.bestAskVolume)

/-- A snapshot with renamed prices. -/
def Snapshot.repriced (reprice : Price → Other) (turn : Side → Side)
    (snapshot : Snapshot Price Volume) : Snapshot Other Volume where
  currencyId := snapshot.currencyId
  bestBidPrice := reprice (snapshot.best (turn .bid)).1
  bestBidVolume := (snapshot.best (turn .bid)).2
  bestAskPrice := reprice (snapshot.best (turn .ask)).1
  bestAskVolume := (snapshot.best (turn .ask)).2

/-- A call with its price renamed. -/
def Call.repriced (reprice : Price → Other) (turn : Side → Side) : Call Price → Call Other
  | .initializeExchange exchangeId => .initializeExchange exchangeId
  | .update here exchangeId price newVolume =>
      .update (turn here) exchangeId (reprice price) newVolume
  | .addClient clientSocket => .addClient clientSocket
  | .removeClient clientSocket => .removeClient clientSocket

section Injective

variable {reprice : Price → Other} {turn : Side → Side}

theorem Repricing.injective (repricing : Repricing reprice turn) : Function.Injective reprice := by
  intro left right same
  have incomparable : ∀ here : Side, ¬ here.before left right := by
    intro here better
    have renamed := (repricing.alike here left right).mpr better
    rw [same] at renamed
    exact irrefl_of (turn here).before _ renamed
  exact le_antisymm (not_lt.mp (incomparable .bid)) (not_lt.mp (incomparable .ask))

theorem Repricing.turn_inj (repricing : Repricing reprice turn) {left right : Side} :
    turn left = turn right ↔ left = right := by
  constructor
  · intro same
    rw [← repricing.turned left, same, repricing.turned]
  · rintro rfl
    rfl

/-- Either the sides keep their places or both change them. -/
theorem Repricing.turn_cases (repricing : Repricing reprice turn) :
    turn .bid = .bid ∧ turn .ask = .ask ∨ turn .bid = .ask ∧ turn .ask = .bid := by
  have different : turn .bid ≠ turn .ask := mt repricing.turn_inj.mp nofun
  cases bid : turn .bid <;> cases ask : turn .ask <;> simp_all

end Injective

/-! ## One side -/

/-- The other side has the same levels and volumes at renamed prices. -/
structure BookSide.Repriced {before : Price → Price → Prop} {after : Other → Other → Prop}
    (reprice : Price → Other) (left : BookSide Price before) (right : BookSide Other after) :
    Prop where
  /-- The levels are the same. -/
  ordersMap : left.ordersMap.Rekeyed reprice right.ordersMap
  /-- The volumes of each exchange are the same. -/
  volumes : ∀ exchangeId price,
    volumeAt right.exchanges exchangeId (reprice price) = volumeAt left.exchanges exchangeId price

theorem levelAfter_congr {left : ExchangeOrderMap Price} {right : ExchangeOrderMap Other}
    {price : Price} {other : Other}
    (same : ∀ exchangeId, volumeAt right exchangeId other = volumeAt left exchangeId price) :
    levelAfter other right = levelAfter price left := by
  simp only [levelAfter, total_eq_finsum, same]

namespace BookSide.Repriced

variable {reprice : Price → Other}

theorem isInFirstNKeys {before : Price → Price → Prop} [DecidableRel before]
    {after : Other → Other → Prop} [DecidableRel after] {left : BookSide Price before}
    {right : BookSide Other after} (repriced : left.Repriced reprice right)
    (alike : ∀ first second, after (reprice first) (reprice second) ↔ before first second)
    (price : Price) :
    CryptoInfra.isInFirstNKeys right.ordersMap (reprice price) =
      CryptoInfra.isInFirstNKeys left.ordersMap price := by
  rw [CryptoInfra.isInFirstNKeys, repriced.ordersMap.size, repriced.ordersMap, List.getElem?_map,
    CryptoInfra.isInFirstNKeys]
  cases left.ordersMap.entries[topLevels - 1]? with
  | none => rfl
  | some level => simp [alike]

section Before

variable {before : Price → Price → Prop} [IsStrictTotalOrder Price before] [DecidableRel before]
  {after : Other → Other → Prop} [IsStrictTotalOrder Other after] [DecidableRel after]
  {left : BookSide Price before} {right : BookSide Other after}

theorem updateLevel (repriced : left.Repriced reprice right)
    (injective : Function.Injective reprice)
    (alike : ∀ first second, after (reprice first) (reprice second) ↔ before first second)
    (exchangeId : String) (price : Price) (newVolume : Volume) :
    (CryptoInfra.updateLevel exchangeId price newVolume left).Repriced reprice
      (CryptoInfra.updateLevel exchangeId (reprice price) newVolume right) := by
  have volumes : ∀ other elsewhere,
      volumeAt (CryptoInfra.updateLevel exchangeId (reprice price) newVolume right).exchanges other
          (reprice elsewhere) =
        volumeAt (CryptoInfra.updateLevel exchangeId price newVolume left).exchanges other
          elsewhere := by
    intro other elsewhere
    simp only [volumeAt_updateLevel, injective.eq_iff, repriced.volumes]
  refine ⟨?_, volumes⟩
  have altered := repriced.ordersMap.alter alike price
    (levelAfter price (CryptoInfra.updateLevel exchangeId price newVolume left).exchanges)
  rw [ordersMap_updateLevel, ordersMap_updateLevel,
    levelAfter_congr fun other => volumes other price]
  dsimp only
  split
  · exact altered.take maxLevels
  · exact altered

end Before

theorem step {turn : Side → Side} (repricing : Repricing reprice turn) {here : Side}
    {left : BookSide Price here.before} {right : BookSide Other (turn here).before}
    (repriced : left.Repriced reprice right) (call : Call Price) :
    (left.step here call).Repriced reprice
      (right.step (turn here) (call.repriced reprice turn)) := by
  cases call with
  | initializeExchange exchangeId =>
      refine ⟨repriced.ordersMap, fun other price => ?_⟩
      simpa [BookSide.step, Call.repriced] using repriced.volumes other price
  | update side exchangeId price newVolume =>
      simp only [Call.repriced, BookSide.step, repricing.turn_inj]
      split
      · exact repriced.updateLevel repricing.injective (repricing.alike here) exchangeId price
          newVolume
      · exact repriced
  | addClient clientSocket => exact repriced
  | removeClient clientSocket => exact repriced

end BookSide.Repriced

/-! ## The book -/

namespace Orderbook

theorem topOfBook_eq_none_iff {book : Orderbook Price} :
    book.topOfBook = none ↔ book.bids.size = 0 ∨ book.asks.size = 0 := by
  rw [topOfBook, ← OrderedMap.first_eq_none_iff, ← OrderedMap.first_eq_none_iff]
  cases book.bids.first <;> cases book.asks.first <;> simp

/-- What publishing sends depends on the flag, the best levels and the clients. -/
theorem sends_sendSnapshot (book : Orderbook Price) :
    book.sendSnapshot.2 = if book.topLevelsUpdated then [] else
      book.clientSendList.flatMap fun clientSocket =>
        book.topOfBook.toList.map fun snapshot => (clientSocket, snapshot) := by
  rw [sendSnapshot]
  split <;> rename_i silent
  · rcases silent with raised | bids | asks | clients
    · rw [if_pos raised]
    · simp [topOfBook_eq_none_iff.mpr (Or.inl bids)]
    · simp [topOfBook_eq_none_iff.mpr (Or.inr asks)]
    · simp [List.length_eq_zero_iff.mp clients]
  · rw [if_neg (not_or.mp silent).1]

/-- So does the flag it leaves. -/
theorem raised_sendSnapshot (book : Orderbook Price) :
    book.sendSnapshot.1.topLevelsUpdated =
      (book.topLevelsUpdated || (book.topOfBook.isSome && !book.clientSendList.isEmpty)) := by
  rcases sendSnapshot_cases book with
    ⟨silent, reason⟩ | ⟨snapshot, best, -, -, -, some_client, sent⟩
  · rw [silent]
    rcases reason with raised | bids | asks | clients
    · simp [raised]
    · simp [topOfBook_eq_none_iff.mpr (Or.inl bids)]
    · simp [topOfBook_eq_none_iff.mpr (Or.inr asks)]
    · simp [clients]
  · simp [sent, best, some_client]

/-- The other book has the same levels and volumes at renamed prices, and is otherwise the same. -/
structure Repriced (reprice : Price → Other) (turn : Side → Side) (left : Orderbook Price)
    (right : Orderbook Other) : Prop where
  /-- Levels and volumes are the same. -/
  sides : ∀ here, (left.side here).Repriced reprice (right.side (turn here))
  /-- The clients are the same. -/
  clientSendList : right.clientSendList = left.clientSendList
  /-- The flag is the same. -/
  topLevelsUpdated : right.topLevelsUpdated = left.topLevelsUpdated
  /-- The currency is the same. -/
  currencyId : right.currencyId = left.currencyId

variable {reprice : Price → Other} {turn : Side → Side} {left : Orderbook Price}
  {right : Orderbook Other}

theorem repriced_new (reprice : Price → Other) (turn : Side → Side) (currencyId : UInt32) :
    (new currencyId).Repriced reprice turn (new currencyId) := by
  refine ⟨fun here => ?_, rfl, rfl, rfl⟩
  cases here <;> cases turn _ <;> exact ⟨rfl, fun _ _ => rfl⟩

namespace Repriced

theorem topOfBook (repriced : left.Repriced reprice turn right)
    (repricing : Repricing reprice turn) :
    right.topOfBook = left.topOfBook.map (Snapshot.repriced reprice turn) := by
  have bids := (repriced.sides .bid).ordersMap.first
  have asks := (repriced.sides .ask).ordersMap.first
  rcases repricing.turn_cases with ⟨bid, ask⟩ | ⟨bid, ask⟩ <;> rw [bid] at bids <;> rw [ask] at asks
  · change right.bids.first = left.bids.first.map _ at bids
    change right.asks.first = left.asks.first.map _ at asks
    rw [Orderbook.topOfBook, bids, asks, Orderbook.topOfBook, repriced.currencyId]
    cases left.bids.first <;> cases left.asks.first <;>
      simp [Snapshot.repriced, Snapshot.best, bid, ask]
  · change right.asks.first = left.bids.first.map _ at bids
    change right.bids.first = left.asks.first.map _ at asks
    rw [Orderbook.topOfBook, bids, asks, Orderbook.topOfBook, repriced.currencyId]
    cases left.bids.first <;> cases left.asks.first <;>
      simp [Snapshot.repriced, Snapshot.best, bid, ask]

/-- Publishing keeps books alike, and sends the same snapshots with renamed prices. -/
theorem sendSnapshot (repriced : left.Repriced reprice turn right)
    (repricing : Repricing reprice turn) :
    left.sendSnapshot.1.Repriced reprice turn right.sendSnapshot.1 ∧
      right.sendSnapshot.2 =
        left.sendSnapshot.2.map (Prod.map id (Snapshot.repriced reprice turn)) := by
  have best := repriced.topOfBook repricing
  constructor
  · refine ⟨fun here => ?_, ?_, ?_, ?_⟩
    · rw [side_sendSnapshot, side_sendSnapshot]
      exact repriced.sides here
    · rw [clients_sendSnapshot, clients_sendSnapshot, repriced.clientSendList]
    · rw [raised_sendSnapshot, raised_sendSnapshot, best, repriced.clientSendList,
        repriced.topLevelsUpdated, Option.isSome_map]
    · rw [currencyId_sendSnapshot, currencyId_sendSnapshot, repriced.currencyId]
  · rw [sends_sendSnapshot, sends_sendSnapshot, best, repriced.clientSendList,
      repriced.topLevelsUpdated]
    split
    · rfl
    · cases left.topOfBook <;> simp [List.map_flatMap]

/-- Updates keep books alike until they publish. -/
theorem updated (repriced : left.Repriced reprice turn right)
    (repricing : Repricing reprice turn) (here : Side) (exchangeId : String) (price : Price)
    (newVolume : Volume) :
    (left.updated here exchangeId price newVolume).Repriced reprice turn
      (right.updated (turn here) exchangeId (reprice price) newVolume) := by
  refine ⟨fun there => ?_, ?_, ?_, ?_⟩
  · rw [side_updated, side_updated]
    exact (repriced.sides there).step repricing (.update here exchangeId price newVolume)
  · rw [clients_updated, clients_updated, repriced.clientSendList]
  · have level := (repriced.sides here).updateLevel repricing.injective (repricing.alike here)
      exchangeId price newVolume
    rw [Orderbook.updated, Orderbook.updated, repriced.topLevelsUpdated,
      level.isInFirstNKeys (repricing.alike here)]
  · rw [currencyId_updated, currencyId_updated, repriced.currencyId]

/-- Calls with renamed prices keep books alike, and send the same with renamed prices. -/
theorem step (repriced : left.Repriced reprice turn right) (repricing : Repricing reprice turn)
    (call : Call Price) :
    (left.step call).1.Repriced reprice turn (right.step (call.repriced reprice turn)).1 ∧
      (right.step (call.repriced reprice turn)).2 =
        (left.step call).2.map (Prod.map id (Snapshot.repriced reprice turn)) := by
  cases call with
  | update here exchangeId price newVolume =>
      rw [step_update, Call.repriced, step_update]
      exact (repriced.updated repricing here exchangeId price newVolume).sendSnapshot repricing
  | initializeExchange exchangeId =>
      refine ⟨⟨fun here => ?_, repriced.clientSendList, repriced.topLevelsUpdated,
        repriced.currencyId⟩, rfl⟩
      rw [side_step, side_step]
      exact (repriced.sides here).step repricing (.initializeExchange exchangeId)
  | addClient clientSocket =>
      refine ⟨⟨fun here => ?_, ?_, ?_, ?_⟩, rfl⟩
      · rw [side_step, side_step]
        exact (repriced.sides here).step repricing (.addClient clientSocket)
      all_goals
        simp only [Call.repriced, Orderbook.step, addClient, repriced.clientSendList]
        split
      · exact repriced.clientSendList
      · rfl
      · exact repriced.topLevelsUpdated
      · exact repriced.topLevelsUpdated
      · exact repriced.currencyId
      · exact repriced.currencyId
  | removeClient clientSocket =>
      refine ⟨⟨fun here => ?_, ?_, repriced.topLevelsUpdated, repriced.currencyId⟩, rfl⟩
      · rw [side_step, side_step]
        exact (repriced.sides here).step repricing (.removeClient clientSocket)
      · exact congrArg (List.erase · clientSocket) repriced.clientSendList

end Repriced

/-- Every run with renamed prices, whether they compare as before or the other way around with the
sides exchanged, has the same levels and volumes at the renamed prices, and sends the same snapshots
with renamed prices to the same clients. -/
theorem runs_compare_prices_only (reprice : Price → Other) (turn : Side → Side)
    (repricing : Repricing reprice turn) (currencyId : UInt32) (calls : List (Call Price)) :
    (run currencyId calls).1.Repriced reprice turn
        (run currencyId (calls.map (Call.repriced reprice turn))).1 ∧
      (run currencyId (calls.map (Call.repriced reprice turn))).2 =
        (run currencyId calls).2.map (Prod.map id (Snapshot.repriced reprice turn)) :=
  History.run_simulate (Repriced reprice turn) (Call.repriced reprice turn)
    (Prod.map id (Snapshot.repriced reprice turn))
    (fun _ _ call repriced => repriced.step repricing call)
    (repriced_new reprice turn currencyId) calls

/-- The other side. -/
def otherSide : Side → Side
  | .bid => .ask
  | .ask => .bid

/-- The negative of a price. -/
def negated (price : ℕ) : ℤ := -price

/-- Negative prices compare the other way around. -/
theorem repricing_negated : Repricing negated otherSide where
  alike here left right := by
    cases here <;> simp [otherSide, Side.before, negated]
  turned here := by
    cases here <;> rfl

/-- The best levels of `fullTopCalls` with negative prices. -/
def negatedSnapshot : Snapshot ℤ Volume where
  currencyId := 1
  bestBidPrice := -20
  bestBidVolume := 1
  bestAskPrice := -10
  bestAskVolume := 1

theorem runs_compare_prices_only_fullTopCalls :
    (run 1 (fullTopCalls.map (Call.repriced negated otherSide))).2.getLast? =
      some (7, negatedSnapshot) := by
  rw [(runs_compare_prices_only negated otherSide repricing_negated 1 fullTopCalls).2]
  decide +kernel

end Orderbook

end CryptoInfra
