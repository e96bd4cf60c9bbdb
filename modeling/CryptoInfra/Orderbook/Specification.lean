import CryptoInfra.Orderbook.Ledger

/-!
# What an update is for

A ledger is a partial function from exchanges and prices to volumes, and an update sets one of its
entries. This file states the whole effect of an update in these terms: the new ledger, the new
aggregated map, and what stays as it was. From the equations of an update it follows that
delivering it twice does what delivering it once does.
-/

namespace CryptoInfra

/-! ## Ledgers as partial functions -/

section Entries

variable {Price : Type*} [DecidableEq Price] {exchanges : ExchangeOrderMap Price}

/-- The volume stored for an exchange at a price, if there is one. -/
def entryAt (exchanges : ExchangeOrderMap Price) (exchangeId : String) (price : Price) :
    Option Volume :=
  (exchanges.lookup exchangeId).bind fun levels => levels.lookup price

/-- Set one entry of a ledger; a volume which is not positive removes it. -/
def setEntry (entries : String → Price → Option Volume) (exchangeId : String) (price : Price)
    (newVolume : Volume) : String → Price → Option Volume :=
  fun other elsewhere =>
    if other = exchangeId ∧ elsewhere = price then
      if 0 < newVolume then some newVolume else none
    else
      entries other elsewhere

/-- Sum of the volumes stored at a price. -/
noncomputable def totalOf (entries : String → Price → Option Volume) (price : Price) : Volume :=
  ∑ᶠ exchangeId, (entries exchangeId price).getD 0

/-- All stored volumes are positive. -/
def Positive (exchanges : ExchangeOrderMap Price) : Prop :=
  ∀ exchangeId price volume, entryAt exchanges exchangeId price = some volume → 0 < volume

theorem volumeAt_eq_entryAt (exchanges : ExchangeOrderMap Price) (exchangeId : String)
    (price : Price) :
    volumeAt exchanges exchangeId price = (entryAt exchanges exchangeId price).getD 0 := by
  unfold volumeAt entryAt
  cases exchanges.lookup exchangeId <;> rfl

theorem total_eq_totalOf (price : Price) (exchanges : ExchangeOrderMap Price) :
    getTotalVolumeAtPrice price exchanges = totalOf (entryAt exchanges) price := by
  simp only [total_eq_finsum, volumeAt_eq_entryAt, totalOf]

theorem Positive.nonnegative (positive : Positive exchanges) : Nonnegative exchanges := by
  intro exchangeId price
  rw [volumeAt_eq_entryAt]
  cases stored : entryAt exchanges exchangeId price with
  | none => exact le_rfl
  | some volume => exact (positive exchangeId price volume stored).le

theorem entryAt_insert (exchangeId other : String) (levels : Finmap fun _ : Price => Volume)
    (price : Price) :
    entryAt (exchanges.insert exchangeId levels) other price =
      if other = exchangeId then levels.lookup price else entryAt exchanges other price := by
  by_cases same : other = exchangeId
  · subst other
    simp [entryAt, Finmap.lookup_insert]
  · simp [entryAt, Finmap.lookup_insert_of_ne _ same, same]

theorem entryAt_initializeLedger (exchangeId : String) :
    entryAt (initializeLedger exchangeId exchanges) = entryAt exchanges := by
  funext other price
  cases found : exchanges.lookup exchangeId with
  | some levels => simp [initializeLedger, found]
  | none =>
      rw [initializeLedger, found, entryAt_insert]
      split
      · subst other
        simp [entryAt, found]
      · rfl

/-- Storing a volume sets one entry. -/
theorem entryAt_storeVolume (exchangeId : String) (price : Price) {newVolume : Volume}
    (positive : 0 < newVolume) :
    entryAt (storeVolume exchangeId price newVolume exchanges) =
      setEntry (entryAt exchanges) exchangeId price newVolume := by
  funext other elsewhere
  rw [storeVolume, entryAt_insert, setEntry, if_pos positive]
  by_cases same : other = exchangeId
  · subst other
    by_cases here : elsewhere = price
    · subst elsewhere
      simp [Finmap.lookup_insert]
    · cases found : exchanges.lookup exchangeId <;>
        simp [here, Finmap.lookup_insert_of_ne _ here, entryAt, found]
  · simp [same]

/-- Erasing a volume removes one entry. -/
theorem entryAt_eraseVolume (exchangeId : String) (price : Price) {newVolume : Volume}
    (deletion : ¬ 0 < newVolume) :
    entryAt (eraseVolume exchangeId price exchanges) =
      setEntry (entryAt exchanges) exchangeId price newVolume := by
  funext other elsewhere
  rw [setEntry, if_neg deletion]
  cases found : exchanges.lookup exchangeId with
  | none =>
      simp only [eraseVolume, found]
      split <;> rename_i same
      · obtain ⟨rfl, rfl⟩ := same
        simp [entryAt, found]
      · rfl
  | some levels =>
      simp only [eraseVolume, found]
      rw [entryAt_insert]
      by_cases same : other = exchangeId
      · subst other
        by_cases here : elsewhere = price
        · subst elsewhere
          simp [Finmap.lookup_erase]
        · simp [here, Finmap.lookup_erase_ne here, entryAt, found]
      · simp [same]

end Entries

/-! ## The effect of an update -/

section Update

variable {Price : Type*} {before : Price → Price → Prop} [DecidableEq Price]
  [IsStrictTotalOrder Price before] [DecidableRel before]

/-- An update sets one entry of its ledger. -/
theorem entryAt_updateLevel (exchangeId : String) (price : Price) (newVolume : Volume)
    (bookSide : BookSide Price before) :
    entryAt (updateLevel exchangeId price newVolume bookSide).exchanges =
      setEntry (entryAt bookSide.exchanges) exchangeId price newVolume := by
  rw [exchanges_updateLevel]
  split <;> rename_i positive
  · exact entryAt_storeVolume exchangeId price positive
  · exact entryAt_eraseVolume exchangeId price positive

theorem levelAfter_eq_totalOf (exchangeId : String) (price : Price) (newVolume : Volume)
    (bookSide : BookSide Price before) :
    levelAfter price (updateLevel exchangeId price newVolume bookSide).exchanges =
      let total := totalOf (setEntry (entryAt bookSide.exchanges) exchangeId price newVolume) price
      if 0 < total then some total else none := by
  rw [levelAfter, total_eq_totalOf, entryAt_updateLevel]

theorem positive_updateLevel {bookSide : BookSide Price before}
    (positive : Positive bookSide.exchanges) (exchangeId : String) (price : Price)
    (newVolume : Volume) :
    Positive (updateLevel exchangeId price newVolume bookSide).exchanges := by
  intro other elsewhere volume stored
  rw [entryAt_updateLevel, setEntry] at stored
  split at stored
  · split at stored <;> rename_i exceeds
    · exact Option.some.inj stored ▸ exceeds
    · contradiction
  · exact positive other elsewhere volume stored

/-- An update makes its price list the total of the new ledger: after a positive volume the side
keeps the best `maxLevels` entries of that map, otherwise all. -/
theorem ordersMap_updateLevel_of_positive {bookSide : BookSide Price before}
    (positive : Positive bookSide.exchanges) (exchangeId : String) (price : Price)
    (newVolume : Volume) :
    (updateLevel exchangeId price newVolume bookSide).ordersMap =
      let total := totalOf (setEntry (entryAt bookSide.exchanges) exchangeId price newVolume) price
      if 0 < newVolume then (bookSide.ordersMap.insert price total).take maxLevels
      else if 0 < total then bookSide.ordersMap.insert price total
      else bookSide.ordersMap.erase price := by
  have level := levelAfter_eq_totalOf exchangeId price newVolume bookSide
  rw [ordersMap_updateLevel]
  dsimp only at level ⊢
  split <;> rename_i exceeds
  · have listed := levelAfter_of_pos positive.nonnegative exchangeId price exceeds
    split at level
    · rw [level, OrderedMap.insert]
    · exact absurd level listed
  · rw [level]
    split <;> rfl

/-- Levels at other prices are listed with the volume they had. -/
theorem lookup_updateLevel_of_ne {exchangeId : String} {price elsewhere : Price}
    {newVolume volume : Volume} {bookSide : BookSide Price before} (different : elsewhere ≠ price)
    (found : (updateLevel exchangeId price newVolume bookSide).ordersMap.lookup elsewhere =
      some volume) :
    bookSide.ordersMap.lookup elsewhere = some volume :=
  ((lookup_updateLevel found).resolve_left fun here => different here.1).2

end Update

/-! ## Books -/

section Book

variable {Price : Type*} [LinearOrder Price]

theorem positive_sideRun (here : Side) (calls : List (Call Price)) :
    Positive (sideRun here calls).exchanges := by
  induction calls using List.reverseRecOn with
  | nil =>
      intro exchangeId price volume stored
      simp [entryAt] at stored
  | append_singleton calls call induction =>
      rw [sideRun_snoc]
      cases call with
      | initializeExchange exchangeId =>
          rw [BookSide.step, Positive, entryAt_initializeLedger]
          exact induction
      | update side exchangeId price newVolume =>
          rw [BookSide.step]
          split
          · exact positive_updateLevel induction exchangeId price newVolume
          · exact induction
      | addClient clientSocket => exact induction
      | removeClient clientSocket => exact induction

/-- In a book whose ledger volumes are positive, as they are in every reachable one, an update sets
its ledger entry, makes its price list the total of the new ledger, keeps the best `maxLevels`
entries after a positive volume, and changes nothing else. -/
theorem update_specification (book : Orderbook Price) (here : Side) (exchangeId : String)
    (price : Price) (newVolume : Volume) (positive : Positive (book.side here).exchanges) :
    let outcome := (book.step (.update here exchangeId price newVolume)).1
    let entries := setEntry (entryAt (book.side here).exchanges) exchangeId price newVolume
    let total := totalOf entries price
    (outcome.side here).ordersMap =
        (if 0 < newVolume then ((book.side here).ordersMap.insert price total).take maxLevels
        else if 0 < total then (book.side here).ordersMap.insert price total
        else (book.side here).ordersMap.erase price) ∧
      (∀ elsewhere volume, elsewhere ≠ price →
        (outcome.side here).ordersMap.lookup elsewhere = some volume →
          (book.side here).ordersMap.lookup elsewhere = some volume) ∧
      entryAt (outcome.side here).exchanges = entries ∧
      ∀ there, there ≠ here → outcome.side there = book.side there := by
  intro outcome entries total
  have side_after : ∀ there, outcome.side there =
      (book.side there).step there (.update here exchangeId price newVolume) := fun there =>
    Orderbook.side_step book there (.update here exchangeId price newVolume)
  have updated : outcome.side here =
      updateLevel exchangeId price newVolume (book.side here) := by
    rw [side_after, BookSide.step, if_pos rfl]
  refine ⟨?_, ?_, ?_, ?_⟩
  · rw [updated]
    exact ordersMap_updateLevel_of_positive positive exchangeId price newVolume
  · intro elsewhere volume different found
    rw [updated] at found
    exact lookup_updateLevel_of_ne different found
  · rw [updated]
    exact entryAt_updateLevel exchangeId price newVolume (book.side here)
  · intro there different
    rw [side_after, BookSide.step, if_neg (Ne.symm different)]

/-- One exchange asks for one unit at one price. -/
def singleAskCalls : List (Call ℕ) := [.update .ask "coinbase" 10 1]

theorem update_specification_singleAskCalls :
    let book := (Orderbook.run 1 singleAskCalls).1
    let outcome := (book.step (.update .ask "crypto" 10 2)).1
    let entries := setEntry (entryAt (book.side .ask).exchanges) "crypto" 10 2
    let total := totalOf entries 10
    (outcome.side .ask).ordersMap =
        (if (0 : Volume) < 2 then ((book.side .ask).ordersMap.insert 10 total).take maxLevels
        else if 0 < total then (book.side .ask).ordersMap.insert 10 total
        else (book.side .ask).ordersMap.erase 10) ∧
      (∀ elsewhere volume, elsewhere ≠ 10 →
        (outcome.side .ask).ordersMap.lookup elsewhere = some volume →
          (book.side .ask).ordersMap.lookup elsewhere = some volume) ∧
      entryAt (outcome.side .ask).exchanges = entries ∧
      ∀ there, there ≠ .ask → outcome.side there = book.side there :=
  update_specification (Orderbook.run 1 singleAskCalls).1 .ask "crypto" 10 2
    (Orderbook.side_run 1 singleAskCalls .ask ▸ positive_sideRun .ask singleAskCalls)

end Book

/-! ## Redelivery -/

section Redelivery

variable {Price : Type*} [DecidableEq Price]

theorem storeVolume_storeVolume (exchangeId : String) (price : Price) (newVolume : Volume)
    (exchanges : ExchangeOrderMap Price) :
    storeVolume exchangeId price newVolume (storeVolume exchangeId price newVolume exchanges) =
      storeVolume exchangeId price newVolume exchanges := by
  simp only [storeVolume, Finmap.lookup_insert, Option.getD_some, Finmap.insert_insert]

theorem eraseVolume_eraseVolume (exchangeId : String) (price : Price)
    (exchanges : ExchangeOrderMap Price) :
    eraseVolume exchangeId price (eraseVolume exchangeId price exchanges) =
      eraseVolume exchangeId price exchanges := by
  cases found : exchanges.lookup exchangeId with
  | none => simp only [eraseVolume, found]
  | some levels =>
      have erased_twice : (levels.erase price).erase price = levels.erase price := by
        apply Finmap.ext_lookup
        intro elsewhere
        by_cases here : elsewhere = price
        · rw [here, Finmap.lookup_erase, Finmap.lookup_erase]
        · rw [Finmap.lookup_erase_ne here]
      simp only [eraseVolume, found, Finmap.lookup_insert, Finmap.insert_insert, erased_twice]

variable {before : Price → Price → Prop} [IsStrictTotalOrder Price before] [DecidableRel before]

/-- An update finds its own ledger entry in place. -/
theorem exchanges_updateLevel_twice (exchangeId : String) (price : Price) (newVolume : Volume)
    (bookSide : BookSide Price before) :
    (updateLevel exchangeId price newVolume
        (updateLevel exchangeId price newVolume bookSide)).exchanges =
      (updateLevel exchangeId price newVolume bookSide).exchanges := by
  rw [exchanges_updateLevel exchangeId price newVolume (updateLevel ..), exchanges_updateLevel]
  split
  · exact storeVolume_storeVolume exchangeId price newVolume bookSide.exchanges
  · exact eraseVolume_eraseVolume exchangeId price bookSide.exchanges

/-- The second of two equal updates finds its level in place, or evicts it again. -/
theorem updateLevel_updateLevel (exchangeId : String) (price : Price) (newVolume : Volume)
    (bookSide : BookSide Price before) :
    updateLevel exchangeId price newVolume (updateLevel exchangeId price newVolume bookSide) =
      updateLevel exchangeId price newVolume bookSide := by
  have ledgers := exchanges_updateLevel_twice exchangeId price newVolume bookSide
  have once := ordersMap_updateLevel exchangeId price newVolume bookSide
  have twice := ordersMap_updateLevel exchangeId price newVolume
    (updateLevel exchangeId price newVolume bookSide)
  rw [ledgers] at twice
  set level := levelAfter price (updateLevel exchangeId price newVolume bookSide).exchanges
  dsimp only at once twice
  have maps : (updateLevel exchangeId price newVolume
        (updateLevel exchangeId price newVolume bookSide)).ordersMap =
      (updateLevel exchangeId price newVolume bookSide).ordersMap := by
    have held : (bookSide.ordersMap.alter price level).lookup price = level :=
      OrderedMap.lookup_alter_self
    rw [twice, once]
    split
    · have again := (bookSide.ordersMap.alter price level).take_alter_lookup_take price maxLevels
      rwa [held] at again
    · have again := (bookSide.ordersMap.alter price level).alter_lookup price
      rwa [held] at again
  cases twice_side : updateLevel exchangeId price newVolume
    (updateLevel exchangeId price newVolume bookSide)
  cases once_side : updateLevel exchangeId price newVolume bookSide
  rw [twice_side, once_side] at maps ledgers
  exact congrArg₂ BookSide.mk maps ledgers

end Redelivery

/-- Delivering an update twice in a row leaves both aggregated sides and all ledgers as delivering
it once does, in every book. -/
theorem update_redelivered {Price : Type*} [LinearOrder Price] (book : Orderbook Price)
    (here : Side) (exchangeId : String) (price : Price) (newVolume : Volume) :
    let once := (book.step (.update here exchangeId price newVolume)).1
    let twice := (once.step (.update here exchangeId price newVolume)).1
    twice.bids = once.bids ∧ twice.asks = once.asks ∧
      ∀ there other elsewhere,
        twice.getExchangeVolume there other elsewhere =
          once.getExchangeVolume there other elsewhere := by
  intro once twice
  have sides : ∀ there, twice.side there = once.side there := by
    intro there
    simp only [twice, once, Orderbook.side_step, BookSide.step]
    split
    · exact updateLevel_updateLevel exchangeId price newVolume (book.side there)
    · rfl
  refine ⟨congrArg BookSide.ordersMap (sides .bid), congrArg BookSide.ordersMap (sides .ask), ?_⟩
  intro there other elsewhere
  rw [Orderbook.getExchangeVolume_eq, Orderbook.getExchangeVolume_eq, sides]

end CryptoInfra
