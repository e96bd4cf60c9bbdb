import CryptoInfra.Orderbook.Broadcast
import Mathlib.Order.Bounds.Basic

/-!
# The consolidated book

What a side of the book is for can be said without it: the volume which all exchanges together
quoted last at every price, and the best price at which there is some. The aggregated map lists
exactly these volumes as long as no more prices are live than it may hold, and its first level is
then the best live price.
-/

namespace CryptoInfra

variable {Price : Type*} [LinearOrder Price]

/-! ## The purpose of a side -/

/-- The volume all exchanges together quoted last at a price. -/
noncomputable def recentTotal (calls : List (Call Price)) (here : Side) (price : Price) : Volume :=
  ∑ᶠ exchangeId, recentVolume calls here exchangeId price

/-- The prices at which some exchange quoted volume last. -/
def livePrices (calls : List (Call Price)) (here : Side) : Set Price :=
  {price | ∃ exchangeId, 0 < recentVolume calls here exchangeId price}

/-- A snapshot shows the best live prices of both sides with their totals. -/
structure ShowsBest (calls : List (Call Price)) (snapshot : Snapshot Price Volume) : Prop where
  /-- The best bid is the greatest live one. -/
  bid : IsGreatest (livePrices calls .bid) snapshot.bestBidPrice
  /-- The volume of the best bid. -/
  bidVolume : snapshot.bestBidVolume = recentTotal calls .bid snapshot.bestBidPrice
  /-- The best ask is the least live one. -/
  ask : IsLeast (livePrices calls .ask) snapshot.bestAskPrice
  /-- The volume of the best ask. -/
  askVolume : snapshot.bestAskVolume = recentTotal calls .ask snapshot.bestAskPrice

/-- The aggregated maps list the live prices with their totals, and nothing else. -/
def Orderbook.ListsLive (book : Orderbook Price) (calls : List (Call Price)) : Prop :=
  ∀ here price volume, (price, volume) ∈ (book.side here).ordersMap.entries ↔
    price ∈ livePrices calls here ∧ volume = recentTotal calls here price

/-- No more prices are live than a side may hold. -/
def FewLive (calls : List (Call Price)) : Prop :=
  ∀ here, (livePrices calls here).ncard ≤ maxLevels

/-! ## Live prices and the ledger -/

theorem total_sideRun (calls : List (Call Price)) (here : Side) (price : Price) :
    getTotalVolumeAtPrice price (sideRun here calls).exchanges = recentTotal calls here price := by
  simp only [total_eq_finsum, volumeAt_sideRun, recentTotal]

theorem mem_livePrices_iff {calls : List (Call Price)} {here : Side} {price : Price} :
    price ∈ livePrices calls here ↔ 0 < recentTotal calls here price := by
  rw [← total_sideRun, total_pos_iff (consistent_sideRun here calls).nonnegative]
  simp only [volumeAt_sideRun]
  rfl

theorem levelAfter_sideRun_eq_some {calls : List (Call Price)} {here : Side} {price : Price}
    {volume : Volume} :
    levelAfter price (sideRun here calls).exchanges = some volume ↔
      price ∈ livePrices calls here ∧ volume = recentTotal calls here price := by
  rw [levelAfter_eq_some, total_sideRun, mem_livePrices_iff]
  constructor
  · rintro ⟨positive, rfl⟩
    exact ⟨positive, rfl⟩
  · rintro ⟨positive, rfl⟩
    exact ⟨positive, rfl⟩

theorem levelAfter_sideRun_ne_none {calls : List (Call Price)} {here : Side} {price : Price} :
    levelAfter price (sideRun here calls).exchanges ≠ none ↔ price ∈ livePrices calls here := by
  simp [Option.ne_none_iff_exists', levelAfter_sideRun_eq_some]

/-- A map which has the positive totals as its values has as many entries as there are live
prices. -/
theorem ncard_livePrices {calls : List (Call Price)} {here : Side}
    {map : OrderedMap Price Volume here.before}
    (lists : ∀ price, map.lookup price = levelAfter price (sideRun here calls).exchanges) :
    (livePrices calls here).ncard = map.size := by
  rw [← OrderedMap.ncard_keys]
  congr 1
  ext price
  rw [Set.mem_ofPred_eq, lists, levelAfter_sideRun_ne_none]

theorem finite_livePrices {calls : List (Call Price)} {here : Side}
    {map : OrderedMap Price Volume here.before}
    (lists : ∀ price, map.lookup price = levelAfter price (sideRun here calls).exchanges) :
    (livePrices calls here).Finite := by
  refine map.finite_keys.subset ?_
  intro price live
  rw [Set.mem_ofPred_eq, lists, levelAfter_sideRun_ne_none]
  exact live

/-- A run lists its live prices exactly if its maps have the positive totals as values. -/
theorem listsLive_run_iff {currencyId : UInt32} {calls : List (Call Price)} :
    (Orderbook.run currencyId calls).1.ListsLive calls ↔
      ∀ here price, (sideRun here calls).ordersMap.lookup price =
        levelAfter price (sideRun here calls).exchanges := by
  unfold Orderbook.ListsLive
  simp only [Orderbook.side_run]
  constructor
  · intro lists here price
    apply Option.ext
    intro volume
    rw [OrderedMap.lookup_eq_some_iff, lists, levelAfter_sideRun_eq_some]
  · intro lists here price volume
    rw [← OrderedMap.lookup_eq_some_iff, lists, levelAfter_sideRun_eq_some]

/-! ## One call -/

section Call

variable {calls : List (Call Price)} {here : Side}

/-- A call which sets no volume of a side leaves its live prices, totals and levels alone. -/
theorem livePrices_snoc_of_silent {call : Call Price}
    (silent : ∀ exchangeId price, updateOf here exchangeId price call = none) :
    livePrices (calls ++ [call]) here = livePrices calls here := by
  simp [livePrices, recentVolume, silent]

theorem recentTotal_snoc_of_silent {call : Call Price}
    (silent : ∀ exchangeId price, updateOf here exchangeId price call = none) (price : Price) :
    recentTotal (calls ++ [call]) here price = recentTotal calls here price := by
  simp [recentTotal, recentVolume, silent]

theorem ordersMap_step_of_silent {bookSide : BookSide Price here.before} {call : Call Price}
    (silent : ∀ exchangeId price, updateOf here exchangeId price call = none) :
    (bookSide.step here call).ordersMap = bookSide.ordersMap := by
  cases call with
  | update side exchangeId price newVolume =>
      have different : side ≠ here := by
        rintro rfl
        simpa [updateOf] using silent exchangeId price
      rw [BookSide.step, if_neg different]
  | initializeExchange exchangeId => rfl
  | addClient clientSocket => rfl
  | removeClient clientSocket => rfl

theorem livePrices_snoc_subset (exchangeId : String) (price : Price) {newVolume : Volume}
    (deletion : newVolume ≤ 0) :
    livePrices (calls ++ [.update here exchangeId price newVolume]) here ⊆
      livePrices calls here := by
  rintro elsewhere ⟨other, positive⟩
  refine ⟨other, ?_⟩
  rw [← volumeAt_sideRun, sideRun_snoc, BookSide.step, if_pos rfl, volumeAt_updateLevel] at positive
  split at positive
  · exact absurd positive (by simp [deletion])
  · rwa [← volumeAt_sideRun]

/-- The map which lists the new total of an updated price lists all live prices. -/
theorem lookup_alter_sideRun
    (lists : ∀ price, (sideRun here calls).ordersMap.lookup price =
      levelAfter price (sideRun here calls).exchanges)
    (exchangeId : String) (updatedPrice : Price) (newVolume : Volume) (price : Price) :
    let after := sideRun here (calls ++ [.update here exchangeId updatedPrice newVolume])
    ((sideRun here calls).ordersMap.alter updatedPrice
        (levelAfter updatedPrice after.exchanges)).lookup price =
      levelAfter price after.exchanges := by
  intro after
  have after_eq : after =
      updateLevel exchangeId updatedPrice newVolume (sideRun here calls) := by
    simp only [after, sideRun_snoc, BookSide.step, if_true]
  rw [OrderedMap.lookup_alter, after_eq]
  split <;> rename_i same
  · rw [same]
  · rw [lists, levelAfter, levelAfter, total_updateLevel_of_ne same]

/-- While a side lists its live prices and these are few, a call keeps it so exactly when they stay
few. -/
theorem lists_snoc_iff
    (lists : ∀ price, (sideRun here calls).ordersMap.lookup price =
      levelAfter price (sideRun here calls).exchanges)
    (few : (livePrices calls here).ncard ≤ maxLevels) (call : Call Price) :
    (∀ price, (sideRun here (calls ++ [call])).ordersMap.lookup price =
        levelAfter price (sideRun here (calls ++ [call])).exchanges) ↔
      (livePrices (calls ++ [call]) here).ncard ≤ maxLevels := by
  by_cases silent : ∀ exchangeId price, updateOf here exchangeId price call = none
  · rw [livePrices_snoc_of_silent silent]
    refine iff_of_true ?_ few
    intro price
    rw [levelAfter, total_sideRun, recentTotal_snoc_of_silent silent, ← total_sideRun,
      ← levelAfter, ← lists, sideRun_snoc, ordersMap_step_of_silent silent]
  · cases call with
    | update side exchangeId price newVolume =>
        have same : side = here := by
          by_contra different
          exact silent fun _ _ => by simp [updateOf, different]
        subst same
        have all_listed :=
          lookup_alter_sideRun lists exchangeId price newVolume
        have after_eq : (sideRun side (calls ++ [.update side exchangeId price newVolume])) =
            updateLevel exchangeId price newVolume (sideRun side calls) := by
          simp only [sideRun_snoc, BookSide.step, if_true]
        have map_eq := ordersMap_updateLevel exchangeId price newVolume (sideRun side calls)
        rw [← after_eq] at map_eq
        dsimp only at all_listed map_eq
        generalize (sideRun side calls).ordersMap.alter price _ = all at all_listed map_eq
        rw [ncard_livePrices all_listed, map_eq]
        split
        · constructor
          · intro listed
            have whole : all.take maxLevels = all :=
              OrderedMap.eq_of_lookup fun price => (listed price).trans (all_listed price).symm
            have size := congrArg OrderedMap.size whole
            rw [OrderedMap.size_take] at size
            omega
          · intro within
            rwa [OrderedMap.take_of_size_le within]
        · rename_i deletion
          have fewer := Set.ncard_le_ncard
            (livePrices_snoc_subset exchangeId price (le_of_not_gt deletion))
            (finite_livePrices lists)
          rw [ncard_livePrices all_listed] at fewer
          exact iff_of_true all_listed (fewer.trans few)
    | initializeExchange exchangeId => exact absurd (fun _ _ => rfl) silent
    | addClient clientSocket => exact absurd (fun _ _ => rfl) silent
    | removeClient clientSocket => exact absurd (fun _ _ => rfl) silent

end Call

/-! ## Runs -/

/-- The price which a call sets on a side. -/
def updatedPrice (here : Side) : Call Price → Option Price
  | .update side _ price _ => if side = here then some price else none
  | _ => none

/-- There are at most as many live prices as calls. -/
theorem ncard_livePrices_le (calls : List (Call Price)) (here : Side) :
    (livePrices calls here).ncard ≤ calls.length := by
  have updated : livePrices calls here ⊆
      ((calls.filterMap (updatedPrice here)).toFinset : Set Price) := by
    rintro price ⟨exchangeId, positive⟩
    rw [recentVolume] at positive
    cases found : History.latest (updateOf here exchangeId price) calls with
    | none =>
        rw [found] at positive
        exact absurd positive (by simp)
    | some volume =>
        obtain ⟨call, member, sets⟩ := History.exists_of_latest found
        rw [Finset.mem_coe, List.mem_toFinset, List.mem_filterMap]
        refine ⟨call, member, ?_⟩
        cases call with
        | update side updatedExchange updated newVolume =>
            rw [updateOf, Option.ite_none_right_eq_some] at sets
            obtain ⟨⟨rfl, -, rfl⟩, -⟩ := sets
            exact if_pos rfl
        | initializeExchange registered => cases sets
        | addClient clientSocket => cases sets
        | removeClient clientSocket => cases sets
  calc (livePrices calls here).ncard
      ≤ (calls.filterMap (updatedPrice here)).toFinset.card := by
        rw [← Set.ncard_coe_finset]
        exact Set.ncard_le_ncard updated (Finset.finite_toSet _)
    _ ≤ (calls.filterMap (updatedPrice here)).length := List.toFinset_card_le _
    _ ≤ calls.length := List.length_filterMap_le _ _

/-- A run which is no longer than the capacity has few live prices all along. -/
theorem fewLive_of_length_le {calls : List (Call Price)} (short : calls.length ≤ maxLevels)
    (front : List (Call Price)) (within : front <+: calls) : FewLive front :=
  fun here => (ncard_livePrices_le front here).trans (within.length_le.trans short)

theorem listsLive_nil (currencyId : UInt32) :
    (Orderbook.run currencyId ([] : List (Call Price))).1.ListsLive [] := by
  refine listsLive_run_iff.mpr fun here price => ?_
  simp [OrderedMap.lookup, OrderedMap.find, levelAfter, getTotalVolumeAtPrice]

/-- While both sides list their live prices and these are few, a call keeps it so exactly when they
stay few. -/
theorem listsLive_snoc_iff {currencyId : UInt32} {front : List (Call Price)}
    (lists : (Orderbook.run currencyId front).1.ListsLive front) (few : FewLive front)
    (call : Call Price) :
    (Orderbook.run currencyId (front ++ [call])).1.ListsLive (front ++ [call]) ↔
      FewLive (front ++ [call]) := by
  rw [listsLive_run_iff] at lists ⊢
  exact forall_congr' fun here => lists_snoc_iff (lists here) (few here) call

theorem lists_run_of_few {currencyId : UInt32} {calls : List (Call Price)}
    (few : ∀ front, front <+: calls → FewLive front) :
    (Orderbook.run currencyId calls).1.ListsLive calls := by
  induction calls using List.reverseRecOn with
  | nil => exact listsLive_nil currencyId
  | append_singleton calls call induction =>
      have within : calls <+: calls ++ [call] := List.prefix_append calls [call]
      have lists := induction fun front shorter => few front (shorter.trans within)
      exact (listsLive_snoc_iff lists (few calls within) call).mpr (few _ List.prefix_rfl)

/-- Along every run, the aggregated maps list exactly the live prices, with what all exchanges
together quoted last there, if and only if there are never more live prices on a side than it may
hold. -/
theorem lists_live_iff_few_live (currencyId : UInt32) (calls : List (Call Price)) :
    (∀ front, front <+: calls → (Orderbook.run currencyId front).1.ListsLive front) ↔
      ∀ front, front <+: calls → FewLive front := by
  apply History.forall_prefix_congr
  · exact ⟨listsLive_nil currencyId, fewLive_of_length_le (Nat.zero_le _) [] List.prefix_rfl⟩
  · intro front call lists few
    exact listsLive_snoc_iff lists few call

/-- The first level of a side which lists its live prices is the best of them. -/
theorem first_side_iff {currencyId : UInt32} {calls : List (Call Price)}
    (lists : (Orderbook.run currencyId calls).1.ListsLive calls) {here : Side} {price : Price}
    {volume : Volume} :
    ((Orderbook.run currencyId calls).1.side here).ordersMap.first = some (price, volume) ↔
      (price ∈ livePrices calls here ∧ volume = recentTotal calls here price) ∧
        ∀ other ∈ livePrices calls here, other = price ∨ here.before price other := by
  rw [listsLive_run_iff] at lists
  rw [Orderbook.side_run, OrderedMap.first_eq_some_iff, lists, levelAfter_sideRun_eq_some]
  simp only [lists, levelAfter_sideRun_ne_none]

namespace Orderbook

theorem currencyId_sendSnapshot (book : Orderbook Price) :
    book.sendSnapshot.1.currencyId = book.currencyId := by
  rw [sendSnapshot]
  split <;> rfl

@[simp]
theorem currencyId_step (book : Orderbook Price) (call : Call Price) :
    (book.step call).1.currencyId = book.currencyId := by
  cases call with
  | update here exchangeId price newVolume =>
      rw [step_update, currencyId_sendSnapshot, currencyId_updated]
  | initializeExchange exchangeId => rfl
  | addClient clientSocket =>
      rw [step, addClient]
      split <;> rfl
  | removeClient clientSocket => rfl

theorem currencyId_run (currencyId : UInt32) (calls : List (Call Price)) :
    (run currencyId calls).1.currencyId = currencyId :=
  History.run_invariant (fun (book : Orderbook Price) _ => book.currencyId = currencyId)
    (fun book _ call same => (currencyId_step book call).trans same) rfl calls

theorem topOfBook_eq_some_iff {book : Orderbook Price} {snapshot : Snapshot Price Volume} :
    book.topOfBook = some snapshot ↔ snapshot.currencyId = book.currencyId ∧
      (book.side .bid).ordersMap.first = some (snapshot.bestBidPrice, snapshot.bestBidVolume) ∧
        (book.side .ask).ordersMap.first =
          some (snapshot.bestAskPrice, snapshot.bestAskVolume) := by
  obtain ⟨currencyId, bidPrice, bidVolume, askPrice, askVolume⟩ := snapshot
  change _ ↔ currencyId = book.currencyId ∧ book.bids.first = some (bidPrice, bidVolume) ∧
    book.asks.first = some (askPrice, askVolume)
  rw [topOfBook]
  cases book.bids.first <;> cases book.asks.first <;>
    simp [Snapshot.mk.injEq, Prod.ext_iff, eq_comm, and_assoc]

end Orderbook

theorem topOfBook_run_iff {currencyId : UInt32} {calls : List (Call Price)}
    (lists : (Orderbook.run currencyId calls).1.ListsLive calls)
    {snapshot : Snapshot Price Volume} :
    (Orderbook.run currencyId calls).1.topOfBook = some snapshot ↔
      snapshot.currencyId = currencyId ∧ ShowsBest calls snapshot := by
  rw [Orderbook.topOfBook_eq_some_iff, first_side_iff lists, first_side_iff lists,
    Orderbook.currencyId_run]
  refine and_congr_right fun _ => ?_
  constructor
  · rintro ⟨⟨⟨bid, bidVolume⟩, best_bid⟩, ⟨ask, askVolume⟩, best_ask⟩
    refine ⟨⟨bid, fun other live => ?_⟩, bidVolume, ⟨ask, fun other live => ?_⟩, askVolume⟩
    · exact (best_bid other live).elim le_of_eq le_of_lt
    · exact (best_ask other live).elim (fun same => same.ge) le_of_lt
  · rintro ⟨⟨bid, best_bid⟩, bidVolume, ⟨ask, best_ask⟩, askVolume⟩
    refine ⟨⟨⟨bid, bidVolume⟩, fun other live => ?_⟩, ⟨ask, askVolume⟩, fun other live => ?_⟩
    · exact (best_bid live).eq_or_lt
    · exact (best_ask live).eq_or_lt.imp_left Eq.symm

/-- As long as there are no more live prices than a side may hold, the best levels of the book are
the greatest live bid and the least live ask with their totals. -/
theorem top_of_book_shows_best (currencyId : UInt32) (calls : List (Call Price))
    (few : ∀ front, front <+: calls → FewLive front) (snapshot : Snapshot Price Volume) :
    (Orderbook.run currencyId calls).1.topOfBook = some snapshot ↔
      snapshot.currencyId = currencyId ∧ ShowsBest calls snapshot :=
  topOfBook_run_iff (lists_run_of_few few)

/-- Both exchanges quote the same bid, and one of them withdraws a better one. -/
def sharedBidCalls : List (Call ℕ) :=
  [.update .ask "coinbase" 12 1, .update .bid "crypto" 11 4, .update .bid "coinbase" 10 1,
    .update .bid "crypto" 10 2, .update .bid "crypto" 11 0]

theorem top_of_book_shows_best_sharedBidCalls :
    ShowsBest sharedBidCalls
      { currencyId := 1, bestBidPrice := 10, bestBidVolume := 3, bestAskPrice := 12,
        bestAskVolume := 1 } :=
  ((top_of_book_shows_best 1 sharedBidCalls (fewLive_of_length_le (by decide)) _).mp
    (by decide +kernel)).2

end CryptoInfra
