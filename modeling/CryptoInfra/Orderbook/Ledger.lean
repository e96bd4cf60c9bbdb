import CryptoInfra.Orderbook.Update

/-!
# The ledger and the aggregate over whole runs

Every call acts on each side by one side step. Along a run the ledger of a side is the most recent
update of every exchange and price, and the aggregated map lists totals of that ledger, whatever
was evicted on the way.
-/

namespace CryptoInfra

variable {Price : Type*} [LinearOrder Price]

/-! ## Side runs -/

/-- What one call on the book does to a side. -/
def BookSide.step (here : Side) (bookSide : BookSide Price here.before) :
    Call Price → BookSide Price here.before
  | .initializeExchange exchangeId =>
      { bookSide with exchanges := initializeLedger exchangeId bookSide.exchanges }
  | .update side exchangeId price newVolume =>
      if side = here then updateLevel exchangeId price newVolume bookSide else bookSide
  | .addClient _ => bookSide
  | .removeClient _ => bookSide

/-- What a run of calls makes of an empty side. -/
def sideRun (here : Side) (calls : List (Call Price)) : BookSide Price here.before :=
  calls.foldl (BookSide.step here) { ordersMap := OrderedMap.empty, exchanges := ∅ }

@[simp]
theorem sideRun_nil (here : Side) :
    sideRun here ([] : List (Call Price)) =
      { ordersMap := OrderedMap.empty, exchanges := ∅ } := rfl

@[simp]
theorem sideRun_snoc (here : Side) (calls : List (Call Price)) (call : Call Price) :
    sideRun here (calls ++ [call]) = (sideRun here calls).step here call := by
  simp [sideRun]

namespace Orderbook

/-- Publishing leaves both sides alone. -/
@[simp]
theorem side_sendSnapshot (book : Orderbook Price) (here : Side) :
    book.sendSnapshot.1.side here = book.side here := by
  unfold sendSnapshot
  split <;> cases here <;> rfl

theorem side_step (book : Orderbook Price) (here : Side) (call : Call Price) :
    (book.step call).1.side here = (book.side here).step here call := by
  cases call with
  | initializeExchange exchangeId => cases here <;> rfl
  | update side exchangeId price newVolume =>
      cases side <;> simp only [step, updateBid, updateAsk] <;> split <;>
        rw [side_sendSnapshot] <;> cases here <;> rfl
  | addClient clientSocket =>
      simp only [step, addClient]
      split <;> cases here <;> rfl
  | removeClient clientSocket => cases here <;> rfl

theorem run_snoc (currencyId : UInt32) (calls : List (Call Price)) (call : Call Price) :
    run currencyId (calls ++ [call]) =
      (((run currencyId calls).1.step call).1,
        (run currencyId calls).2 ++ ((run currencyId calls).1.step call).2) :=
  History.run_snoc step (new currencyId) calls call

/-- A run acts on each side of any book by side steps. -/
theorem side_historyRun (book : Orderbook Price) (calls : List (Call Price)) (here : Side) :
    (History.run step book calls).1.side here =
      calls.foldl (BookSide.step here) (book.side here) := by
  induction calls using List.reverseRecOn with
  | nil => rfl
  | append_singleton calls call induction =>
      rw [History.run_snoc, side_step, induction, List.foldl_append, List.foldl_cons,
        List.foldl_nil]

/-- A side of a book after a run depends on the calls alone. -/
theorem side_run (currencyId : UInt32) (calls : List (Call Price)) (here : Side) :
    (run currencyId calls).1.side here = sideRun here calls := by
  rw [run, side_historyRun, sideRun]
  cases here <;> rfl

@[simp]
theorem getExchangeVolume_eq (book : Orderbook Price) (here : Side) (exchangeId : String)
    (price : Price) :
    book.getExchangeVolume here exchangeId price =
      volumeAt (book.side here).exchanges exchangeId price := by
  cases here <;> rfl

end Orderbook

/-! ## The aggregate lists the ledger -/

/-- Volumes are nonnegative and every listed level is the positive total of its price. -/
structure BookSide.Consistent {before : Price → Price → Prop} (bookSide : BookSide Price before) :
    Prop where
  /-- No exchange holds a negative volume. -/
  nonnegative : Nonnegative bookSide.exchanges
  /-- A listed level is a positive total. -/
  listed : ∀ price volume, bookSide.ordersMap.lookup price = some volume →
    0 < volume ∧ volume = getTotalVolumeAtPrice price bookSide.exchanges

namespace BookSide.Consistent

theorem updateLevel {before : Price → Price → Prop} [IsStrictTotalOrder Price before]
    [DecidableRel before] {bookSide : BookSide Price before} (consistent : bookSide.Consistent)
    (exchangeId : String) (price : Price) (newVolume : Volume) :
    (CryptoInfra.updateLevel exchangeId price newVolume bookSide).Consistent where
  nonnegative := nonnegative_updateLevel consistent.nonnegative exchangeId price newVolume
  listed := by
    intro elsewhere volume found
    rcases lookup_updateLevel found with ⟨rfl, level⟩ | ⟨different, found⟩
    · exact levelAfter_eq_some.mp level
    · rw [total_updateLevel_of_ne different]
      exact consistent.listed elsewhere volume found

theorem step {here : Side} {bookSide : BookSide Price here.before}
    (consistent : bookSide.Consistent) (call : Call Price) :
    (bookSide.step here call).Consistent := by
  cases call with
  | initializeExchange exchangeId =>
      constructor
      · intro other price
        simpa [BookSide.step] using consistent.nonnegative other price
      · intro price volume found
        simpa [BookSide.step] using consistent.listed price volume found
  | update side exchangeId price newVolume =>
      simp only [BookSide.step]
      split
      · exact consistent.updateLevel exchangeId price newVolume
      · exact consistent
  | addClient clientSocket => exact consistent
  | removeClient clientSocket => exact consistent

end BookSide.Consistent

theorem consistent_sideRun (here : Side) (calls : List (Call Price)) :
    (sideRun here calls).Consistent := by
  induction calls using List.reverseRecOn with
  | nil =>
      constructor
      · intro exchangeId price
        simp [volumeAt]
      · intro price volume found
        simp [OrderedMap.lookup, OrderedMap.find] at found
  | append_singleton calls call induction =>
      rw [sideRun_snoc]
      exact induction.step call

theorem consistent_run (currencyId : UInt32) (calls : List (Call Price)) (here : Side) :
    ((Orderbook.run currencyId calls).1.side here).Consistent := by
  rw [Orderbook.side_run]
  exact consistent_sideRun here calls

/-! ## The ledger is the history -/

/-- The volume a call sets for an exchange at a price of a side. -/
def updateOf (here : Side) (exchangeId : String) (price : Price) : Call Price → Option Volume
  | .update side updatedExchange updatedPrice newVolume =>
      if side = here ∧ updatedExchange = exchangeId ∧ updatedPrice = price then some newVolume
      else none
  | _ => none

/-- The volume of the most recent update of an exchange at a price of a side; no update and a volume
that is not positive count as zero. -/
def recentVolume (calls : List (Call Price)) (here : Side) (exchangeId : String) (price : Price) :
    Volume :=
  max ((History.latest (updateOf here exchangeId price) calls).getD 0) 0

/-- Calls leave the volume of the most recent update, or the one before if there is none. -/
theorem volumeAt_foldl {here : Side} (bookSide : BookSide Price here.before)
    (calls : List (Call Price)) (exchangeId : String) (price : Price) :
    volumeAt (calls.foldl (BookSide.step here) bookSide).exchanges exchangeId price =
      ((History.latest (updateOf here exchangeId price) calls).map fun volume =>
        max volume 0).getD (volumeAt bookSide.exchanges exchangeId price) := by
  induction calls using List.reverseRecOn with
  | nil => rfl
  | append_singleton calls call induction =>
      rw [List.foldl_append, List.foldl_cons, List.foldl_nil, History.latest_snoc]
      cases call with
      | update side updatedExchange updatedPrice newVolume =>
          by_cases same : side = here
          · rw [BookSide.step, if_pos same, volumeAt_updateLevel]
            by_cases entry : exchangeId = updatedExchange ∧ price = updatedPrice
            · simp [updateOf, same, entry]
            · have other : ¬ (updatedExchange = exchangeId ∧ updatedPrice = price) :=
                fun equal => entry ⟨equal.1.symm, equal.2.symm⟩
              simp [updateOf, entry, other, induction]
          · simp [BookSide.step, updateOf, same, induction]
      | initializeExchange registered => simpa [BookSide.step, updateOf] using induction
      | addClient clientSocket => simpa [BookSide.step, updateOf] using induction
      | removeClient clientSocket => simpa [BookSide.step, updateOf] using induction

/-- The volumes calls leave in any book. -/
theorem Orderbook.getExchangeVolume_historyRun (book : Orderbook Price) (calls : List (Call Price))
    (here : Side) (exchangeId : String) (price : Price) :
    (History.run step book calls).1.getExchangeVolume here exchangeId price =
      ((History.latest (updateOf here exchangeId price) calls).map fun volume =>
        max volume 0).getD (book.getExchangeVolume here exchangeId price) := by
  rw [getExchangeVolume_eq, getExchangeVolume_eq, side_historyRun, volumeAt_foldl]

theorem volumeAt_sideRun (here : Side) (calls : List (Call Price)) (exchangeId : String)
    (price : Price) :
    volumeAt (sideRun here calls).exchanges exchangeId price =
      recentVolume calls here exchangeId price := by
  rw [sideRun, volumeAt_foldl, recentVolume]
  cases History.latest (updateOf here exchangeId price) calls with
  | none => simp [volumeAt]
  | some volume => rfl

/-- Along every run each listed level is the positive sum of the most recent volumes of all
exchanges at its price, and the ledger reports exactly those volumes. -/
theorem listed_levels_match_history (currencyId : UInt32) (calls : List (Call Price))
    (here : Side) :
    (∀ price volume,
      (price, volume) ∈ ((Orderbook.run currencyId calls).1.side here).ordersMap.entries →
        0 < volume ∧ volume = ∑ᶠ exchangeId, recentVolume calls here exchangeId price) ∧
      ∀ exchangeId price,
        (Orderbook.run currencyId calls).1.getExchangeVolume here exchangeId price =
          recentVolume calls here exchangeId price := by
  rw [Orderbook.side_run]
  constructor
  · intro price volume member
    have total := (consistent_sideRun here calls).listed price volume
      (OrderedMap.lookup_eq_some_iff.mpr member)
    simpa only [total_eq_finsum, volumeAt_sideRun] using total
  · intro exchangeId price
    rw [Orderbook.getExchangeVolume_eq, Orderbook.side_run, volumeAt_sideRun]

end CryptoInfra
