import CryptoInfra.Orderbook.Ledger

/-!
# Updates alone

Registrations of exchanges, and clients which come and go, leave no trace in the levels of a book:
the aggregated maps and the volumes in the ledgers depend on the updates alone.
-/

namespace CryptoInfra

variable {Price : Type*} [LinearOrder Price]

/-- Whether a call sets a volume. -/
def Call.isUpdate {Price : Type*} : Call Price → Bool
  | .update _ _ _ _ => true
  | _ => false

/-- Two sides list the same levels and hold the same volumes. -/
structure BookSide.SameLevels {before : Price → Price → Prop}
    (left right : BookSide Price before) : Prop where
  /-- The aggregated maps are the same. -/
  ordersMap : left.ordersMap = right.ordersMap
  /-- Every exchange holds the same volume at every price. -/
  volumes : ∀ exchangeId price,
    volumeAt left.exchanges exchangeId price = volumeAt right.exchanges exchangeId price

namespace BookSide.SameLevels

theorem refl {before : Price → Price → Prop} (bookSide : BookSide Price before) :
    bookSide.SameLevels bookSide :=
  ⟨rfl, fun _ _ => rfl⟩

theorem updateLevel {before : Price → Price → Prop} [IsStrictTotalOrder Price before]
    [DecidableRel before] {left right : BookSide Price before} (same : left.SameLevels right)
    (exchangeId : String) (price : Price) (newVolume : Volume) :
    (CryptoInfra.updateLevel exchangeId price newVolume left).SameLevels
      (CryptoInfra.updateLevel exchangeId price newVolume right) := by
  have volumes : ∀ other elsewhere,
      volumeAt (CryptoInfra.updateLevel exchangeId price newVolume left).exchanges other elsewhere =
        volumeAt (CryptoInfra.updateLevel exchangeId price newVolume right).exchanges other
          elsewhere := by
    intro other elsewhere
    rw [volumeAt_updateLevel, volumeAt_updateLevel, same.volumes]
  refine ⟨?_, volumes⟩
  rw [ordersMap_updateLevel, ordersMap_updateLevel, same.ordersMap, levelAfter, levelAfter,
    total_congr fun other => volumes other price]

theorem step {here : Side} {left right : BookSide Price here.before}
    (same : left.SameLevels right) {call : Call Price} (update : call.isUpdate = true) :
    (left.step here call).SameLevels (right.step here call) := by
  cases call with
  | update side exchangeId price newVolume =>
      rw [BookSide.step, BookSide.step]
      split
      · exact same.updateLevel exchangeId price newVolume
      · exact same
  | initializeExchange exchangeId => cases update
  | addClient clientSocket => cases update
  | removeClient clientSocket => cases update

theorem step_left {here : Side} {left right : BookSide Price here.before}
    (same : left.SameLevels right) {call : Call Price} (other : call.isUpdate = false) :
    (left.step here call).SameLevels right := by
  cases call with
  | update side exchangeId price newVolume => cases other
  | initializeExchange exchangeId =>
      refine ⟨same.ordersMap, fun registered price => ?_⟩
      rw [BookSide.step, volumeAt_initializeLedger]
      exact same.volumes registered price
  | addClient clientSocket => exact same
  | removeClient clientSocket => exact same

/-- Of the calls of a run, the updates alone lead to the same levels. -/
theorem foldl_filter {here : Side} {left right : BookSide Price here.before}
    (same : left.SameLevels right) (calls : List (Call Price)) :
    (calls.foldl (BookSide.step here) left).SameLevels
      ((calls.filter Call.isUpdate).foldl (BookSide.step here) right) := by
  induction calls generalizing left right with
  | nil => exact same
  | cons call calls induction =>
      rw [List.foldl_cons]
      cases update : call.isUpdate with
      | true =>
          rw [List.filter_cons_of_pos update, List.foldl_cons]
          exact induction (same.step update)
      | false =>
          rw [List.filter_cons_of_neg (by rw [update]; decide)]
          exact induction (same.step_left update)

end BookSide.SameLevels

namespace Orderbook

/-- The updates of a run alone lead to the levels of the run. -/
theorem sameLevels_run_filter (currencyId : UInt32) {book : Orderbook Price}
    (calls : List (Call Price)) (here : Side)
    (fresh : ((new currencyId : Orderbook Price).side here).SameLevels (book.side here)) :
    ((run currencyId calls).1.side here).SameLevels
      ((History.run step book (calls.filter Call.isUpdate)).1.side here) := by
  rw [run, side_historyRun, side_historyRun]
  exact fresh.foldl_filter calls

end Orderbook

end CryptoInfra
