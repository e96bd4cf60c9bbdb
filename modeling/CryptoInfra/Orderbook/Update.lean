import CryptoInfra.Orderbook.Basic
import Mathlib.Algebra.BigOperators.Finprod
import Mathlib.Algebra.Order.BigOperators.Group.Finset
import Mathlib.Tactic.Linarith

/-!
# One update of one side

This file states once what an update does to the ledger and to the aggregated map of its side:
which ledger entry it sets, which level it lists, and when it evicts. Later files read these
equations and never unfold the update again.
-/

namespace CryptoInfra

section Volumes

variable {Price : Type*} [DecidableEq Price] {exchanges : ExchangeOrderMap Price}

theorem volumeAt_insert (exchangeId other : String) (levels : Finmap fun _ : Price => Volume)
    (price : Price) :
    volumeAt (exchanges.insert exchangeId levels) other price =
      if other = exchangeId then (levels.lookup price).getD 0
      else volumeAt exchanges other price := by
  by_cases same : other = exchangeId
  · subst other
    simp [volumeAt, Finmap.lookup_insert]
  · simp [volumeAt, Finmap.lookup_insert_of_ne _ same, same]

theorem volumeAt_of_lookup {exchangeId : String} {levels : Finmap fun _ : Price => Volume}
    (found : exchanges.lookup exchangeId = some levels) (price : Price) :
    volumeAt exchanges exchangeId price = (levels.lookup price).getD 0 := by
  simp [volumeAt, found]

theorem volumeAt_of_lookup_none {exchangeId : String}
    (absent : exchanges.lookup exchangeId = none) (price : Price) :
    volumeAt exchanges exchangeId price = 0 := by
  simp [volumeAt, absent]

@[simp]
theorem volumeAt_initializeLedger (exchangeId other : String) (price : Price) :
    volumeAt (initializeLedger exchangeId exchanges) other price =
      volumeAt exchanges other price := by
  cases found : exchanges.lookup exchangeId with
  | some levels => simp [initializeLedger, found]
  | none =>
      rw [initializeLedger, found, volumeAt_insert]
      split
      · subst other
        simp [volumeAt_of_lookup_none found]
      · rfl

theorem volumeAt_storeVolume (exchangeId other : String) (price elsewhere : Price)
    (newVolume : Volume) :
    volumeAt (storeVolume exchangeId price newVolume exchanges) other elsewhere =
      if other = exchangeId ∧ elsewhere = price then newVolume
      else volumeAt exchanges other elsewhere := by
  rw [storeVolume, volumeAt_insert]
  by_cases same : other = exchangeId
  · subst other
    by_cases here : elsewhere = price
    · subst elsewhere
      simp [Finmap.lookup_insert]
    · cases found : exchanges.lookup exchangeId <;>
        simp [here, Finmap.lookup_insert_of_ne _ here, volumeAt, found]
  · simp [same]

theorem volumeAt_eraseVolume (exchangeId other : String) (price elsewhere : Price) :
    volumeAt (eraseVolume exchangeId price exchanges) other elsewhere =
      if other = exchangeId ∧ elsewhere = price then 0
      else volumeAt exchanges other elsewhere := by
  cases found : exchanges.lookup exchangeId with
  | none =>
      simp only [eraseVolume, found]
      split <;> rename_i same
      · rw [same.1, volumeAt_of_lookup_none found]
      · rfl
  | some levels =>
      simp only [eraseVolume, found]
      rw [volumeAt_insert]
      by_cases same : other = exchangeId
      · subst other
        by_cases here : elsewhere = price
        · subst elsewhere
          simp [Finmap.lookup_erase]
        · simp [here, Finmap.lookup_erase_ne here, volumeAt_of_lookup found]
      · simp [same]

theorem support_volumeAt (exchanges : ExchangeOrderMap Price) (price : Price) :
    (Function.support fun exchangeId => volumeAt exchanges exchangeId price) ⊆
      exchanges.keys := by
  intro exchangeId nonzero
  rw [Finset.mem_coe, Finmap.mem_keys]
  by_contra absent
  exact nonzero (volumeAt_of_lookup_none (Finmap.lookup_eq_none.mpr absent) price)

/-- The total at a price is the sum over all exchanges, registered or not. -/
theorem total_eq_finsum (price : Price) (exchanges : ExchangeOrderMap Price) :
    getTotalVolumeAtPrice price exchanges =
      ∑ᶠ exchangeId, volumeAt exchanges exchangeId price := by
  exact (finsum_eq_sum_of_support_subset _ (support_volumeAt exchanges price)).symm

@[simp]
theorem total_initializeLedger (exchangeId : String) (price : Price) :
    getTotalVolumeAtPrice price (initializeLedger exchangeId exchanges) =
      getTotalVolumeAtPrice price exchanges := by
  simp [total_eq_finsum]

theorem total_congr {left right : ExchangeOrderMap Price} {price : Price}
    (same : ∀ exchangeId, volumeAt left exchangeId price = volumeAt right exchangeId price) :
    getTotalVolumeAtPrice price left = getTotalVolumeAtPrice price right := by
  simp only [total_eq_finsum, same]

/-- No exchange holds a negative volume. -/
def Nonnegative (exchanges : ExchangeOrderMap Price) : Prop :=
  ∀ exchangeId price, 0 ≤ volumeAt exchanges exchangeId price

/-- With nonnegative volumes a total is positive exactly when some exchange holds volume. -/
theorem total_pos_iff (nonnegative : Nonnegative exchanges) (price : Price) :
    0 < getTotalVolumeAtPrice price exchanges ↔
      ∃ exchangeId, 0 < volumeAt exchanges exchangeId price := by
  rw [getTotalVolumeAtPrice,
    Finset.sum_pos_iff_of_nonneg fun exchangeId _ => nonnegative exchangeId price]
  constructor
  · rintro ⟨exchangeId, _, positive⟩
    exact ⟨exchangeId, positive⟩
  · rintro ⟨exchangeId, positive⟩
    refine ⟨exchangeId, ?_, positive⟩
    rw [Finmap.mem_keys]
    by_contra absent
    rw [volumeAt_of_lookup_none (Finmap.lookup_eq_none.mpr absent)] at positive
    exact lt_irrefl 0 positive

end Volumes

/-! ## The specification of an update -/

section Update

variable {Price : Type*} {before : Price → Price → Prop}

/-- The eviction loop keeps exactly the best `maxLevels` entries. -/
theorem rebalance_eq_take (ordersMap : OrderedMap Price Volume before) :
    rebalance ordersMap = ordersMap.take maxLevels := by
  induction ordersMap using rebalance.induct with
  | case1 ordersMap above induction =>
      rw [rebalance, if_pos above, induction, OrderedMap.take_eraseLast above]
  | case2 ordersMap within =>
      rw [rebalance, if_neg within, OrderedMap.take_of_size_le (Nat.le_of_not_lt within)]

variable [DecidableEq Price] [IsStrictTotalOrder Price before] [DecidableRel before]

theorem exchanges_updateLevel (exchangeId : String) (price : Price) (newVolume : Volume)
    (side : BookSide Price before) :
    (updateLevel exchangeId price newVolume side).exchanges =
      if 0 < newVolume then storeVolume exchangeId price newVolume side.exchanges
      else eraseVolume exchangeId price side.exchanges := by
  unfold updateLevel deleteLevel
  split
  · dsimp only
    split <;> rfl
  · dsimp only
    split <;> rfl

/-- An update sets the ledger entry of its exchange and price, a volume that is not positive
counting as none, and touches no other entry. -/
theorem volumeAt_updateLevel (exchangeId other : String) (price elsewhere : Price)
    (newVolume : Volume) (side : BookSide Price before) :
    volumeAt (updateLevel exchangeId price newVolume side).exchanges other elsewhere =
      if other = exchangeId ∧ elsewhere = price then max newVolume 0
      else volumeAt side.exchanges other elsewhere := by
  rw [exchanges_updateLevel]
  split <;> rename_i positive
  · rw [volumeAt_storeVolume, max_eq_left (le_of_lt positive)]
  · rw [volumeAt_eraseVolume, max_eq_right (le_of_not_gt positive)]

/-- The aggregated level which an update of a price leaves, if it leaves one. -/
def levelAfter (price : Price) (exchanges : ExchangeOrderMap Price) : Option Volume :=
  if 0 < getTotalVolumeAtPrice price exchanges then
    some (getTotalVolumeAtPrice price exchanges)
  else
    none

/-- An update makes its price list the new total, and evicts only after a positive volume. -/
theorem ordersMap_updateLevel (exchangeId : String) (price : Price) (newVolume : Volume)
    (side : BookSide Price before) :
    (updateLevel exchangeId price newVolume side).ordersMap =
      let level := levelAfter price (updateLevel exchangeId price newVolume side).exchanges
      if 0 < newVolume then (side.ordersMap.alter price level).take maxLevels
      else side.ordersMap.alter price level := by
  rw [exchanges_updateLevel]
  unfold updateLevel deleteLevel levelAfter
  split
  · dsimp only
    split <;> simp [rebalance_eq_take, OrderedMap.insert, OrderedMap.erase]
  · dsimp only
    split <;> rfl

theorem nonnegative_updateLevel {side : BookSide Price before}
    (nonnegative : Nonnegative side.exchanges) (exchangeId : String) (price : Price)
    (newVolume : Volume) :
    Nonnegative (updateLevel exchangeId price newVolume side).exchanges := by
  intro other elsewhere
  rw [volumeAt_updateLevel]
  split
  · exact le_max_right newVolume 0
  · exact nonnegative other elsewhere

/-- Totals at other prices do not change. -/
theorem total_updateLevel_of_ne {price elsewhere : Price} (different : elsewhere ≠ price)
    (exchangeId : String) (newVolume : Volume) (side : BookSide Price before) :
    getTotalVolumeAtPrice elsewhere (updateLevel exchangeId price newVolume side).exchanges =
      getTotalVolumeAtPrice elsewhere side.exchanges := by
  apply total_congr
  intro other
  simp [volumeAt_updateLevel, different]

/-- The total of a price after an exchange replaced its volume there. -/
def replacedTotal (exchangeId : String) (price : Price) (newVolume : Volume)
    (exchanges : ExchangeOrderMap Price) : Volume :=
  getTotalVolumeAtPrice price exchanges - volumeAt exchanges exchangeId price + max newVolume 0

theorem total_updateLevel (exchangeId : String) (price : Price) (newVolume : Volume)
    (side : BookSide Price before) :
    getTotalVolumeAtPrice price (updateLevel exchangeId price newVolume side).exchanges =
      replacedTotal exchangeId price newVolume side.exchanges := by
  have finite : ∀ exchanges : ExchangeOrderMap Price,
      (Function.support fun other => volumeAt exchanges other price).Finite := fun exchanges =>
    exchanges.keys.finite_toSet.subset (support_volumeAt exchanges price)
  have difference :
      getTotalVolumeAtPrice price (updateLevel exchangeId price newVolume side).exchanges -
          getTotalVolumeAtPrice price side.exchanges =
        max newVolume 0 - volumeAt side.exchanges exchangeId price := by
    rw [total_eq_finsum, total_eq_finsum, ← finsum_sub_distrib (finite _) (finite _),
      finsum_eq_single _ exchangeId]
    · simp [volumeAt_updateLevel]
    · intro other different
      simp [volumeAt_updateLevel, different]
  rw [replacedTotal]
  linarith

theorem levelAfter_eq_some {price : Price} {exchanges : ExchangeOrderMap Price} {volume : Volume} :
    levelAfter price exchanges = some volume ↔
      0 < volume ∧ volume = getTotalVolumeAtPrice price exchanges := by
  unfold levelAfter
  split
  · simp only [Option.some.injEq]
    constructor
    · rintro rfl
      exact ⟨‹_›, rfl⟩
    · exact fun total => total.2.symm
  · simp only [reduceCtorEq, false_iff]
    rintro ⟨positive, rfl⟩
    contradiction

/-- A positive update leaves a level at its price, before any eviction. -/
theorem levelAfter_of_pos {side : BookSide Price before} (nonnegative : Nonnegative side.exchanges)
    (exchangeId : String) (price : Price) {newVolume : Volume} (positive : 0 < newVolume) :
    levelAfter price (updateLevel exchangeId price newVolume side).exchanges ≠ none := by
  have live : 0 < getTotalVolumeAtPrice price
      (updateLevel exchangeId price newVolume side).exchanges := by
    rw [total_pos_iff (nonnegative_updateLevel nonnegative exchangeId price newVolume) _]
    exact ⟨exchangeId, by simpa [volumeAt_updateLevel] using positive⟩
  simp [levelAfter, live]

/-- A level listed after an update is the new level of its price or was listed before. -/
theorem lookup_updateLevel {exchangeId : String} {price elsewhere : Price}
    {newVolume volume : Volume} {side : BookSide Price before}
    (found : (updateLevel exchangeId price newVolume side).ordersMap.lookup elsewhere =
      some volume) :
    (elsewhere = price ∧ levelAfter price
        (updateLevel exchangeId price newVolume side).exchanges = some volume) ∨
      (elsewhere ≠ price ∧ side.ordersMap.lookup elsewhere = some volume) := by
  have altered : (side.ordersMap.alter price (levelAfter price
      (updateLevel exchangeId price newVolume side).exchanges)).lookup elsewhere =
        some volume := by
    rw [ordersMap_updateLevel] at found
    dsimp only at found
    split at found
    · exact OrderedMap.lookup_of_lookup_take found
    · exact found
  rw [OrderedMap.lookup_alter] at altered
  split at altered <;> rename_i same
  · exact Or.inl ⟨same, altered⟩
  · exact Or.inr ⟨same, altered⟩

/-- A positive update at a price behind a full side is evicted at once. -/
theorem ordersMap_updateLevel_of_behind {side : BookSide Price before} {price : Price}
    {newVolume : Volume} (positive : 0 < newVolume) (full : side.ordersMap.size = maxLevels)
    (behind : ∀ level ∈ side.ordersMap.entries, before level.1 price) (exchangeId : String) :
    (updateLevel exchangeId price newVolume side).ordersMap = side.ordersMap := by
  have rank_full : side.ordersMap.rank price = maxLevels :=
    (OrderedMap.rank_eq_size_iff.mpr behind).trans full
  rw [ordersMap_updateLevel]
  dsimp only
  rw [if_pos positive]
  ext1
  simp only [OrderedMap.take]
  rw [OrderedMap.take_alter _ rank_full.ge]
  exact List.take_of_length_le full.le

end Update

end CryptoInfra
