import CryptoInfra.Orderbook.Ledger

/-!
# Capacity and eviction

Only a positive update ends in an eviction. A deletion may list a level again, which is the one way
to exceed the capacity, and it may remove a level which nothing replaces, which is the one way to
leave a hole above an evicted level. Both are characterized along whole runs.
-/

namespace CryptoInfra

variable {Price : Type*} [LinearOrder Price]

/-! ## The capacity bound -/

namespace Orderbook

/-- Both aggregated sides are within capacity. -/
def WithinCapacity (book : Orderbook Price) : Prop :=
  book.bids.size ≤ maxLevels ∧ book.asks.size ≤ maxLevels

/-- The call is a deletion, on a full side which does not list its price, while another exchange
holds volume there. -/
def Relists (book : Orderbook Price) : Call Price → Prop
  | .update here exchangeId price newVolume =>
      newVolume ≤ 0 ∧ (book.side here).ordersMap.lookup price = none ∧
        (book.side here).ordersMap.size = maxLevels ∧
          ∃ other, other ≠ exchangeId ∧ 0 < book.getExchangeVolume here other price
  | _ => False

theorem withinCapacity_iff {book : Orderbook Price} :
    book.WithinCapacity ↔ ∀ here, (book.side here).ordersMap.size ≤ maxLevels := by
  constructor
  · rintro ⟨bids, asks⟩ here
    cases here
    · exact bids
    · exact asks
  · exact fun sides => ⟨sides .bid, sides .ask⟩

end Orderbook

section Side

variable {before : Price → Price → Prop} [IsStrictTotalOrder Price before] [DecidableRel before]

/-- A deletion leaves a level at its price exactly when another exchange holds volume there. -/
theorem levelAfter_delete_isSome_iff {bookSide : BookSide Price before}
    (nonnegative : Nonnegative bookSide.exchanges) (exchangeId : String) (price : Price)
    {newVolume : Volume} (deletion : newVolume ≤ 0) :
    (levelAfter price (updateLevel exchangeId price newVolume bookSide).exchanges).isSome ↔
      ∃ other, other ≠ exchangeId ∧ 0 < volumeAt bookSide.exchanges other price := by
  have after_nonnegative := nonnegative_updateLevel nonnegative exchangeId price newVolume
  have total_iff := total_pos_iff after_nonnegative price
  simp only [volumeAt_updateLevel, and_true, max_eq_right deletion] at total_iff
  rw [levelAfter, apply_ite Option.isSome]
  simp only [Option.isSome_some, Option.isSome_none, Bool.ite_eq_true_distrib, if_true_left,
    Bool.false_eq_true, imp_false, not_not]
  rw [total_iff]
  constructor
  · rintro ⟨other, positive⟩
    split at positive
    · exact absurd positive (lt_irrefl 0)
    · exact ⟨other, ‹_›, positive⟩
  · rintro ⟨other, different, positive⟩
    exact ⟨other, by simpa [different] using positive⟩

/-- Within capacity, an update exceeds it exactly when it lists one more level without evicting. -/
theorem size_updateLevel_le_iff {bookSide : BookSide Price before}
    (nonnegative : Nonnegative bookSide.exchanges)
    (within : bookSide.ordersMap.size ≤ maxLevels) (exchangeId : String) (price : Price)
    (newVolume : Volume) :
    (updateLevel exchangeId price newVolume bookSide).ordersMap.size ≤ maxLevels ↔
      ¬ (newVolume ≤ 0 ∧ bookSide.ordersMap.lookup price = none ∧
        bookSide.ordersMap.size = maxLevels ∧
          ∃ other, other ≠ exchangeId ∧ 0 < volumeAt bookSide.exchanges other price) := by
  rw [ordersMap_updateLevel]
  dsimp only
  split <;> rename_i positive
  · simp [not_le.mpr positive]
  · have deletion : newVolume ≤ 0 := le_of_not_gt positive
    rw [← levelAfter_delete_isSome_iff nonnegative exchangeId price deletion]
    have sizes := bookSide.ordersMap.size_alter price
      (levelAfter price (updateLevel exchangeId price newVolume bookSide).exchanges)
    generalize levelAfter price (updateLevel exchangeId price newVolume bookSide).exchanges = level
      at sizes ⊢
    generalize bookSide.ordersMap.lookup price = listed at sizes ⊢
    cases level <;> cases listed <;> simp [deletion] at sizes ⊢ <;> omega

end Side

/-- A call exceeds the capacity of a reachable book exactly when it relists a level on a full
side. -/
theorem withinCapacity_step_iff {book : Orderbook Price}
    (consistent : ∀ here, (book.side here).Consistent) (within : book.WithinCapacity)
    (call : Call Price) :
    (book.step call).1.WithinCapacity ↔ ¬ book.Relists call := by
  rw [Orderbook.withinCapacity_iff] at within ⊢
  simp only [Orderbook.side_step]
  cases call with
  | update side exchangeId price newVolume =>
      simp only [Orderbook.Relists, Orderbook.getExchangeVolume_eq]
      rw [← size_updateLevel_le_iff (consistent side).nonnegative (within side) exchangeId price
        newVolume]
      constructor
      · intro bounded
        simpa [BookSide.step] using bounded side
      · intro bounded here
        simp only [BookSide.step]
        split <;> rename_i same
        · subst same
          exact bounded
        · exact within here
  | initializeExchange exchangeId => simpa [BookSide.step, Orderbook.Relists] using within
  | addClient clientSocket => simpa [BookSide.step, Orderbook.Relists] using within
  | removeClient clientSocket => simpa [BookSide.step, Orderbook.Relists] using within

/-- A run within capacity exceeds it with its next call exactly when that call relists a level. -/
theorem withinCapacity_snoc_iff {currencyId : UInt32} {calls : List (Call Price)}
    (within : (Orderbook.run currencyId calls).1.WithinCapacity) (call : Call Price) :
    (Orderbook.run currencyId (calls ++ [call])).1.WithinCapacity ↔
      ¬ (Orderbook.run currencyId calls).1.Relists call := by
  rw [Orderbook.run_snoc]
  exact withinCapacity_step_iff (consistent_run currencyId calls) within call

/-- A run stays within capacity exactly when none of its calls relists a level on a full side. -/
theorem capacity_kept_iff (currencyId : UInt32) (calls : List (Call Price)) :
    (∀ front, front <+: calls → (Orderbook.run currencyId front).1.WithinCapacity) ↔
      ∀ front call, front ++ [call] <+: calls →
        ¬ (Orderbook.run currencyId front).1.Relists call :=
  History.forall_prefix_iff
    (fun front => (Orderbook.run currencyId front).1.WithinCapacity)
    (fun front call => ¬ (Orderbook.run currencyId front).1.Relists call)
    ⟨Nat.zero_le _, Nat.zero_le _⟩
    (fun _ call within => withinCapacity_snoc_iff within call) calls

/-! ## Holes above evicted levels -/

namespace BookSide

/-- The call deletes a listed level of this side for good. -/
def DeletesLevel {here : Side} (bookSide : BookSide Price here.before) : Call Price → Prop
  | .update side exchangeId price newVolume =>
      side = here ∧ newVolume ≤ 0 ∧ bookSide.ordersMap.lookup price ≠ none ∧
        (updateLevel exchangeId price newVolume bookSide).ordersMap.lookup price = none
  | _ => False

instance {here : Side} (bookSide : BookSide Price here.before) (call : Call Price) :
    Decidable (bookSide.DeletesLevel call) :=
  match call with
  | .update _ _ _ _ => inferInstanceAs (Decidable (_ ∧ _ ∧ _ ∧ _))
  | .initializeExchange _ => inferInstanceAs (Decidable False)
  | .addClient _ => inferInstanceAs (Decidable False)
  | .removeClient _ => inferInstanceAs (Decidable False)

end BookSide

/-- Number of calls which delete a listed level of a side for good. -/
def deletions (here : Side) : BookSide Price here.before → List (Call Price) → ℕ
  | _, [] => 0
  | bookSide, call :: calls =>
      (if bookSide.DeletesLevel call then 1 else 0) + deletions here (bookSide.step here call) calls

theorem deletions_append (here : Side) (bookSide : BookSide Price here.before)
    (front rest : List (Call Price)) :
    deletions here bookSide (front ++ rest) =
      deletions here bookSide front +
        deletions here (front.foldl (BookSide.step here) bookSide) rest := by
  induction front generalizing bookSide with
  | nil => simp [deletions]
  | cons call front induction =>
      simp only [List.cons_append, deletions, List.foldl_cons]
      rw [induction, Nat.add_assoc]

/-- The call updates a price of a side. -/
def Updates (here : Side) (price : Price) : Call Price → Prop
  | .update side _ updatedPrice _ => side = here ∧ updatedPrice = price
  | _ => False

/-- Some exchange holds volume at a price which the aggregated map does not list. -/
structure BookSide.Hides {before : Price → Price → Prop} (bookSide : BookSide Price before)
    (price : Price) : Prop where
  /-- The exchanges hold volume at the price. -/
  live : 0 < getTotalVolumeAtPrice price bookSide.exchanges
  /-- The price is not listed. -/
  unlisted : bookSide.ordersMap.lookup price = none

/-- The call put a price in, or found it listed, and evicted it from a side which is then full of
better levels. -/
structure Evicts (here : Side) (price : Price) (bookSide : BookSide Price here.before)
    (call : Call Price) : Prop where
  /-- The call is a positive update of the side, which listed the price or was about to. -/
  positive : ∃ exchangeId updatedPrice newVolume,
    call = .update here exchangeId updatedPrice newVolume ∧ 0 < newVolume ∧
      (updatedPrice = price ∨ bookSide.ordersMap.lookup price ≠ none)
  /-- The price is not listed afterwards. -/
  unlisted : (bookSide.step here call).ordersMap.lookup price = none
  /-- The side is full afterwards. -/
  full : (bookSide.step here call).ordersMap.size = maxLevels
  /-- All levels of the side are then better than the price. -/
  better : ∀ level ∈ (bookSide.step here call).ordersMap.entries, here.before level.1 price

section Evict

variable {here : Side} {bookSide : BookSide Price here.before}

/-- An update which hides a price it updates, or which was listed before, has just evicted it. -/
theorem evicts_of_hides_update {exchangeId : String} {updatedPrice price : Price}
    {newVolume : Volume}
    (hides : (updateLevel exchangeId updatedPrice newVolume bookSide).Hides price)
    (shown : updatedPrice = price ∨ bookSide.ordersMap.lookup price ≠ none) :
    Evicts here price bookSide (.update here exchangeId updatedPrice newVolume) := by
  set level := levelAfter updatedPrice
    (updateLevel exchangeId updatedPrice newVolume bookSide).exchanges with level_eq
  have after := ordersMap_updateLevel exchangeId updatedPrice newVolume bookSide
  rw [← level_eq] at after
  dsimp only at after
  have altered : (bookSide.ordersMap.alter updatedPrice level).lookup price ≠ none := by
    rw [OrderedMap.lookup_alter]
    split <;> rename_i same
    · rw [level_eq, levelAfter, if_pos (same ▸ hides.live)]
      exact Option.some_ne_none _
    · exact shown.resolve_left (Ne.symm same)
  by_cases positive : 0 < newVolume
  · rw [if_pos positive] at after
    have unlisted := hides.unlisted
    rw [after, OrderedMap.lookup_take, ite_eq_right_iff] at unlisted
    have rank_full : maxLevels ≤ (bookSide.ordersMap.alter updatedPrice level).rank price :=
      Nat.le_of_not_lt fun below => altered (unlisted below)
    have size_full := rank_full.trans
      ((bookSide.ordersMap.alter updatedPrice level).rank_le_size price)
    refine ⟨⟨exchangeId, updatedPrice, newVolume, rfl, positive, shown⟩, ?_, ?_, ?_⟩ <;>
      simp only [BookSide.step, if_true]
    · exact hides.unlisted
    · rw [after, OrderedMap.size_take, Nat.min_eq_left size_full]
    · rw [after, ← OrderedMap.rank_eq_size_iff, OrderedMap.size_take, OrderedMap.rank_take,
        Nat.min_eq_left size_full, Nat.min_eq_left rank_full]
  · rw [if_neg positive] at after
    exact absurd (after ▸ hides.unlisted) altered

/-- An update elsewhere keeps at least as many levels better than a price, except for one level
which it deletes for good. -/
theorem rank_updateLevel (consistent : bookSide.Consistent) {exchangeId : String}
    {updatedPrice price : Price} {newVolume : Volume} :
    min maxLevels (bookSide.ordersMap.rank price) ≤
      (updateLevel exchangeId updatedPrice newVolume bookSide).ordersMap.rank price +
        if bookSide.DeletesLevel (.update here exchangeId updatedPrice newVolume) then 1
        else 0 := by
  set level := levelAfter updatedPrice
    (updateLevel exchangeId updatedPrice newVolume bookSide).exchanges with level_eq
  have after := ordersMap_updateLevel exchangeId updatedPrice newVolume bookSide
  rw [← level_eq] at after
  dsimp only at after
  have ranks := bookSide.ordersMap.rank_alter updatedPrice price level
  by_cases positive : 0 < newVolume
  · rw [if_pos positive] at after
    have listed : level ≠ none := levelAfter_of_pos consistent.nonnegative _ _ positive
    obtain ⟨volume, listed⟩ := Option.ne_none_iff_exists'.mp listed
    rw [after, OrderedMap.rank_take]
    generalize bookSide.ordersMap.lookup updatedPrice = former at ranks
    cases former <;> simp [listed] at ranks ⊢ <;> omega
  · rw [if_neg positive] at after
    have deletes : bookSide.DeletesLevel (.update here exchangeId updatedPrice newVolume) ↔
        bookSide.ordersMap.lookup updatedPrice ≠ none ∧ level = none := by
      simp [BookSide.DeletesLevel, after, le_of_not_gt positive]
    rw [after]
    simp only [deletes]
    clear_value level
    generalize bookSide.ordersMap.lookup updatedPrice = former at ranks ⊢
    by_cases lower : here.before updatedPrice price <;> cases former <;> cases level <;>
      simp [lower] at ranks ⊢ <;> omega

end Evict

/-- A hidden price was evicted by an earlier call, nothing updated it since, and the levels better
than it are short of the capacity by at most the deletions since. -/
def HiddenSince (here : Side) (price : Price) (calls : List (Call Price)) : Prop :=
  ∃ front call rest, calls = front ++ call :: rest ∧
    Evicts here price (sideRun here front) call ∧
      (∀ later ∈ rest, ¬ Updates here price later) ∧
        maxLevels ≤ (sideRun here calls).ordersMap.rank price +
          deletions here (sideRun here (front ++ [call])) rest

theorem HiddenSince.of_evicts {here : Side} {price : Price} {calls : List (Call Price)}
    {call : Call Price} (evicts : Evicts here price (sideRun here calls) call) :
    HiddenSince here price (calls ++ [call]) := by
  refine ⟨calls, call, [], rfl, evicts, by simp, ?_⟩
  rw [sideRun_snoc, OrderedMap.rank_eq_size_iff.mpr evicts.better, evicts.full]
  exact Nat.le_add_right _ _

/-- A later call keeps the account when it does not update the price and keeps the levels better
than it up to one deletion. -/
theorem HiddenSince.snoc {here : Side} {price : Price} {calls : List (Call Price)}
    {call : Call Price} (hidden : HiddenSince here price calls)
    (elsewhere : ¬ Updates here price call)
    (ranks : min maxLevels ((sideRun here calls).ordersMap.rank price) ≤
      ((sideRun here calls).step here call).ordersMap.rank price +
        if (sideRun here calls).DeletesLevel call then 1 else 0) :
    HiddenSince here price (calls ++ [call]) := by
  obtain ⟨front, evicting, rest, rfl, evicts, untouched, account⟩ := hidden
  refine ⟨front, evicting, rest ++ [call], by simp, evicts, ?_, ?_⟩
  · intro later member
    rcases List.mem_append.mp member with earlier | last
    · exact untouched later earlier
    · rw [List.mem_singleton.mp last]
      exact elsewhere
  · have continued : rest.foldl (BookSide.step here) (sideRun here (front ++ [evicting])) =
        sideRun here (front ++ evicting :: rest) := by
      simp [sideRun]
    rw [sideRun_snoc, deletions_append, continued]
    simp only [deletions, Nat.add_zero]
    omega

theorem hiddenSince_of_hides (here : Side) (price : Price) (calls : List (Call Price))
    (hides : (sideRun here calls).Hides price) : HiddenSince here price calls := by
  induction calls using List.reverseRecOn with
  | nil => exact absurd hides.live (by simp [getTotalVolumeAtPrice])
  | append_singleton calls call induction =>
      rw [sideRun_snoc] at hides
      cases call with
      | update side exchangeId updatedPrice newVolume =>
          by_cases same : side = here
          · subst same
            simp only [BookSide.step, if_true] at hides
            by_cases shown : updatedPrice = price ∨
                (sideRun side calls).ordersMap.lookup price ≠ none
            · exact .of_evicts (evicts_of_hides_update hides shown)
            · obtain ⟨different, unlisted⟩ := not_or.mp shown
              have live := hides.live
              rw [total_updateLevel_of_ne (Ne.symm different)] at live
              refine (induction ⟨live, not_not.mp unlisted⟩).snoc ?_ ?_
              · simp [Updates, different]
              · simpa [BookSide.step] using rank_updateLevel (consistent_sideRun side calls)
          · simp only [BookSide.step, if_neg same] at hides
            refine (induction hides).snoc ?_ ?_
            · simp [Updates, same]
            · simp [BookSide.step, same]
      | initializeExchange exchangeId =>
          have before : (sideRun here calls).Hides price :=
            ⟨by simpa [BookSide.step] using hides.live, hides.unlisted⟩
          exact (induction before).snoc (by simp [Updates]) (by simp [BookSide.step])
      | addClient clientSocket =>
          exact (induction hides).snoc (by simp [Updates]) (by simp [BookSide.step])
      | removeClient clientSocket =>
          exact (induction hides).snoc (by simp [Updates]) (by simp [BookSide.step])

/-- While fewer levels were deleted than the capacity, a live price is listed or some better price
is. -/
theorem listed_or_better_of_live {here : Side} {price : Price} {calls : List (Call Price)}
    (live : 0 < getTotalVolumeAtPrice price (sideRun here calls).exchanges)
    (few : deletions here (sideRun here []) calls < maxLevels) :
    ∃ level ∈ (sideRun here calls).ordersMap.entries,
      level.1 = price ∨ here.before level.1 price := by
  cases listed : (sideRun here calls).ordersMap.lookup price with
  | some volume =>
      exact ⟨(price, volume), OrderedMap.lookup_eq_some_iff.mp listed, Or.inl rfl⟩
  | none =>
      obtain ⟨front, call, rest, rfl, -, -, account⟩ :=
        hiddenSince_of_hides here price calls ⟨live, listed⟩
      have split := deletions_append here (sideRun here []) (front ++ [call]) rest
      have continued : (front ++ [call]).foldl (BookSide.step here) (sideRun here []) =
          sideRun here (front ++ [call]) := rfl
      rw [continued, List.append_assoc, List.singleton_append] at split
      have positive :
          0 < ((sideRun here (front ++ call :: rest)).ordersMap.front price).length := by
        change 0 < (sideRun here (front ++ call :: rest)).ordersMap.rank price
        omega
      obtain ⟨level, member⟩ := List.exists_mem_of_length_pos positive
      exact ⟨level, (OrderedMap.mem_front.mp member).1,
        Or.inr (OrderedMap.mem_front.mp member).2⟩

/-- Along every run a live price which is not listed was evicted by an earlier call, which left the
side full of better levels; since then nothing updated the price, and the better levels are short of
the capacity by at most the deletions. While fewer levels were deleted than the capacity, the first
level is the best price that any exchange holds. -/
theorem unlisted_live_prices_were_evicted (currencyId : UInt32) (calls : List (Call Price))
    (here : Side) :
    (∀ price, ((Orderbook.run currencyId calls).1.side here).Hides price →
        HiddenSince here price calls) ∧
      ((∃ exchangeId price,
          0 < (Orderbook.run currencyId calls).1.getExchangeVolume here exchangeId price) →
        deletions here (sideRun here []) calls < maxLevels →
          ∃ best, ((Orderbook.run currencyId calls).1.side here).ordersMap.first = some best ∧
            (∃ exchangeId,
              0 < (Orderbook.run currencyId calls).1.getExchangeVolume here exchangeId best.1) ∧
            ∀ exchangeId price,
              0 < (Orderbook.run currencyId calls).1.getExchangeVolume here exchangeId price →
                best.1 = price ∨ here.before best.1 price) := by
  simp only [Orderbook.getExchangeVolume_eq, Orderbook.side_run]
  have consistent := consistent_sideRun here calls
  refine ⟨fun price => hiddenSince_of_hides here price calls, ?_⟩
  rintro ⟨holder, held, positive⟩ few
  have reached : ∀ exchangeId price,
      0 < volumeAt (sideRun here calls).exchanges exchangeId price →
        ∃ level ∈ (sideRun here calls).ordersMap.entries,
          level.1 = price ∨ here.before level.1 price := by
    intro exchangeId price volume
    exact listed_or_better_of_live
      ((total_pos_iff consistent.nonnegative _).mpr ⟨exchangeId, volume⟩) few
  obtain ⟨some_level, some_member, -⟩ := reached holder held positive
  cases first : (sideRun here calls).ordersMap.first with
  | none =>
      have empty : (sideRun here calls).ordersMap.entries = [] := by
        simpa [OrderedMap.first] using first
      rw [empty] at some_member
      contradiction
  | some best =>
      have best_member : best ∈ (sideRun here calls).ordersMap.entries :=
        List.mem_of_mem_head? (Option.mem_def.mpr first)
      have best_total := consistent.listed best.1 best.2
        (OrderedMap.lookup_eq_some_iff.mpr best_member)
      refine ⟨best, rfl, ?_, ?_⟩
      · exact (total_pos_iff consistent.nonnegative _).mp (best_total.2 ▸ best_total.1)
      · intro exchangeId price volume
        obtain ⟨level, member, near⟩ := reached exchangeId price volume
        rcases OrderedMap.first_before first member with rfl | ahead
        · exact near
        · rcases near with rfl | behind
          · exact Or.inr ahead
          · exact Or.inr (trans_of here.before ahead behind)

/-! ## A full side -/

/-- One exchange asks for one unit at each of the prices `1, …, count`, best price first. -/
def ladder (exchangeId : String) (count : ℕ) : List (Call ℕ) :=
  (List.range count).map fun rung => .update .ask exchangeId (rung + 1) 1

theorem ladder_succ (exchangeId : String) (count : ℕ) :
    ladder exchangeId (count + 1) =
      ladder exchangeId count ++ [.update .ask exchangeId (count + 1) 1] := by
  simp [ladder, List.range_succ]

theorem volumeAt_ladder (exchangeId other : String) (count price : ℕ) :
    volumeAt (sideRun .ask (ladder exchangeId count)).exchanges other price =
      if other = exchangeId ∧ 0 < price ∧ price ≤ count then 1 else 0 := by
  induction count with
  | zero =>
      have outside : ¬ (other = exchangeId ∧ 0 < price ∧ price ≤ 0) := by omega
      rw [if_neg outside]
      simp [ladder, volumeAt]
  | succ count induction =>
      rw [ladder_succ, sideRun_snoc, BookSide.step, if_pos rfl, volumeAt_updateLevel, induction]
      by_cases same : other = exchangeId
      · by_cases rung : price = count + 1
        · simp [same, rung]
        · have within : price ≤ count + 1 ↔ price ≤ count := by omega
          simp [same, rung, within]
      · simp [same]

theorem total_ladder (exchangeId : String) (count price : ℕ) :
    getTotalVolumeAtPrice price (sideRun .ask (ladder exchangeId count)).exchanges =
      if 0 < price ∧ price ≤ count then 1 else 0 := by
  rw [total_eq_finsum, finsum_eq_single _ exchangeId]
  · simp [volumeAt_ladder]
  · intro other different
    simp [volumeAt_ladder, different]

/-- The ladder lists its rungs up to the capacity; later rungs are evicted at once. -/
theorem entries_ladder (exchangeId : String) (count : ℕ) :
    (sideRun .ask (ladder exchangeId count)).ordersMap.entries =
      (List.range (min count maxLevels)).map fun rung => (rung + 1, 1) := by
  induction count with
  | zero => rfl
  | succ count induction =>
      have level : levelAfter (count + 1)
          (sideRun .ask (ladder exchangeId (count + 1))).exchanges = some 1 := by
        simp [levelAfter, total_ladder]
      have last : ∀ entry ∈ (sideRun .ask (ladder exchangeId count)).ordersMap.entries,
          entry.1 < count + 1 := by
        simp only [induction, List.mem_map, List.mem_range]
        rintro entry ⟨rung, below, rfl⟩
        dsimp only
        omega
      rw [ladder_succ, sideRun_snoc, BookSide.step, if_pos rfl] at level ⊢
      rw [ordersMap_updateLevel, level, if_pos one_pos, OrderedMap.take]
      dsimp only
      rw [OrderedMap.entries_alter_of_last last, induction]
      rcases Nat.lt_or_ge count maxLevels with below | full
      · rw [List.take_of_length_le (by simp; omega), Nat.min_eq_left below,
          Nat.min_eq_left below.le, List.range_succ]
        simp
      · rw [Nat.min_eq_right full, Nat.min_eq_right (full.trans (Nat.le_succ count))]
        simp

theorem size_ladder_full (exchangeId : String) :
    (sideRun .ask (ladder exchangeId (maxLevels + 1))).ordersMap.size = maxLevels := by
  simp [OrderedMap.size, entries_ladder]

theorem ladder_full_before (exchangeId : String) :
    ∀ entry ∈ (sideRun .ask (ladder exchangeId (maxLevels + 1))).ordersMap.entries,
      entry.1 < maxLevels + 1 := by
  simp only [entries_ladder, List.mem_map, List.mem_range]
  rintro entry ⟨rung, below, rfl⟩
  dsimp only
  omega

theorem lookup_ladder_full (exchangeId : String) :
    (sideRun .ask (ladder exchangeId (maxLevels + 1))).ordersMap.lookup (maxLevels + 1) = none := by
  rw [OrderedMap.lookup_eq_none_iff]
  intro volume member
  exact lt_irrefl _ (ladder_full_before exchangeId _ member)

/-- A full ladder with one more rung, whose best rung is then deleted. -/
def gapCalls : List (Call ℕ) :=
  ladder "coinbase" (maxLevels + 1) ++ [.update .ask "coinbase" 1 0]

theorem ordersMap_gapCalls :
    (sideRun .ask gapCalls).ordersMap =
      (sideRun .ask (ladder "coinbase" (maxLevels + 1))).ordersMap.alter 1 none := by
  have deleted : levelAfter 1 (updateLevel "coinbase" 1 0
      (sideRun .ask (ladder "coinbase" (maxLevels + 1)))).exchanges = none := by
    rw [← Option.not_isSome_iff_eq_none,
      levelAfter_delete_isSome_iff (consistent_sideRun .ask _).nonnegative _ _ le_rfl]
    rintro ⟨other, different, positive⟩
    simp [volumeAt_ladder, different] at positive
  rw [gapCalls, sideRun_snoc, BookSide.step, if_pos rfl, ordersMap_updateLevel, deleted]
  simp

/-- Deleting the best rung of a full ladder leaves a hole above the evicted rung. -/
theorem gapCalls_leave_hole :
    ((Orderbook.run 1 gapCalls).1.side .ask).Hides (maxLevels + 1) ∧
      ((Orderbook.run 1 gapCalls).1.side .ask).ordersMap.rank (maxLevels + 1) < maxLevels := by
  have apart : maxLevels + 1 ≠ 1 := by simp [maxLevels]
  rw [Orderbook.side_run]
  refine ⟨⟨?_, ?_⟩, ?_⟩
  · rw [gapCalls, sideRun_snoc, BookSide.step, if_pos rfl, total_updateLevel_of_ne apart,
      total_ladder]
    simp
  · rw [ordersMap_gapCalls, OrderedMap.lookup_alter_of_ne apart, lookup_ladder_full]
  · have best_listed :
        (sideRun .ask (ladder "coinbase" (maxLevels + 1))).ordersMap.lookup 1 = some 1 := by
      rw [OrderedMap.lookup_eq_some_iff, entries_ladder]
      exact List.mem_map.mpr ⟨0, by simp [maxLevels], rfl⟩
    have sizes := (sideRun .ask (ladder "coinbase" (maxLevels + 1))).ordersMap.size_alter 1 none
    rw [best_listed, size_ladder_full] at sizes
    rw [ordersMap_gapCalls]
    refine lt_of_le_of_lt (OrderedMap.rank_le_size _ _) ?_
    simp at sizes
    omega

/-- A full ladder with one more rung, which two exchanges hold. -/
def crowdedCalls : List (Call ℕ) :=
  ladder "coinbase" (maxLevels + 1) ++ [.update .ask "crypto" (maxLevels + 1) 1]

theorem asks_crowdedCalls :
    (sideRun .ask crowdedCalls).ordersMap =
      (sideRun .ask (ladder "coinbase" (maxLevels + 1))).ordersMap := by
  rw [crowdedCalls, sideRun_snoc, BookSide.step, if_pos rfl]
  exact ordersMap_updateLevel_of_behind one_pos (size_ladder_full _) (ladder_full_before _) _

theorem crypto_crowdedCalls :
    volumeAt (sideRun .ask crowdedCalls).exchanges "crypto" (maxLevels + 1) = 1 := by
  rw [crowdedCalls, sideRun_snoc, BookSide.step, if_pos rfl, volumeAt_updateLevel]
  simp

/-- Deleting one holder of an evicted price on a full side exceeds the capacity. -/
theorem crowdedCalls_then_delete_exceeds :
    ¬ (Orderbook.run 1
        (crowdedCalls ++ [.update .ask "coinbase" (maxLevels + 1) 0])).1.WithinCapacity := by
  intro within
  have asks := Orderbook.withinCapacity_iff.mp within .ask
  have full : (sideRun .ask crowdedCalls).ordersMap.size = maxLevels := by
    rw [asks_crowdedCalls, size_ladder_full]
  rw [Orderbook.side_run, sideRun_snoc, BookSide.step, if_pos rfl,
    size_updateLevel_le_iff (consistent_sideRun .ask crowdedCalls).nonnegative full.le] at asks
  refine asks ⟨le_rfl, ?_, full, "crypto", by decide, ?_⟩
  · rw [asks_crowdedCalls, lookup_ladder_full]
  · rw [crypto_crowdedCalls]
    exact one_pos

end CryptoInfra
