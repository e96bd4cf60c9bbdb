import CryptoInfra.Orderbook.Broadcast

/-!
# Repeated broadcasts

An update publishes whenever its price passes the price test or an earlier change is still pending,
whether or not it changes anything. This file compares every broadcast with the previous one and
characterizes the updates which publish the same top levels again.
-/

namespace CryptoInfra

variable {Price : Type*} [LinearOrder Price]

/-! ## The trigger -/

section Side

variable {before : Price → Price → Prop} [IsStrictTotalOrder Price before] [DecidableRel before]

/-- The price test counts the better levels and the new level of the price. -/
theorem isInFirstNKeys_updateLevel_iff {exchangeId : String} {price : Price} {newVolume : Volume}
    {bookSide : BookSide Price before} :
    isInFirstNKeys (updateLevel exchangeId price newVolume bookSide).ordersMap price = true ↔
      bookSide.ordersMap.rank price +
        (newLevel exchangeId price newVolume bookSide).toList.length < topLevels := by
  rw [isInFirstNKeys_iff, rank_updateLevel_self]
  rcases Nat.lt_or_ge (bookSide.ordersMap.rank price) maxLevels with within | outside
  · rw [lookup_updateLevel_self within, levelAfter_updateLevel, Nat.min_eq_right within.le,
      ite_self]
  · simp only [topLevels, maxLevels] at outside ⊢
    split <;> omega

/-- The top levels after an update are those of the map in which its price has the new level. -/
theorem top_updateLevel (exchangeId : String) (price : Price) (newVolume : Volume)
    (bookSide : BookSide Price before) :
    (updateLevel exchangeId price newVolume bookSide).ordersMap.entries.take topLevels =
      (bookSide.ordersMap.alter price
        (newLevel exchangeId price newVolume bookSide)).entries.take topLevels := by
  rw [ordersMap_updateLevel, ← levelAfter_updateLevel]
  dsimp only
  split
  · rw [OrderedMap.entries_take, List.take_take]
    rfl
  · rfl

/-- Of the first levels only the one of the price is pending: the update sets it to what was
published, and next to it the first levels at other prices are the published ones. -/
structure TakesBack (bookSide : BookSide Price before) (published : List (Price × Volume))
    (exchangeId : String) (price : Price) (newVolume : Volume) : Prop where
  /-- The price is to lie among the top levels, or to leave them. -/
  within : bookSide.ordersMap.rank price < topLevels
  /-- Its level is another one so far. -/
  pending : bookSide.ordersMap.lookup price ≠ newLevel exchangeId price newVolume bookSide
  /-- The new level was published. -/
  restored : ∀ volume, (price, volume) ∈ published ↔
    newLevel exchangeId price newVolume bookSide = some volume
  /-- So were the first levels at other prices. -/
  others : OrderedMap.others price published =
    (OrderedMap.others price bookSide.ordersMap.entries).take
      (topLevels - (newLevel exchangeId price newVolume bookSide).toList.length)

/-- An update leaves the published top levels exactly when it does not touch them or takes the only
pending change of them back. -/
theorem top_updateLevel_eq_iff {exchangeId : String} {price : Price} {newVolume : Volume}
    {bookSide : BookSide Price before} {published : List (Price × Volume)}
    (sorted : published.Pairwise fun left right => before left.1 right.1) :
    (updateLevel exchangeId price newVolume bookSide).ordersMap.entries.take topLevels =
        published ↔
      (bookSide.ordersMap.entries.take topLevels = published ∧
          (topLevels ≤ bookSide.ordersMap.rank price ∨
            bookSide.ordersMap.lookup price =
              newLevel exchangeId price newVolume bookSide)) ∨
        TakesBack bookSide published exchangeId price newVolume := by
  rw [top_updateLevel]
  by_cases untouched : topLevels ≤ bookSide.ordersMap.rank price ∨
      bookSide.ordersMap.lookup price = newLevel exchangeId price newVolume bookSide
  · rw [OrderedMap.take_alter_eq_iff.mpr untouched, and_iff_left untouched]
    constructor
    · exact Or.inl
    · rintro (same | ⟨within, pending, -, -⟩)
      · exact same
      · exact absurd untouched (not_or.mpr ⟨Nat.not_le_of_lt within, pending⟩)
  · obtain ⟨within, pending⟩ := not_or.mp untouched
    have reached := Nat.lt_of_not_le within
    rw [OrderedMap.take_alter_eq_iff_others reached sorted]
    constructor
    · rintro ⟨restored, others⟩
      exact Or.inr ⟨reached, pending, restored, others⟩
    · rintro (⟨-, kept⟩ | ⟨-, -, restored, others⟩)
      · exact absurd kept untouched
      · exact ⟨restored, others⟩

end Side

namespace Orderbook

/-! ## The previous broadcast -/

/-- The first `topLevels` entries of both sides. -/
def tops (book : Orderbook Price) (here : Side) : List (Price × Volume) :=
  (book.side here).ordersMap.entries.take topLevels

/-- Execute a call, noting the top levels whenever a snapshot is sent. -/
def noteTops (noted : Orderbook Price × Option (Side → List (Price × Volume)))
    (call : Call Price) : Orderbook Price × Option (Side → List (Price × Volume)) :=
  let outcome := noted.1.step call
  match outcome.2 with
  | [] => (outcome.1, noted.2)
  | _ :: _ => (outcome.1, some outcome.1.tops)

/-- The top levels at the last broadcast of a run, if there was one. -/
def lastTops (currencyId : UInt32) (calls : List (Call Price)) :
    Option (Side → List (Price × Volume)) :=
  (calls.foldl noteTops (new currencyId, none)).2

theorem noteTops_fst (noted : Orderbook Price × Option (Side → List (Price × Volume)))
    (call : Call Price) : (noteTops noted call).1 = (noted.1.step call).1 := by
  unfold noteTops
  dsimp only
  split <;> rfl

theorem foldl_noteTops_fst (currencyId : UInt32) (calls : List (Call Price)) :
    (calls.foldl noteTops (new currencyId, none)).1 = (run currencyId calls).1 := by
  induction calls using List.reverseRecOn with
  | nil => rfl
  | append_singleton calls call induction =>
      rw [List.foldl_concat, noteTops_fst, induction, run_snoc]

theorem lastTops_snoc (currencyId : UInt32) (calls : List (Call Price)) (call : Call Price) :
    lastTops currencyId (calls ++ [call]) =
      if ((run currencyId calls).1.step call).2 = [] then lastTops currencyId calls
      else some ((run currencyId calls).1.step call).1.tops := by
  rw [lastTops, List.foldl_concat, noteTops, foldl_noteTops_fst]
  cases ((run currencyId calls).1.step call).2 <;> rfl

theorem tops_ne_nil {book : Orderbook Price} (bids : book.bids.size ≠ 0)
    (asks : book.asks.size ≠ 0) (there : Side) : book.tops there ≠ [] := by
  have entries : (book.side there).ordersMap.entries ≠ [] := by
    cases there with
    | bid => exact mt List.length_eq_zero_iff.mpr bids
    | ask => exact mt List.length_eq_zero_iff.mpr asks
  simpa [tops, topLevels] using entries

/-- A call which sends a snapshot leaves both sides nonempty. -/
theorem tops_ne_nil_of_sends {book : Orderbook Price} {call : Call Price}
    (sends : (book.step call).2 ≠ []) (there : Side) : (book.step call).1.tops there ≠ [] := by
  cases call with
  | update here exchangeId price newVolume =>
      rw [step_update] at sends ⊢
      rcases sendSnapshot_cases (book.updated here exchangeId price newVolume) with
        ⟨silent, -⟩ | ⟨snapshot, -, -, bids, asks, -, sent⟩
      · rw [silent] at sends
        exact absurd rfl sends
      · rw [sent]
        exact tops_ne_nil bids asks there
  | initializeExchange exchangeId => exact absurd rfl sends
  | addClient clientSocket => exact absurd rfl sends
  | removeClient clientSocket => exact absurd rfl sends

/-- The last broadcast was one of the top levels of a book. -/
theorem exists_of_lastTops {currencyId : UInt32} {calls : List (Call Price)}
    {published : Side → List (Price × Volume)}
    (noted : lastTops currencyId calls = some published) :
    ∃ broadcast : Orderbook Price, published = broadcast.tops ∧
      ∀ there, broadcast.tops there ≠ [] := by
  induction calls using List.reverseRecOn with
  | nil => contradiction
  | append_singleton calls call induction =>
      rw [lastTops_snoc] at noted
      split at noted <;> rename_i sends
      · exact induction noted
      · exact ⟨_, (Option.some.inj noted).symm, tops_ne_nil_of_sends sends⟩

theorem sorted_tops (book : Orderbook Price) (there : Side) :
    (book.tops there).Pairwise fun left right => there.before left.1 right.1 :=
  ((book.side there).ordersMap.take topLevels).sorted

/-! ## Updates which repeat a broadcast -/

/-- An update which publishes the top levels of the previous broadcast again. -/
structure Repeats (book : Orderbook Price) (published : Side → List (Price × Volume)) (here : Side)
    (exchangeId : String) (price : Price) (newVolume : Volume) : Prop where
  /-- There are clients. -/
  clients : book.clientSendList ≠ []
  /-- A change is pending, or the price is to lie among the top levels. -/
  triggered : book.topLevelsUpdated = false ∨
    (book.side here).ordersMap.rank price +
      (newLevel exchangeId price newVolume (book.side here)).toList.length < topLevels
  /-- The top levels of the other side were published. -/
  other : ∀ there, there ≠ here → book.tops there = published there
  /-- The update does not touch published top levels, or it takes the pending change back. -/
  idle : (book.tops here = published here ∧
      (topLevels ≤ (book.side here).ordersMap.rank price ∨
        (book.side here).ordersMap.lookup price =
          newLevel exchangeId price newVolume (book.side here))) ∨
    TakesBack (book.side here) (published here) exchangeId price newVolume

theorem tops_updated_of_ne {book : Orderbook Price} {here there : Side} (different : there ≠ here)
    (exchangeId : String) (price : Price) (newVolume : Volume) :
    (book.updated here exchangeId price newVolume).tops there = book.tops there := by
  rw [tops, side_updated, BookSide.step, if_neg (Ne.symm different), tops]

theorem tops_sendSnapshot (book : Orderbook Price) : book.sendSnapshot.1.tops = book.tops := by
  funext there
  rw [tops, side_sendSnapshot, tops]

/-- An update broadcasts the top levels of an earlier broadcast again exactly when it repeats it. -/
theorem repeats_iff {book broadcast : Orderbook Price}
    (nonempty : ∀ there, broadcast.tops there ≠ []) {here : Side} {exchangeId : String}
    {price : Price} {newVolume : Volume} :
    ((book.step (.update here exchangeId price newVolume)).2 ≠ [] ∧
        (book.step (.update here exchangeId price newVolume)).1.tops = broadcast.tops) ↔
      book.Repeats broadcast.tops here exchangeId price newVolume := by
  have lowered : (book.updated here exchangeId price newVolume).topLevelsUpdated = false ↔
      book.topLevelsUpdated = false ∨
        (book.side here).ordersMap.rank price +
          (newLevel exchangeId price newVolume (book.side here)).toList.length < topLevels := by
    rw [← isInFirstNKeys_updateLevel_iff, ← Bool.not_eq_true, raised_updated_iff, not_and_or,
      Bool.not_eq_true, Bool.not_eq_false]
  have restores : (book.updated here exchangeId price newVolume).tops here =
      broadcast.tops here ↔
        (book.tops here = broadcast.tops here ∧
          (topLevels ≤ (book.side here).ordersMap.rank price ∨
            (book.side here).ordersMap.lookup price =
              newLevel exchangeId price newVolume (book.side here))) ∨
          TakesBack (book.side here) (broadcast.tops here) exchangeId price newVolume := by
    rw [tops, side_updated, BookSide.step, if_pos rfl,
      top_updateLevel_eq_iff (broadcast.sorted_tops here), ← tops]
  rw [step_update, tops_sendSnapshot]
  constructor
  · rintro ⟨sends, same⟩
    rcases sendSnapshot_cases (book.updated here exchangeId price newVolume) with
      ⟨silent, -⟩ | ⟨snapshot, -, down, -, -, clients, -⟩
    · rw [silent] at sends
      exact absurd rfl sends
    · rw [clients_updated] at clients
      refine ⟨clients, lowered.mp down, fun there different => ?_, restores.mp (congrFun same here)⟩
      rw [← tops_updated_of_ne different exchangeId price newVolume, same]
  · rintro ⟨clients, triggered, other, idle⟩
    have restored : (book.updated here exchangeId price newVolume).tops = broadcast.tops := by
      funext there
      by_cases same : there = here
      · subst same
        exact restores.mpr idle
      · rw [tops_updated_of_ne same, other there same]
    refine ⟨?_, restored⟩
    rw [← restored] at nonempty
    rw [← clients_updated book here exchangeId price newVolume] at clients
    rcases sendSnapshot_cases (book.updated here exchangeId price newVolume) with
      ⟨-, up | bids | asks | nobody⟩ | ⟨snapshot, -, -, -, -, -, sent⟩
    · exact absurd (up.symm.trans (lowered.mpr triggered)) (by decide)
    · have empty : (book.updated here exchangeId price newVolume).tops .bid = [] := by
        simp [tops, side, List.length_eq_zero_iff.mp bids]
      exact absurd empty (nonempty .bid)
    · have empty : (book.updated here exchangeId price newVolume).tops .ask = [] := by
        simp [tops, side, List.length_eq_zero_iff.mp asks]
      exact absurd empty (nonempty .ask)
    · exact absurd nobody clients
    · rw [sent]
      simpa using clients

/-- If a call broadcasts after an earlier broadcast, the top levels differ from the ones it
published. -/
def BroadcastsChange (currencyId : UInt32) (front : List (Call Price)) (call : Call Price) : Prop :=
  let outcome := (run currencyId front).1.step call
  outcome.2 ≠ [] → ∀ published, lastTops currencyId front = some published →
    ∃ there, outcome.1.tops there ≠ published there

/-- The call is an update which repeats the last broadcast of the run. -/
def RepeatsBroadcast (currencyId : UInt32) (front : List (Call Price)) : Call Price → Prop
  | .update here exchangeId price newVolume =>
      ∃ published, lastTops currencyId front = some published ∧
        (run currencyId front).1.Repeats published here exchangeId price newVolume
  | _ => False

theorem broadcastsChange_iff (currencyId : UInt32) (front : List (Call Price))
    (call : Call Price) :
    BroadcastsChange currencyId front call ↔ ¬ RepeatsBroadcast currencyId front call := by
  cases call with
  | update here exchangeId price newVolume =>
      simp only [BroadcastsChange, RepeatsBroadcast, not_exists, not_and]
      constructor
      · intro changes published noted repeats
        obtain ⟨broadcast, rfl, nonempty⟩ := exists_of_lastTops noted
        obtain ⟨sends, same⟩ := (repeats_iff nonempty).mpr repeats
        obtain ⟨there, different⟩ := changes sends _ noted
        exact different (congrFun same there)
      · intro fresh sends published noted
        by_contra same
        obtain ⟨broadcast, rfl, nonempty⟩ := exists_of_lastTops noted
        refine fresh _ noted ((repeats_iff nonempty).mp ⟨sends, ?_⟩)
        funext there
        exact not_not.mp (not_exists.mp same there)
  | initializeExchange exchangeId => simp [BroadcastsChange, RepeatsBroadcast, step]
  | addClient clientSocket => simp [BroadcastsChange, RepeatsBroadcast, step]
  | removeClient clientSocket => simp [BroadcastsChange, RepeatsBroadcast, step]

/-- Along a run every broadcast after the first publishes changed top levels exactly when no update
of the run repeats the broadcast before it. -/
theorem broadcasts_change_iff_none_repeats (currencyId : UInt32) (calls : List (Call Price)) :
    (∀ front call, front ++ [call] <+: calls → BroadcastsChange currencyId front call) ↔
      ∀ front call, front ++ [call] <+: calls → ¬ RepeatsBroadcast currencyId front call := by
  simp only [broadcastsChange_iff]

/-- The arrival of a fifth bid is overlooked; deleting it takes this back and publishes again. -/
example :
    let broadcast := (run 1 fullTopCalls.dropLast).1
    let book := (run 1 fullTopCalls).1
    let outcome := book.step (.update .bid "coinbase" 6 0)
    book.tops .bid ≠ broadcast.tops .bid ∧ outcome.1.tops .bid = broadcast.tops .bid ∧
      outcome.2 ≠ [] := by
  decide +kernel

/-- One client, one ask and one bid. -/
def quotedCalls : List (Call ℕ) :=
  [.addClient 7, .update .ask "coinbase" 20 1, .update .bid "coinbase" 10 1]

/-- Deleting a bid which nobody holds publishes the same levels again. -/
theorem quotedCalls_then_absent_delete_repeats :
    ¬ ∀ front call, front ++ [call] <+: quotedCalls ++ [.update .bid "coinbase" 11 0] →
      BroadcastsChange 1 front call := by
  intro changes
  have sends : ((run 1 quotedCalls).1.step (.update .bid "coinbase" 11 0)).2 ≠ [] := by
    decide +kernel
  have noted : lastTops 1 quotedCalls = some (run 1 quotedCalls).1.tops := by
    have last : quotedCalls = [.addClient 7, .update .ask "coinbase" 20 1] ++
        [.update .bid "coinbase" 10 1] := rfl
    rw [last, lastTops_snoc, if_neg (by decide +kernel), run_snoc]
  obtain ⟨there, different⟩ := changes quotedCalls _ List.prefix_rfl sends _ noted
  cases there
  · exact different (by decide +kernel)
  · exact different (by decide +kernel)

end Orderbook

end CryptoInfra
