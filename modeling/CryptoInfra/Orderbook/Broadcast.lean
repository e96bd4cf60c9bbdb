import CryptoInfra.Orderbook.Ledger

/-!
# Publication of the best levels

An update lowers the shared flag when its price lies before the last of the first `topLevels` keys,
and every update then publishes unless the flag is up, a side is empty or nobody listens. The price
test is a rank bound. From it follow what the flag promises about the last broadcast and which
changes it misses.
-/

namespace CryptoInfra

variable {Price : Type*} [LinearOrder Price]

/-! ## The price test -/

section Rank

variable {before : Price → Price → Prop} [IsStrictTotalOrder Price before] [DecidableRel before]

/-- The price test counts the levels which are not worse than the price. -/
theorem isInFirstNKeys_iff {ordersMap : OrderedMap Price Volume before} {price : Price} :
    isInFirstNKeys ordersMap price = true ↔
      ordersMap.rank price + (ordersMap.lookup price).toList.length < topLevels := by
  have sizes := ordersMap.size_split price
  unfold isInFirstNKeys
  split <;> rename_i short
  · simp only [true_iff]
    omega
  · have within : topLevels - 1 < ordersMap.entries.length := by
      simp only [OrderedMap.size, topLevels] at short ⊢
      omega
    rw [List.getElem?_eq_getElem within]
    simp only [decide_eq_true_eq]
    rw [OrderedMap.before_getElem_iff within]
    simp only [topLevels]
    omega

/-- An update of a price leaves the levels in front of it alone. -/
theorem take_updateLevel {bookSide : BookSide Price before} {price : Price} {count : ℕ}
    (behind : count ≤ bookSide.ordersMap.rank price) (within : count ≤ maxLevels)
    (exchangeId : String) (newVolume : Volume) :
    (updateLevel exchangeId price newVolume bookSide).ordersMap.entries.take count =
      bookSide.ordersMap.entries.take count := by
  rw [ordersMap_updateLevel]
  dsimp only
  split
  · simp only [OrderedMap.take, List.take_take, Nat.min_eq_left within]
    exact OrderedMap.take_alter _ behind
  · exact OrderedMap.take_alter _ behind

/-- The rank of the updated price itself changes by eviction only. -/
theorem rank_updateLevel_self (exchangeId : String) (price : Price) (newVolume : Volume)
    (bookSide : BookSide Price before) :
    (updateLevel exchangeId price newVolume bookSide).ordersMap.rank price =
      if 0 < newVolume then min maxLevels (bookSide.ordersMap.rank price)
      else bookSide.ordersMap.rank price := by
  rw [ordersMap_updateLevel]
  dsimp only
  split
  · rw [OrderedMap.rank_take, OrderedMap.rank_alter_self]
  · rw [OrderedMap.rank_alter_self]

/-- A price which fails the price test lies behind the levels in front of the last top one, and
these did not change. -/
theorem top_levels_of_not_isInFirstNKeys {bookSide : BookSide Price before} {exchangeId : String}
    {price : Price} {newVolume : Volume}
    (test : isInFirstNKeys (updateLevel exchangeId price newVolume bookSide).ordersMap price =
      false) :
    (updateLevel exchangeId price newVolume bookSide).ordersMap.entries.take (topLevels - 1) =
      bookSide.ordersMap.entries.take (topLevels - 1) := by
  rw [← Bool.not_eq_true, isInFirstNKeys_iff, rank_updateLevel_self] at test
  have listed_once := Option.length_toList_le
    (o := (updateLevel exchangeId price newVolume bookSide).ordersMap.lookup price)
  apply take_updateLevel
  · split at test <;> omega
  · simp [topLevels, maxLevels]

theorem first_of_not_isInFirstNKeys {bookSide : BookSide Price before} {exchangeId : String}
    {price : Price} {newVolume : Volume}
    (test : isInFirstNKeys (updateLevel exchangeId price newVolume bookSide).ordersMap price =
      false) :
    (updateLevel exchangeId price newVolume bookSide).ordersMap.first =
      bookSide.ordersMap.first := by
  have heads := congrArg List.head? (top_levels_of_not_isInFirstNKeys test)
  simpa [OrderedMap.first, List.head?_take, topLevels] using heads

theorem lookup_updateLevel_self {bookSide : BookSide Price before} {price : Price}
    (within : bookSide.ordersMap.rank price < maxLevels) (exchangeId : String)
    (newVolume : Volume) :
    (updateLevel exchangeId price newVolume bookSide).ordersMap.lookup price =
      levelAfter price (updateLevel exchangeId price newVolume bookSide).exchanges := by
  rw [ordersMap_updateLevel]
  dsimp only
  split
  · rw [OrderedMap.lookup_take, OrderedMap.rank_alter_self, if_pos within,
      OrderedMap.lookup_alter_self]
  · rw [OrderedMap.lookup_alter_self]

/-- The price becomes, or stays, the last of the top levels and its volume changes there. -/
structure LastTopChanges (bookSide : BookSide Price before) (exchangeId : String) (price : Price)
    (newVolume : Volume) : Prop where
  /-- All other top levels are better. -/
  last : bookSide.ordersMap.rank price = topLevels - 1
  /-- Volume remains at the price. -/
  live : 0 < replacedTotal exchangeId price newVolume bookSide.exchanges
  /-- The price is not listed with that volume yet. -/
  changed : bookSide.ordersMap.lookup price ≠
    some (replacedTotal exchangeId price newVolume bookSide.exchanges)

/-- The level which an update is to leave at its price. -/
def newLevel (exchangeId : String) (price : Price) (newVolume : Volume)
    (bookSide : BookSide Price before) : Option Volume :=
  if 0 < replacedTotal exchangeId price newVolume bookSide.exchanges then
    some (replacedTotal exchangeId price newVolume bookSide.exchanges)
  else
    none

theorem levelAfter_updateLevel (exchangeId : String) (price : Price) (newVolume : Volume)
    (bookSide : BookSide Price before) :
    levelAfter price (updateLevel exchangeId price newVolume bookSide).exchanges =
      newLevel exchangeId price newVolume bookSide := by
  rw [levelAfter, total_updateLevel, newLevel]

/-- An overlooked change is one of the last top level. -/
theorem lastTopChanges_of_overlooked {bookSide : BookSide Price before} {exchangeId : String}
    {price : Price} {newVolume : Volume}
    (different : (updateLevel exchangeId price newVolume bookSide).ordersMap.entries.take
      topLevels ≠ bookSide.ordersMap.entries.take topLevels)
    (test : isInFirstNKeys (updateLevel exchangeId price newVolume bookSide).ordersMap price =
      false) :
    LastTopChanges bookSide exchangeId price newVolume := by
  rw [← Bool.not_eq_true, isInFirstNKeys_iff] at test
  have level := levelAfter_updateLevel exchangeId price newVolume bookSide
  have rank_after := rank_updateLevel_self exchangeId price newVolume bookSide
  have last : bookSide.ordersMap.rank price = topLevels - 1 := by
    have listed_once := Option.length_toList_le
      (o := (updateLevel exchangeId price newVolume bookSide).ordersMap.lookup price)
    have below : ¬ topLevels ≤ bookSide.ordersMap.rank price := fun behind =>
      different (take_updateLevel behind (by simp [topLevels, maxLevels]) _ _)
    simp only [topLevels, maxLevels] at *
    split at rank_after <;> omega
  have within : bookSide.ordersMap.rank price < maxLevels := by
    simp [last, topLevels, maxLevels]
  have live : 0 < replacedTotal exchangeId price newVolume bookSide.exchanges := by
    by_contra dead
    rw [lookup_updateLevel_self within, level, newLevel, if_neg dead, rank_after, last] at test
    simp [topLevels, maxLevels] at test
  refine ⟨last, live, fun same => different ?_⟩
  rw [newLevel, if_pos live, ← same] at level
  rw [ordersMap_updateLevel]
  dsimp only
  rw [level, OrderedMap.alter_lookup]
  split
  · simp [OrderedMap.take, List.take_take, topLevels, maxLevels]
  · rfl

/-- A change of the last top level is overlooked. -/
theorem LastTopChanges.overlooked {bookSide : BookSide Price before} {exchangeId : String}
    {price : Price} {newVolume : Volume}
    (changes : LastTopChanges bookSide exchangeId price newVolume) :
    (updateLevel exchangeId price newVolume bookSide).ordersMap.entries.take topLevels ≠
        bookSide.ordersMap.entries.take topLevels ∧
      isInFirstNKeys (updateLevel exchangeId price newVolume bookSide).ordersMap price =
        false := by
  obtain ⟨last, live, changed⟩ := changes
  have within : bookSide.ordersMap.rank price < maxLevels := by
    simp [last, topLevels, maxLevels]
  have after := lookup_updateLevel_self within exchangeId newVolume
  rw [levelAfter_updateLevel, newLevel, if_pos live] at after
  have rank_kept : (updateLevel exchangeId price newVolume bookSide).ordersMap.rank price =
      topLevels - 1 := by
    rw [rank_updateLevel_self, last]
    simp [topLevels, maxLevels]
  constructor
  · intro same
    have maps : (updateLevel exchangeId price newVolume bookSide).ordersMap.take topLevels =
        bookSide.ordersMap.take topLevels := OrderedMap.ext same
    have lookups := congrArg (OrderedMap.lookup · price) maps
    simp only [OrderedMap.lookup_take, rank_kept, last, after] at lookups
    exact changed (by simpa [topLevels] using lookups.symm)
  · rw [← Bool.not_eq_true, isInFirstNKeys_iff, rank_kept, after]
    simp [topLevels]

/-- The price test overlooks a change of the top levels exactly when it is one of the last top
level. -/
theorem overlooked_iff {bookSide : BookSide Price before} {exchangeId : String} {price : Price}
    {newVolume : Volume} :
    ((updateLevel exchangeId price newVolume bookSide).ordersMap.entries.take topLevels ≠
          bookSide.ordersMap.entries.take topLevels ∧
        isInFirstNKeys (updateLevel exchangeId price newVolume bookSide).ordersMap price =
          false) ↔
      LastTopChanges bookSide exchangeId price newVolume :=
  ⟨fun overlooked => lastTopChanges_of_overlooked overlooked.1 overlooked.2,
    LastTopChanges.overlooked⟩

end Rank

namespace Orderbook

/-! ## One call -/

/-- Replace one side. -/
def setSide (book : Orderbook Price) : (here : Side) → BookSide Price here.before →
    Orderbook Price
  | .bid, bookSide => { book with bids := bookSide.ordersMap, exchangeBids := bookSide.exchanges }
  | .ask, bookSide => { book with asks := bookSide.ordersMap, exchangeAsks := bookSide.exchanges }

/-- The book right before an update publishes. -/
def updated (book : Orderbook Price) (here : Side) (exchangeId : String) (price : Price)
    (newVolume : Volume) : Orderbook Price :=
  { book.setSide here (updateLevel exchangeId price newVolume (book.side here)) with
    topLevelsUpdated := book.topLevelsUpdated &&
      !isInFirstNKeys (updateLevel exchangeId price newVolume (book.side here)).ordersMap price }

theorem step_update (book : Orderbook Price) (here : Side) (exchangeId : String) (price : Price)
    (newVolume : Volume) :
    book.step (.update here exchangeId price newVolume) =
      sendSnapshot (book.updated here exchangeId price newVolume) := by
  cases here <;> simp only [step, updateBid, updateAsk, updated, setSide, side] <;> split <;>
    rename_i test <;> simp [test]

theorem raised_updated_iff {book : Orderbook Price} {here : Side} {exchangeId : String}
    {price : Price} {newVolume : Volume} :
    (book.updated here exchangeId price newVolume).topLevelsUpdated = true ↔
      book.topLevelsUpdated = true ∧
        isInFirstNKeys (updateLevel exchangeId price newVolume (book.side here)).ordersMap price =
          false := by
  simp [updated]

theorem clients_updated (book : Orderbook Price) (here : Side) (exchangeId : String)
    (price : Price) (newVolume : Volume) :
    (book.updated here exchangeId price newVolume).clientSendList = book.clientSendList := by
  cases here <;> rfl

theorem currencyId_updated (book : Orderbook Price) (here : Side) (exchangeId : String)
    (price : Price) (newVolume : Volume) :
    (book.updated here exchangeId price newVolume).currencyId = book.currencyId := by
  cases here <;> rfl

theorem side_updated (book : Orderbook Price) (here there : Side) (exchangeId : String)
    (price : Price) (newVolume : Volume) :
    (book.updated here exchangeId price newVolume).side there =
      (book.side there).step there (.update here exchangeId price newVolume) := by
  cases here <;> cases there <;> rfl

/-- The best levels depend on the first level of both sides. -/
theorem topOfBook_congr {left right : Orderbook Price}
    (currencyId : left.currencyId = right.currencyId)
    (firsts : ∀ here, (left.side here).ordersMap.first = (right.side here).ordersMap.first) :
    left.topOfBook = right.topOfBook := by
  have bids : left.bids.first = right.bids.first := firsts .bid
  have asks : left.asks.first = right.asks.first := firsts .ask
  rw [topOfBook, topOfBook, bids, asks, currencyId]

theorem clients_sendSnapshot (book : Orderbook Price) :
    book.sendSnapshot.1.clientSendList = book.clientSendList := by
  rw [sendSnapshot]
  split <;> rfl

/-- Publishing either finds a reason to stay silent or sends the best levels to every client. -/
theorem sendSnapshot_cases (book : Orderbook Price) :
    (book.sendSnapshot = (book, []) ∧
        (book.topLevelsUpdated = true ∨ book.bids.size = 0 ∨ book.asks.size = 0 ∨
          book.clientSendList = [])) ∨
      ∃ snapshot, book.topOfBook = some snapshot ∧ book.topLevelsUpdated = false ∧
        book.bids.size ≠ 0 ∧ book.asks.size ≠ 0 ∧ book.clientSendList ≠ [] ∧
          book.sendSnapshot = ({ book with topLevelsUpdated := true },
            book.clientSendList.map fun clientSocket => (clientSocket, snapshot)) := by
  rw [sendSnapshot]
  split <;> rename_i silent
  · exact Or.inl ⟨rfl, by simpa using silent⟩
  · simp only [not_or, Bool.not_eq_true, List.length_eq_zero_iff] at silent
    obtain ⟨lowered, bids, asks, clients⟩ := silent
    cases bid : book.bids.first with
    | none => exact absurd (OrderedMap.first_eq_none_iff.mp bid) bids
    | some best_bid =>
        cases ask : book.asks.first with
        | none => exact absurd (OrderedMap.first_eq_none_iff.mp ask) asks
        | some best_ask =>
            refine Or.inr ⟨_, by rw [topOfBook, bid, ask], lowered, bids, asks, clients, ?_⟩
            simp [topOfBook, bid, ask, List.map_eq_flatMap]

/-! ## The last broadcast -/

/-- The snapshot which was broadcast last. -/
def lastBroadcast (sends : List (Socket × Snapshot Price Volume)) :
    Option (Snapshot Price Volume) :=
  sends.getLast?.map Prod.snd

/-- Both sides are nonempty and the last broadcast carried the current best levels. -/
structure Published (book : Orderbook Price) (sends : List (Socket × Snapshot Price Volume)) :
    Prop where
  /-- There is a bid. -/
  bids : book.bids.size ≠ 0
  /-- There is an ask. -/
  asks : book.asks.size ≠ 0
  /-- The last broadcast carried the best bid and ask. -/
  current : lastBroadcast sends = book.topOfBook

/-- While an update leaves the flag up, no best level changes. -/
theorem firsts_of_updated {book : Orderbook Price} {here : Side} {exchangeId : String}
    {price : Price} {newVolume : Volume}
    (raised : (book.updated here exchangeId price newVolume).topLevelsUpdated = true)
    (there : Side) :
    ((book.updated here exchangeId price newVolume).side there).ordersMap.first =
      (book.side there).ordersMap.first := by
  rw [side_updated, BookSide.step]
  split <;> rename_i same
  · subst same
    apply first_of_not_isInFirstNKeys
    exact (raised_updated_iff.mp raised).2
  · rfl

theorem Published.of_firsts {left right : Orderbook Price}
    {sends : List (Socket × Snapshot Price Volume)} (published : left.Published sends)
    (currencyId : right.currencyId = left.currencyId)
    (firsts : ∀ here, (right.side here).ordersMap.first = (left.side here).ordersMap.first) :
    right.Published sends where
  bids := by
    rw [Ne, ← OrderedMap.first_eq_none_iff]
    exact (firsts .bid).trans_ne (mt OrderedMap.first_eq_none_iff.mp published.bids)
  asks := by
    rw [Ne, ← OrderedMap.first_eq_none_iff]
    exact (firsts .ask).trans_ne (mt OrderedMap.first_eq_none_iff.mp published.asks)
  current := published.current.trans (topOfBook_congr currencyId firsts).symm

/-- One call keeps the meaning of the flag. -/
theorem published_step {book : Orderbook Price} {sends : List (Socket × Snapshot Price Volume)}
    (flag : book.topLevelsUpdated = true → book.Published sends) (call : Call Price)
    (raised : (book.step call).1.topLevelsUpdated = true) :
    (book.step call).1.Published (sends ++ (book.step call).2) := by
  cases call with
  | update here exchangeId price newVolume =>
      rw [step_update] at raised ⊢
      rcases sendSnapshot_cases (book.updated here exchangeId price newVolume) with
        ⟨silent, -⟩ | ⟨snapshot, best, -, bids, asks, clients, sent⟩
      · rw [silent] at raised ⊢
        rw [List.append_nil]
        exact (flag (raised_updated_iff.mp raised).1).of_firsts (currencyId_updated ..)
          (firsts_of_updated raised)
      · rw [sent]
        refine ⟨bids, asks, ?_⟩
        obtain ⟨last, last_eq⟩ := Option.ne_none_iff_exists'.mp
          (mt List.getLast?_eq_none_iff.mp clients)
        rw [lastBroadcast, List.getLast?_append, List.getLast?_map, last_eq]
        exact best.symm
  | initializeExchange exchangeId =>
      rw [step, List.append_nil]
      exact (flag raised).of_firsts rfl fun here => by cases here <;> rfl
  | addClient clientSocket =>
      have same : (book.addClient clientSocket).topLevelsUpdated = book.topLevelsUpdated := by
        rw [addClient]
        split <;> rfl
      rw [step, List.append_nil]
      refine (flag (same.symm.trans raised)).of_firsts ?_ fun here => ?_
      · rw [addClient]
        split <;> rfl
      · rw [addClient]
        split <;> cases here <;> rfl
  | removeClient clientSocket =>
      rw [step, List.append_nil]
      exact (flag raised).of_firsts rfl fun here => by cases here <;> rfl

theorem published_run (currencyId : UInt32) (calls : List (Call Price)) :
    (run currencyId calls).1.topLevelsUpdated = true →
      (run currencyId calls).1.Published (run currencyId calls).2 := by
  refine History.run_invariant
    (fun (book : Orderbook Price) sends => book.topLevelsUpdated = true → book.Published sends)
    ?_ ?_ calls
  · intro book sends call flag
    exact published_step flag call
  · exact fun raised => nomatch raised

/-- An update which leaves both sides and the client list nonempty leaves the flag up. -/
theorem raised_of_update {book : Orderbook Price} {here : Side} {exchangeId : String}
    {price : Price} {newVolume : Volume}
    (bids : (book.step (.update here exchangeId price newVolume)).1.bids.size ≠ 0)
    (asks : (book.step (.update here exchangeId price newVolume)).1.asks.size ≠ 0)
    (clients : (book.step (.update here exchangeId price newVolume)).1.clientSendList ≠ []) :
    (book.step (.update here exchangeId price newVolume)).1.topLevelsUpdated = true := by
  rw [step_update] at bids asks clients ⊢
  rcases sendSnapshot_cases (book.updated here exchangeId price newVolume) with
    ⟨silent, reason⟩ | ⟨snapshot, -, -, -, -, -, sent⟩
  · rw [silent] at bids asks clients ⊢
    simpa [bids, asks, clients] using reason
  · rw [sent]

/-- Along every run, an update which leaves both sides and the client list nonempty leaves the
current best levels broadcast last, and so does every state whose flag is up. -/
theorem last_broadcast_is_current (currencyId : UInt32) (calls : List (Call Price)) :
    ((run currencyId calls).1.topLevelsUpdated = true →
        (run currencyId calls).1.Published (run currencyId calls).2) ∧
      ∀ front here exchangeId price newVolume,
        calls = front ++ [.update here exchangeId price newVolume] →
          (run currencyId calls).1.bids.size ≠ 0 → (run currencyId calls).1.asks.size ≠ 0 →
            (run currencyId calls).1.clientSendList ≠ [] →
              ∃ snapshot, (run currencyId calls).1.topOfBook = some snapshot ∧
                lastBroadcast (run currencyId calls).2 = some snapshot := by
  refine ⟨published_run currencyId calls, ?_⟩
  rintro front here exchangeId price newVolume rfl bids asks clients
  have raised : (run currencyId
      (front ++ [.update here exchangeId price newVolume])).1.topLevelsUpdated = true := by
    rw [run_snoc] at bids asks clients ⊢
    exact raised_of_update bids asks clients
  have published := published_run currencyId _ raised
  obtain ⟨bid, bid_first⟩ := Option.ne_none_iff_exists'.mp
    (mt OrderedMap.first_eq_none_iff.mp published.bids)
  obtain ⟨ask, ask_first⟩ := Option.ne_none_iff_exists'.mp
    (mt OrderedMap.first_eq_none_iff.mp published.asks)
  refine ⟨_, by rw [topOfBook, bid_first, ask_first], ?_⟩
  rw [published.current, topOfBook, bid_first, ask_first]

/-! ## Overlooked changes -/

/-- The outcome of a call sends the best levels to every client. -/
def Broadcasts (outcome : Orderbook Price × List (Socket × Snapshot Price Volume)) : Prop :=
  ∃ snapshot, outcome.1.topOfBook = some snapshot ∧
    outcome.2 = outcome.1.clientSendList.map fun clientSocket => (clientSocket, snapshot)

/-- The flag is up, somebody listens, and an update changes the last top level alone. -/
structure Overlooks (book : Orderbook Price) (here : Side) (exchangeId : String) (price : Price)
    (newVolume : Volume) : Prop where
  /-- The best levels count as published. -/
  raised : book.topLevelsUpdated = true
  /-- There are clients. -/
  clients : book.clientSendList ≠ []
  /-- The update changes the last of the top levels. -/
  changes : LastTopChanges (book.side here) exchangeId price newVolume

/-- In every reachable book a change of the top levels is broadcast, unless the flag is up and the
change is one of the last top level. -/
theorem top_level_changes_broadcast_iff (currencyId : UInt32) (calls : List (Call Price))
    (here : Side) (exchangeId : String) (price : Price) (newVolume : Volume) :
    let book := (run currencyId calls).1
    let outcome := book.step (.update here exchangeId price newVolume)
    ((outcome.1.side here).ordersMap.entries.take topLevels ≠
          (book.side here).ordersMap.entries.take topLevels →
        outcome.1.bids.size ≠ 0 → outcome.1.asks.size ≠ 0 → outcome.1.clientSendList ≠ [] →
          Broadcasts outcome) ↔
      ¬ book.Overlooks here exchangeId price newVolume := by
  intro book outcome
  have side_after : outcome.1.side here =
      updateLevel exchangeId price newVolume (book.side here) := by
    simp only [outcome, side_step, BookSide.step, if_true]
  have published := published_run currencyId calls
  rw [side_after]
  simp only [outcome, step_update]
  rcases sendSnapshot_cases (book.updated here exchangeId price newVolume) with
    ⟨silent, reason⟩ | ⟨snapshot, best, lowered, -, -, -, sent⟩
  · rw [silent]
    constructor
    · rintro broadcast ⟨raised, clients, changes⟩
      obtain ⟨different, test⟩ := overlooked_iff.mpr changes
      have kept := (published raised).of_firsts (currencyId_updated ..)
        (firsts_of_updated (raised_updated_iff.mpr ⟨raised, test⟩))
      rw [clients_updated] at broadcast
      obtain ⟨snapshot, -, nothing⟩ := broadcast different kept.bids kept.asks clients
      rw [clients_updated] at nothing
      exact clients (List.map_eq_nil_iff.mp nothing.symm)
    · intro seen different bids asks clients
      have raised : (book.updated here exchangeId price newVolume).topLevelsUpdated = true := by
        simpa [bids, asks, clients] using reason
      obtain ⟨before, test⟩ := raised_updated_iff.mp raised
      rw [clients_updated] at clients
      exact absurd ⟨before, clients, overlooked_iff.mp ⟨different, test⟩⟩ seen
  · rw [sent]
    constructor
    · rintro - ⟨raised, -, changes⟩
      have kept := raised_updated_iff.mpr ⟨raised, (overlooked_iff.mpr changes).2⟩
      exact Bool.false_ne_true (lowered.symm.trans kept)
    · intro _ _ _ _ _
      exact ⟨snapshot, best, rfl⟩

/-- One client, five bids and one ask. -/
def fullTopCalls : List (Call ℕ) :=
  [.addClient 7, .update .ask "coinbase" 20 1, .update .bid "coinbase" 10 1,
    .update .bid "coinbase" 9 1, .update .bid "coinbase" 8 1, .update .bid "coinbase" 7 1,
    .update .bid "coinbase" 6 1]

/-- A new volume at the fifth bid is not broadcast. -/
theorem fullTopCalls_then_fifth_overlooked :
    let book := (run 1 fullTopCalls).1
    let outcome := book.step (.update .bid "coinbase" 6 2)
    outcome.1.bids.entries.take topLevels ≠ book.bids.entries.take topLevels ∧
      outcome.1.bids.size ≠ 0 ∧ outcome.1.asks.size ≠ 0 ∧ outcome.1.clientSendList ≠ [] ∧
        outcome.2 = [] := by
  decide +kernel

end Orderbook

end CryptoInfra
