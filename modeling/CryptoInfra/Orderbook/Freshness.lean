import CryptoInfra.Orderbook.Consolidated
import CryptoInfra.Orderbook.LateClients
import Mathlib.Data.List.Infix

/-!
# Clients which are up to date

The flag speaks about the broadcasts of the book, and a client only has those which were sent while
it was listed. A client which was sent anything since it joined was sent the last broadcast, so it
has the current best levels whenever the flag is up. This file determines exactly which clients are
up to date.
-/

namespace CryptoInfra

variable {Price : Type*} [LinearOrder Price]

namespace Orderbook

/-! ## What a client was sent -/

/-- The snapshot of a send to a client. -/
def sentTo (clientSocket : Socket) (sent : Socket × Snapshot Price Volume) :
    Option (Snapshot Price Volume) :=
  if sent.1 = clientSocket then some sent.2 else none

/-- Whenever both sides are nonempty, the flag is up and the best levels were sent last. -/
def UpToDate (book : Orderbook Price) (last : Option (Snapshot Price Volume)) : Prop :=
  ∀ snapshot, book.topOfBook = some snapshot →
    book.topLevelsUpdated = true ∧ last = some snapshot

theorem sides_of_topOfBook {book : Orderbook Price} {snapshot : Snapshot Price Volume}
    (best : book.topOfBook = some snapshot) : book.bids.size ≠ 0 ∧ book.asks.size ≠ 0 := by
  obtain ⟨-, bid, ask⟩ := topOfBook_eq_some_iff.mp best
  exact ⟨mt OrderedMap.first_eq_none_iff.mpr (Option.ne_none_iff_exists'.mpr ⟨_, bid⟩),
    mt OrderedMap.first_eq_none_iff.mpr (Option.ne_none_iff_exists'.mpr ⟨_, ask⟩)⟩

/-- A book with the same flag and the same best levels finds its clients as up to date. -/
theorem UpToDate.of_same {left right : Orderbook Price} {last : Option (Snapshot Price Volume)}
    (upToDate : left.UpToDate last) (flag : right.topLevelsUpdated = left.topLevelsUpdated)
    (best : right.topOfBook = left.topOfBook) : right.UpToDate last := by
  intro snapshot found
  rw [flag]
  exact upToDate snapshot (best.symm.trans found)

theorem latest_sentTo_broadcast {Price : Type*} {clients : List Socket} {clientSocket : Socket}
    (listed : clientSocket ∈ clients) (snapshot : Snapshot Price Volume) :
    History.latest (sentTo clientSocket) (clients.map fun client => (client, snapshot)) =
      some snapshot := by
  cases found : History.latest (sentTo clientSocket)
      (clients.map fun client => (client, snapshot)) with
  | none =>
      rw [History.latest, List.getLast?_eq_none_iff, List.filterMap_eq_nil_iff] at found
      have sent := found _ (List.mem_map_of_mem listed)
      rw [sentTo, if_pos rfl] at sent
      cases sent
  | some last =>
      obtain ⟨sent, member, same⟩ := History.exists_of_latest found
      obtain ⟨client, -, rfl⟩ := List.mem_map.mp member
      rw [sentTo, Option.ite_none_right_eq_some] at same
      exact same.2.symm

/-- What a call which leaves a client listed sends to it: the best levels, or nothing. -/
theorem upToDate_of_sent {book : Orderbook Price} {call : Call Price} {clientSocket : Socket}
    (listed : clientSocket ∈ (book.step call).1.clientSendList) {last : Snapshot Price Volume}
    (sent : History.latest (sentTo clientSocket) (book.step call).2 = some last) :
    (book.step call).1.UpToDate (some last) := by
  cases call with
  | update here exchangeId price newVolume =>
      rw [step_update] at listed sent ⊢
      rcases sendSnapshot_cases (book.updated here exchangeId price newVolume) with
        ⟨silent, -⟩ | ⟨snapshot, best, -, -, -, -, outcome⟩
      · rw [silent] at sent
        cases sent
      · rw [outcome] at listed sent ⊢
        rw [latest_sentTo_broadcast listed, Option.some_inj] at sent
        subst sent
        intro other found
        exact ⟨rfl, best.symm.trans found⟩
  | initializeExchange exchangeId => cases sent
  | addClient other => cases sent
  | removeClient other => cases sent

/-- A call which leaves a client listed leaves it up to date. -/
theorem UpToDate.step {book : Orderbook Price} {last : Option (Snapshot Price Volume)}
    (upToDate : book.UpToDate last) {call : Call Price} {clientSocket : Socket}
    (listed : clientSocket ∈ (book.step call).1.clientSendList) :
    (book.step call).1.UpToDate
      ((History.latest (sentTo clientSocket) (book.step call).2).or last) := by
  cases sent : History.latest (sentTo clientSocket) (book.step call).2 with
  | some snapshot => exact upToDate_of_sent listed sent
  | none =>
      rw [Option.none_or]
      cases call with
      | update here exchangeId price newVolume =>
          rw [step_update] at listed sent ⊢
          rcases sendSnapshot_cases (book.updated here exchangeId price newVolume) with
            ⟨silent, reason⟩ | ⟨snapshot, -, -, -, -, -, outcome⟩
          · rw [silent] at listed ⊢
            intro snapshot best
            obtain ⟨bids, asks⟩ := sides_of_topOfBook best
            have raised : (book.updated here exchangeId price newVolume).topLevelsUpdated = true :=
              by simpa [bids, asks, List.ne_nil_of_mem listed] using reason
            have kept : (book.updated here exchangeId price newVolume).topOfBook =
                book.topOfBook :=
              topOfBook_congr (currencyId_updated ..) (firsts_of_updated raised)
            exact ⟨raised, (upToDate snapshot (kept.symm.trans best)).2⟩
          · rw [outcome] at listed sent
            rw [latest_sentTo_broadcast listed] at sent
            cases sent
      | initializeExchange exchangeId => exact upToDate.of_same rfl rfl
      | addClient other =>
          rw [Orderbook.step, addClient]
          split
          · exact upToDate
          · exact upToDate.of_same rfl rfl
      | removeClient other => exact upToDate.of_same rfl rfl

/-! ## Since a client joined -/

theorem latest_sendsSince_snoc (currencyId : UInt32) (front rest : List (Call Price))
    (clientSocket : Socket) (call : Call Price) :
    History.latest (sentTo clientSocket)
        (sendsSince currencyId front clientSocket (rest ++ [call])) =
      (History.latest (sentTo clientSocket)
        ((run currencyId (front ++ .addClient clientSocket :: rest)).1.step call).2).or
          (History.latest (sentTo clientSocket)
            (sendsSince currencyId front clientSocket rest)) := by
  have filtered : ∀ sends : List (Socket × Snapshot Price Volume),
      History.latest (sentTo clientSocket) (sends.filter fun sent => sent.1 = clientSocket) =
        History.latest (sentTo clientSocket) sends := by
    intro sends
    rw [History.latest, List.filterMap_filter, History.latest]
    congr 2
    funext sent
    by_cases same : sent.1 = clientSocket <;> simp [sentTo, same]
  rw [sendsSince_snoc, History.latest_append, filtered]

/-- A client which has been sent a snapshot since it joined is up to date. -/
theorem upToDate_of_served {currencyId : UInt32} {front rest : List (Call Price)}
    {clientSocket : Socket} (joined : Joined currencyId front clientSocket rest)
    {last : Snapshot Price Volume}
    (served : History.latest (sentTo clientSocket)
      (sendsSince currencyId front clientSocket rest) = some last) :
    (run currencyId (front ++ .addClient clientSocket :: rest)).1.UpToDate (some last) := by
  induction rest using List.reverseRecOn generalizing last with
  | nil => cases served
  | append_singleton rest call induction =>
      have continued : front ++ .addClient clientSocket :: (rest ++ [call]) =
          front ++ .addClient clientSocket :: rest ++ [call] := by simp
      have listed := joined.present _ List.prefix_rfl
      rw [continued, run_snoc] at listed ⊢
      rw [latest_sendsSince_snoc] at served
      cases before : History.latest (sentTo clientSocket)
          (sendsSince currencyId front clientSocket rest) with
      | none =>
          rw [before, Option.or_none] at served
          exact upToDate_of_sent listed served
      | some earlier =>
          rw [before] at served
          exact served ▸ (induction joined.of_append before).step listed

theorem getLast?_sendsSince (currencyId : UInt32) (front rest : List (Call Price))
    (clientSocket : Socket) :
    (sendsSince currencyId front clientSocket rest).getLast? =
      (History.latest (sentTo clientSocket)
        (sendsSince currencyId front clientSocket rest)).map fun snapshot =>
          (clientSocket, snapshot) := by
  have own : ∀ sent ∈ sendsSince currencyId front clientSocket rest, sent.1 = clientSocket := by
    intro sent member
    simpa using (List.mem_filter.mp member).2
  generalize sendsSince currencyId front clientSocket rest = sends at own
  induction sends using List.reverseRecOn with
  | nil => rfl
  | append_singleton sends sent induction =>
      obtain ⟨recipient, snapshot⟩ := sent
      obtain rfl : recipient = clientSocket := own (recipient, snapshot) (by simp)
      simp [sentTo]

/-- Along every run, while both sides are nonempty and the flag is up, the last snapshot sent to a
listed client since it joined carries the current best levels exactly if the flag was down on its
joining or some update since touched the top levels. All other listed clients have been sent nothing
since. -/
theorem up_to_date_iff_top_touched (currencyId : UInt32) (front rest : List (Call Price))
    (clientSocket : Socket) (joined : Joined currencyId front clientSocket rest)
    (raised :
      (run currencyId (front ++ .addClient clientSocket :: rest)).1.topLevelsUpdated = true)
    (snapshot : Snapshot Price Volume)
    (best :
      (run currencyId (front ++ .addClient clientSocket :: rest)).1.topOfBook = some snapshot) :
    ((sendsSince currencyId front clientSocket rest).getLast? = some (clientSocket, snapshot) ↔
        (run currencyId front).1.topLevelsUpdated = false ∨
          SomeSince TouchesTop currencyId front clientSocket rest) ∧
      ((sendsSince currencyId front clientSocket rest).getLast? ≠ some (clientSocket, snapshot) →
        sendsSince currencyId front clientSocket rest = []) := by
  have served := served_or_lowered_iff joined
  rw [raised, or_iff_left (by decide)] at served
  have last_iff : (sendsSince currencyId front clientSocket rest).getLast? =
      some (clientSocket, snapshot) ↔ sendsSince currencyId front clientSocket rest ≠ [] := by
    constructor
    · intro last nothing
      rw [nothing] at last
      cases last
    · intro some_sent
      rw [getLast?_sendsSince]
      cases found : History.latest (sentTo clientSocket)
          (sendsSince currencyId front clientSocket rest) with
      | none =>
          have none_last := getLast?_sendsSince currencyId front rest clientSocket
          rw [found, Option.map_none, List.getLast?_eq_none_iff] at none_last
          exact absurd none_last some_sent
      | some last =>
          obtain ⟨-, same⟩ := upToDate_of_served joined found snapshot best
          rw [Option.map_some, Option.some_inj.mp same]
  exact ⟨last_iff.trans served, fun behind => not_not.mp (mt last_iff.mpr behind)⟩

/-- What follows when the first client of `fullTopCalls` has joined. -/
def sinceFirstClient : List (Call ℕ) :=
  fullTopCalls.tail ++ [.addClient 8, .update .bid "coinbase" 5 1]

/-- The best levels at the end. -/
def fullTopSnapshot : Snapshot ℕ Volume where
  currencyId := 1
  bestBidPrice := 10
  bestBidVolume := 1
  bestAskPrice := 20
  bestAskVolume := 1

theorem up_to_date_iff_top_touched_sinceFirstClient :
    (sendsSince 1 [] 7 sinceFirstClient).getLast? = some (7, fullTopSnapshot) := by
  have present : ∀ earlier ∈ sinceFirstClient.inits,
      7 ∈ (run 1 ([] ++ .addClient 7 :: earlier)).1.clientSendList := by
    decide +kernel
  have joined : Joined 1 [] 7 sinceFirstClient :=
    ⟨List.not_mem_nil, fun earlier within => present earlier ((List.mem_inits _ _).mpr within)⟩
  exact (up_to_date_iff_top_touched 1 [] sinceFirstClient 7 joined (by decide +kernel)
    fullTopSnapshot (by decide +kernel)).1.mpr (Or.inl rfl)

end Orderbook

end CryptoInfra
