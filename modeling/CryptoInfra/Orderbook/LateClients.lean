import CryptoInfra.Orderbook.Broadcast

/-!
# Clients which join late

One flag records for all clients that the best levels are published, while clients join at
different times. Every listed client joined at a call of the run and stayed. Since then it has been
served exactly when it found the flag down or some update touched the top levels.
-/

namespace CryptoInfra

variable {Price : Type*} [LinearOrder Price]

namespace Orderbook

/-! ## Updates of the top levels -/

/-- The update of a price passes the price test on the updated side. -/
def TouchesTop (book : Orderbook Price) : Call Price → Prop
  | .update here exchangeId price newVolume =>
      isInFirstNKeys (updateLevel exchangeId price newVolume (book.side here)).ordersMap price
  | _ => False

/-- The update of a price leaves fewer than `topLevels` levels better than it. -/
def ReachesTop (book : Orderbook Price) : Call Price → Prop
  | .update here exchangeId price newVolume =>
      (updateLevel exchangeId price newVolume (book.side here)).ordersMap.rank price < topLevels
  | _ => False

theorem ReachesTop.of_touchesTop {book : Orderbook Price} {call : Call Price}
    (touches : book.TouchesTop call) : book.ReachesTop call := by
  cases call with
  | update here exchangeId price newVolume =>
      exact lt_of_le_of_lt (Nat.le_add_right _ _) (isInFirstNKeys_iff.mp touches)
  | initializeExchange exchangeId => exact touches
  | addClient clientSocket => exact touches
  | removeClient clientSocket => exact touches

/-! ## Joining -/

/-- A client joined the list after `front` and stayed on it during `rest`. -/
structure Joined (currencyId : UInt32) (front : List (Call Price)) (clientSocket : Socket)
    (rest : List (Call Price)) : Prop where
  /-- The client was not on the list. -/
  absent : clientSocket ∉ (run currencyId front).1.clientSendList
  /-- The client is on the list ever since. -/
  present : ∀ earlier, earlier <+: rest →
    clientSocket ∈ (run currencyId (front ++ .addClient clientSocket :: earlier)).1.clientSendList

/-- The snapshots sent to a client after it joined. -/
def sendsSince (currencyId : UInt32) (front : List (Call Price)) (clientSocket : Socket)
    (rest : List (Call Price)) : List (Socket × Snapshot Price Volume) :=
  (History.run step (run currencyId (front ++ [.addClient clientSocket])).1 rest).2.filter
    fun sent => sent.1 = clientSocket

/-- Some call since the client joined satisfies a condition on the book it meets. -/
def SomeSince (condition : Orderbook Price → Call Price → Prop) (currencyId : UInt32)
    (front : List (Call Price)) (clientSocket : Socket) (rest : List (Call Price)) : Prop :=
  ∃ earlier call, earlier ++ [call] <+: rest ∧
    condition (run currencyId (front ++ .addClient clientSocket :: earlier)).1 call

/-- Only its own joining puts a client on the list. -/
theorem mem_clients_step {book : Orderbook Price} {call : Call Price} {clientSocket : Socket}
    (member : clientSocket ∈ (book.step call).1.clientSendList) :
    clientSocket ∈ book.clientSendList ∨ call = .addClient clientSocket := by
  cases call with
  | update here exchangeId price newVolume =>
      rw [step_update, clients_sendSnapshot, clients_updated] at member
      exact Or.inl member
  | initializeExchange exchangeId => exact Or.inl member
  | addClient other =>
      simp only [step, addClient] at member
      split at member
      · exact Or.inl member
      · rcases List.mem_append.mp member with earlier | joined
        · exact Or.inl earlier
        · exact Or.inr (by rw [List.mem_singleton.mp joined])
  | removeClient other => exact Or.inl (List.mem_of_mem_erase member)

/-- Every client on the list joined it at some call and stayed. -/
theorem exists_joined {currencyId : UInt32} {calls : List (Call Price)} {clientSocket : Socket}
    (member : clientSocket ∈ (run currencyId calls).1.clientSendList) :
    ∃ front rest, calls = front ++ .addClient clientSocket :: rest ∧
      Joined currencyId front clientSocket rest := by
  induction calls using List.reverseRecOn with
  | nil => contradiction
  | append_singleton calls call induction =>
      by_cases before : clientSocket ∈ (run currencyId calls).1.clientSendList
      · obtain ⟨front, rest, rfl, joined⟩ := induction before
        refine ⟨front, rest ++ [call], by simp, joined.absent, ?_⟩
        intro earlier within
        rcases List.prefix_concat_iff.mp within with rfl | within
        · simpa using member
        · exact joined.present earlier within
      · have added := member
        rw [run_snoc] at added
        obtain rfl := (mem_clients_step added).resolve_left before
        refine ⟨calls, [], rfl, before, ?_⟩
        intro earlier within
        rwa [List.prefix_nil.mp within]

theorem Joined.of_append {currencyId : UInt32} {front rest further : List (Call Price)}
    {clientSocket : Socket} (joined : Joined currencyId front clientSocket (rest ++ further)) :
    Joined currencyId front clientSocket rest where
  absent := joined.absent
  present earlier within := joined.present earlier (within.trans (List.prefix_append rest further))

theorem run_since (currencyId : UInt32) (front rest : List (Call Price)) (clientSocket : Socket) :
    (History.run step (run currencyId (front ++ [.addClient clientSocket])).1 rest).1 =
      (run currencyId (front ++ .addClient clientSocket :: rest)).1 := by
  rw [List.append_cons front (.addClient clientSocket) rest, run, run,
    History.run_append step (new currencyId) (front ++ [Call.addClient clientSocket]) rest]

theorem sendsSince_snoc (currencyId : UInt32) (front rest : List (Call Price))
    (clientSocket : Socket) (call : Call Price) :
    sendsSince currencyId front clientSocket (rest ++ [call]) =
      sendsSince currencyId front clientSocket rest ++
        ((run currencyId (front ++ .addClient clientSocket :: rest)).1.step call).2.filter
          fun sent => sent.1 = clientSocket := by
  rw [sendsSince, History.run_snoc, List.filter_append, run_since, sendsSince]

/-! ## Service -/

/-- A call serves a listed client or leaves the flag down exactly when it found the flag down or
touches the top levels. -/
theorem serves_or_lowered_iff {book : Orderbook Price} {call : Call Price} {clientSocket : Socket}
    (member : clientSocket ∈ (book.step call).1.clientSendList) :
    ((book.step call).2.filter (fun sent => sent.1 = clientSocket) ≠ [] ∨
        (book.step call).1.topLevelsUpdated = false) ↔
      book.topLevelsUpdated = false ∨ book.TouchesTop call := by
  cases call with
  | update here exchangeId price newVolume =>
      rw [step_update] at member ⊢
      rw [clients_sendSnapshot] at member
      have lowered : (book.updated here exchangeId price newVolume).topLevelsUpdated = false ↔
          book.topLevelsUpdated = false ∨
            book.TouchesTop (.update here exchangeId price newVolume) := by
        rw [← Bool.not_eq_true, raised_updated_iff, not_and_or]
        simp [TouchesTop]
      rcases sendSnapshot_cases (book.updated here exchangeId price newVolume) with
        ⟨silent, -⟩ | ⟨snapshot, -, down, -, -, -, sent⟩
      · simp [silent, lowered]
      · rw [← lowered, sent]
        simp [down, List.filter_eq_nil_iff, member]
  | initializeExchange exchangeId => simp [step, initializeExchange, TouchesTop]
  | addClient other =>
      simp only [step, addClient, TouchesTop]
      split <;> simp
  | removeClient other => simp [step, removeClient, TouchesTop]

/-- A client which stays listed has been served or finds the flag down exactly when it found the
flag down on joining or some call since touched the top levels. -/
theorem served_or_lowered_iff {currencyId : UInt32} {front rest : List (Call Price)}
    {clientSocket : Socket} (joined : Joined currencyId front clientSocket rest) :
    (sendsSince currencyId front clientSocket rest ≠ [] ∨
        (run currencyId (front ++ .addClient clientSocket :: rest)).1.topLevelsUpdated = false) ↔
      (run currencyId front).1.topLevelsUpdated = false ∨
        SomeSince TouchesTop currencyId front clientSocket rest := by
  induction rest using List.reverseRecOn with
  | nil =>
      have none_yet : ¬ SomeSince TouchesTop currencyId front clientSocket [] := by
        rintro ⟨earlier, call, within, -⟩
        simp at within
      have kept : (run currencyId (front ++ [.addClient clientSocket])).1.topLevelsUpdated =
          (run currencyId front).1.topLevelsUpdated := by
        simp only [run_snoc, step, addClient]
        split <;> rfl
      simp [sendsSince, none_yet, kept]
  | append_singleton rest call induction =>
      have continued : front ++ .addClient clientSocket :: (rest ++ [call]) =
          front ++ .addClient clientSocket :: rest ++ [call] := by simp
      have member := joined.present _ List.prefix_rfl
      rw [continued, run_snoc] at member
      rw [SomeSince, History.exists_step_snoc_iff, ← or_assoc, ← SomeSince,
        ← induction joined.of_append, or_assoc, ← serves_or_lowered_iff member, sendsSince_snoc,
        continued, run_snoc, ← or_assoc, Ne, List.append_eq_nil_iff, not_and_or]

/-- Along every run, after an update which leaves both sides nonempty, a listed client has been sent
a snapshot since it joined if the flag was down on its joining or some update since lay before the
last top level. If the flag was up and all updates since lay behind the top levels, it has not. -/
theorem late_clients_are_served (currencyId : UInt32) (previous : List (Call Price)) (here : Side)
    (exchangeId : String) (price : Price) (newVolume : Volume) (clientSocket : Socket)
    (bids : (run currencyId
      (previous ++ [.update here exchangeId price newVolume])).1.bids.size ≠ 0)
    (asks : (run currencyId
      (previous ++ [.update here exchangeId price newVolume])).1.asks.size ≠ 0)
    (member : clientSocket ∈ (run currencyId
      (previous ++ [.update here exchangeId price newVolume])).1.clientSendList) :
    ∃ front rest, previous ++ [.update here exchangeId price newVolume] =
        front ++ .addClient clientSocket :: rest ∧ Joined currencyId front clientSocket rest ∧
      ((run currencyId front).1.topLevelsUpdated = false ∨
          SomeSince TouchesTop currencyId front clientSocket rest →
        sendsSince currencyId front clientSocket rest ≠ []) ∧
      ((run currencyId front).1.topLevelsUpdated = true →
          ¬ SomeSince ReachesTop currencyId front clientSocket rest →
            sendsSince currencyId front clientSocket rest = []) := by
  obtain ⟨front, rest, split, joined⟩ := exists_joined member
  have raised : (run currencyId
      (front ++ .addClient clientSocket :: rest)).1.topLevelsUpdated = true := by
    rw [← split]
    rw [run_snoc] at bids asks member ⊢
    exact raised_of_update bids asks (List.ne_nil_of_mem member)
  have served := served_or_lowered_iff joined
  rw [raised, or_iff_left (by decide)] at served
  refine ⟨front, rest, split, joined, served.mpr, ?_⟩
  intro up behind
  by_contra sent
  rcases served.mp sent with down | ⟨earlier, call, within, touches⟩
  · exact Bool.false_ne_true (down.symm.trans up)
  · exact behind ⟨earlier, call, within, .of_touchesTop touches⟩

theorem late_clients_are_served_fullTopCalls :
    ∃ front rest, fullTopCalls ++ [.update .bid "coinbase" 5 1] =
        front ++ .addClient 7 :: rest ∧ Joined 1 front 7 rest ∧
      ((run 1 front).1.topLevelsUpdated = false ∨ SomeSince TouchesTop 1 front 7 rest →
        sendsSince 1 front 7 rest ≠ []) ∧
      ((run 1 front).1.topLevelsUpdated = true → ¬ SomeSince ReachesTop 1 front 7 rest →
        sendsSince 1 front 7 rest = []) :=
  late_clients_are_served 1 fullTopCalls .bid "coinbase" 5 1 7 (by decide +kernel)
    (by decide +kernel) (by decide +kernel)

/-- A client which joins while the flag is up is not served by an update behind the top levels. -/
theorem fullTopCalls_then_late_client_unserved :
    let outcome := run 1 (fullTopCalls ++ [.addClient 8, .update .bid "coinbase" 5 1])
    outcome.1.bids.size ≠ 0 ∧ outcome.1.asks.size ≠ 0 ∧ 8 ∈ outcome.1.clientSendList ∧
      8 ∉ outcome.2.map Prod.fst := by
  decide +kernel

end Orderbook

end CryptoInfra
