import CryptoInfra.Core.Books
import CryptoInfra.Orderbook.Freshness

/-!
# What the clients of a book see

A book sends each of its snapshots to all its clients. As long as a socket stays on the send list of
a currency, it therefore sees every snapshot which the book announces, once and in order, whatever
the server does in between, and all such sockets see the same.
-/

namespace CryptoInfra

variable {Price : Type*} [LinearOrder Price]

namespace Orderbook

/-- Handle one call, with the snapshot which is announced to all clients. -/
def announce (book : Orderbook Price) (call : Call Price) :
    Orderbook Price × List (Snapshot Price Volume) :=
  ((book.step call).1, ((book.step call).2.head?.map Prod.snd).toList)

/-- A broadcast reaches each client once. -/
theorem filterMap_sentTo_broadcast {Price : Type*} {clients : List Socket} (nodup : clients.Nodup)
    {clientSocket : Socket} (listed : clientSocket ∈ clients) (snapshot : Snapshot Price Volume) :
    (clients.map fun client => (client, snapshot)).filterMap (sentTo clientSocket) =
      [snapshot] := by
  have others : ∀ rest : List Socket, clientSocket ∉ rest →
      (rest.map fun client => (client, snapshot)).filterMap (sentTo clientSocket) = [] := by
    intro rest absent
    rw [List.filterMap_map, List.filterMap_eq_nil_iff]
    intro client member
    have different : client ≠ clientSocket := by
      rintro rfl
      exact absent member
    exact if_neg different
  induction clients with
  | nil => cases listed
  | cons client clients induction =>
      obtain ⟨absent, nodup⟩ := List.nodup_cons.mp nodup
      rw [List.map_cons, List.filterMap_cons, sentTo]
      by_cases same : client = clientSocket
      · subst same
        simp [others clients absent]
      · simp [same, induction nodup ((List.mem_cons.mp listed).resolve_left (Ne.symm same))]

/-- What a call sends to a listed client is what it announces. -/
theorem filterMap_sentTo_step {book : Orderbook Price} (nodup : book.clientSendList.Nodup)
    {clientSocket : Socket} (listed : clientSocket ∈ book.clientSendList) (call : Call Price) :
    (book.step call).2.filterMap (sentTo clientSocket) = (book.announce call).2 := by
  rw [announce]
  cases call with
  | update here exchangeId price newVolume =>
      rw [step_update]
      rcases sendSnapshot_cases (book.updated here exchangeId price newVolume) with
        ⟨silent, -⟩ | ⟨snapshot, -, -, -, -, some_client, outcome⟩
      · rw [silent]
        rfl
      · rw [outcome, clients_updated, filterMap_sentTo_broadcast nodup listed]
        rw [clients_updated] at some_client
        obtain ⟨client, clients, same⟩ := List.exists_cons_of_ne_nil some_client
        rw [same]
        rfl
  | initializeExchange exchangeId => rfl
  | addClient other => rfl
  | removeClient other => rfl

end Orderbook

namespace Server

/-- The snapshot of a send to a socket, if it is for a currency. -/
def snapshotFor (currency : UInt32) (clientSocket : Socket)
    (sent : Socket × Snapshot Price Volume) : Option (Snapshot Price Volume) :=
  if sent.2.currencyId = currency then Orderbook.sentTo clientSocket sent else none

theorem filterMap_snapshotFor {Price : Type*} (currency : UInt32) (clientSocket : Socket)
    (sends : List (Socket × Snapshot Price Volume)) :
    sends.filterMap (snapshotFor currency clientSocket) =
      (sendsFor currency sends).filterMap (Orderbook.sentTo clientSocket) := by
  rw [sendsFor, List.filterMap_filter]
  congr 1
  funext sent
  simp [snapshotFor]

/-- What the server sends to a listed socket for an event is what the book announces. -/
theorem MovesBooks.announces {event : Event Price} {server next : Server Price}
    {sends : List (Socket × Snapshot Price Volume)} (moves : MovesBooks event server next sends)
    (sound : server.Sound) {currency : UInt32} {clientSocket : Socket}
    (listed : clientSocket ∈ server.core.clientSendList currency) :
    History.run Orderbook.announce (server.book currency) (event.callOn currency).toList =
      (next.book currency, sends.filterMap (snapshotFor currency clientSocket)) := by
  rw [filterMap_snapshotFor]
  cases called : event.callOn currency with
  | none =>
      obtain ⟨book, nothing⟩ := moves.unmoved called
      rw [book, nothing]
      rfl
  | some call =>
      have nodup := sound.serviceable.nodup currency
      rw [← clientSendList_book] at listed nodup
      have announced := Orderbook.filterMap_sentTo_step nodup listed call
      rw [Orderbook.announce, moves.stepped called] at announced
      simp [History.run, Orderbook.announce, moves.stepped called, announced]

/-- From any moment of any history of the server on, a socket which stays on the send list of a
currency is sent for the currency exactly what the book of the currency announces while it handles
its own calls, each snapshot once and in order; so all sockets which stay listed are sent the
same. -/
theorem listed_clients_see_the_same (history : List (Event Price))
    (earlier : List (Socket × Snapshot Price Volume)) (server : Server Price)
    (run : Sends history earlier server) (currency : UInt32) (clientSocket : Socket)
    (later : List (Event Price)) (sends : List (Socket × Snapshot Price Volume))
    (final : Server Price)
    (listed : History.Emits (fun server event => server.Enabled event ∧
      clientSocket ∈ server.core.clientSendList currency) step server later sends final) :
    History.run Orderbook.announce (server.book currency)
        (later.filterMap (Event.callOn currency)) =
      (final.book currency, sends.filterMap (snapshotFor currency clientSocket)) := by
  apply listed.project Orderbook.announce (fun server => server.book currency)
    (Event.callOn currency) (snapshotFor currency clientSocket)
  intro front outputs state event next emitted continued possible stepped
  have sound := sound_of_sends (run.append (continued.mono fun _ _ both => both.1))
  exact (movesBooks_of_step sound possible.1 stepped).announces sound possible.2

/-- A client asks for a currency. -/
def askedHistory : List (Event ℕ) :=
  [.accepted 4, .received 4 (.received (ClientRequest.subscribe 1 1).buffer)]

/-- Both sides are quoted, and another client joins in between. -/
def joinedHistory : List (Event ℕ) :=
  [.fed 1 (.update .ask "coinbase" 12 1), .accepted 5,
    .received 5 (.received (ClientRequest.subscribe 1 1).buffer),
    .fed 1 (.update .bid "coinbase" 10 1)]

theorem listed_clients_see_the_same_joinedHistory :
    ∃ earlier server sends final, Sends askedHistory earlier server ∧
      History.Emits Enabled step server joinedHistory sends final ∧
        sends.filterMap (snapshotFor 1 4) = [firstSnapshot] := by
  have executed : ∃ asked ∈ History.execute Enabled step (new : Server ℕ) askedHistory,
      (History.execute (fun server event => server.Enabled event ∧
        4 ∈ server.core.clientSendList 1) step asked.2 joinedHistory).isSome ∧
        (History.run Orderbook.announce (asked.2.book 1)
          (joinedHistory.filterMap (Event.callOn 1))).2 = [firstSnapshot] := by
    decide +kernel
  obtain ⟨⟨earlier, server⟩, asked, joined, announced⟩ := executed
  obtain ⟨⟨sends, final⟩, continued⟩ := Option.isSome_iff_exists.mp joined
  have run : Sends askedHistory earlier server := History.emits_of_execute asked
  have listed := History.emits_of_execute continued
  refine ⟨earlier, server, sends, final, run, listed.mono fun _ _ both => both.1, ?_⟩
  rw [← announced, listed_clients_see_the_same askedHistory earlier server run 1 4 joinedHistory
    sends final listed]

end Server

end CryptoInfra
