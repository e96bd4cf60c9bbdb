import CryptoInfra.Core.Connections
import CryptoInfra.Core.Subscribers
import CryptoInfra.Orderbook.Consolidated

/-!
# Books on their own

One server takes the requests of all sockets and the calls of all feeds to the books. Each book
nevertheless moves as if it were alone: it executes the calls about its own currency, and what the
server sends for the currency is what these calls send.
-/

namespace CryptoInfra

variable {Price : Type*} [LinearOrder Price]

/-! ## What a request does -/

/-- The book of a currency after a request of a socket, if there is one. -/
def Request.updateBook (request : Request) (clientSocket : Socket) (currency : UInt32)
    (book : Option (Orderbook Price)) : Option (Orderbook Price) :=
  match request with
  | .close => book.map (Orderbook.removeClient clientSocket)
  | .subscribe currencyName =>
      if currencyName = currency then
        some ((book.getD (Orderbook.new currency)).addClient clientSocket)
      else book
  | .unsubscribe currencyName =>
      if currencyName = currency then book.map (Orderbook.removeClient clientSocket) else book
  | .unknown _ => book

/-- The call which a request of a socket makes on the book of a currency. -/
def Request.callOn (currency : UInt32) (clientSocket : Socket) (request : Request) :
    Option (Call Price) :=
  match request with
  | .close => some (.removeClient clientSocket)
  | .subscribe currencyName =>
      if currencyName = currency then some (.addClient clientSocket) else none
  | .unsubscribe currencyName =>
      if currencyName = currency then some (.removeClient clientSocket) else none
  | .unknown _ => none

theorem Request.updateBook_ne_none_iff {request : Request} {clientSocket : Socket}
    {currency : UInt32} {book : Option (Orderbook Price)} :
    request.updateBook clientSocket currency book ≠ none ↔
      book ≠ none ∨ request = .subscribe currency := by
  cases request with
  | close => simp [updateBook]
  | subscribe currencyName =>
      by_cases same : currencyName = currency <;> simp [updateBook, same]
  | unsubscribe currencyName =>
      by_cases same : currencyName = currency <;> simp [updateBook, same]
  | unknown messageType => simp [updateBook]

/-- A book which is not open yet counts as one without orders and clients, on which the call of a
request is a call on the book. -/
theorem Request.getD_updateBook (request : Request) (clientSocket : Socket) (currency : UInt32)
    (book : Option (Orderbook Price)) :
    (request.updateBook clientSocket currency book).getD (Orderbook.new currency) =
      (History.run Orderbook.step (book.getD (Orderbook.new currency))
        (request.callOn currency clientSocket).toList).1 := by
  have removed : (book.map (Orderbook.removeClient clientSocket)).getD (Orderbook.new currency) =
      (book.getD (Orderbook.new currency)).removeClient clientSocket := by
    cases book <;> rfl
  cases request with
  | close => exact removed
  | subscribe currencyName =>
      by_cases same : currencyName = currency
      · simp [updateBook, callOn, same, History.run, Orderbook.step]
      · simp [updateBook, callOn, same]
  | unsubscribe currencyName =>
      by_cases same : currencyName = currency
      · simp [updateBook, callOn, same, removed, History.run, Orderbook.step]
      · simp [updateBook, callOn, same]
  | unknown messageType => rfl

/-- The call of a request sends nothing. -/
theorem Request.sends_callOn (request : Request) (clientSocket : Socket) (currency : UInt32)
    (book : Orderbook Price) :
    (History.run Orderbook.step book (request.callOn currency clientSocket).toList).2 = [] := by
  cases request with
  | close => rfl
  | subscribe currencyName =>
      rw [callOn]
      split <;> rfl
  | unsubscribe currencyName =>
      rw [callOn]
      split <;> rfl
  | unknown messageType => rfl

namespace CoreComponent

/-- The server after a request of a socket. -/
def serve (request : Request) (clientSocket : Socket) (core : CoreComponent Price) :
    CoreComponent Price where
  openOrderbooks currency :=
    request.updateBook clientSocket currency (core.openOrderbooks currency)
  clientSubscribeList := Function.update core.clientSubscribeList clientSocket
    (request.updateSubscribeList (core.clientSubscribeList clientSocket))

/-- Removing a socket from the book of a currency which it has not asked for changes nothing. -/
theorem Serviceable.removed_of_not_asked {core : CoreComponent Price}
    (serviceable : core.Serviceable) {currency : UInt32} {clientSocket : Socket}
    (absent : currency ∉ core.clientSubscribeList clientSocket) :
    (core.openOrderbooks currency).map (Orderbook.removeClient clientSocket) =
      core.openOrderbooks currency := by
  cases found : core.openOrderbooks currency with
  | none => rfl
  | some book =>
      have erased := serviceable.erase_of_not_asked absent
      rw [clientSendList, found] at erased
      rw [Option.map_some, Orderbook.removeClient, erased]

/-- A request which is not a subscription does what it asks for to the books of the currencies which
its socket has asked for. -/
theorem processRequest_withdraw {core : CoreComponent Price} {clientSocket : Socket}
    (opened : ∀ currency ∈ core.clientSubscribeList clientSocket,
      core.openOrderbooks currency ≠ none)
    (nodup : ∀ currency book, core.openOrderbooks currency = some book →
      book.clientSendList.Nodup) {request : SocketBuffer}
    (other : ∀ currencyName, Request.read request ≠ .subscribe currencyName) :
    processRequest request clientSocket core =
      some
        ({ openOrderbooks := fun currency =>
            if currency ∈ core.clientSubscribeList clientSocket then
              (Request.read request).updateBook clientSocket currency
                (core.openOrderbooks currency)
            else core.openOrderbooks currency
           clientSubscribeList := Function.update core.clientSubscribeList clientSocket
            ((Request.read request).updateSubscribeList
              (core.clientSubscribeList clientSocket)) },
          (receivedData request).messageType) := by
  rw [Request.read] at other ⊢
  split_ifs at other ⊢ with close subscribe unsubscribe
  · have loop := removeLoop_eq clientSocket (fun _ => True)
      (fun currency member _ => opened currency member) nodup
    simp only [if_true, and_true] at loop
    rw [processRequest, if_pos close, loop]
    simp [Request.updateBook, Request.updateSubscribeList]
  · exact absurd rfl (other _)
  · have loop := removeLoop_eq clientSocket (· = (receivedData request).currencyName)
      (fun currency member _ => opened currency member) nodup
    rw [processRequest, if_neg close, if_neg subscribe, if_pos unsubscribe, loop]
    simp [Request.updateBook, Request.updateSubscribeList, ite_and, eq_comm]
  · rw [processRequest_unknown clientSocket core close subscribe unsubscribe]
    simp [Request.updateBook, Request.updateSubscribeList]

/-- A request which is not a subscription leaves the books alone which its socket has not asked
for. -/
theorem Serviceable.updateBook_of_not_asked {core : CoreComponent Price}
    (serviceable : core.Serviceable) {currency : UInt32} {clientSocket : Socket}
    (absent : currency ∉ core.clientSubscribeList clientSocket) {request : Request}
    (other : ∀ currencyName, request ≠ .subscribe currencyName) :
    request.updateBook clientSocket currency (core.openOrderbooks currency) =
      core.openOrderbooks currency := by
  have removed := serviceable.removed_of_not_asked absent
  cases request with
  | close => exact removed
  | subscribe currencyName => exact absurd rfl (other currencyName)
  | unsubscribe currencyName => rw [Request.updateBook, removed, ite_self]
  | unknown messageType => rfl

/-- A request of a serviceable server does to every book and subscription what it asks for. -/
theorem processRequest_eq_serve {core : CoreComponent Price} (serviceable : core.Serviceable)
    (request : SocketBuffer) (clientSocket : Socket) :
    processRequest request clientSocket core =
      some (core.serve (Request.read request) clientSocket,
        (receivedData request).messageType) := by
  by_cases other : ∀ currencyName, Request.read request ≠ .subscribe currencyName
  · rw [processRequest_withdraw (serviceable.opened clientSocket)
      (fun _ _ found => serviceable.nodup_book found) other, serve]
    congr 3
    funext currency
    split <;> rename_i asked
    · rfl
    · exact (serviceable.updateBook_of_not_asked asked other).symm
  · simp only [ne_eq, not_forall, not_not] at other
    obtain ⟨name, read⟩ := other
    obtain ⟨subscribe, rfl⟩ := Request.eq_of_read_subscribe read
    have close : (receivedData request).messageType ≠ 0 := by simp [subscribe]
    rw [processRequest, if_neg close, if_pos subscribe, read, serve]
    generalize (receivedData request).currencyName = name
    have books : ∀ book, core.openOrderbooks name = book →
        Function.update core.openOrderbooks name
            (some ((book.getD (Orderbook.new name)).addClient clientSocket)) =
          fun currency => (Request.subscribe name).updateBook clientSocket currency
            (core.openOrderbooks currency) := by
      intro book found
      funext currency
      by_cases same : currency = name
      · subst same
        simp [Request.updateBook, found]
      · simp [Request.updateBook, same, Ne.symm same]
    cases found : core.openOrderbooks name with
    | none =>
        simp [withBook, addWebsocketConnection, Request.updateSubscribeList, ← books none found]
    | some book => simp [withBook, found, Request.updateSubscribeList, ← books _ found]

end CoreComponent

/-! ## What an event does -/

namespace Event

/-- The call which an event makes on the book of a currency. -/
def callOn (currency : UInt32) : Event Price → Option (Call Price)
  | .received clientSocket (.received request) =>
      (Request.read request).callOn currency clientSocket
  | .fed currencyId call => if currencyId = currency then some call else none
  | _ => none

/-- An event is a subscription to a currency. -/
def Opens (currency : UInt32) : Event Price → Prop
  | .received _ (.received request) => Request.read request = .subscribe currency
  | _ => False

end Event

namespace Server

/-- The book of a currency; one without orders and clients, if none is open. -/
def book (server : Server Price) (currency : UInt32) : Orderbook Price :=
  (server.core.openOrderbooks currency).getD (Orderbook.new currency)

theorem clientSendList_book (server : Server Price) (currency : UInt32) :
    (server.book currency).clientSendList = server.core.clientSendList currency := by
  rw [book, CoreComponent.clientSendList]
  cases server.core.openOrderbooks currency <;> rfl

/-- Histories of the server with the snapshots it sends. -/
abbrev Sends : List (Event Price) → List (Socket × Snapshot Price Volume) → Server Price → Prop :=
  History.Emits Enabled step new

/-- The server finds what it relies on, and every book is under its own currency. -/
structure Sound (server : Server Price) : Prop where
  /-- Requests are served. -/
  serviceable : server.core.Serviceable
  /-- Books know their currency. -/
  named : ∀ currency book, server.core.openOrderbooks currency = some book →
    book.currencyId = currency

theorem Sound.currencyId_book {server : Server Price} (sound : server.Sound) (currency : UInt32) :
    (server.book currency).currencyId = currency := by
  rw [book]
  cases found : server.core.openOrderbooks currency with
  | none => rfl
  | some book => exact sound.named currency book found

theorem sound_new : (new : Server Price).Sound where
  serviceable := CoreComponent.serviceable_new
  named _ _ found := nomatch found

end Server

namespace Orderbook

theorem currencyId_historyRun (book : Orderbook Price) (calls : List (Call Price)) :
    (History.run step book calls).1.currencyId = book.currencyId :=
  History.run_invariant (fun (after : Orderbook Price) _ => after.currencyId = book.currencyId)
    (fun after _ call same => (currencyId_step after call).trans same) rfl calls

/-- A book sends snapshots for its own currency. -/
theorem currencyId_sent {book : Orderbook Price} {call : Call Price}
    {sent : Socket × Snapshot Price Volume} (member : sent ∈ (book.step call).2) :
    sent.2.currencyId = book.currencyId := by
  cases call with
  | update here exchangeId price newVolume =>
      rw [step_update] at member
      rcases sendSnapshot_cases (book.updated here exchangeId price newVolume) with
        ⟨silent, -⟩ | ⟨snapshot, best, -, -, -, -, outcome⟩
      · rw [silent] at member
        contradiction
      · rw [outcome] at member
        obtain ⟨clientSocket, -, rfl⟩ := List.mem_map.mp member
        rw [(topOfBook_eq_some_iff.mp best).1, currencyId_updated]
  | initializeExchange exchangeId => contradiction
  | addClient clientSocket => contradiction
  | removeClient clientSocket => contradiction

end Orderbook

namespace Server

/-- The snapshots for a currency. -/
def sendsFor (currency : UInt32) (sends : List (Socket × Snapshot Price Volume)) :
    List (Socket × Snapshot Price Volume) :=
  sends.filter fun sent => sent.2.currencyId = currency

/-- What an event makes of the books, and what it sends. -/
structure MovesBooks (event : Event Price) (server next : Server Price)
    (sends : List (Socket × Snapshot Price Volume)) : Prop where
  /-- The server stays sound. -/
  sound : next.Sound
  /-- Books are opened by subscriptions, and stay. -/
  opened : ∀ currency, next.core.openOrderbooks currency ≠ none ↔
    server.core.openOrderbooks currency ≠ none ∨ event.Opens currency
  /-- Every book executes the calls about its currency, with what they send. -/
  moves : ∀ currency,
    History.run Orderbook.step (server.book currency) (event.callOn currency).toList =
      (next.book currency, sendsFor currency sends)

theorem MovesBooks.stepped {event : Event Price} {server next : Server Price}
    {sends : List (Socket × Snapshot Price Volume)} (moves : MovesBooks event server next sends)
    {currency : UInt32} {call : Call Price} (called : event.callOn currency = some call) :
    (server.book currency).step call = (next.book currency, sendsFor currency sends) := by
  rw [← moves.moves currency, called]
  simp [History.run]

theorem MovesBooks.unmoved {event : Event Price} {server next : Server Price}
    {sends : List (Socket × Snapshot Price Volume)} (moves : MovesBooks event server next sends)
    {currency : UInt32} (uncalled : event.callOn currency = none) :
    next.book currency = server.book currency ∧ sendsFor currency sends = [] := by
  have moved := moves.moves currency
  rw [uncalled] at moved
  obtain ⟨book, nothing⟩ := Prod.mk.inj moved
  exact ⟨book.symm, nothing.symm⟩

theorem movesBooks_of_unchanged {event : Event Price} {server next : Server Price}
    (sound : server.Sound) (core : next.core = server.core)
    (silent : ∀ currency, event.callOn currency = none ∧ ¬ event.Opens currency) :
    MovesBooks event server next [] where
  sound := by
    refine ⟨core ▸ sound.serviceable, ?_⟩
    rw [core]
    exact sound.named
  opened currency := by
    rw [core, or_iff_left (silent currency).2]
  moves currency := by
    rw [(silent currency).1, book, book, core]
    rfl

theorem movesBooks_of_request {server next : Server Price} (sound : server.Sound)
    {clientSocket : Socket} {request : SocketBuffer} (serviceable : next.core.Serviceable)
    (books : ∀ currency, next.core.openOrderbooks currency =
      (Request.read request).updateBook clientSocket currency
        (server.core.openOrderbooks currency)) :
    MovesBooks (.received clientSocket (.received request)) server next [] := by
  have after : ∀ currency, next.book currency =
      (History.run Orderbook.step (server.book currency)
        ((Request.read request).callOn currency clientSocket).toList).1 := by
    intro currency
    rw [book, books, Request.getD_updateBook, book]
  refine ⟨⟨serviceable, ?_⟩, ?_, ?_⟩
  · intro currency openBook found
    have same := after currency
    rw [book, found, Option.getD_some] at same
    rw [same, Orderbook.currencyId_historyRun, sound.currencyId_book]
  · intro currency
    rw [books]
    exact Request.updateBook_ne_none_iff
  · intro currency
    exact Prod.ext (after currency).symm (Request.sends_callOn _ clientSocket currency _)

theorem movesBooks_of_feed {server next : Server Price} (sound : server.Sound)
    {currencyId : UInt32} {call : Call Price} (serviceable : next.core.Serviceable)
    {openBook : Orderbook Price} (found : server.core.openOrderbooks currencyId = some openBook)
    (books : next.core.openOrderbooks =
      Function.update server.core.openOrderbooks currencyId (some (openBook.step call).1)) :
    MovesBooks (.fed currencyId call) server next (openBook.step call).2 := by
  have named := sound.named currencyId openBook found
  refine ⟨⟨serviceable, ?_⟩, ?_, ?_⟩
  · intro currency after updated
    rw [books] at updated
    by_cases same : currency = currencyId
    · subst same
      rw [Function.update_self, Option.some_inj] at updated
      rw [← updated, Orderbook.currencyId_step, named]
    · rw [Function.update_of_ne same] at updated
      exact sound.named currency after updated
  · intro currency
    rw [books]
    by_cases same : currency = currencyId
    · simp [same, found]
    · simp [same, Event.Opens]
  · intro currency
    rw [book, book, books]
    by_cases same : currencyId = currency
    · subst same
      have all : sendsFor currencyId (openBook.step call).2 = (openBook.step call).2 := by
        rw [sendsFor, List.filter_eq_self]
        intro sent member
        rw [Orderbook.currencyId_sent member, named, decide_eq_true_iff]
      rw [all]
      simp [Event.callOn, found, History.run]
    · have none_sent : sendsFor currency (openBook.step call).2 = [] := by
        rw [sendsFor, List.filter_eq_nil_iff]
        intro sent member
        rwa [Orderbook.currencyId_sent member, named, decide_eq_true_iff]
      rw [none_sent]
      simp [Event.callOn, same, Ne.symm same]

theorem core_of_request {server next : Server Price} (sound : server.Sound) {clientSocket : Socket}
    {request : SocketBuffer} {sends : List (Socket × Snapshot Price Volume)}
    (stepped : server.step (.received clientSocket (.received request)) = some (next, sends)) :
    next.core = server.core.serve (Request.read request) clientSocket ∧ sends = [] := by
  rw [step, CoreComponent.connectionRound,
    CoreComponent.processRequest_eq_serve sound.serviceable, Option.map_some, Option.map_some,
    Option.some_inj, Prod.mk.injEq] at stepped
  exact ⟨stepped.1 ▸ rfl, stepped.2.symm⟩

theorem movesBooks_of_step {server next : Server Price} (sound : server.Sound)
    {event : Event Price} (enabled : server.Enabled event)
    {sends : List (Socket × Snapshot Price Volume)}
    (stepped : server.step event = some (next, sends)) : MovesBooks event server next sends := by
  obtain ⟨outcome, same, follows⟩ := step_spec sound.serviceable enabled
  rw [stepped, Option.some_inj] at same
  subst same
  have serviceable := follows.serviceable
  cases event with
  | accepted clientSocket =>
      obtain ⟨rfl, rfl⟩ := Prod.mk.inj (Option.some_inj.mp stepped)
      exact movesBooks_of_unchanged sound rfl fun _ => ⟨rfl, id⟩
  | received clientSocket reception =>
      cases reception with
      | failed =>
          obtain ⟨rfl, rfl⟩ := Prod.mk.inj (Option.some_inj.mp stepped)
          exact movesBooks_of_unchanged sound rfl fun _ => ⟨rfl, id⟩
      | disconnected =>
          obtain ⟨rfl, rfl⟩ := Prod.mk.inj (Option.some_inj.mp stepped)
          exact movesBooks_of_unchanged sound rfl fun _ => ⟨rfl, id⟩
      | received request =>
          obtain ⟨core, rfl⟩ := core_of_request sound stepped
          exact movesBooks_of_request sound serviceable fun _ => by rw [core]; rfl
  | fed currencyId call =>
      obtain ⟨openBook, found⟩ := Option.ne_none_iff_exists'.mp enabled.1
      rw [step, found, Option.map_some, Option.some_inj, Prod.mk.injEq] at stepped
      obtain ⟨rfl, rfl⟩ := stepped
      exact movesBooks_of_feed sound serviceable found rfl

/-! ## Whole histories -/

theorem sound_of_sends {history : List (Event Price)}
    {sends : List (Socket × Snapshot Price Volume)} {server : Server Price}
    (run : Sends history sends server) : server.Sound := by
  apply run.invariant fun _ _ server => server.Sound
  · exact sound_new
  · intro _ _ server event next sends _ sound enabled stepped
    exact (movesBooks_of_step sound enabled stepped).sound

theorem opened_of_sends {history : List (Event Price)}
    {sends : List (Socket × Snapshot Price Volume)} {server : Server Price}
    (run : Sends history sends server) (currency : UInt32) :
    server.core.openOrderbooks currency ≠ none ↔ ∃ event ∈ history, event.Opens currency := by
  apply run.invariant fun history _ server => server.core.openOrderbooks currency ≠ none ↔
    ∃ event ∈ history, event.Opens currency
  · simp [new, CoreComponent.new]
  · intro history _ server event next sends run opened enabled stepped
    rw [(movesBooks_of_step (sound_of_sends run) enabled stepped).opened, opened]
    simp [or_and_right, exists_or]

/-- A book is where the calls about its currency lead, and these calls send what the server sends
for the currency. -/
theorem run_of_sends {history : List (Event Price)}
    {sends : List (Socket × Snapshot Price Volume)} {server : Server Price}
    (run : Sends history sends server) (currency : UInt32) :
    Orderbook.run currency (history.filterMap (Event.callOn currency)) =
      (server.book currency, sendsFor currency sends) := by
  have projected := run.project Orderbook.step (fun server => server.book currency)
    (Event.callOn currency) (Option.guard fun sent => sent.2.currencyId = currency) ?_
  · rwa [List.filterMap_eq_filter] at projected
  · intro history outputs server event next sends run enabled stepped
    rw [List.filterMap_eq_filter]
    exact (movesBooks_of_step (sound_of_sends run) enabled stepped).moves currency

theorem book_eq {history : List (Event Price)} {sends : List (Socket × Snapshot Price Volume)}
    {server : Server Price} (run : Sends history sends server) (currency : UInt32) :
    server.book currency =
      (Orderbook.run currency (history.filterMap (Event.callOn currency))).1 := by
  rw [run_of_sends run]

theorem sendsFor_eq {history : List (Event Price)}
    {sends : List (Socket × Snapshot Price Volume)} {server : Server Price}
    (run : Sends history sends server) (currency : UInt32) :
    sendsFor currency sends =
      (Orderbook.run currency (history.filterMap (Event.callOn currency))).2 := by
  rw [run_of_sends run]

/-- In every history of the server a currency has an open book exactly if somebody subscribed to it,
this book is where the calls about the currency alone lead, and the snapshots sent for the currency
are those which these calls send. -/
theorem books_run_on_their_own (history : List (Event Price))
    (sends : List (Socket × Snapshot Price Volume)) (server : Server Price)
    (run : Sends history sends server) (currency : UInt32) :
    (server.core.openOrderbooks currency ≠ none ↔ ∃ event ∈ history, event.Opens currency) ∧
      Orderbook.run currency (history.filterMap (Event.callOn currency)) =
        (server.book currency, sendsFor currency sends) :=
  ⟨opened_of_sends run currency, run_of_sends run currency⟩

instance (call : Call Price) : Decidable call.FromFeed :=
  match call with
  | .initializeExchange _ => isTrue trivial
  | .update _ _ _ _ => isTrue trivial
  | .addClient _ => isFalse id
  | .removeClient _ => isFalse id

instance (server : Server Price) (event : Event Price) : Decidable (server.Enabled event) :=
  match event with
  | .accepted clientSocket => inferInstanceAs (Decidable (clientSocket ∉ server.connections))
  | .received clientSocket _ => inferInstanceAs (Decidable (clientSocket ∈ server.connections))
  | .fed currencyId call =>
      inferInstanceAs (Decidable (server.core.openOrderbooks currencyId ≠ none ∧ call.FromFeed))

/-- One client asks for two currencies, and both sides of the first one are quoted. -/
def twoBooksHistory : List (Event ℕ) :=
  [.accepted 4, .received 4 (.received (ClientRequest.subscribe 1 1).buffer),
    .received 4 (.received (ClientRequest.subscribe 2 1).buffer),
    .fed 1 (.update .ask "coinbase" 12 1), .fed 2 (.update .bid "crypto" 7 1),
    .fed 1 (.update .bid "coinbase" 10 1)]

/-- What the client gets for the first currency. -/
def firstSnapshot : Snapshot ℕ Volume where
  currencyId := 1
  bestBidPrice := 10
  bestBidVolume := 1
  bestAskPrice := 12
  bestAskVolume := 1

theorem books_run_on_their_own_twoBooksHistory :
    ∃ sends server, Sends twoBooksHistory sends server ∧
      sendsFor 1 sends = [(4, firstSnapshot)] ∧ sendsFor 2 sends = [] := by
  have executed : (History.execute Enabled step (new : Server ℕ) twoBooksHistory).isSome := by
    decide +kernel
  obtain ⟨⟨sends, server⟩, ran⟩ := Option.isSome_iff_exists.mp executed
  have run : Sends twoBooksHistory sends server := History.emits_of_execute ran
  have alone := books_run_on_their_own twoBooksHistory sends server run
  refine ⟨sends, server, run, ?_, ?_⟩
  · exact (congrArg Prod.snd (alone 1).2).symm.trans (by decide +kernel)
  · exact (congrArg Prod.snd (alone 2).2).symm.trans (by decide +kernel)

end Server

end CryptoInfra
