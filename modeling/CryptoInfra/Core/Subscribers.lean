import CryptoInfra.Core.Framing

/-!
# Concurrent subscribers

Every connection has its own thread, and no lock guards what they share. A thread serves a
subscription in four steps: it tests whether the currency has a book, creates one if not, registers
its socket with the book it then finds, and appends the currency to the list of the socket. Steps of
different threads interleave. A book which is created over another one takes the place of everybody
registered with that, and this is the only way to lose a subscriber. It happens exactly when another
thread creates the book of a currency between the test of a thread and its own creation.
-/

namespace CryptoInfra

variable {Price : Type*} [LinearOrder Price]

/-! ## Threads -/

/-- Where a connection thread stands. -/
inductive Stage where
  | idle
  | creating (currencyName : UInt32)
  | registering (currencyName : UInt32)
  | appending (currencyName : UInt32)
  deriving DecidableEq

/-- One step of a connection thread. A request which is not a subscription is served in one step. -/
inductive Action where
  | receive (request : SocketBuffer)
  | create (currencyName : UInt32)
  | register (currencyName : UInt32)
  | append (currencyName : UInt32)

/-- The server and its connection threads. -/
structure Threads (Price : Type*) [LinearOrder Price] where
  /-- What all threads share. -/
  core : CoreComponent Price
  /-- Where the thread of every socket stands. -/
  stage : Socket → Stage

namespace Action

/-- Where a thread stands when it takes the step. -/
def stage : Action → Stage
  | receive _ => .idle
  | create currencyName => .creating currencyName
  | register currencyName => .registering currencyName
  | append currencyName => .appending currencyName

/-- The currency for which the step creates a book. -/
def creates : Action → Option UInt32
  | create currencyName => some currencyName
  | _ => none

/-- Whether the step completes or ends the subscription of its socket to a currency. -/
def switch (currency : UInt32) : Action → Option Bool
  | receive request =>
      match Request.read request with
      | .subscribe _ => none
      | other => other.switch currency
  | append currencyName => if currencyName = currency then some true else none
  | _ => none

/-- Only the last step of a subscription completes it. -/
theorem eq_append_of_switch {action : Action} {currency : UInt32}
    (completes : action.switch currency = some true) : action = .append currency := by
  cases action with
  | receive request =>
      rw [switch] at completes
      cases read : Request.read request <;> simp [read, Request.switch] at completes
  | append currencyName =>
      rw [switch, Option.ite_none_right_eq_some] at completes
      rw [completes.1]
  | create currencyName => contradiction
  | register currencyName => contradiction

end Action

namespace Threads

/-- A server whose threads are idle. -/
def new : Threads Price where
  core := CoreComponent.new
  stage _ := .idle

/-- A thread takes its steps in order. -/
def Enabled (threads : Threads Price) (event : Socket × Action) : Prop :=
  threads.stage event.1 = event.2.stage

/-- One step of the thread of a socket. -/
def step (threads : Threads Price) (event : Socket × Action) : Option (Threads Price) :=
  let clientSocket := event.1
  match event.2 with
  | .receive request =>
      match Request.read request with
      | .subscribe currencyName =>
          some { threads with
            stage := Function.update threads.stage clientSocket
              (if (threads.core.openOrderbooks currencyName).isNone then .creating currencyName
              else .registering currencyName) }
      | _ => (CoreComponent.processRequest request clientSocket threads.core).map fun served =>
          { threads with core := served.1 }
  | .create currencyName =>
      some
        { core := threads.core.addWebsocketConnection currencyName
          stage := Function.update threads.stage clientSocket (.registering currencyName) }
  | .register currencyName =>
      (CoreComponent.withBook currencyName (Orderbook.addClient clientSocket)
          threads.core.openOrderbooks).map fun openOrderbooks =>
        { core := { threads.core with openOrderbooks }
          stage := Function.update threads.stage clientSocket (.appending currencyName) }
  | .append currencyName =>
      some
        { core := { threads.core with
            clientSubscribeList := Function.update threads.core.clientSubscribeList clientSocket
              (threads.core.clientSubscribeList clientSocket ++ [currencyName]) }
          stage := Function.update threads.stage clientSocket .idle }

/-- What an interleaving of steps ends in. -/
abbrev Run : List (Socket × Action) → Option (Threads Price) → Prop :=
  History.Reaches Enabled step new

end Threads

theorem Request.eq_of_read_subscribe {request : SocketBuffer} {currencyName : UInt32}
    (read : Request.read request = .subscribe currencyName) :
    (receivedData request).messageType = 1 ∧
      (receivedData request).currencyName = currencyName := by
  rw [Request.read] at read
  split_ifs at read with close subscribe
  exact ⟨subscribe, Request.subscribe.inj read⟩

namespace Threads

/-- Without interference, the steps of a subscription do what one request does. -/
theorem steps_eq_processRequest (threads : Threads Price) (clientSocket : Socket)
    {request : SocketBuffer} {currencyName : UInt32}
    (read : Request.read request = .subscribe currencyName)
    (idle : threads.stage clientSocket = .idle) :
    (do
      let tested ← threads.step (clientSocket, .receive request)
      let ready ← if tested.stage clientSocket = .creating currencyName then
          tested.step (clientSocket, .create currencyName)
        else some tested
      let registered ← ready.step (clientSocket, .register currencyName)
      registered.step (clientSocket, .append currencyName)) =
      (CoreComponent.processRequest request clientSocket threads.core).map fun served =>
        { threads with core := served.1 } := by
  obtain ⟨type, named⟩ := Request.eq_of_read_subscribe read
  have not_close : (receivedData request).messageType ≠ 0 := by simp [type]
  have idle_again : Function.update threads.stage clientSocket .idle = threads.stage := by
    rw [← idle, Function.update_eq_self]
  rw [CoreComponent.processRequest, if_neg not_close, if_pos type, named]
  cases found : threads.core.openOrderbooks currencyName with
  | none =>
      simp [step, read, found, CoreComponent.addWebsocketConnection, CoreComponent.withBook,
        idle_again]
  | some book => simp [step, read, found, CoreComponent.withBook, idle_again]

end Threads

/-! ## Requests which are served in one step -/

namespace CoreComponent

/-- What a request which is not a subscription does to the server. -/
structure Withdraws (request : Request) (clientSocket : Socket) (core next : CoreComponent Price) :
    Prop where
  /-- The same currencies have books. -/
  opened : ∀ currency, next.openOrderbooks currency = none ↔ core.openOrderbooks currency = none
  /-- No socket is listed twice. -/
  nodup : ∀ currency, (next.clientSendList currency).Nodup
  /-- Only the socket itself is removed, and only from what it switches off. -/
  kept : ∀ currency, ∀ other ∈ core.clientSendList currency,
    (other = clientSocket → request.switch currency ≠ some false) →
      other ∈ next.clientSendList currency
  /-- No socket asks for more. -/
  asked : ∀ other, ∀ currency ∈ next.clientSubscribeList other,
    currency ∈ core.clientSubscribeList other

/-- Removing a socket from selected books withdraws it, if these are switched off. -/
theorem withdraws_removed {core : CoreComponent Price} (request : Request) (clientSocket : Socket)
    (nodup : ∀ currency, (core.clientSendList currency).Nodup) (selected : UInt32 → Prop)
    [DecidablePred selected] (off : ∀ currency, selected currency →
      request.switch currency = some false)
    {clientSubscribeList : Socket → List UInt32}
    (asked : ∀ other, ∀ currency ∈ clientSubscribeList other,
      currency ∈ core.clientSubscribeList other) :
    Withdraws request clientSocket core
      { openOrderbooks := fun currency =>
          if currency ∈ core.clientSubscribeList clientSocket ∧ selected currency then
            (core.openOrderbooks currency).map (Orderbook.removeClient clientSocket)
          else core.openOrderbooks currency
        clientSubscribeList } := by
  refine ⟨?_, ?_, ?_, asked⟩
  · intro currency
    dsimp only
    split
    · exact Option.map_eq_none_iff
    · exact Iff.rfl
  · intro currency
    rw [clientSendList_removeLoop]
    split
    · exact (nodup currency).erase clientSocket
    · exact nodup currency
  · intro currency other listed stays
    rw [clientSendList_removeLoop]
    split <;> rename_i chosen
    · have different : other ≠ clientSocket := fun same => stays same (off currency chosen.2)
      exact (List.mem_erase_of_ne different).mpr listed
    · exact listed

/-- A request which is not a subscription is served whenever the currencies on the socket's list
have books, whatever other sockets are about to do. -/
theorem exists_withdraws {core : CoreComponent Price} {clientSocket : Socket}
    (opened : ∀ currency ∈ core.clientSubscribeList clientSocket,
      core.openOrderbooks currency ≠ none)
    (nodup : ∀ currency, (core.clientSendList currency).Nodup) {request : SocketBuffer}
    (other : ∀ currencyName, Request.read request ≠ .subscribe currencyName) :
    ∃ served, processRequest request clientSocket core = some served ∧
      Withdraws (Request.read request) clientSocket core served.1 := by
  have books : ∀ currency book, core.openOrderbooks currency = some book →
      book.clientSendList.Nodup := by
    intro currency book found
    simpa [clientSendList, found] using nodup currency
  rw [Request.read] at other ⊢
  split_ifs at other ⊢ with close subscribe unsubscribe
  · have loop := removeLoop_eq clientSocket (fun _ => True)
      (fun currency member _ => opened currency member) books
    simp only [if_true] at loop
    refine ⟨_, by rw [processRequest, if_pos close, loop, Option.map_some], ?_⟩
    exact withdraws_removed .close clientSocket nodup (fun _ => True) (fun _ _ => rfl)
      fun _ _ member => member
  · exact absurd rfl (other _)
  · have loop := removeLoop_eq clientSocket (· = (receivedData request).currencyName)
      (fun currency member _ => opened currency member) books
    refine ⟨_, by rw [processRequest, if_neg close, if_neg subscribe, if_pos unsubscribe, loop,
      Option.map_some], ?_⟩
    apply withdraws_removed _ clientSocket nodup
    · rintro currency rfl
      exact if_pos rfl
    · intro asker currency member
      by_cases same : asker = clientSocket
      · subst same
        rw [Function.update_self] at member
        exact List.mem_of_mem_filter member
      · rwa [Function.update_of_ne same] at member
  · refine ⟨_, by rw [processRequest, if_neg close, if_neg subscribe, if_neg unsubscribe], ?_⟩
    exact ⟨fun _ => Iff.rfl, nodup, fun _ _ listed _ => listed, fun _ _ member => member⟩

end CoreComponent

/-! ## What a step does -/

theorem CoreComponent.opened_of_listed {core : CoreComponent Price} {currency : UInt32}
    {clientSocket : Socket} (listed : clientSocket ∈ core.clientSendList currency) :
    core.openOrderbooks currency ≠ none := by
  intro closed
  rw [clientSendList, closed] at listed
  contradiction

theorem CoreComponent.mem_clients_addClient {clientSocket other : Socket}
    {book : Orderbook Price} :
    other ∈ (book.addClient clientSocket).clientSendList ↔
      other ∈ book.clientSendList ∨ other = clientSocket := by
  rw [clientSendList_addClient]
  split <;> rename_i listed
  · exact ⟨Or.inl, fun member => member.elim id fun same => same ▸ listed⟩
  · simp

theorem CoreComponent.nodup_clients_addClient {book : Orderbook Price}
    (nodup : book.clientSendList.Nodup) (clientSocket : Socket) :
    (book.addClient clientSocket).clientSendList.Nodup := by
  rw [clientSendList_addClient]
  split <;> rename_i listed
  · exact nodup
  · rw [← List.concat_eq_append]
    exact nodup.concat listed

namespace Threads

/-- Every thread finds the books which it relies on. -/
structure Ready (threads : Threads Price) : Prop where
  /-- Somebody's currency has a book. -/
  asked : ∀ clientSocket, ∀ currency ∈ threads.core.clientSubscribeList clientSocket,
    threads.core.openOrderbooks currency ≠ none
  /-- A thread past its test, or past its creation, has a book. -/
  staged : ∀ clientSocket currency, threads.stage clientSocket = .registering currency ∨
    threads.stage clientSocket = .appending currency →
      threads.core.openOrderbooks currency ≠ none
  /-- No socket is listed twice. -/
  nodup : ∀ currency, (threads.core.clientSendList currency).Nodup

/-- What a step of a thread does. -/
structure Follows (event : Socket × Action) (threads next : Threads Price) : Prop where
  /-- Books are opened by their creation alone, and stay. -/
  opened : ∀ currency, next.core.openOrderbooks currency = none ↔
    threads.core.openOrderbooks currency = none ∧ event.2.creates ≠ some currency
  /-- No socket is listed twice. -/
  nodup : ∀ currency, (next.core.clientSendList currency).Nodup
  /-- A socket stays listed, unless a book is created over its own or it switches it off. -/
  kept : ∀ currency, event.2.creates ≠ some currency →
    ∀ other ∈ threads.core.clientSendList currency,
      (other = event.1 → event.2.switch currency ≠ some false) →
        other ∈ next.core.clientSendList currency
  /-- Somebody's currency has a book. -/
  asked : ∀ other, ∀ currency ∈ next.core.clientSubscribeList other,
    next.core.openOrderbooks currency ≠ none
  /-- Other threads stay where they are. -/
  others : ∀ other, other ≠ event.1 → next.stage other = threads.stage other
  /-- A thread which is to register has a book. -/
  registering : ∀ currency, next.stage event.1 = .registering currency →
    next.core.openOrderbooks currency ≠ none
  /-- A thread which has registered is listed. -/
  appending : ∀ currency, next.stage event.1 = .appending currency →
    event.1 ∈ next.core.clientSendList currency
  /-- A thread which is to create a book has just found none. -/
  creating : ∀ currency, next.stage event.1 = .creating currency →
    (∃ request, event.2 = .receive request ∧ Request.read request = .subscribe currency) ∧
      threads.core.openOrderbooks currency = none

theorem step_test (threads : Threads Price) (clientSocket : Socket) {request : SocketBuffer}
    {currencyName : UInt32} (read : Request.read request = .subscribe currencyName) :
    threads.step (clientSocket, .receive request) =
      some { threads with
        stage := Function.update threads.stage clientSocket
          (if (threads.core.openOrderbooks currencyName).isNone then .creating currencyName
          else .registering currencyName) } := by
  simp only [step, read]

theorem follows_test {threads : Threads Price} (ready : threads.Ready) (clientSocket : Socket)
    {request : SocketBuffer} {currencyName : UInt32}
    (read : Request.read request = .subscribe currencyName) :
    ∃ next, threads.step (clientSocket, .receive request) = some next ∧
      Follows (clientSocket, .receive request) threads next := by
  refine ⟨_, step_test threads clientSocket read, ?_, ready.nodup, fun _ _ _ listed _ => listed,
    ready.asked, ?_, ?_, ?_, ?_⟩
  · intro currency
    simp [Action.creates]
  · intro other different
    exact Function.update_of_ne different _ _
  · intro currency staged
    simp only [Function.update_self] at staged
    split at staged <;> rename_i found
    · exact nomatch staged
    · rw [← Stage.registering.inj staged]
      simpa using found
  · intro currency staged
    simp only [Function.update_self] at staged
    split at staged
    · exact nomatch staged
    · exact nomatch staged
  · intro currency staged
    simp only [Function.update_self] at staged
    split at staged <;> rename_i found
    · rw [← Stage.creating.inj staged]
      exact ⟨⟨request, rfl, read⟩, Option.isNone_iff_eq_none.mp found⟩
    · exact nomatch staged

theorem follows_serve {threads : Threads Price} (ready : threads.Ready) {clientSocket : Socket}
    (idle : threads.stage clientSocket = .idle) {request : SocketBuffer}
    (other : ∀ currencyName, Request.read request ≠ .subscribe currencyName) :
    ∃ next, threads.step (clientSocket, .receive request) = some next ∧
      Follows (clientSocket, .receive request) threads next := by
  obtain ⟨served, answered, withdraws⟩ :=
    CoreComponent.exists_withdraws (ready.asked clientSocket) ready.nodup other
  have stepped : threads.step (clientSocket, .receive request) =
      some { threads with core := served.1 } := by
    cases read : Request.read request with
    | subscribe currencyName => exact absurd read (other currencyName)
    | _ => simp [step, read, answered]
  have switch : ∀ currency, Action.switch currency (.receive request) =
      (Request.read request).switch currency := by
    intro currency
    cases read : Request.read request with
    | subscribe currencyName => exact absurd read (other currencyName)
    | _ => simp only [Action.switch, read]
  refine ⟨_, stepped, ?_, withdraws.nodup, ?_, ?_, fun _ _ => rfl, ?_, ?_, ?_⟩
  · intro currency
    simp [withdraws.opened, Action.creates]
  · intro currency _ socket listed stays
    exact withdraws.kept currency socket listed (switch currency ▸ stays)
  · intro socket currency member
    rw [Ne, withdraws.opened]
    exact ready.asked socket currency (withdraws.asked socket currency member)
  · intro currency staged
    exact nomatch idle.symm.trans staged
  · intro currency staged
    exact nomatch idle.symm.trans staged
  · intro currency staged
    exact nomatch idle.symm.trans staged

theorem follows_create {threads : Threads Price} (ready : threads.Ready) (clientSocket : Socket)
    (currencyName : UInt32) :
    ∃ next, threads.step (clientSocket, .create currencyName) = some next ∧
      Follows (clientSocket, .create currencyName) threads next := by
  refine ⟨_, rfl, ?_, ?_, ?_, ?_, ?_, ?_, ?_, ?_⟩
  · intro currency
    by_cases same : currency = currencyName
    · simp [CoreComponent.addWebsocketConnection, Action.creates, same]
    · simp [CoreComponent.addWebsocketConnection, Action.creates, same, Ne.symm same]
  · intro currency
    by_cases same : currency = currencyName
    · simp [CoreComponent.addWebsocketConnection, CoreComponent.clientSendList, same,
        Orderbook.new]
    · simpa [CoreComponent.addWebsocketConnection, CoreComponent.clientSendList, same] using
        ready.nodup currency
  · intro currency apart other listed _
    have different : currency ≠ currencyName := fun same => apart (congrArg some same.symm)
    simpa [CoreComponent.addWebsocketConnection, CoreComponent.clientSendList, different] using
      listed
  · intro other currency member
    by_cases same : currency = currencyName
    · simp [CoreComponent.addWebsocketConnection, same]
    · simpa [CoreComponent.addWebsocketConnection, same] using ready.asked other currency member
  · intro other different
    exact Function.update_of_ne different _ _
  · intro currency staged
    simp only [Function.update_self, Stage.registering.injEq] at staged
    simp [CoreComponent.addWebsocketConnection, staged]
  · intro currency staged
    simp [Function.update_self] at staged
  · intro currency staged
    simp [Function.update_self] at staged

theorem follows_register {threads : Threads Price} (ready : threads.Ready) {clientSocket : Socket}
    {currencyName : UInt32} (staged : threads.stage clientSocket = .registering currencyName) :
    ∃ next, threads.step (clientSocket, .register currencyName) = some next ∧
      Follows (clientSocket, .register currencyName) threads next := by
  obtain ⟨book, found⟩ := Option.ne_none_iff_exists'.mp
    (ready.staged clientSocket currencyName (Or.inl staged))
  have stepped : threads.step (clientSocket, .register currencyName) =
      some
        { core := { threads.core with
            openOrderbooks := Function.update threads.core.openOrderbooks currencyName
              (some (book.addClient clientSocket)) }
          stage := Function.update threads.stage clientSocket (.appending currencyName) } := by
    simp [step, CoreComponent.withBook, found]
  have clients : book.clientSendList = threads.core.clientSendList currencyName := by
    simp [CoreComponent.clientSendList, found]
  refine ⟨_, stepped, ?_, ?_, ?_, ?_, ?_, ?_, ?_, ?_⟩
  · intro currency
    by_cases same : currency = currencyName
    · simp [Action.creates, same, found]
    · simp [Action.creates, same]
  · intro currency
    by_cases same : currency = currencyName
    · subst same
      simp only [CoreComponent.clientSendList, Function.update_self]
      exact CoreComponent.nodup_clients_addClient (clients ▸ ready.nodup currency) clientSocket
    · simpa [CoreComponent.clientSendList, same] using ready.nodup currency
  · intro currency _ other listed _
    by_cases same : currency = currencyName
    · subst same
      simp only [CoreComponent.clientSendList, Function.update_self]
      exact CoreComponent.mem_clients_addClient.mpr (Or.inl (clients ▸ listed))
    · simpa [CoreComponent.clientSendList, same] using listed
  · intro other currency member
    by_cases same : currency = currencyName
    · simp [same]
    · simpa [same] using ready.asked other currency member
  · intro other different
    exact Function.update_of_ne different _ _
  · intro currency registering
    simp [Function.update_self] at registering
  · intro currency registered
    simp only [Function.update_self, Stage.appending.injEq] at registered
    subst registered
    simp only [CoreComponent.clientSendList, Function.update_self]
    exact CoreComponent.mem_clients_addClient.mpr (Or.inr rfl)
  · intro currency staged
    simp [Function.update_self] at staged

theorem follows_append {threads : Threads Price} (ready : threads.Ready) {clientSocket : Socket}
    {currencyName : UInt32} (staged : threads.stage clientSocket = .appending currencyName) :
    ∃ next, threads.step (clientSocket, .append currencyName) = some next ∧
      Follows (clientSocket, .append currencyName) threads next := by
  refine ⟨_, rfl, ?_, ready.nodup, fun _ _ _ listed _ => listed, ?_, ?_, ?_, ?_, ?_⟩
  · intro currency
    simp [Action.creates]
  · intro other currency member
    by_cases same : other = clientSocket
    · subst same
      simp only [Function.update_self] at member
      rcases List.mem_append.mp member with earlier | added
      · exact ready.asked other currency earlier
      · rw [List.mem_singleton.mp added]
        exact ready.staged other currencyName (Or.inr staged)
    · simp only [Function.update_of_ne same] at member
      exact ready.asked other currency member
  · intro other different
    exact Function.update_of_ne different _ _
  · intro currency registering
    simp [Function.update_self] at registering
  · intro currency registered
    simp [Function.update_self] at registered
  · intro currency creating
    simp [Function.update_self] at creating

/-- An enabled step of a thread never fails. -/
theorem exists_follows {threads : Threads Price} (ready : threads.Ready)
    {event : Socket × Action} (enabled : threads.Enabled event) :
    ∃ next, threads.step event = some next ∧ Follows event threads next := by
  obtain ⟨clientSocket, action⟩ := event
  cases action with
  | receive request =>
      cases read : Request.read request with
      | subscribe currencyName => exact follows_test ready clientSocket read
      | _ => exact follows_serve ready enabled fun _ same => nomatch read.symm.trans same
  | create currencyName => exact follows_create ready clientSocket currencyName
  | register currencyName => exact follows_register ready enabled
  | append currencyName => exact follows_append ready enabled

theorem Follows.ready {event : Socket × Action} {threads next : Threads Price}
    (follows : Follows event threads next) (ready : threads.Ready) : next.Ready where
  asked := follows.asked
  staged := by
    intro clientSocket currency staged
    by_cases same : clientSocket = event.1
    · subst same
      rcases staged with registering | appending
      · exact follows.registering currency registering
      · exact CoreComponent.opened_of_listed (follows.appending currency appending)
    · rw [follows.others clientSocket same] at staged
      rw [Ne, follows.opened, not_and_or]
      exact Or.inl (ready.staged clientSocket currency staged)
  nodup := follows.nodup

/-! ## Interleavings -/

/-- Whether a step completes or ends the subscription of a socket to a currency. -/
def switchOf (clientSocket : Socket) (currency : UInt32) (event : Socket × Action) : Option Bool :=
  if event.1 = clientSocket then event.2.switch currency else none

/-- The currencies for which books were created, in order. -/
def created (history : List (Socket × Action)) : List UInt32 :=
  history.filterMap fun event => event.2.creates

/-- Every currency has got at most one book, and this lists every socket which has completed a
subscription and not ended it since. -/
structure OneBook (history : List (Socket × Action)) (threads : Threads Price) : Prop where
  /-- No book was created over another one. -/
  once : ∀ currency, (created history).count currency ≤ 1
  /-- The open book lists its subscribers. -/
  listed : ∀ clientSocket currency,
    History.latest (switchOf clientSocket currency) history = some true →
      ∃ book, threads.core.openOrderbooks currency = some book ∧
        clientSocket ∈ book.clientSendList

/-- The step creates a book for a currency which has one already. -/
def Recreates (threads : Threads Price) (event : Socket × Action) : Prop :=
  ∃ currency, event.2.creates = some currency ∧ threads.core.openOrderbooks currency ≠ none

theorem created_snoc (history : List (Socket × Action)) (event : Socket × Action) :
    created (history ++ [event]) = created history ++ event.2.creates.toList := by
  cases creates : event.2.creates <;> simp [created, creates]

/-- The last step of a socket is its test for a currency for which no book had been created; the
steps of other sockets since then are in between. -/
structure FoundNone (history : List (Socket × Action)) (clientSocket : Socket) (currency : UInt32)
    (between : List (Socket × Action)) : Prop where
  /-- The test. -/
  tested : ∃ earlier request,
    history = earlier ++ (clientSocket, .receive request) :: between ∧
      Request.read request = .subscribe currency ∧ currency ∉ created earlier
  /-- The thread has taken no step since. -/
  waiting : ∀ event ∈ between, event.1 ≠ clientSocket

/-- In every interleaving the threads find what they rely on, the currencies with books are those
for which books were created, and a book is created after a test which found none. -/
structure Accounted (history : List (Socket × Action)) (threads : Threads Price) : Prop where
  /-- Every thread finds the books which it relies on. -/
  ready : threads.Ready
  /-- Books come from their creation. -/
  created : ∀ currency, threads.core.openOrderbooks currency = none ↔ currency ∉ created history
  /-- A thread which is to create a book has found none, and has taken no step since. -/
  creating : ∀ clientSocket currency, threads.stage clientSocket = .creating currency →
    ∃ between, FoundNone history clientSocket currency between

/-- What a thread has found it has found until it takes its next step. -/
theorem FoundNone.snoc {history : List (Socket × Action)} {clientSocket : Socket}
    {currency : UInt32} {between : List (Socket × Action)} {event : Socket × Action}
    (found : FoundNone history clientSocket currency between) (elsewhere : event.1 ≠ clientSocket) :
    FoundNone (history ++ [event]) clientSocket currency (between ++ [event]) := by
  obtain ⟨⟨earlier, request, split, read, absent⟩, waiting⟩ := found
  refine ⟨⟨earlier, request, ?_, read, absent⟩, ?_⟩
  · rw [split, List.append_assoc, List.cons_append]
  · exact List.forall_mem_append.mpr ⟨waiting, List.forall_mem_singleton.mpr elsewhere⟩

theorem Accounted.step {history : List (Socket × Action)} {event : Socket × Action}
    {threads next : Threads Price} (accounted : Accounted history threads)
    (follows : Follows event threads next) : Accounted (history ++ [event]) next where
  ready := follows.ready accounted.ready
  created := by
    intro currency
    rw [follows.opened, accounted.created, created_snoc, List.mem_append, not_or,
      Option.mem_toList]
  creating := by
    intro clientSocket currency creating
    by_cases same : clientSocket = event.1
    · subst same
      obtain ⟨⟨request, received, read⟩, closed⟩ := follows.creating currency creating
      have absent := (accounted.created currency).mp closed
      exact ⟨[], ⟨history, request, by rw [← received], read, absent⟩, by simp⟩
    · rw [follows.others clientSocket same] at creating
      obtain ⟨between, found⟩ := accounted.creating clientSocket currency creating
      exact ⟨between ++ [event], found.snoc (Ne.symm same)⟩

theorem accounted_new : Accounted [] (new : Threads Price) where
  ready := by
    refine ⟨?_, ?_, fun _ => List.nodup_nil⟩
    · exact fun _ _ member => nomatch member
    · rintro clientSocket currency (registering | appending)
      · exact nomatch registering
      · exact nomatch appending
  created _ := iff_of_true rfl List.not_mem_nil
  creating _ _ creating := nomatch creating

/-- While no book is created over another one, no subscriber is lost. -/
structure Kept (history : List (Socket × Action)) (threads : Threads Price) : Prop where
  /-- No book was created over another one. -/
  once : ∀ currency, (created history).count currency ≤ 1
  /-- Subscribers are listed. -/
  completed : ∀ clientSocket currency,
    History.latest (switchOf clientSocket currency) history = some true →
      clientSocket ∈ threads.core.clientSendList currency
  /-- So are threads which have registered. -/
  appending : ∀ clientSocket currency, threads.stage clientSocket = .appending currency →
    clientSocket ∈ threads.core.clientSendList currency

theorem kept_new : Kept [] (new : Threads Price) where
  once _ := Nat.zero_le 1
  completed _ _ completed := nomatch completed
  appending _ _ appending := nomatch appending

theorem Kept.step {history : List (Socket × Action)} {event : Socket × Action}
    {threads next : Threads Price} (kept : Kept history threads)
    (accounted : Accounted history threads) (enabled : threads.Enabled event)
    (fresh : ¬ threads.Recreates event) (follows : Follows event threads next) :
    Kept (history ++ [event]) next := by
  have created_first : ∀ currency, event.2.creates = some currency →
      threads.core.openOrderbooks currency = none := by
    intro currency creates
    by_contra opened
    exact fresh ⟨currency, creates, opened⟩
  have stays : ∀ currency other, other ∈ threads.core.clientSendList currency →
      switchOf other currency event ≠ some false → other ∈ next.core.clientSendList currency := by
    intro currency other listed on
    apply follows.kept currency ?_ other listed
    · intro same
      rwa [switchOf, if_pos same.symm] at on
    · intro creates
      exact CoreComponent.opened_of_listed listed (created_first currency creates)
  refine ⟨?_, ?_, ?_⟩
  · intro currency
    rw [created_snoc, List.count_append]
    by_cases creates : event.2.creates = some currency
    · have absent := (accounted.created currency).mp (created_first currency creates)
      rw [List.count_eq_zero.mpr absent, creates]
      simp
    · have absent : currency ∉ event.2.creates.toList := by
        rwa [Option.mem_toList]
      rw [List.count_eq_zero.mpr absent]
      exact kept.once currency
  · intro clientSocket currency completed
    rw [History.latest_snoc] at completed
    cases switched : switchOf clientSocket currency event with
    | some on =>
        rw [switched, Option.some_or, Option.some_inj] at completed
        subst completed
        apply stays currency clientSocket ?_ (by simp [switched])
        rw [switchOf] at switched
        split at switched <;> rename_i same
        · subst same
          apply kept.appending
          rw [enabled, Action.eq_append_of_switch switched, Action.stage]
        · contradiction
    | none =>
        rw [switched, Option.none_or] at completed
        exact stays currency clientSocket (kept.completed clientSocket currency completed)
          (by simp [switched])
  · intro clientSocket currency appending
    by_cases same : clientSocket = event.1
    · subst same
      exact follows.appending currency appending
    · rw [follows.others clientSocket same] at appending
      apply stays currency clientSocket (kept.appending clientSocket currency appending)
      simp [switchOf, Ne.symm same]

theorem Kept.oneBook {history : List (Socket × Action)} {threads : Threads Price}
    (kept : Kept history threads) : OneBook history threads where
  once := kept.once
  listed clientSocket currency completed :=
    CoreComponent.mem_clientSendList_iff.mp (kept.completed clientSocket currency completed)

theorem accounted_run {history : List (Socket × Action)} {outcome : Option (Threads Price)}
    (run : Run history outcome) :
    ∃ threads, outcome = some threads ∧ Accounted history threads := by
  apply run.invariant Accounted accounted_new
  intro history threads event _ accounted enabled
  obtain ⟨next, stepped, follows⟩ := exists_follows accounted.ready enabled
  exact ⟨next, stepped, accounted.step follows⟩

/-- A book created over another one is the second one of its currency. -/
theorem not_oneBook_of_recreates {history : List (Socket × Action)} {event : Socket × Action}
    {threads next : Threads Price} (accounted : Accounted history threads)
    (recreates : threads.Recreates event) : ¬ OneBook (history ++ [event]) next := by
  rintro ⟨once, -⟩
  obtain ⟨currency, creates, opened⟩ := recreates
  have earlier : currency ∈ created history :=
    not_not.mp (mt (accounted.created currency).mpr opened)
  have first := List.count_pos_iff.mpr earlier
  have count := once currency
  rw [created_snoc, List.count_append, creates, Option.toList_some, List.count_singleton_self]
    at count
  omega

/-! ## Overtaken creations -/

/-- The history ends with the creation of a book by a thread which has found none, and between its
test and this step another thread has created one for the same currency. -/
def Overtaken (history : List (Socket × Action)) : Prop :=
  ∃ front clientSocket currency between, history = front ++ [(clientSocket, .create currency)] ∧
    FoundNone front clientSocket currency between ∧
      ∃ other, other ≠ clientSocket ∧ (other, .create currency) ∈ between

/-- The books created up to a test and since are those of the whole history. -/
theorem created_of_test (earlier : List (Socket × Action)) (clientSocket : Socket)
    (request : SocketBuffer) (between : List (Socket × Action)) :
    created (earlier ++ (clientSocket, .receive request) :: between) =
      created earlier ++ created between := by
  rw [created, List.filterMap_append]
  rfl

theorem mem_created_iff {history : List (Socket × Action)} {currency : UInt32} :
    currency ∈ created history ↔ ∃ clientSocket, (clientSocket, .create currency) ∈ history := by
  rw [created, List.mem_filterMap]
  constructor
  · rintro ⟨⟨clientSocket, action⟩, member, creates⟩
    cases action with
    | create currencyName =>
        obtain rfl := Option.some_inj.mp creates
        exact ⟨clientSocket, member⟩
    | receive request => cases creates
    | register currencyName => cases creates
    | append currencyName => cases creates
  · rintro ⟨clientSocket, member⟩
    exact ⟨_, member, rfl⟩

/-- A creation meets a book exactly when it has been overtaken since its test. -/
theorem overtaken_snoc_iff {history : List (Socket × Action)} {event : Socket × Action}
    {threads : Threads Price} (run : Run history (some threads)) (enabled : threads.Enabled event) :
    Overtaken (history ++ [event]) ↔ threads.Recreates event := by
  obtain ⟨same, found, accounted⟩ := accounted_run run
  obtain rfl := Option.some_inj.mp found
  constructor
  · rintro ⟨front, clientSocket, currency, between, split, foundNone, other, -, member⟩
    obtain ⟨rfl, last⟩ := List.append_inj' split rfl
    obtain rfl := List.singleton_inj.mp last
    obtain ⟨⟨earlier, request, rfl, -, -⟩, -⟩ := foundNone
    refine ⟨currency, rfl, mt (accounted.created currency).mp (not_not.mpr ?_)⟩
    rw [created_of_test]
    exact List.mem_append_right _ (mem_created_iff.mpr ⟨other, member⟩)
  · rintro ⟨currency, creates, opened⟩
    obtain ⟨clientSocket, action⟩ := event
    cases action with
    | create currencyName =>
        obtain rfl := Option.some_inj.mp creates
        obtain ⟨between, foundNone⟩ := accounted.creating clientSocket currencyName enabled
        have present := not_not.mp (mt (accounted.created currencyName).mpr opened)
        obtain ⟨earlier, request, rfl, -, absent⟩ := foundNone.tested
        rw [created_of_test] at present
        obtain ⟨other, member⟩ := mem_created_iff.mp
          ((List.mem_append.mp present).resolve_left absent)
        exact ⟨_, clientSocket, currencyName, between, rfl, foundNone, other,
          foundNone.waiting _ member, member⟩
    | receive request => cases creates
    | register currencyName => cases creates
    | append currencyName => cases creates

/-- In every interleaving no step fails, every currency gets at most one book, and no subscriber is
lost, exactly when between a test which finds no book and the creation which follows it no other
thread creates a book for the currency. -/
theorem one_book_iff_none_overtaken (history : List (Socket × Action)) :
    (∀ front, front <+: history → ∀ outcome : Option (Threads Price), Run front outcome →
        ∃ threads, outcome = some threads ∧ OneBook front threads) ↔
      ∀ front, front <+: history → ∀ outcome : Option (Threads Price), Run front outcome →
        ¬ Overtaken front := by
  constructor
  · intro sound front within outcome run overtaken
    obtain ⟨earlier, event, rfl⟩ : ∃ earlier event, front = earlier ++ [event] := by
      obtain ⟨earlier, clientSocket, currency, -, split, -⟩ := overtaken
      exact ⟨earlier, _, split⟩
    obtain ⟨threads, reached, enabled, -⟩ := History.reaches_snoc_iff.mp run
    obtain ⟨same, found, accounted⟩ := accounted_run reached
    obtain rfl := Option.some_inj.mp found
    obtain ⟨next, -, oneBook⟩ := sound _ within _ run
    exact not_oneBook_of_recreates accounted ((overtaken_snoc_iff reached enabled).mp overtaken)
      oneBook
  · intro fresh front within outcome run
    have invariant : ∃ threads, outcome = some threads ∧ Accounted front threads ∧
        (front <+: history → Kept front threads) := by
      apply run.invariant fun front threads =>
        Accounted front threads ∧ (front <+: history → Kept front threads)
      · exact ⟨accounted_new, fun _ => kept_new⟩
      · rintro front threads event run ⟨accounted, kept⟩ enabled
        obtain ⟨next, stepped, follows⟩ := exists_follows accounted.ready enabled
        refine ⟨next, stepped, accounted.step follows, fun within => ?_⟩
        have kept_front := kept ((List.prefix_append front [event]).trans within)
        have first : ¬ threads.Recreates event := fun recreates =>
          fresh _ within _ (.step run enabled) ((overtaken_snoc_iff run enabled).mpr recreates)
        exact kept_front.step accounted enabled first follows
    obtain ⟨threads, rfl, -, kept⟩ := invariant
    exact ⟨threads, rfl, (kept within).oneBook⟩

/-- Two sockets ask for a currency without a book before either creates one. -/
def raceHistory : List (Socket × Action) :=
  [(4, .receive (ClientRequest.subscribe 1 1).buffer),
    (5, .receive (ClientRequest.subscribe 1 1).buffer), (4, .create 1), (4, .register 1),
    (4, .append 1), (5, .create 1)]

/-- The slower thread creates a second book, and the subscriber of the first one is lost. -/
theorem raceHistory_creates_twice :
    ∃ threads : Threads ℕ, Run raceHistory (some threads) ∧ ¬ OneBook raceHistory threads ∧
      4 ∉ threads.core.clientSendList 1 := by
  have read : Request.read (ClientRequest.subscribe 1 1).buffer = .subscribe 1 :=
    ClientRequest.read_buffer _
  have tested : Run [(4, .receive (ClientRequest.subscribe 1 1).buffer)] (some _) :=
    History.Reaches.start.next _ rfl (step_test (new : Threads ℕ) 4 read)
  have both := tested.next (5, .receive (ClientRequest.subscribe 1 1).buffer) rfl
    (step_test _ 5 read)
  have served := ((both.next (4, .create 1) rfl rfl).next (4, .register 1) rfl rfl).next
    (4, .append 1) rfl rfl
  have recreated := served.next (5, .create 1) rfl rfl
  refine ⟨_, recreated, ?_, ?_⟩
  · rintro ⟨once, -⟩
    have twice : (created raceHistory).count 1 = 2 := rfl
    exact absurd (once 1) (by rw [twice]; decide)
  · exact List.not_mem_nil

end Threads

end CryptoInfra
