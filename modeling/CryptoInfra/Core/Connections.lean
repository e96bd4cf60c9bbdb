import CryptoInfra.Core.Subscriptions
import CryptoInfra.Orderbook.Broadcast

/-!
# Connections and their lifetimes

Connections are accepted, send requests and end, while the feeds update the books. The operating
system hands out any descriptor which is not open. A request of type zero removes its socket from
all send lists before the connection ends; the other two ways to end remove nothing. So the send
lists keep to the open connections which asked exactly as long as no connection ends in such a way
while it is listed.
-/

namespace CryptoInfra

variable {Price : Type*} [LinearOrder Price]

/-! ## What a feed does to a book -/

/-- Snapshots are sent to listed sockets only. -/
theorem Orderbook.recipient_listed {book : Orderbook Price} {call : Call Price}
    {sent : Socket × Snapshot Price Volume} (member : sent ∈ (book.step call).2) :
    sent.1 ∈ book.clientSendList := by
  cases call with
  | update here exchangeId price newVolume =>
      rw [step_update] at member
      rcases sendSnapshot_cases (book.updated here exchangeId price newVolume) with
        ⟨silent, -⟩ | ⟨snapshot, -, -, -, -, -, outcome⟩
      · rw [silent] at member
        contradiction
      · rw [outcome, clients_updated] at member
        obtain ⟨clientSocket, listed, rfl⟩ := List.mem_map.mp member
        exact listed
  | initializeExchange exchangeId => contradiction
  | addClient clientSocket => contradiction
  | removeClient clientSocket => contradiction

/-- The calls which the feed of an exchange makes on its book. -/
def Call.FromFeed : Call Price → Prop
  | .initializeExchange _ => True
  | .update _ _ _ _ => True
  | _ => False

theorem Call.FromFeed.clients {call : Call Price} (feed : call.FromFeed) (book : Orderbook Price) :
    (book.step call).1.clientSendList = book.clientSendList := by
  cases call with
  | update here exchangeId price newVolume =>
      rw [Orderbook.step_update, Orderbook.clients_sendSnapshot, Orderbook.clients_updated]
  | initializeExchange exchangeId => rfl
  | addClient clientSocket => exact feed.elim
  | removeClient clientSocket => exact feed.elim

/-! ## The server and its events -/

/-- The server together with the descriptors of its open connections. -/
structure Server (Price : Type*) [LinearOrder Price] where
  /-- The books and subscriptions. -/
  core : CoreComponent Price
  /-- The descriptors of the open connections. -/
  connections : Finset Socket

/-- What happens to the server. -/
inductive Event (Price : Type*) where
  | accepted (clientSocket : Socket)
  | received (clientSocket : Socket) (reception : Reception SocketBuffer)
  | fed (currencyId : UInt32) (call : Call Price)

namespace Server

/-- A server without connections. -/
def new : Server Price where
  core := CoreComponent.new
  connections := ∅

/-- Only a descriptor which is not open is handed out, only an open connection is read, and only the
feeds of an open book call it. -/
def Enabled (server : Server Price) : Event Price → Prop
  | .accepted clientSocket => clientSocket ∉ server.connections
  | .received clientSocket _ => clientSocket ∈ server.connections
  | .fed currencyId call => server.core.openOrderbooks currencyId ≠ none ∧ call.FromFeed

/-- Handle one event, with the snapshots it sends. -/
def step (server : Server Price) :
    Event Price → Option (Server Price × List (Socket × Snapshot Price Volume))
  | .accepted clientSocket =>
      some ({ server with connections := insert clientSocket server.connections }, [])
  | .received clientSocket reception =>
      (CoreComponent.connectionRound clientSocket server.core reception).map fun round =>
        ({ core := round.1
           connections :=
             if round.2 then server.connections else server.connections.erase clientSocket }, [])
  | .fed currencyId call =>
      (server.core.openOrderbooks currencyId).map fun book =>
        let outcome := book.step call
        ({ server with
            core.openOrderbooks :=
              Function.update server.core.openOrderbooks currencyId (some outcome.1) }, outcome.2)

/-- The histories of a server and what they end in, if no step fails. -/
abbrev Run : List (Event Price) → Option (Server Price) → Prop :=
  History.Reaches Enabled (fun server event => (server.step event).map Prod.fst) new

/-- A connection ends, without a request of type zero, while it is on a send list. -/
def Abandons (server : Server Price) (event : Event Price) : Prop :=
  ∃ clientSocket currency, clientSocket ∈ server.core.clientSendList currency ∧
    (event = .received clientSocket .failed ∨ event = .received clientSocket .disconnected)

end Server

/-- Whether an event switches the snapshots of a currency for a socket; a new connection starts
without any. -/
def Event.switch (clientSocket : Socket) (currency : UInt32) : Event Price → Option Bool
  | .accepted newcomer => if newcomer = clientSocket then some false else none
  | .received sender (.received request) =>
      CoreComponent.switchOf clientSocket currency (sender, request)
  | _ => none

namespace Server

/-- The connection is open and its last request about the currency, since it was accepted, is a
subscription. -/
def Subscribed (history : List (Event Price)) (server : Server Price) (clientSocket : Socket)
    (currency : UInt32) : Prop :=
  clientSocket ∈ server.connections ∧
    History.latest (Event.switch clientSocket currency) history = some true

/-- Send lists and snapshots reach subscribed connections only. -/
structure Isolated (history : List (Event Price)) (server : Server Price) : Prop where
  /-- Every listed socket is subscribed. -/
  listed : ∀ currency, ∀ clientSocket ∈ server.core.clientSendList currency,
    Subscribed history server clientSocket currency
  /-- Every socket which the next call on a book sends to is subscribed. -/
  recipients : ∀ currency book call, server.core.openOrderbooks currency = some book →
    ∀ sent ∈ (book.step call).2, Subscribed history server sent.1 currency

theorem isolated_of_listed {history : List (Event Price)} {server : Server Price}
    (listed : ∀ currency, ∀ clientSocket ∈ server.core.clientSendList currency,
      Subscribed history server clientSocket currency) :
    Isolated history server where
  listed := listed
  recipients currency book call found sent member := by
    apply listed currency sent.1
    rw [CoreComponent.clientSendList, found]
    exact Orderbook.recipient_listed member

end Server

/-! ## Steps -/

/-- The send list of a currency after an event. -/
def Event.updateSendList (event : Event Price) (currency : UInt32) (clientSendList : List Socket) :
    List Socket :=
  match event with
  | .received clientSocket (.received request) =>
      (Request.read request).updateSendList clientSocket currency clientSendList
  | _ => clientSendList

/-- The open connections after an event. -/
def Event.updateConnections (event : Event Price) (connections : Finset Socket) : Finset Socket :=
  match event with
  | .accepted clientSocket => insert clientSocket connections
  | .received clientSocket (.received request) =>
      if (receivedData request).messageType = 0 then connections.erase clientSocket
      else connections
  | .received clientSocket .failed => connections.erase clientSocket
  | .received clientSocket .disconnected => connections.erase clientSocket
  | .fed _ _ => connections

namespace Server

theorem switch_of_type_zero {request : SocketBuffer}
    (type : (receivedData request).messageType = 0) (currency : UInt32) :
    (Request.read request).switch currency = some false := by
  rw [Request.read, if_pos type, Request.switch]

/-- What an event makes of a server. -/
structure Follows (event : Event Price) (server next : Server Price) : Prop where
  /-- The send lists are updated by requests alone. -/
  sendLists : ∀ currency, next.core.clientSendList currency =
    event.updateSendList currency (server.core.clientSendList currency)
  /-- Connections open and close. -/
  connections : next.connections = event.updateConnections server.connections
  /-- The server stays serviceable. -/
  serviceable : next.core.Serviceable

/-- An enabled event of a serviceable server does not fail. -/
theorem step_spec {server : Server Price} (serviceable : server.core.Serviceable)
    {event : Event Price} (enabled : server.Enabled event) :
    ∃ outcome, server.step event = some outcome ∧ Follows event server outcome.1 := by
  cases event with
  | accepted clientSocket => exact ⟨_, rfl, fun _ => rfl, rfl, serviceable⟩
  | received clientSocket reception =>
      cases reception with
      | failed => exact ⟨_, rfl, fun _ => rfl, rfl, serviceable⟩
      | disconnected => exact ⟨_, rfl, fun _ => rfl, rfl, serviceable⟩
      | received request =>
          obtain ⟨next, served, serves⟩ :=
            CoreComponent.processRequest_spec serviceable request clientSocket
          refine ⟨_, by rw [step, CoreComponent.connectionRound, served, Option.map_some,
            Option.map_some], serves.sendLists, ?_, serves.serviceable serviceable⟩
          simp [Event.updateConnections]
  | fed currencyId call =>
      obtain ⟨opened, feed⟩ := enabled
      obtain ⟨book, found⟩ := Option.ne_none_iff_exists'.mp opened
      have kept : ∀ currency, CoreComponent.clientSendList
          { server.core with
            openOrderbooks := Function.update server.core.openOrderbooks currencyId
              (some (book.step call).1) } currency = server.core.clientSendList currency := by
        intro currency
        by_cases same : currency = currencyId
        · subst same
          simp [CoreComponent.clientSendList, found, feed.clients]
        · simp [CoreComponent.clientSendList, same]
      refine ⟨_, by rw [step, found, Option.map_some], kept, rfl, ?_, ?_, ?_⟩
      · intro clientSocket currency member
        by_cases same : currency = currencyId
        · simp [same]
        · simpa [same] using serviceable.opened clientSocket currency member
      · intro currency clientSocket listed
        exact serviceable.asked currency clientSocket (kept currency ▸ listed)
      · intro currency
        exact (kept currency).symm ▸ serviceable.nodup currency

theorem serviceable_run {history : List (Event Price)} {outcome : Option (Server Price)}
    (run : Run history outcome) : ∃ server, outcome = some server ∧ server.core.Serviceable := by
  apply run.invariant (fun _ server => server.core.Serviceable) CoreComponent.serviceable_new
  intro history server event _ serviceable enabled
  obtain ⟨outcome, stepped, follows⟩ := step_spec serviceable enabled
  exact ⟨outcome.1, by rw [stepped, Option.map_some], follows.serviceable⟩

/-- A subscribed connection which stays open keeps its subscription through an event which does not
switch it. -/
theorem Subscribed.snoc {history : List (Event Price)} {server next : Server Price}
    {event : Event Price} {clientSocket : Socket} {currency : UInt32}
    (subscribed : Subscribed history server clientSocket currency)
    (follows : Follows event server next)
    (opened : clientSocket ∈ event.updateConnections server.connections)
    (unswitched : event.switch clientSocket currency = none) :
    Subscribed (history ++ [event]) next clientSocket currency := by
  refine ⟨follows.connections ▸ opened, ?_⟩
  rw [History.latest_snoc, unswitched, Option.none_or]
  exact subscribed.2

/-- A request leaves its own socket subscribed to the currencies on whose send lists it is then. -/
theorem Subscribed.of_request {history : List (Event Price)} {server next : Server Price}
    {clientSocket : Socket} {request : SocketBuffer} {currency : UInt32}
    (subscribed : clientSocket ∈ server.core.clientSendList currency →
      Subscribed history server clientSocket currency)
    (opened : clientSocket ∈ server.connections)
    (follows : Follows (.received clientSocket (.received request)) server next)
    (listed : ((Request.read request).switch currency).getD
      (decide (clientSocket ∈ server.core.clientSendList currency)) = true) :
    Subscribed (history ++ [.received clientSocket (.received request)]) next clientSocket
      currency := by
  have goes_on : (receivedData request).messageType ≠ 0 := by
    intro type
    rw [switch_of_type_zero type] at listed
    contradiction
  have still_opened : clientSocket ∈ next.connections := by
    rw [follows.connections, Event.updateConnections, if_neg goes_on]
    exact opened
  refine ⟨still_opened, ?_⟩
  rw [History.latest_snoc, Event.switch, CoreComponent.switchOf, if_pos rfl]
  cases switched : (Request.read request).switch currency with
  | none =>
      rw [switched, Option.getD_none, decide_eq_true_iff] at listed
      exact (subscribed listed).2
  | some on =>
      rw [switched, Option.getD_some] at listed
      rw [listed, Option.some_or]

/-- An event which abandons no listed connection keeps the server isolated. -/
theorem Isolated.step {history : List (Event Price)} {server next : Server Price}
    {event : Event Price} (isolated : Isolated history server)
    (serviceable : server.core.Serviceable) (enabled : server.Enabled event)
    (kept : ¬ server.Abandons event) (follows : Follows event server next) :
    Isolated (history ++ [event]) next := by
  apply isolated_of_listed
  intro currency clientSocket listed
  rw [follows.sendLists] at listed
  cases event with
  | accepted newcomer =>
      have subscribed := isolated.listed currency clientSocket listed
      have different : newcomer ≠ clientSocket := fun same => enabled (same ▸ subscribed.1)
      exact subscribed.snoc follows (Finset.mem_insert_of_mem subscribed.1) (if_neg different)
  | received sender reception =>
      cases reception with
      | failed =>
          have subscribed := isolated.listed currency clientSocket listed
          have different : clientSocket ≠ sender := fun same =>
            kept ⟨clientSocket, currency, listed, Or.inl (by rw [same])⟩
          exact subscribed.snoc follows (Finset.mem_erase.mpr ⟨different, subscribed.1⟩) rfl
      | disconnected =>
          have subscribed := isolated.listed currency clientSocket listed
          have different : clientSocket ≠ sender := fun same =>
            kept ⟨clientSocket, currency, listed, Or.inr (by rw [same])⟩
          exact subscribed.snoc follows (Finset.mem_erase.mpr ⟨different, subscribed.1⟩) rfl
      | received request =>
          rw [Event.updateSendList,
            Request.mem_updateSendList (serviceable.nodup currency)] at listed
          by_cases same : clientSocket = sender
          · subst same
            rw [if_pos rfl] at listed
            exact .of_request (isolated.listed currency clientSocket) enabled follows listed
          · rw [if_neg same] at listed
            have subscribed := isolated.listed currency clientSocket listed
            refine subscribed.snoc follows ?_ (if_neg (Ne.symm same))
            rw [Event.updateConnections]
            split
            · exact Finset.mem_erase.mpr ⟨same, subscribed.1⟩
            · exact subscribed.1
  | fed currencyId call =>
      have subscribed := isolated.listed currency clientSocket listed
      exact subscribed.snoc follows subscribed.1 rfl

/-- A connection which ends while it is listed stays listed. -/
theorem not_isolated_of_abandons {history : List (Event Price)} {server next : Server Price}
    {event : Event Price} (abandons : server.Abandons event) (follows : Follows event server next) :
    ¬ Isolated (history ++ [event]) next := by
  intro isolated
  obtain ⟨clientSocket, currency, listed, ended⟩ := abandons
  have still : clientSocket ∈ next.core.clientSendList currency := by
    rw [follows.sendLists]
    rcases ended with rfl | rfl <;> exact listed
  have opened := (isolated.listed currency clientSocket still).1
  rw [follows.connections] at opened
  rcases ended with rfl | rfl <;> exact Finset.notMem_erase clientSocket _ opened

theorem isolated_snoc_iff {history : List (Event Price)} {server : Server Price}
    {event : Event Price} (isolated : Isolated history server) (run : Run history (some server))
    (enabled : server.Enabled event) :
    (∃ next, (server.step event).map Prod.fst = some next ∧ Isolated (history ++ [event]) next) ↔
      ¬ server.Abandons event := by
  obtain ⟨same, found, serviceable⟩ := serviceable_run run
  obtain rfl := Option.some_inj.mp found
  obtain ⟨outcome, stepped, follows⟩ := step_spec serviceable enabled
  rw [stepped, Option.map_some]
  constructor
  · rintro ⟨next, made, after⟩ abandons
    obtain rfl := Option.some_inj.mp made
    exact not_isolated_of_abandons abandons follows after
  · intro kept
    exact ⟨outcome.1, rfl, isolated.step serviceable enabled kept follows⟩

/-! ## Whole histories -/

/-- Along every history, no step fails and the server is isolated after every event, exactly when no
connection ends by a disconnection or a failure while it is listed. -/
theorem isolated_iff_none_abandoned (history : List (Event Price)) :
    (∀ front, front <+: history → ∀ outcome, Run front outcome →
        ∃ server, outcome = some server ∧ Isolated front server) ↔
      ∀ front event, front ++ [event] <+: history → ∀ server, Run front (some server) →
        server.Enabled event → ¬ server.Abandons event := by
  apply History.forall_prefix_iff (fun front => ∀ outcome, Run front outcome →
      ∃ server, outcome = some server ∧ Isolated front server)
    (fun front event => ∀ server, Run front (some server) → server.Enabled event →
      ¬ server.Abandons event)
  · intro outcome run
    refine ⟨new, History.reaches_nil_iff.mp run, isolated_of_listed ?_⟩
    exact fun _ _ listed => nomatch listed
  · intro front event good
    constructor
    · intro after server run enabled
      obtain ⟨same, found, isolated⟩ := good _ run
      obtain rfl := Option.some_inj.mp found
      exact (isolated_snoc_iff isolated run enabled).mp (after _ (.step run enabled))
    · intro kept outcome extended
      obtain ⟨server, run, enabled, rfl⟩ := History.reaches_snoc_iff.mp extended
      obtain ⟨same, found, isolated⟩ := good _ run
      obtain rfl := Option.some_inj.mp found
      exact (isolated_snoc_iff isolated run enabled).mpr (kept server run enabled)

/-- A request to subscribe to the first currency. -/
def subscribeRequest : SocketBuffer := fun position =>
  if position.val = 3 ∨ position.val = 7 ∨ position.val = 11 then 1 else 0

/-- A client subscribes and disconnects. -/
def disconnectHistory : List (Event ℕ) :=
  [.accepted 4, .received 4 (.received subscribeRequest), .received 4 .disconnected]

/-- A client which disconnects stays on the send list of its currency. -/
theorem disconnectHistory_not_isolated :
    ∃ server, Run disconnectHistory (some server) ∧ ¬ Isolated disconnectHistory server := by
  have read : Request.read subscribeRequest = .subscribe 1 := by decide +kernel
  have type : (receivedData subscribeRequest).messageType = 1 := by decide +kernel
  let accepted : Server ℕ := { core := CoreComponent.new, connections := {4} }
  have accepting : Run [.accepted 4] (some accepted) :=
    .step .start (Finset.notMem_empty 4)
  have requesting : accepted.Enabled (.received 4 (.received subscribeRequest)) :=
    Finset.mem_singleton_self 4
  obtain ⟨outcome, stepped, follows⟩ := step_spec CoreComponent.serviceable_new requesting
  have requested := History.Reaches.step accepting requesting
  rw [stepped, Option.map_some] at requested
  have opened : 4 ∈ outcome.1.connections := by
    rw [follows.connections, Event.updateConnections, type]
    exact Finset.mem_singleton_self 4
  have listed : 4 ∈ outcome.1.core.clientSendList 1 := by
    rw [follows.sendLists, Event.updateSendList, read]
    exact List.mem_singleton_self 4
  have leaving : outcome.1.Enabled (.received 4 .disconnected) := opened
  obtain ⟨left, ended, leaves⟩ := step_spec follows.serviceable leaving
  have run := History.Reaches.step requested leaving
  rw [ended, Option.map_some] at run
  have abandons : outcome.1.Abandons (.received 4 .disconnected) := ⟨4, 1, listed, Or.inr rfl⟩
  have broken : ¬ Isolated ([.accepted 4, .received 4 (.received subscribeRequest)] ++
      [.received 4 .disconnected]) left.1 := not_isolated_of_abandons abandons leaves
  exact ⟨left.1, run, broken⟩

end Server

end CryptoInfra
