import CryptoInfra.Core.Linearization
import CryptoInfra.System.Serialization

/-!
# Connection threads step by step

Connection threads serve a subscription in several steps, between which the other threads take
theirs. As long as no book is created over another one, this is a server which serves every request
at once, with the same books and the same snapshots. It serves a subscription when the socket is
registered. Where a thread creates a book, somebody who never says anything else opens the book and
leaves.
-/

namespace CryptoInfra

/-! ## Threads which take their steps -/

/-- The server, whose connection threads stand between two steps. -/
structure Stepwise where
  /-- The server with the threads of its connections to the exchanges. -/
  backend : Backend
  /-- Where the connection thread of every socket stands. -/
  stage : Socket → Stage

/-- A connection thread takes a step, or something else happens. -/
inductive StepwiseEvent where
  | acted (clientSocket : Socket) (action : Action)
  | elsewhere (event : BackendEvent)

/-- The step serves a request which ends the connection. -/
def Action.closes : Action → Bool
  | receive request => (receivedData request).messageType = 0
  | _ => false

/-- Something other than a request. An idle thread finds out that its connection has ended. -/
def BackendEvent.Elsewhere (stage : Socket → Stage) : BackendEvent → Prop
  | .received _ (.received _) => False
  | .received clientSocket _ => stage clientSocket = .idle
  | _ => True

instance (stage : Socket → Stage) (event : BackendEvent) : Decidable (event.Elsewhere stage) :=
  match event with
  | .received _ (.received _) => inferInstanceAs (Decidable False)
  | .received clientSocket .failed => inferInstanceAs (Decidable (stage clientSocket = .idle))
  | .received clientSocket .disconnected =>
      inferInstanceAs (Decidable (stage clientSocket = .idle))
  | .accepted _ => inferInstanceAs (Decidable True)
  | .started _ _ => inferInstanceAs (Decidable True)
  | .delivered _ _ _ => inferInstanceAs (Decidable True)
  | .applied _ _ => inferInstanceAs (Decidable True)
  | .stopped _ _ => inferInstanceAs (Decidable True)

namespace Stepwise

/-- A server without connections and threads. -/
def new : Stepwise where
  backend := Backend.new
  stage _ := .idle

/-- The connection threads with what they share. -/
def threads (stepwise : Stepwise) : Threads ℚ where
  core := stepwise.backend.server.core
  stage := stepwise.stage

/-- The threads of open connections take their steps in order. -/
def Enabled (stepwise : Stepwise) : StepwiseEvent → Prop
  | .acted clientSocket action => clientSocket ∈ stepwise.backend.server.connections ∧
      stepwise.threads.Enabled (clientSocket, action)
  | .elsewhere event => stepwise.backend.Enabled event ∧ event.Elsewhere stepwise.stage

instance (stepwise : Stepwise) (event : StepwiseEvent) : Decidable (stepwise.Enabled event) :=
  match event with
  | .acted clientSocket action => inferInstanceAs (Decidable
      (clientSocket ∈ stepwise.backend.server.connections ∧
        stepwise.stage clientSocket = action.stage))
  | .elsewhere event => inferInstanceAs (Decidable
      (stepwise.backend.Enabled event ∧ event.Elsewhere stepwise.stage))

/-- A thread creates a book over another one, whose threads would go on with the other one. -/
def Recreates (stepwise : Stepwise) : StepwiseEvent → Prop
  | .acted _ (.create currencyName) =>
      stepwise.backend.server.core.openOrderbooks currencyName ≠ none
  | _ => False

instance (stepwise : Stepwise) (event : StepwiseEvent) : Decidable (stepwise.Recreates event) :=
  match event with
  | .acted _ (.create currencyName) =>
      inferInstanceAs (Decidable (stepwise.backend.server.core.openOrderbooks currencyName ≠ none))
  | .acted _ (.receive _) => inferInstanceAs (Decidable False)
  | .acted _ (.register _) => inferInstanceAs (Decidable False)
  | .acted _ (.append _) => inferInstanceAs (Decidable False)
  | .elsewhere _ => inferInstanceAs (Decidable False)

/-- Handle one event, with the snapshots it sends. The step which creates a book starts both threads
of the book. -/
def step (stepwise : Stepwise) :
    StepwiseEvent → Option (Stepwise × List (Socket × Snapshot ℚ Volume))
  | .acted clientSocket action =>
      (stepwise.threads.step (clientSocket, action)).map fun threads =>
        ({ backend :=
             { server :=
                 { core := threads.core
                   connections :=
                     if action.closes then stepwise.backend.server.connections.erase clientSocket
                     else stepwise.backend.server.connections }
               workers := fun currencyId feed =>
                 if action.creates = some currencyId then some .starting
                 else stepwise.backend.workers currencyId feed }
           stage := threads.stage }, [])
  | .elsewhere event =>
      (stepwise.backend.step event).map fun outcome =>
        ({ stepwise with backend := outcome.1 }, outcome.2)

/-- Histories in which no book is created over another one, with the snapshots they send. -/
abbrev Sends :
    List StepwiseEvent → List (Socket × Snapshot ℚ Volume) → Stepwise → Prop :=
  History.Emits (fun stepwise event => stepwise.Enabled event ∧ ¬ stepwise.Recreates event) step
    new

end Stepwise

/-! ## Events of the server which serves requests at once -/

namespace BackendEvent

/-- The connection which an event is about. -/
def clientSocket : BackendEvent → Option Socket
  | accepted clientSocket => some clientSocket
  | received clientSocket _ => some clientSocket
  | _ => none

/-- The request which an event receives, with its sender. -/
def request : BackendEvent → Option (Socket × Request)
  | received clientSocket (.received request) => some (clientSocket, Request.read request)
  | _ => none

theorem request_of_elsewhere {stage : Socket → Stage} {event : BackendEvent}
    (elsewhere : event.Elsewhere stage) : event.request = none := by
  cases event with
  | received clientSocket reception =>
      cases reception with
      | received request => exact elsewhere.elim
      | failed => rfl
      | disconnected => rfl
  | _ => rfl

end BackendEvent

theorem CoreComponent.Serviceable.serve {core : CoreComponent ℚ} (serviceable : core.Serviceable)
    (request : SocketBuffer) (clientSocket : Socket) :
    (core.serve (Request.read request) clientSocket).Serviceable := by
  obtain ⟨next, served, serves⟩ := processRequest_spec serviceable request clientSocket
  rw [processRequest_eq_serve serviceable, Option.some_inj] at served
  rw [(Prod.mk.inj served).1]
  exact serves.serviceable serviceable

/-- The requests of a socket, in order. -/
def requestsOf (clientSocket : Socket) (requests : List (Socket × Request)) : List Request :=
  requests.filterMap fun request =>
    if request.1 = clientSocket then some request.2 else none

/-- Requests open books by subscriptions alone, and open books stay open. -/
theorem CoreComponent.opened_serve_iff {core : CoreComponent ℚ} {request : Request}
    {clientSocket : Socket} {currency : UInt32} :
    (core.serve request clientSocket).openOrderbooks currency ≠ none ↔
      core.openOrderbooks currency ≠ none ∨ request = .subscribe currency := by
  rw [serve]
  exact Request.updateBook_ne_none_iff

namespace Backend

/-- The server with other lists of what the sockets have asked for. -/
def withLists (clientSubscribeList : Socket → List UInt32) (backend : Backend) : Backend where
  server :=
    { core := { openOrderbooks := backend.server.core.openOrderbooks, clientSubscribeList }
      connections := backend.server.connections }
  workers := backend.workers

/-- Nothing but a request looks at what the sockets have asked for. -/
theorem step_withLists {event : BackendEvent} {stage : Socket → Stage}
    (elsewhere : event.Elsewhere stage) (clientSubscribeList : Socket → List UInt32)
    (backend : Backend) :
    (backend.withLists clientSubscribeList).step event =
      (backend.step event).map fun outcome =>
        (outcome.1.withLists clientSubscribeList, outcome.2) := by
  cases event with
  | accepted clientSocket => rfl
  | received clientSocket reception =>
      cases reception with
      | received request => exact elsewhere.elim
      | failed => rfl
      | disconnected => rfl
  | started currencyId feed =>
      cases found : backend.server.core.openOrderbooks currencyId <;>
        simp [step, nextServer, serverEvent, nextWorkers, withLists, Server.step, found, setWorker]
  | delivered currencyId feed message =>
      cases made : feed.calls message <;>
        simp [step, nextServer, serverEvent, nextWorkers, withLists, made, setWorker]
  | applied currencyId feed =>
      cases held : backend.inHand currencyId feed with
      | nil =>
          rw [inHand] at held
          simp [step, nextServer, serverEvent, nextWorkers, withLists, setWorker, inHand, held]
      | cons call updates =>
          rw [inHand] at held
          cases found : backend.server.core.openOrderbooks currencyId <;>
            simp [step, nextServer, serverEvent, nextWorkers, withLists, Server.step, found,
              setWorker, inHand, held]
  | stopped currencyId feed => rfl

theorem lists_of_step {event : BackendEvent} {stage : Socket → Stage}
    (elsewhere : event.Elsewhere stage) {backend next : Backend}
    {sends : List (Socket × Snapshot ℚ Volume)}
    (stepped : backend.step event = some (next, sends)) :
    next.server.core.clientSubscribeList = backend.server.core.clientSubscribeList := by
  have same := step_withLists elsewhere backend.server.core.clientSubscribeList backend
  rw [show backend.withLists backend.server.core.clientSubscribeList = backend from rfl, stepped,
    Option.map_some, Option.some_inj] at same
  exact congrArg (fun backend => backend.server.core.clientSubscribeList) (Prod.mk.inj same).1

theorem kept_of_fed {server next : Server ℚ} {currencyId : UInt32} {call : Call ℚ}
    {sends : List (Socket × Snapshot ℚ Volume)} {event : BackendEvent}
    (fed : server.step (.fed currencyId call) = some (next, sends)) :
    (∀ clientSocket, event.clientSocket ≠ some clientSocket →
        clientSocket ∉ server.connections → clientSocket ∉ next.connections) ∧
      ∀ currency, server.core.openOrderbooks currency ≠ none →
        next.core.openOrderbooks currency ≠ none := by
  obtain ⟨book, -, done⟩ := Option.map_eq_some_iff.mp fed
  rw [← (Prod.mk.inj done).1]
  refine ⟨fun _ _ => id, fun currency opened => ?_⟩
  by_cases same : currency = currencyId
  · simp [same]
  · simpa [same] using opened

/-- A connection is opened by what happens to it alone, and open books stay open. -/
theorem kept_of_step {event : BackendEvent} {stage : Socket → Stage}
    (elsewhere : event.Elsewhere stage) {backend next : Backend}
    {sends : List (Socket × Snapshot ℚ Volume)}
    (stepped : backend.step event = some (next, sends)) :
    (∀ clientSocket, event.clientSocket ≠ some clientSocket →
        clientSocket ∉ backend.server.connections → clientSocket ∉ next.server.connections) ∧
      ∀ currency, backend.server.core.openOrderbooks currency ≠ none →
        next.server.core.openOrderbooks currency ≠ none := by
  have served := (nextServer_of_step stepped).1
  cases event with
  | accepted newcomer =>
      rw [← (Prod.mk.inj (Option.some_inj.mp served)).1]
      refine ⟨fun clientSocket spared unconnected connected => ?_, fun _ => id⟩
      exact spared (congrArg some ((Finset.mem_insert.mp connected).resolve_right unconnected).symm)
  | received sender reception =>
      cases reception with
      | received request => exact elsewhere.elim
      | failed =>
          rw [← (Prod.mk.inj (Option.some_inj.mp served)).1]
          exact ⟨fun _ _ unconnected connected =>
            unconnected (Finset.mem_of_mem_erase connected), fun _ => id⟩
      | disconnected =>
          rw [← (Prod.mk.inj (Option.some_inj.mp served)).1]
          exact ⟨fun _ _ unconnected connected =>
            unconnected (Finset.mem_of_mem_erase connected), fun _ => id⟩
  | started currencyId feed => exact kept_of_fed served
  | delivered currencyId feed message =>
      rw [← (Prod.mk.inj (Option.some_inj.mp served)).1]
      exact ⟨fun _ _ => id, fun _ => id⟩
  | applied currencyId feed =>
      rw [nextServer, serverEvent] at served
      cases held : (backend.inHand currencyId feed).head? with
      | none =>
          rw [held] at served
          rw [← (Prod.mk.inj (Option.some_inj.mp served)).1]
          exact ⟨fun _ _ => id, fun _ => id⟩
      | some call =>
          rw [held] at served
          exact kept_of_fed served
  | stopped currencyId feed =>
      rw [← (Prod.mk.inj (Option.some_inj.mp served)).1]
      exact ⟨fun _ _ => id, fun _ => id⟩

/-- A request is served at once, and starts the threads of the book which it opens. -/
theorem step_request {backend : Backend} (serviceable : backend.server.core.Serviceable)
    (clientSocket : Socket) (request : SocketBuffer) :
    backend.step (.received clientSocket (.received request)) =
      some
        ({ server :=
             { core := backend.server.core.serve (Request.read request) clientSocket
               connections :=
                 if Request.read request = .close then
                   backend.server.connections.erase clientSocket
                 else backend.server.connections }
           workers := fun currencyId feed =>
             if backend.server.core.openOrderbooks currencyId = none ∧
                 Request.read request = .subscribe currencyId then
               some .starting
             else backend.workers currencyId feed }, []) := by
  have opens : ∀ currencyId,
      (backend.server.core.openOrderbooks currencyId).isNone ∧
          ((backend.server.core.serve (Request.read request)
            clientSocket).openOrderbooks currencyId).isSome ↔
        backend.server.core.openOrderbooks currencyId = none ∧
          Request.read request = .subscribe currencyId := by
    intro currencyId
    rw [Option.isNone_iff_eq_none, Option.isSome_iff_ne_none]
    refine and_congr_right fun closed => ?_
    rw [CoreComponent.opened_serve_iff]
    exact or_iff_right (not_not.mpr closed)
  have served : backend.nextServer (.received clientSocket (.received request)) =
      some
        ({ core := backend.server.core.serve (Request.read request) clientSocket
           connections :=
             if Request.read request = .close then
               backend.server.connections.erase clientSocket
             else backend.server.connections }, []) := by
    simp [Request.read_eq_close_iff_type, nextServer, serverEvent, Server.step,
      CoreComponent.connectionRound, CoreComponent.processRequest_eq_serve serviceable]
  rw [step, served, Option.bind_eq_bind, Option.bind_some]
  simp only [nextWorkers, opens]
  rfl

theorem serviceable_of_sends {history : List BackendEvent}
    {sends : List (Socket × Snapshot ℚ Volume)} {backend : Backend}
    (run : Sends history sends backend) : backend.server.core.Serviceable := by
  obtain ⟨events, inner, -⟩ := exists_accounts run
  exact (Server.sound_of_sends inner).serviceable

section Requests

variable {core : CoreComponent ℚ} {connections : Finset Socket}
  {workers : UInt32 → Feed → Option Worker}

/-- A subscription or its withdrawal is served at once. -/
theorem emits_request (serviceable : core.Serviceable) {clientSocket : Socket}
    (connected : clientSocket ∈ connections) (request : ClientRequest)
    (stays : request.request ≠ .close) :
    History.Emits Enabled step { server := { core, connections }, workers }
      [.received clientSocket (.received request.buffer)] []
      { server := { core := core.serve request.request clientSocket, connections }
        workers := fun currencyId feed =>
          if core.openOrderbooks currencyId = none ∧ request.request = .subscribe currencyId then
            some .starting
          else workers currencyId feed } := by
  apply History.Emits.single
  · exact connected
  · rw [step_request serviceable, ClientRequest.read_buffer, if_neg stays]

/-- A connection which is found to have ended leaves everything else alone. -/
theorem emits_disconnected {clientSocket : Socket} (connected : clientSocket ∈ connections) :
    History.Emits Enabled step { server := { core, connections }, workers }
      [.received clientSocket .disconnected] []
      { server := { core, connections := connections.erase clientSocket }, workers } := by
  have same_workers : ∀ currencyId, ¬ (core.openOrderbooks currencyId = none ∧
      (core.openOrderbooks currencyId).isSome) := by
    rintro currencyId ⟨closed, opened⟩
    simp [closed] at opened
  apply History.Emits.single
  · exact connected
  · simp [step, nextServer, serverEvent, Server.step, CoreComponent.connectionRound, nextWorkers,
      same_workers]

/-- A connection opens the book of a currency and ends, without having done anything else. -/
def openBook (opener : Socket) (currencyName : UInt32) : List BackendEvent :=
  [.accepted opener, .received opener (.received (ClientRequest.subscribe currencyName 0).buffer),
    .received opener (.received (ClientRequest.unsubscribe currencyName).buffer),
    .received opener .disconnected]

theorem requestsOf_openBook {opener asker : Socket} (different : asker ≠ opener)
    (currencyName : UInt32) :
    requestsOf asker ((openBook opener currencyName).filterMap BackendEvent.request) = [] := by
  have asked : (openBook opener currencyName).filterMap BackendEvent.request =
      [(opener, .subscribe currencyName), (opener, .unsubscribe currencyName)] := by
    simp [openBook, List.filterMap_cons, BackendEvent.request, ClientRequest.request]
  simp [asked, requestsOf, Ne.symm different]

theorem serve_openBook {opener : Socket} {currencyName : UInt32}
    (unasked : core.clientSubscribeList opener = [])
    (closed : core.openOrderbooks currencyName = none) :
    (core.serve (.subscribe currencyName) opener).serve (.unsubscribe currencyName) opener =
      core.addWebsocketConnection currencyName := by
  have left : ((Orderbook.new currencyName : Orderbook ℚ).addClient opener).removeClient opener =
      Orderbook.new currencyName := by
    simp [Orderbook.addClient, Orderbook.removeClient, Orderbook.new]
  rw [CoreComponent.addWebsocketConnection, CoreComponent.serve, CoreComponent.serve]
  congr 1
  · funext currency
    by_cases same : currencyName = currency
    · subst same
      simp [Request.updateBook, closed, left]
    · simp [Request.updateBook, same, Ne.symm same]
  · simp [Request.updateSubscribeList, unasked]

theorem emits_openBook (serviceable : core.Serviceable) {opener : Socket} {currencyName : UInt32}
    (unconnected : opener ∉ connections) (unasked : core.clientSubscribeList opener = [])
    (closed : core.openOrderbooks currencyName = none) :
    History.Emits Enabled step { server := { core, connections }, workers }
      (openBook opener currencyName) []
      { server := { core := core.addWebsocketConnection currencyName, connections }
        workers := fun currencyId feed =>
          if currencyName = currencyId then some .starting else workers currencyId feed } := by
  have accepted : History.Emits Enabled step { server := { core, connections }, workers }
      [.accepted opener] []
      { server := { core, connections := insert opener connections }, workers } :=
    .single unconnected rfl
  have member : opener ∈ insert opener connections := Finset.mem_insert_self opener connections
  have subscribed := accepted.append
    (emits_request serviceable member (.subscribe currencyName 0) (by nofun))
  have serviceable_after := serviceable.serve (ClientRequest.subscribe currencyName 0).buffer opener
  rw [ClientRequest.read_buffer] at serviceable_after
  have unsubscribed := subscribed.append
    (emits_request serviceable_after member (.unsubscribe currencyName) (by nofun))
  have ended := unsubscribed.append (emits_disconnected member)
  have opens : ∀ currencyId, core.openOrderbooks currencyId = none ∧ currencyName = currencyId ↔
      currencyName = currencyId :=
    fun currencyId => and_iff_right_of_imp fun same => same ▸ closed
  simpa [openBook, ClientRequest.request, serve_openBook unasked closed,
    Finset.erase_insert unconnected, opens] using ended

end Requests

end Backend

/-! ## Histories of the server which serves requests at once -/

/-- The subscription which a thread has received but not registered. -/
def Stage.pending : Stage → List Request
  | creating currencyName => [.subscribe currencyName]
  | registering currencyName => [.subscribe currencyName]
  | _ => []

namespace StepwiseEvent

/-- The connection which an event is about. -/
def clientSocket : StepwiseEvent → Option Socket
  | acted clientSocket _ => some clientSocket
  | elsewhere event => event.clientSocket

/-- The request which an event receives, with its sender. -/
def request : StepwiseEvent → Option (Socket × Request)
  | acted clientSocket (.receive request) => some (clientSocket, Request.read request)
  | _ => none

/-- What happens in the server which serves requests at once. -/
def atOnce (opener : Socket) : StepwiseEvent → List BackendEvent
  | acted clientSocket (.receive request) =>
      match Request.read request with
      | .subscribe _ => []
      | _ => [.received clientSocket (.received request)]
  | acted _ (.create currencyName) => Backend.openBook opener currencyName
  | acted clientSocket (.register currencyName) =>
      [.received clientSocket (.received (ClientRequest.subscribe currencyName 0).buffer)]
  | acted _ (.append _) => []
  | elsewhere event => [event]

theorem atOnce_of_other {opener clientSocket : Socket} {request : SocketBuffer}
    (other : ∀ currencyName, Request.read request ≠ .subscribe currencyName) :
    atOnce opener (acted clientSocket (.receive request)) =
      [.received clientSocket (.received request)] := by
  cases read : Request.read request with
  | subscribe currencyName => exact absurd read (other currencyName)
  | _ => simp [atOnce, read]

/-- A thread receives and serves requests of its own socket only. -/
theorem requests_of_ne {opener clientSocket asker : Socket} (other : asker ≠ clientSocket)
    (different : asker ≠ opener) (action : Action) :
    requestsOf asker (acted clientSocket action).request.toList = [] ∧
      requestsOf asker
        ((atOnce opener (acted clientSocket action)).filterMap BackendEvent.request) = [] := by
  cases action with
  | receive received =>
      refine ⟨by simp [requestsOf, request, Ne.symm other], ?_⟩
      rw [atOnce]
      split <;> simp [requestsOf, BackendEvent.request, Ne.symm other]
  | create currencyName => exact ⟨rfl, Backend.requestsOf_openBook different currencyName⟩
  | register currencyName =>
      simp [requestsOf, request, atOnce, BackendEvent.request, Ne.symm other]
  | append currencyName => simp [requestsOf, request, atOnce]

end StepwiseEvent

namespace Stepwise

/-- What a socket has asked for, with what its thread is about to append. -/
def asked (stepwise : Stepwise) (clientSocket : Socket) : List UInt32 :=
  stepwise.backend.server.core.clientSubscribeList clientSocket ++
    (stepwise.stage clientSocket).unlisted

/-- The server, had all registered subscriptions been served as a whole. -/
def atOnce (stepwise : Stepwise) : Backend :=
  stepwise.backend.withLists stepwise.asked

/-- Nobody uses a descriptor. -/
structure Unused (stepwise : Stepwise) (opener : Socket) : Prop where
  /-- No connection is open. -/
  unconnected : opener ∉ stepwise.backend.server.connections
  /-- Nothing has been asked for. -/
  unasked : stepwise.asked opener = []

/-- The thread of a socket has moved on, and has left a server behind. -/
def moved (stepwise : Stepwise) (backend : Backend) (clientSocket : Socket)
    (currencies : List UInt32) (stage : Stage) : Stepwise where
  backend := backend.withLists
    (Function.update stepwise.backend.server.core.clientSubscribeList clientSocket currencies)
  stage := Function.update stepwise.stage clientSocket stage

@[simp]
theorem stage_moved (stepwise : Stepwise) (backend : Backend) (clientSocket : Socket)
    (currencies : List UInt32) (stage : Stage) :
    (stepwise.moved backend clientSocket currencies stage).stage clientSocket = stage :=
  Function.update_self _ _ _

theorem asked_moved (stepwise : Stepwise) (backend : Backend) (clientSocket : Socket)
    (currencies : List UInt32) (stage : Stage) :
    (stepwise.moved backend clientSocket currencies stage).asked =
      Function.update stepwise.asked clientSocket (currencies ++ stage.unlisted) := by
  funext other
  by_cases same : other = clientSocket
  · subst same
    simp [asked, moved, Backend.withLists]
  · simp [asked, moved, Backend.withLists, same]

theorem atOnce_moved (stepwise : Stepwise) (backend : Backend) (clientSocket : Socket)
    (currencies : List UInt32) (stage : Stage) :
    (stepwise.moved backend clientSocket currencies stage).atOnce =
      backend.withLists
        (Function.update stepwise.asked clientSocket (currencies ++ stage.unlisted)) := by
  rw [atOnce, asked_moved]
  rfl

/-- Nothing is different if the thread has only moved its currency from its hands to its list. -/
theorem atOnce_unserved (stepwise : Stepwise) (backend : Backend) {clientSocket : Socket}
    {currencies : List UInt32} {stage : Stage}
    (same : currencies ++ stage.unlisted = stepwise.asked clientSocket) :
    (stepwise.moved backend clientSocket currencies stage).atOnce =
      backend.withLists stepwise.asked := by
  rw [atOnce_moved, same, Function.update_eq_self]

/-- A thread which has served a request leaves the server which serves it at once. -/
theorem atOnce_served (stepwise : Stepwise) (connections : Finset Socket)
    (workers : UInt32 → Feed → Option Worker) {request : Request} {clientSocket : Socket}
    {currencies : List UInt32} {stage : Stage}
    (same : currencies ++ stage.unlisted =
      request.updateSubscribeList (stepwise.asked clientSocket)) :
    (stepwise.moved
        { server :=
            { core := stepwise.atOnce.server.core.serve request clientSocket, connections }
          workers } clientSocket currencies stage).atOnce =
      { server := { core := stepwise.atOnce.server.core.serve request clientSocket, connections }
        workers } := by
  rw [atOnce_moved, same]
  rfl

/-! ### What a step can do -/

/-- What a step of the thread of a socket makes of the server. -/
inductive Moves (stepwise : Stepwise) (clientSocket : Socket) : Action → Stepwise → Prop where
  | test {request : SocketBuffer} {currencyName : UInt32}
      (idle : stepwise.stage clientSocket = .idle)
      (read : Request.read request = .subscribe currencyName) :
      Moves stepwise clientSocket (.receive request)
        (stepwise.moved stepwise.backend clientSocket
          (stepwise.backend.server.core.clientSubscribeList clientSocket)
          (if (stepwise.backend.server.core.openOrderbooks currencyName).isNone then
            .creating currencyName
          else .registering currencyName))
  | serve {request : SocketBuffer} (idle : stepwise.stage clientSocket = .idle)
      (other : ∀ currencyName, Request.read request ≠ .subscribe currencyName) :
      Moves stepwise clientSocket (.receive request)
        (stepwise.moved
          { server :=
              { core := stepwise.atOnce.server.core.serve (Request.read request) clientSocket
                connections :=
                  if Request.read request = .close then
                    stepwise.backend.server.connections.erase clientSocket
                  else stepwise.backend.server.connections }
            workers := stepwise.backend.workers }
          clientSocket ((Request.read request).updateSubscribeList (stepwise.asked clientSocket))
          .idle)
  | create {currencyName : UInt32} (staged : stepwise.stage clientSocket = .creating currencyName) :
      Moves stepwise clientSocket (.create currencyName)
        (stepwise.moved
          { server :=
              { core := stepwise.backend.server.core.addWebsocketConnection currencyName
                connections := stepwise.backend.server.connections }
            workers := fun currencyId feed =>
              if currencyName = currencyId then some .starting
              else stepwise.backend.workers currencyId feed }
          clientSocket (stepwise.backend.server.core.clientSubscribeList clientSocket)
          (.registering currencyName))
  | register {currencyName : UInt32}
      (staged : stepwise.stage clientSocket = .registering currencyName)
      (opened : stepwise.backend.server.core.openOrderbooks currencyName ≠ none) :
      Moves stepwise clientSocket (.register currencyName)
        (stepwise.moved
          { server :=
              { core := stepwise.atOnce.server.core.serve (.subscribe currencyName) clientSocket
                connections := stepwise.backend.server.connections }
            workers := stepwise.backend.workers }
          clientSocket (stepwise.backend.server.core.clientSubscribeList clientSocket)
          (.appending currencyName))
  | append {currencyName : UInt32}
      (staged : stepwise.stage clientSocket = .appending currencyName) :
      Moves stepwise clientSocket (.append currencyName)
        (stepwise.moved stepwise.backend clientSocket
          (stepwise.backend.server.core.clientSubscribeList clientSocket ++ [currencyName]) .idle)

/-- A thread which is to register has a book. -/
def Ready (stepwise : Stepwise) : Prop :=
  ∀ clientSocket currency, stepwise.stage clientSocket = .registering currency →
    stepwise.backend.server.core.openOrderbooks currency ≠ none

section Steps

variable {stepwise next : Stepwise} {clientSocket opener : Socket} {currencyName : UInt32}
  {action : Action} {sends : List (Socket × Snapshot ℚ Volume)}

theorem exists_test (idle : stepwise.stage clientSocket = .idle) {request : SocketBuffer}
    (read : Request.read request = .subscribe currencyName) :
    ∃ next, stepwise.step (.acted clientSocket (.receive request)) = some (next, []) ∧
      stepwise.Moves clientSocket (.receive request) next := by
  refine ⟨_, ?_, .test idle read⟩
  have stays : (Action.receive request).closes = false := by
    rw [Action.closes, decide_eq_false_iff_not, ← Request.read_eq_close_iff_type, read]
    nofun
  rw [step, Threads.step_test _ _ read, Option.map_some, stays, moved, Function.update_eq_self]
  rfl

theorem asked_of_idle (idle : stepwise.stage clientSocket = .idle) :
    stepwise.asked clientSocket =
      stepwise.backend.server.core.clientSubscribeList clientSocket := by
  rw [asked, idle]
  exact List.append_nil _

/-- A request which is not a subscription is served by the step which receives it. -/
theorem exists_serve (serviceable : stepwise.atOnce.server.core.Serviceable)
    (idle : stepwise.stage clientSocket = .idle) {request : SocketBuffer}
    (other : ∀ currencyName, Request.read request ≠ .subscribe currencyName) :
    ∃ next, stepwise.step (.acted clientSocket (.receive request)) = some (next, []) ∧
      stepwise.Moves clientSocket (.receive request) next := by
  refine ⟨_, ?_, .serve idle other⟩
  have lists := asked_of_idle idle
  have opened : ∀ currency ∈ stepwise.backend.server.core.clientSubscribeList clientSocket,
      stepwise.backend.server.core.openOrderbooks currency ≠ none := by
    rw [← lists]
    exact serviceable.opened clientSocket
  have moves : stepwise.threads.step (clientSocket, .receive request) =
      (CoreComponent.processRequest request clientSocket stepwise.backend.server.core).map
        fun served => { stepwise.threads with core := served.1 } := by
    cases read : Request.read request with
    | subscribe currencyName => exact absurd read (other currencyName)
    | _ => simp [Threads.step, read, threads]
  have books : (fun currency =>
      if currency ∈ stepwise.backend.server.core.clientSubscribeList clientSocket then
        (Request.read request).updateBook clientSocket currency
          (stepwise.backend.server.core.openOrderbooks currency)
      else stepwise.backend.server.core.openOrderbooks currency) =
        fun currency => (Request.read request).updateBook clientSocket currency
          (stepwise.backend.server.core.openOrderbooks currency) := by
    funext currency
    rw [ite_eq_left_iff, ← lists]
    exact fun absent => (serviceable.updateBook_of_not_asked absent other).symm
  rw [step, moves, CoreComponent.processRequest_withdraw opened
    (fun _ _ found => serviceable.nodup_book found) other, books, Option.map_some, Option.map_some,
    moved, ← idle, Function.update_eq_self, lists]
  simp [Backend.withLists, threads, CoreComponent.serve, atOnce, Action.closes, Action.creates,
    Request.read_eq_close_iff_type]

theorem exists_create (staged : stepwise.stage clientSocket = .creating currencyName) :
    ∃ next, stepwise.step (.acted clientSocket (.create currencyName)) = some (next, []) ∧
      stepwise.Moves clientSocket (.create currencyName) next := by
  refine ⟨_, ?_, .create staged⟩
  rw [moved, Function.update_eq_self]
  simp [step, Threads.step, threads, Action.closes, Action.creates, Backend.withLists,
    CoreComponent.addWebsocketConnection]

theorem exists_register (staged : stepwise.stage clientSocket = .registering currencyName)
    (opened : stepwise.backend.server.core.openOrderbooks currencyName ≠ none) :
    ∃ next, stepwise.step (.acted clientSocket (.register currencyName)) = some (next, []) ∧
      stepwise.Moves clientSocket (.register currencyName) next := by
  refine ⟨_, ?_, .register staged opened⟩
  obtain ⟨book, found⟩ := Option.ne_none_iff_exists'.mp opened
  have books : Function.update stepwise.backend.server.core.openOrderbooks currencyName
      (some (book.addClient clientSocket)) =
        fun currency => (Request.subscribe currencyName).updateBook clientSocket currency
          (stepwise.backend.server.core.openOrderbooks currency) := by
    funext currency
    by_cases same : currency = currencyName
    · subst same
      simp [Request.updateBook, found]
    · simp [Request.updateBook, same, Ne.symm same]
  rw [moved, Function.update_eq_self]
  simp [step, Threads.step, threads, Action.closes, Action.creates, Backend.withLists,
    CoreComponent.withBook, CoreComponent.serve, atOnce, found, books]

/-- The threads of open connections never fail. -/
theorem exists_moves (serviceable : stepwise.atOnce.server.core.Serviceable)
    (ready : stepwise.Ready) (enabled : stepwise.Enabled (.acted clientSocket action)) :
    ∃ next, stepwise.step (.acted clientSocket action) = some (next, []) ∧
      stepwise.Moves clientSocket action next := by
  have staged : stepwise.stage clientSocket = action.stage := enabled.2
  cases action with
  | receive request =>
      by_cases other : ∀ currencyName, Request.read request ≠ .subscribe currencyName
      · exact exists_serve serviceable staged other
      · simp only [ne_eq, not_forall, not_not] at other
        obtain ⟨currencyName, read⟩ := other
        exact exists_test staged read
  | create currencyName => exact exists_create staged
  | register currencyName => exact exists_register staged (ready clientSocket currencyName staged)
  | append currencyName => exact ⟨_, rfl, .append staged⟩

theorem moves_of_step (serviceable : stepwise.atOnce.server.core.Serviceable)
    (ready : stepwise.Ready) (enabled : stepwise.Enabled (.acted clientSocket action))
    (stepped : stepwise.step (.acted clientSocket action) = some (next, sends)) :
    sends = [] ∧ stepwise.Moves clientSocket action next := by
  obtain ⟨same, handled, moves⟩ := exists_moves serviceable ready enabled
  rw [stepped, Option.some_inj] at handled
  obtain ⟨rfl, rfl⟩ := Prod.mk.inj handled
  exact ⟨rfl, moves⟩

/-! ### What happens in the server which serves requests at once -/

theorem asked_of_elsewhere {event : BackendEvent} (enabled : stepwise.Enabled (.elsewhere event))
    (stepped : stepwise.step (.elsewhere event) = some (next, sends)) :
    next.asked = stepwise.asked := by
  obtain ⟨⟨backend, emitted⟩, moved, done⟩ := Option.map_eq_some_iff.mp stepped
  obtain ⟨rfl, rfl⟩ := Prod.mk.inj done
  funext clientSocket
  rw [asked, Backend.lists_of_step enabled.2 moved, asked]

theorem emits_of_elsewhere {event : BackendEvent} (enabled : stepwise.Enabled (.elsewhere event))
    (stepped : stepwise.step (.elsewhere event) = some (next, sends)) :
    History.Emits Backend.Enabled Backend.step stepwise.atOnce [event] sends next.atOnce := by
  have lists := asked_of_elsewhere enabled stepped
  obtain ⟨⟨backend, emitted⟩, moved, done⟩ := Option.map_eq_some_iff.mp stepped
  obtain ⟨rfl, rfl⟩ := Prod.mk.inj done
  apply History.Emits.single
  · cases event <;> exact enabled.1
  · rw [atOnce, Backend.step_withLists enabled.2, moved, Option.map_some, atOnce, lists]

/-- A step of a thread is a history of the server which serves requests at once. -/
theorem Moves.emits (moves : stepwise.Moves clientSocket action next)
    (serviceable : stepwise.atOnce.server.core.Serviceable) (unused : stepwise.Unused opener)
    (connected : clientSocket ∈ stepwise.backend.server.connections)
    (fresh : ¬ stepwise.Recreates (.acted clientSocket action)) :
    History.Emits Backend.Enabled Backend.step stepwise.atOnce
      (StepwiseEvent.atOnce opener (.acted clientSocket action)) [] next.atOnce := by
  cases moves with
  | @test request currencyName idle read =>
      have same : stepwise.backend.server.core.clientSubscribeList clientSocket ++
          (if (stepwise.backend.server.core.openOrderbooks currencyName).isNone then
            Stage.creating currencyName else .registering currencyName).unlisted =
            stepwise.asked clientSocket := by
        rw [asked, idle]
        split <;> rfl
      rw [atOnce_unserved _ _ same, StepwiseEvent.atOnce]
      simp only [read]
      exact .start
  | @serve request idle other =>
      have started : ∀ currencyId,
          ¬ (stepwise.atOnce.server.core.openOrderbooks currencyId = none ∧
            Request.read request = .subscribe currencyId) :=
        fun currencyId opens => other currencyId opens.2
      rw [StepwiseEvent.atOnce_of_other other, atOnce_served _ _ _ (List.append_nil _)]
      apply History.Emits.single
      · exact connected
      · rw [Backend.step_request serviceable]
        simp only [started, if_false]
        rfl
  | @create currencyName staged =>
      have same : stepwise.backend.server.core.clientSubscribeList clientSocket ++
          (Stage.registering currencyName).unlisted = stepwise.asked clientSocket := by
        rw [asked, staged]
        rfl
      rw [atOnce_unserved _ _ same]
      exact Backend.emits_openBook serviceable unused.unconnected unused.unasked (not_not.mp fresh)
  | @register currencyName staged opened =>
      have appended : stepwise.backend.server.core.clientSubscribeList clientSocket ++
          (Stage.appending currencyName).unlisted =
            (Request.subscribe currencyName).updateSubscribeList
              (stepwise.asked clientSocket) := by
        rw [asked, staged, Request.updateSubscribeList]
        exact congrArg (· ++ [currencyName]) (List.append_nil _).symm
      have started : ∀ currencyId,
          ¬ (stepwise.atOnce.server.core.openOrderbooks currencyId = none ∧
            Request.subscribe currencyName = .subscribe currencyId) := by
        rintro currencyId ⟨closed, same⟩
        exact opened (Request.subscribe.inj same ▸ closed)
      have stays : Request.subscribe currencyName ≠ .close := by
        rintro ⟨⟩
      rw [atOnce_served _ _ _ appended]
      apply History.Emits.single
      · exact connected
      · rw [Backend.step_request serviceable, ClientRequest.read_buffer, ClientRequest.request,
          if_neg stays]
        simp only [started, if_false]
        rfl
  | @append currencyName staged =>
      have same : stepwise.backend.server.core.clientSubscribeList clientSocket ++
          [currencyName] ++ Stage.idle.unlisted = stepwise.asked clientSocket := by
        rw [asked, staged]
        exact List.append_nil _
      rw [atOnce_unserved _ _ same]
      exact .start

/-- Every event is a history of the server which serves requests at once. -/
theorem emits_of_step (serviceable : stepwise.atOnce.server.core.Serviceable)
    (ready : stepwise.Ready) (unused : stepwise.Unused opener) {event : StepwiseEvent}
    (enabled : stepwise.Enabled event) (fresh : ¬ stepwise.Recreates event)
    (stepped : stepwise.step event = some (next, sends)) :
    History.Emits Backend.Enabled Backend.step stepwise.atOnce (event.atOnce opener) sends
      next.atOnce := by
  cases event with
  | acted clientSocket action =>
      obtain ⟨rfl, moves⟩ := moves_of_step serviceable ready enabled stepped
      exact moves.emits serviceable unused enabled.1 fresh
  | elsewhere event => exact emits_of_elsewhere enabled stepped

/-! ### What a step leaves alone -/

/-- What a step of the thread of a socket keeps. -/
structure Leaves (clientSocket : Socket) (stepwise next : Stepwise) : Prop where
  /-- Nobody else asks for anything. -/
  asked : ∀ other, other ≠ clientSocket → next.asked other = stepwise.asked other
  /-- Nobody else moves. -/
  stages : ∀ other, other ≠ clientSocket → next.stage other = stepwise.stage other
  /-- No connection is opened. -/
  connections : next.backend.server.connections ⊆ stepwise.backend.server.connections
  /-- Open books stay open. -/
  opened : ∀ currency, stepwise.backend.server.core.openOrderbooks currency ≠ none →
    next.backend.server.core.openOrderbooks currency ≠ none
  /-- A thread which is to register has a book. -/
  registering : ∀ currency, next.stage clientSocket = .registering currency →
    next.backend.server.core.openOrderbooks currency ≠ none

theorem leaves_moved {backend : Backend} {currencies : List UInt32} {stage : Stage}
    (connections : backend.server.connections ⊆ stepwise.backend.server.connections)
    (opened : ∀ currency, stepwise.backend.server.core.openOrderbooks currency ≠ none →
      backend.server.core.openOrderbooks currency ≠ none)
    (registering : ∀ currency, stage = .registering currency →
      backend.server.core.openOrderbooks currency ≠ none) :
    Leaves clientSocket stepwise (stepwise.moved backend clientSocket currencies stage) where
  asked other different := by
    rw [asked_moved, Function.update_of_ne different]
  stages other different := Function.update_of_ne different _ _
  connections := connections
  opened := opened
  registering currency staged := by
    rw [stage_moved] at staged
    exact registering currency staged

theorem Moves.leaves (moves : stepwise.Moves clientSocket action next) :
    Leaves clientSocket stepwise next := by
  cases moves with
  | @test request currencyName idle read =>
      refine leaves_moved (Finset.Subset.refl _) (fun _ => id) fun currency registering => ?_
      split at registering <;> rename_i found
      · cases registering
      · obtain rfl := Stage.registering.inj registering
        exact mt Option.isNone_iff_eq_none.mpr found
  | @serve request idle other =>
      refine leaves_moved ?_ (fun currency opened => ?_) fun currency registering => ?_
      · dsimp only
        split
        · exact Finset.erase_subset _ _
        · exact Finset.Subset.refl _
      · exact CoreComponent.opened_serve_iff.mpr (Or.inl opened)
      · cases registering
  | @create currencyName staged =>
      refine leaves_moved (Finset.Subset.refl _) (fun currency opened => ?_)
        fun currency registering => ?_
      · by_cases same : currency = currencyName
        · simp [CoreComponent.addWebsocketConnection, same]
        · simpa [CoreComponent.addWebsocketConnection, same] using opened
      · obtain rfl := Stage.registering.inj registering
        simp [CoreComponent.addWebsocketConnection]
  | @register currencyName staged opened =>
      refine leaves_moved (Finset.Subset.refl _) (fun currency opened => ?_)
        fun currency registering => ?_
      · exact CoreComponent.opened_serve_iff.mpr (Or.inl opened)
      · cases registering
  | @append currencyName staged =>
      refine leaves_moved (Finset.Subset.refl _) (fun _ => id) fun currency registering => ?_
      cases registering

/-- Threads which are to register keep their books. -/
theorem Ready.step (ready : stepwise.Ready)
    (serviceable : stepwise.atOnce.server.core.Serviceable) {event : StepwiseEvent}
    (enabled : stepwise.Enabled event) (stepped : stepwise.step event = some (next, sends)) :
    next.Ready := by
  intro asker currency registering
  cases event with
  | acted clientSocket action =>
      have leaves := (moves_of_step serviceable ready enabled stepped).2.leaves
      by_cases same : asker = clientSocket
      · subst same
        exact leaves.registering currency registering
      · rw [leaves.stages asker same] at registering
        exact leaves.opened currency (ready asker currency registering)
  | elsewhere event =>
      obtain ⟨⟨backend, emitted⟩, moved, done⟩ := Option.map_eq_some_iff.mp stepped
      obtain ⟨rfl, rfl⟩ := Prod.mk.inj done
      exact (Backend.kept_of_step enabled.2 moved).2 currency (ready asker currency registering)

/-- A descriptor stays unused while nothing happens to it. -/
theorem Unused.step (unused : stepwise.Unused opener)
    (serviceable : stepwise.atOnce.server.core.Serviceable) (ready : stepwise.Ready)
    {event : StepwiseEvent} (enabled : stepwise.Enabled event)
    (spared : event.clientSocket ≠ some opener)
    (stepped : stepwise.step event = some (next, sends)) : next.Unused opener := by
  cases event with
  | acted clientSocket action =>
      have different : opener ≠ clientSocket := fun same => spared (congrArg some same.symm)
      have leaves := (moves_of_step serviceable ready enabled stepped).2.leaves
      refine ⟨fun connected => unused.unconnected (leaves.connections connected), ?_⟩
      rw [leaves.asked opener different, unused.unasked]
  | elsewhere event =>
      refine ⟨?_, (congrFun (asked_of_elsewhere enabled stepped) opener).trans unused.unasked⟩
      obtain ⟨⟨backend, emitted⟩, moved, done⟩ := Option.map_eq_some_iff.mp stepped
      obtain ⟨rfl, rfl⟩ := Prod.mk.inj done
      exact (Backend.kept_of_step enabled.2 moved).1 opener spared unused.unconnected

/-- What a thread has in hand and receives is what it serves and has in hand afterwards. -/
theorem Moves.requests (moves : stepwise.Moves clientSocket action next)
    (different : clientSocket ≠ opener) :
    (stepwise.stage clientSocket).pending ++
        requestsOf clientSocket (StepwiseEvent.acted clientSocket action).request.toList =
      requestsOf clientSocket
          ((StepwiseEvent.atOnce opener (.acted clientSocket action)).filterMap
            BackendEvent.request) ++
        (next.stage clientSocket).pending := by
  cases moves with
  | @test request currencyName idle read =>
      rw [idle, stage_moved]
      split <;> simp [requestsOf, StepwiseEvent.request, StepwiseEvent.atOnce, read, Stage.pending]
  | @serve request idle other =>
      rw [idle, stage_moved, StepwiseEvent.atOnce_of_other other]
      simp [requestsOf, StepwiseEvent.request, BackendEvent.request, Stage.pending]
  | @create currencyName staged =>
      rw [staged, stage_moved, StepwiseEvent.atOnce, Backend.requestsOf_openBook different]
      rfl
  | @register currencyName staged opened =>
      rw [staged, stage_moved]
      simp [requestsOf, StepwiseEvent.request, StepwiseEvent.atOnce, BackendEvent.request,
        Stage.pending, ClientRequest.request]
  | @append currencyName staged =>
      rw [staged, stage_moved]
      simp [requestsOf, StepwiseEvent.request, StepwiseEvent.atOnce, Stage.pending]

/-- Other threads have in hand what they had, and nothing is received from them or served. -/
theorem requests_of_step (serviceable : stepwise.atOnce.server.core.Serviceable)
    (ready : stepwise.Ready) {event : StepwiseEvent} (enabled : stepwise.Enabled event)
    (stepped : stepwise.step event = some (next, sends)) {asker : Socket}
    (different : asker ≠ opener) :
    (stepwise.stage asker).pending ++ requestsOf asker event.request.toList =
      requestsOf asker ((event.atOnce opener).filterMap BackendEvent.request) ++
        (next.stage asker).pending := by
  cases event with
  | acted clientSocket action =>
      have moves := (moves_of_step serviceable ready enabled stepped).2
      by_cases same : asker = clientSocket
      · subst same
        exact moves.requests different
      · obtain ⟨received, served⟩ := StepwiseEvent.requests_of_ne same different action
        rw [received, served, moves.leaves.stages asker same, List.append_nil, List.nil_append]
  | elsewhere event =>
      obtain ⟨⟨backend, emitted⟩, -, done⟩ := Option.map_eq_some_iff.mp stepped
      obtain ⟨rfl, rfl⟩ := Prod.mk.inj done
      have none_received : event.request = none := BackendEvent.request_of_elsewhere enabled.2
      simp [StepwiseEvent.request, StepwiseEvent.atOnce, none_received, requestsOf]

end Steps

/-- A history is one of the server which serves requests at once. -/
structure ServedAtOnce (opener : Socket) (history : List StepwiseEvent)
    (served : List BackendEvent) (stepwise : Stepwise) : Prop where
  /-- Each event happens as its steps are served. -/
  steps : served = history.flatMap (StepwiseEvent.atOnce opener)
  /-- The descriptor which opens the books is not used otherwise. -/
  unused : stepwise.Unused opener
  /-- A thread which is to register has a book. -/
  ready : stepwise.Ready
  /-- The requests of every other socket are served in order. -/
  requests : ∀ clientSocket, clientSocket ≠ opener →
    requestsOf clientSocket (history.filterMap StepwiseEvent.request) =
      requestsOf clientSocket (served.filterMap BackendEvent.request) ++
        (stepwise.stage clientSocket).pending

theorem requestsOf_append (clientSocket : Socket) (front rest : List (Socket × Request)) :
    requestsOf clientSocket (front ++ rest) =
      requestsOf clientSocket front ++ requestsOf clientSocket rest :=
  List.filterMap_append

theorem ServedAtOnce.step {opener : Socket} {history : List StepwiseEvent}
    {served : List BackendEvent} {stepwise next : Stepwise}
    (follows : ServedAtOnce opener history served stepwise)
    (serviceable : stepwise.atOnce.server.core.Serviceable) {event : StepwiseEvent}
    (enabled : stepwise.Enabled event) (spared : event.clientSocket ≠ some opener)
    {sends : List (Socket × Snapshot ℚ Volume)}
    (stepped : stepwise.step event = some (next, sends)) :
    ServedAtOnce opener (history ++ [event]) (served ++ event.atOnce opener) next := by
  refine ⟨?_, follows.unused.step serviceable follows.ready enabled spared stepped,
    follows.ready.step serviceable enabled stepped, ?_⟩
  · rw [follows.steps, List.flatMap_append, List.flatMap_singleton]
  · intro clientSocket different
    have last : [event].filterMap StepwiseEvent.request = event.request.toList := by
      cases request : event.request <;> simp [request]
    rw [List.filterMap_append, requestsOf_append, follows.requests clientSocket different, last,
      List.append_assoc, requests_of_step serviceable follows.ready enabled stepped different,
      List.filterMap_append, requestsOf_append, List.append_assoc]

/-- A possible event is handled, unless it is a message without finite numbers. -/
theorem exists_step {served : List BackendEvent} {sends : List (Socket × Snapshot ℚ Volume)}
    {stepwise : Stepwise} (inner : Backend.Sends served sends stepwise.atOnce)
    (ready : stepwise.Ready) {event : StepwiseEvent} (enabled : stepwise.Enabled event)
    (defined : ∀ currencyId feed message,
      event = .elsewhere (.delivered currencyId feed message) → feed.calls message ≠ none) :
    ∃ next emitted, stepwise.step event = some (next, emitted) := by
  cases event with
  | acted clientSocket action =>
      obtain ⟨next, stepped, -⟩ :=
        exists_moves (Backend.serviceable_of_sends inner) ready enabled
      exact ⟨next, [], stepped⟩
  | elsewhere event =>
      have possible : stepwise.atOnce.Enabled event := by
        cases event <;> exact enabled.1
      obtain ⟨next, emitted, handled⟩ := Backend.exists_step inner possible
        fun currencyId feed message same => defined currencyId feed message (congrArg _ same)
      rw [atOnce, Backend.step_withLists enabled.2] at handled
      obtain ⟨⟨backend, outputs⟩, stepped, -⟩ := Option.map_eq_some_iff.mp handled
      exact ⟨_, _, by rw [step, stepped, Option.map_some]⟩

/-- Every history is one of the server which serves requests at once, if a descriptor is left to
open the books. -/
theorem exists_served {history : List StepwiseEvent} {sends : List (Socket × Snapshot ℚ Volume)}
    {stepwise : Stepwise} (run : Sends history sends stepwise) {opener : Socket}
    (spared : ∀ event ∈ history, event.clientSocket ≠ some opener) :
    ∃ served, Backend.Sends served sends stepwise.atOnce ∧
      ServedAtOnce opener history served stepwise := by
  apply (run.of_forall spared).simulate atOnce (ServedAtOnce opener)
  · refine ⟨rfl, ⟨Finset.notMem_empty opener, rfl⟩, ?_, fun _ _ => rfl⟩
    intro clientSocket currency registering
    cases registering
  · rintro history sends stepwise event next emitted served - inner follows
      ⟨⟨enabled, fresh⟩, spares⟩ stepped
    have serviceable := Backend.serviceable_of_sends inner
    exact ⟨_, emits_of_step serviceable follows.ready follows.unused enabled fresh stepped,
      follows.step serviceable enabled spares stepped⟩

/-- As long as no currency gets a second book, the steps of the connection threads may interleave
with each other and with the threads of the exchanges in any way. No step fails, but for a message
without finite numbers, and the same snapshots are sent by a server with the same books, connections
and threads which serves every request at once, in an order in which every socket's requests keep
theirs. Everything else happens there in the same order, but that an unused descriptor opens the
books. -/
theorem interleavings_serve_at_once (history : List StepwiseEvent)
    (sends : List (Socket × Snapshot ℚ Volume)) (stepwise : Stepwise)
    (run : Sends history sends stepwise) (opener : Socket)
    (spared : ∀ event ∈ history, event.clientSocket ≠ some opener) :
    Backend.Sends (history.flatMap (StepwiseEvent.atOnce opener)) sends stepwise.atOnce ∧
      (∀ clientSocket, clientSocket ≠ opener →
        requestsOf clientSocket (history.filterMap StepwiseEvent.request) =
          requestsOf clientSocket ((history.flatMap
              (StepwiseEvent.atOnce opener)).filterMap BackendEvent.request) ++
            (stepwise.stage clientSocket).pending) ∧
      ∀ event, stepwise.Enabled event →
        (∀ currencyId feed message,
          event = .elsewhere (.delivered currencyId feed message) → feed.calls message ≠ none) →
        ∃ next emitted, stepwise.step event = some (next, emitted) := by
  obtain ⟨served, inner, follows⟩ := exists_served run spared
  obtain rfl := follows.steps
  exact ⟨inner, follows.requests, fun _ => exists_step inner follows.ready⟩

/-- While the first socket is about to register with the book which its thread has created, both
exchanges quote and another socket is registered. -/
def overtakenHistory : List StepwiseEvent :=
  [.elsewhere (.accepted 4), .elsewhere (.accepted 5),
    .acted 4 (.receive (ClientRequest.subscribe 1 1).buffer), .acted 4 (.create 1),
    .elsewhere (.started 1 .coinbase), .elsewhere (.started 1 .crypto),
    .elsewhere (.delivered 1 .coinbase bidMessage),
    .acted 5 (.receive (ClientRequest.subscribe 1 1).buffer),
    .elsewhere (.applied 1 .coinbase), .acted 5 (.register 1),
    .elsewhere (.delivered 1 .crypto askMessage), .elsewhere (.applied 1 .crypto),
    .acted 4 (.register 1), .acted 5 (.append 1)]

theorem interleavings_serve_at_once_overtakenHistory :
    ∃ sends stepwise, Sends overtakenHistory sends stepwise ∧ sends.map Prod.fst = [5] ∧
      Backend.Sends (overtakenHistory.flatMap (StepwiseEvent.atOnce 6)) sends
        stepwise.atOnce := by
  have executed : ∃ outcome ∈ History.execute
      (fun stepwise event => stepwise.Enabled event ∧ ¬ stepwise.Recreates event) step new
      overtakenHistory, outcome.1.map Prod.fst = [5] := by
    decide +kernel
  obtain ⟨⟨sends, stepwise⟩, ran, receivers⟩ := executed
  have run : Sends overtakenHistory sends stepwise := History.emits_of_execute ran
  have unused : some 6 ∉ overtakenHistory.map StepwiseEvent.clientSocket := by decide
  exact ⟨sends, stepwise, run, receivers,
    (interleavings_serve_at_once overtakenHistory sends stepwise run 6 fun event member used =>
      unused (List.mem_map.mpr ⟨event, member, used⟩)).1⟩

end Stepwise

end CryptoInfra
