import CryptoInfra.Client.RoundTrip
import CryptoInfra.Orderbook.Freshness
import CryptoInfra.System.Serialization

/-!
# A client program and everybody else

One client program connects to the server, makes calls and listens, while everybody else does what
the server lets them do. The bytes of both directions of its connection are on their way for any
time. A descriptor which the server has closed may be handed out again, so only what is sent before
that reaches the program. Numbers are sent as bit patterns, by an encoding which is left open.
-/

namespace CryptoInfra

/-- A snapshot whose numbers are bit patterns. -/
def Snapshot.encoded (encode : ℚ → UInt64) (snapshot : Snapshot ℚ Volume) :
    Snapshot UInt64 UInt64 where
  currencyId := snapshot.currencyId
  bestBidPrice := encode snapshot.bestBidPrice
  bestBidVolume := encode snapshot.bestBidVolume
  bestAskPrice := encode snapshot.bestAskPrice
  bestAskVolume := encode snapshot.bestAskVolume

/-! ## The connection of the program -/

/-- The currencies which the client program knows by name. -/
def clientCurrencyId : List (String × UInt32) :=
  [("BTC", 1), ("ETH", 2), ("XRP", 3), ("SOL", 4), ("DOGE", 5)]

/-- The connection of the client program. -/
structure Session where
  /-- The descriptor of the server's end. -/
  clientSocket : Socket
  /-- The server has not closed its end. -/
  connected : Bool
  /-- The program has not closed its end. -/
  running : Bool
  /-- The bytes which the program has sent and the server has not received. -/
  requests : List UInt8
  /-- The buffer of the connection thread. -/
  socketBuffer : SocketBuffer
  /-- The listener of the program with the bytes on their way to it. -/
  client : Client
  /-- The snapshots which the server has sent on the connection so far. -/
  sent : List (Snapshot ℚ Volume)

namespace Session

/-- A new connection. -/
def accepted (clientSocket : Socket) (socketBuffer : SocketBuffer) : Session where
  clientSocket := clientSocket
  connected := true
  running := true
  requests := []
  socketBuffer := socketBuffer
  client := Client.start []
  sent := []

/-- Send a request. -/
def sendAll (request : ClientRequest) (session : Session) : Session :=
  { session with requests := session.requests ++ request.message }

/-- Forget what is stored for a currency and subscribe to it; an unknown name raises an error. -/
def subscribe (currencyName : String) (numLevels : UInt32) (session : Session) : Session :=
  match clientCurrencyId.lookup currencyName with
  | some currencyId => sendAll (.subscribe currencyId numLevels)
      { session with
        client.listener.data :=
          Function.update session.client.listener.data currencyId.toNat none }
  | none => session

/-- Cancel a subscription; an unknown name raises an error. -/
def unsubscribe (currencyName : String) (session : Session) : Session :=
  match clientCurrencyId.lookup currencyName with
  | some currencyId => sendAll (.unsubscribe currencyId) session
  | none => session

/-- Say goodbye, and close the program's end. -/
def close (session : Session) : Session :=
  sendAll .close { session with running := false }

/-- One call of the listener. When the server has closed its end and nothing is on its way, the call
returns no bytes. -/
def listen (available : ℕ) (session : Session) : Session :=
  if session.connected = false ∧ session.client.undelivered = [] then
    { session with client.listener := session.client.listener.listen (.bytes []) }
  else
    { session with client := session.client.step available }

/-- A call of the listener fails. -/
def interrupt (session : Session) : Session :=
  { session with client.listener := session.client.listener.listen .failed }

/-- A receiving call of the connection thread may have this result: some of the bytes on their way,
the end of the stream once all bytes have been received, or a failure. -/
def CanReceive (session : Session) : Reception Chunk → Prop
  | .received chunk => chunk.bytes <+: session.requests
  | .disconnected => session.requests = [] ∧ session.running = false
  | .failed => True

instance (session : Session) (reception : Reception Chunk) :
    Decidable (session.CanReceive reception) :=
  match reception with
  | .received chunk => inferInstanceAs (Decidable (chunk.bytes <+: session.requests))
  | .disconnected =>
      inferInstanceAs (Decidable (session.requests = [] ∧ session.running = false))
  | .failed => inferInstanceAs (Decidable True)

/-- What a receiving call leaves in the buffer of the connection thread. -/
def fill (session : Session) : Reception Chunk → Reception SocketBuffer
  | .received chunk => .received (chunk.fill session.socketBuffer)
  | .failed => .failed
  | .disconnected => .disconnected

/-- The connection thread has taken a chunk, and has closed its end or not. -/
def taken (chunk : Chunk) (connected : Bool) (session : Session) : Session :=
  { session with
    requests := session.requests.drop chunk.bytes.length
    socketBuffer := chunk.fill session.socketBuffer
    connected }

/-- What a receiving call of the connection thread makes of the connection. -/
def received (reception : Reception Chunk) (connected : Bool) (session : Session) : Session :=
  match reception with
  | .received chunk => session.taken chunk connected
  | _ => { session with connected }

/-- Of the snapshots which the server sends, those for the descriptor are on their way as long as
the server has not closed its end. -/
def deliver (encode : ℚ → UInt64) (sends : List (Socket × Snapshot ℚ Volume)) (session : Session) :
    Session :=
  if session.connected then
    let snapshots := sends.filterMap (Orderbook.sentTo session.clientSocket)
    { session with
      client.undelivered := session.client.undelivered ++
        Client.stream (snapshots.map (Snapshot.encoded encode))
      sent := session.sent ++ snapshots }
  else
    session

/-! ### The server's end -/

/-- The server's end of the connection is the same. -/
def SameEnd (session next : Session) : Prop :=
  next.clientSocket = session.clientSocket ∧ next.connected = session.connected

theorem sameEnd_subscribe (currencyName : String) (numLevels : UInt32) (session : Session) :
    session.SameEnd (session.subscribe currencyName numLevels) := by
  rw [subscribe]
  split <;> exact ⟨rfl, rfl⟩

theorem sameEnd_unsubscribe (currencyName : String) (session : Session) :
    session.SameEnd (session.unsubscribe currencyName) := by
  rw [unsubscribe]
  split <;> exact ⟨rfl, rfl⟩

theorem sameEnd_listen (available : ℕ) (session : Session) :
    session.SameEnd (session.listen available) := by
  rw [listen]
  split <;> exact ⟨rfl, rfl⟩

theorem sameEnd_deliver (encode : ℚ → UInt64) (sends : List (Socket × Snapshot ℚ Volume))
    (session : Session) : session.SameEnd (session.deliver encode sends) := by
  rw [deliver]
  split <;> exact ⟨rfl, rfl⟩

theorem requests_deliver (session : Session) (encode : ℚ → UInt64)
    (sends : List (Socket × Snapshot ℚ Volume)) :
    (session.deliver encode sends).requests = session.requests := by
  rw [deliver]
  split <;> rfl

theorem received_connected (reception : Reception Chunk) (connected : Bool) (session : Session) :
    (session.received reception connected).clientSocket = session.clientSocket ∧
      (session.received reception connected).connected = connected := by
  cases reception <;> exact ⟨rfl, rfl⟩

end Session

/-! ## The world -/

/-- The connection on which an event receives. -/
def BackendEvent.receiver : BackendEvent → Option Socket
  | .received clientSocket _ => some clientSocket
  | _ => none

/-- The server with its threads, and the connection of the client program, if there is one. -/
structure World where
  /-- The server with its threads. -/
  backend : Backend
  /-- The connection of the client program. -/
  session : Option Session

/-- What happens in the world. -/
inductive WorldEvent where
  | elsewhere (event : BackendEvent)
  | connected (clientSocket : Socket) (socketBuffer : SocketBuffer)
  | subscribe (currencyName : String) (numLevels : UInt32)
  | unsubscribe (currencyName : String)
  | close
  | received (reception : Reception Chunk)
  | listened (available : ℕ)
  | interrupted

/-- What happens beyond the connection of the program. -/
def WorldEvent.beyond : WorldEvent → Option BackendEvent
  | .elsewhere event => some event
  | _ => none

namespace World

/-- Nobody has connected yet. -/
def new : World where
  backend := Backend.new
  session := none

/-- The program connects once, and calls and listens until it closes its end. The connection thread
receives some of the bytes on their way. -/
def Enabled (world : World) : WorldEvent → Prop
  | .elsewhere event => world.backend.Enabled event ∧
      ∀ session ∈ world.session, session.connected = true →
        event.receiver ≠ some session.clientSocket
  | .connected clientSocket _ =>
      world.session = none ∧ clientSocket ∉ world.backend.server.connections
  | .subscribe _ _ => ∃ session ∈ world.session, session.running = true
  | .unsubscribe _ => ∃ session ∈ world.session, session.running = true
  | .close => ∃ session ∈ world.session, session.running = true
  | .received reception => ∃ session ∈ world.session, session.connected = true ∧
      session.CanReceive reception
  | .listened _ => ∃ session ∈ world.session, session.running = true
  | .interrupted => ∃ session ∈ world.session, session.running = true

instance (world : World) (event : WorldEvent) : Decidable (world.Enabled event) :=
  match event with
  | .elsewhere event => inferInstanceAs (Decidable (world.backend.Enabled event ∧
      ∀ session ∈ world.session, session.connected = true →
        event.receiver ≠ some session.clientSocket))
  | .connected clientSocket _ => inferInstanceAs (Decidable
      (world.session = none ∧ clientSocket ∉ world.backend.server.connections))
  | .subscribe _ _ => inferInstanceAs (Decidable (∃ session ∈ world.session,
      session.running = true))
  | .unsubscribe _ => inferInstanceAs (Decidable (∃ session ∈ world.session,
      session.running = true))
  | .close => inferInstanceAs (Decidable (∃ session ∈ world.session, session.running = true))
  | .received reception => inferInstanceAs (Decidable (∃ session ∈ world.session,
      session.connected = true ∧ session.CanReceive reception))
  | .listened _ => inferInstanceAs (Decidable (∃ session ∈ world.session,
      session.running = true))
  | .interrupted => inferInstanceAs (Decidable (∃ session ∈ world.session,
      session.running = true))

/-- What an event means to the server. -/
def backendEvent (world : World) : WorldEvent → Option BackendEvent
  | .elsewhere event => some event
  | .connected clientSocket _ => some (.accepted clientSocket)
  | .received reception => world.session.map fun session =>
      .received session.clientSocket (session.fill reception)
  | _ => none

/-- The server after an event, with the snapshots it sends. -/
def nextBackend (world : World) (event : WorldEvent) :
    Option (Backend × List (Socket × Snapshot ℚ Volume)) :=
  match world.backendEvent event with
  | some event => world.backend.step event
  | none => some (world.backend, [])

/-- What an event which leaves a server does to the connection. -/
def nextSession (world : World) (server : Server ℚ) : WorldEvent → Option Session
  | .elsewhere _ => world.session
  | .connected clientSocket socketBuffer => some (.accepted clientSocket socketBuffer)
  | .subscribe currencyName numLevels =>
      world.session.map (Session.subscribe currencyName numLevels)
  | .unsubscribe currencyName => world.session.map (Session.unsubscribe currencyName)
  | .close => world.session.map Session.close
  | .received reception => world.session.map fun session =>
      session.received reception (session.clientSocket ∈ server.connections)
  | .listened available => world.session.map (Session.listen available)
  | .interrupted => world.session.map Session.interrupt

/-- Handle one event, with the snapshots which the server sends. -/
def step (encode : ℚ → UInt64) (world : World) (event : WorldEvent) :
    Option (World × List (Socket × Snapshot ℚ Volume)) := do
  let (backend, sends) ← world.nextBackend event
  let session := (world.nextSession backend.server event).map (Session.deliver encode sends)
  return ({ backend, session }, sends)

/-- Histories of the world, with the snapshots which the server sends. -/
abbrev Sends (encode : ℚ → UInt64) :
    List WorldEvent → List (Socket × Snapshot ℚ Volume) → World → Prop :=
  History.Emits Enabled (step encode) new

/-- Histories of the world all of whose steps meet a condition. -/
abbrev SendsWhile (condition : World → WorldEvent → Prop) (encode : ℚ → UInt64) :
    List WorldEvent → List (Socket × Snapshot ℚ Volume) → World → Prop :=
  History.Emits (fun world event => world.Enabled event ∧ condition world event) (step encode) new

theorem SendsWhile.sends {condition : World → WorldEvent → Prop} {encode : ℚ → UInt64}
    {history : List WorldEvent} {sends : List (Socket × Snapshot ℚ Volume)} {world : World}
    (run : SendsWhile condition encode history sends world) : Sends encode history sends world :=
  run.mono fun _ _ possible => possible.1

/-! ## What an event does -/

/-- What an event of the world means to the server without its threads. -/
def serverEvent (world : World) (event : WorldEvent) : Option (Event ℚ) :=
  (world.backendEvent event).bind world.backend.serverEvent

end World

namespace Server

/-- The server executes an event, or none, with what it sends. -/
inductive Executes : Option (Event ℚ) → Server ℚ → Server ℚ → List (Socket × Snapshot ℚ Volume) →
    Prop where
  | event {event : Event ℚ} {server next : Server ℚ} {sends : List (Socket × Snapshot ℚ Volume)}
      (moves : MovesBooks event server next sends) (follows : Follows event server next) :
      Executes (some event) server next sends
  | nothing (server : Server ℚ) : Executes none server server []

/-- Only what is received on a connection ends it. -/
theorem Executes.connected {event : Option (Event ℚ)} {server next : Server ℚ}
    {sends : List (Socket × Snapshot ℚ Volume)} (executes : Executes event server next sends)
    {clientSocket : Socket} (connected : clientSocket ∈ server.connections)
    (elsewhere : ∀ reception, event ≠ some (.received clientSocket reception)) :
    clientSocket ∈ next.connections := by
  cases executes with
  | nothing => exact connected
  | @event event _ _ _ moves follows =>
      rw [follows.connections]
      cases event with
      | accepted newcomer => exact Finset.mem_insert_of_mem connected
      | received sender reception =>
          have different : clientSocket ≠ sender := by
            rintro rfl
            exact elsewhere reception rfl
          have kept := Finset.mem_erase.mpr ⟨different, connected⟩
          cases reception with
          | failed => exact kept
          | disconnected => exact kept
          | received request =>
              rw [Event.updateConnections]
              split
              · exact kept
              · exact connected
      | fed currencyId call => exact connected

end Server

theorem Backend.received_of_serverEvent {backend : Backend} {event : BackendEvent}
    {clientSocket : Socket} {reception : Reception SocketBuffer}
    (means : backend.serverEvent event = some (.received clientSocket reception)) :
    event = .received clientSocket reception := by
  cases event with
  | accepted newcomer => cases means
  | received sender content =>
      obtain ⟨rfl, rfl⟩ := Event.received.inj (Option.some_inj.mp means)
      rfl
  | started currencyId feed => cases means
  | delivered currencyId feed message => cases means
  | applied currencyId feed =>
      obtain ⟨call, -, same⟩ := Option.map_eq_some_iff.mp means
      cases same
  | stopped currencyId feed => cases means

theorem Backend.executes_of_step {history : List BackendEvent}
    {sends : List (Socket × Snapshot ℚ Volume)} {backend : Backend}
    (run : Backend.Sends history sends backend) {event : BackendEvent}
    (enabled : backend.Enabled event) {next : Backend}
    {emitted : List (Socket × Snapshot ℚ Volume)}
    (stepped : backend.step event = some (next, emitted)) :
    Server.Executes (backend.serverEvent event) backend.server next.server emitted := by
  obtain ⟨events, inner, accounts⟩ := exists_accounts run
  have served := (nextServer_of_step stepped).1
  rw [nextServer] at served
  cases means : backend.serverEvent event with
  | none =>
      rw [means] at served
      obtain ⟨same, rfl⟩ := Prod.mk.inj (Option.some_inj.mp served)
      exact same ▸ .nothing _
  | some serverEvent =>
      rw [means] at served
      change backend.server.step serverEvent = some (next.server, emitted) at served
      have possible := accounts.enabled enabled means
      have sound := Server.sound_of_sends inner
      obtain ⟨outcome, same, follows⟩ := Server.step_spec sound.serviceable possible
      rw [served, Option.some_inj] at same
      subst same
      exact .event (Server.movesBooks_of_step sound possible served) follows

namespace World

variable {encode : ℚ → UInt64}

theorem nextBackend_of_step {world next : World} {event : WorldEvent}
    {sends : List (Socket × Snapshot ℚ Volume)}
    (stepped : world.step encode event = some (next, sends)) :
    world.nextBackend event = some (next.backend, sends) ∧
      next.session =
        (world.nextSession next.backend.server event).map (Session.deliver encode sends) := by
  obtain ⟨⟨backend, sent⟩, served, done⟩ := Option.bind_eq_some_iff.mp stepped
  obtain ⟨rfl, rfl⟩ := Prod.mk.inj (Option.some_inj.mp done)
  exact ⟨served, rfl⟩

/-- The server's end of the connection is an open connection of the server. -/
def Attached (world : World) : Prop :=
  ∀ session ∈ world.session, session.connected = true →
    session.clientSocket ∈ world.backend.server.connections

/-- What an event means to the server is enabled there. -/
theorem Attached.enabled {world : World} (attached : world.Attached) {event : WorldEvent}
    (enabled : world.Enabled event) {inner : BackendEvent}
    (means : world.backendEvent event = some inner) : world.backend.Enabled inner := by
  cases event with
  | elsewhere event =>
      obtain rfl := Option.some_inj.mp means
      exact enabled.1
  | connected clientSocket socketBuffer =>
      obtain rfl := Option.some_inj.mp means
      exact enabled.2
  | received reception =>
      obtain ⟨session, found, rfl⟩ := Option.map_eq_some_iff.mp means
      obtain ⟨same, found_again, connected, -⟩ := enabled
      obtain rfl := Option.some_inj.mp (found.symm.trans found_again)
      exact attached session found connected
  | subscribe currencyName numLevels => cases means
  | unsubscribe currencyName => cases means
  | close => cases means
  | listened available => cases means
  | interrupted => cases means

/-- What the server executes for an event of the world. -/
theorem executes_of_step {history : List BackendEvent}
    {sends : List (Socket × Snapshot ℚ Volume)} {world : World}
    (run : Backend.Sends history sends world.backend) (attached : world.Attached)
    {event : WorldEvent} (enabled : world.Enabled event) {next : World}
    {emitted : List (Socket × Snapshot ℚ Volume)}
    (stepped : world.step encode event = some (next, emitted)) :
    Server.Executes (world.serverEvent event) world.backend.server next.backend.server emitted := by
  have served := (nextBackend_of_step stepped).1
  rw [nextBackend] at served
  rw [serverEvent]
  cases means : world.backendEvent event with
  | none =>
      rw [means] at served
      obtain ⟨same, rfl⟩ := Prod.mk.inj (Option.some_inj.mp served)
      exact same ▸ .nothing _
  | some inner =>
      rw [means] at served
      exact Backend.executes_of_step run (attached.enabled enabled means) served

theorem attached_of_step {world next : World} (attached : world.Attached) {event : WorldEvent}
    (enabled : world.Enabled event) {emitted : List (Socket × Snapshot ℚ Volume)}
    (executes : Server.Executes (world.serverEvent event) world.backend.server next.backend.server
      emitted)
    (connection : next.session =
      (world.nextSession next.backend.server event).map (Session.deliver encode emitted)) :
    next.Attached := by
  intro session found connected
  rw [connection] at found
  obtain ⟨moved, made, rfl⟩ := Option.map_eq_some_iff.mp found
  obtain ⟨same_socket, same_connected⟩ := moved.sameEnd_deliver encode emitted
  rw [same_connected] at connected
  rw [same_socket]
  have kept : ∀ before ∈ world.session, before.SameEnd moved →
      (∀ reception, world.serverEvent event ≠ some (.received before.clientSocket reception)) →
        moved.clientSocket ∈ next.backend.server.connections := by
    intro before was same elsewhere
    rw [same.1]
    exact executes.connected (attached before was (same.2 ▸ connected)) elsewhere
  cases event with
  | elsewhere event =>
      refine kept moved made ⟨rfl, rfl⟩ fun reception means => ?_
      apply enabled.2 moved made connected
      rw [Backend.received_of_serverEvent means, BackendEvent.receiver]
  | connected clientSocket socketBuffer =>
      obtain rfl := Option.some_inj.mp made
      cases executes with
      | event moves follows =>
          rw [follows.connections]
          exact Finset.mem_insert_self _ _
  | subscribe currencyName numLevels =>
      obtain ⟨before, was, rfl⟩ := Option.map_eq_some_iff.mp made
      exact kept before was (before.sameEnd_subscribe currencyName numLevels) nofun
  | unsubscribe currencyName =>
      obtain ⟨before, was, rfl⟩ := Option.map_eq_some_iff.mp made
      exact kept before was (before.sameEnd_unsubscribe currencyName) nofun
  | close =>
      obtain ⟨before, was, rfl⟩ := Option.map_eq_some_iff.mp made
      exact kept before was ⟨rfl, rfl⟩ nofun
  | received reception =>
      obtain ⟨before, was, rfl⟩ := Option.map_eq_some_iff.mp made
      obtain ⟨socket, still⟩ := before.received_connected reception
        (before.clientSocket ∈ next.backend.server.connections)
      rw [still, decide_eq_true_iff] at connected
      rwa [socket]
  | listened available =>
      obtain ⟨before, was, rfl⟩ := Option.map_eq_some_iff.mp made
      exact kept before was (before.sameEnd_listen available) nofun
  | interrupted =>
      obtain ⟨before, was, rfl⟩ := Option.map_eq_some_iff.mp made
      exact kept before was ⟨rfl, rfl⟩ nofun

/-- Messages of the exchanges are handed out beyond the connection of the program. -/
theorem messageFor_backendEvent (world : World) (event : WorldEvent) (currency : UInt32) :
    (world.backendEvent event).bind (BackendEvent.messageFor currency) =
      event.beyond.bind (BackendEvent.messageFor currency) := by
  cases event with
  | received reception =>
      rw [backendEvent, Option.bind_map]
      cases world.session <;> rfl
  | _ => rfl

/-- Every history of the world is one of the server and its threads, with the same snapshots and the
same messages. -/
theorem exists_backend {history : List WorldEvent} {sends : List (Socket × Snapshot ℚ Volume)}
    {world : World} (run : Sends encode history sends world) :
    ∃ events, Backend.Sends events sends world.backend ∧ world.Attached ∧
      ∀ currency, messagesFor currency events =
        messagesFor currency (history.filterMap WorldEvent.beyond) := by
  apply run.simulate (fun world => world.backend) (fun history events world => world.Attached ∧
    ∀ currency, messagesFor currency events =
      messagesFor currency (history.filterMap WorldEvent.beyond))
  · exact ⟨fun session found => (nomatch found), fun _ => rfl⟩
  · intro history outputs world event next emitted events _ inner related enabled stepped
    obtain ⟨attached, messages⟩ := related
    have executes := executes_of_step inner attached enabled stepped
    obtain ⟨served, connection⟩ := nextBackend_of_step stepped
    have still := attached_of_step attached enabled executes connection
    have handed : ∀ currency,
        messagesFor currency (events ++ (world.backendEvent event).toList) =
          messagesFor currency ((history ++ [event]).filterMap WorldEvent.beyond) := by
      intro currency
      have same := messageFor_backendEvent world event currency
      have last : [event].filterMap WorldEvent.beyond = event.beyond.toList := by
        cases event <;> rfl
      rw [List.filterMap_append, messagesFor_append, messagesFor_append, messages, last,
        messagesFor_toList, messagesFor_toList, same]
    rw [nextBackend] at served
    cases means : world.backendEvent event with
    | none =>
        rw [means] at served handed
        obtain ⟨same, rfl⟩ := Prod.mk.inj (Option.some_inj.mp served)
        exact ⟨[], same ▸ .start, still, handed⟩
    | some backendEvent =>
        rw [means] at served handed
        exact ⟨[backendEvent], .single (attached.enabled enabled means) served, still, handed⟩

/-- What a step of a history does to the server and to the connection. -/
theorem spec_of_step {history : List WorldEvent} {sends : List (Socket × Snapshot ℚ Volume)}
    {world : World} (run : Sends encode history sends world) {event : WorldEvent}
    (enabled : world.Enabled event) {next : World} {emitted : List (Socket × Snapshot ℚ Volume)}
    (stepped : world.step encode event = some (next, emitted)) :
    Server.Executes (world.serverEvent event) world.backend.server next.backend.server emitted ∧
      next.session =
        (world.nextSession next.backend.server event).map (Session.deliver encode emitted) := by
  obtain ⟨events, inner, attached, -⟩ := exists_backend run
  exact ⟨executes_of_step inner attached enabled stepped, (nextBackend_of_step stepped).2⟩

end World

end CryptoInfra
