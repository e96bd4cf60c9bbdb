import CryptoInfra.Core.Leftovers
import CryptoInfra.System.World

/-!
# What the program asks for

The calls of the program are on their way to the server as the bytes of its requests, which do not
run into each other. If every receiving call returns one of them, the send lists of the server
follow the calls: once all requests have been received, the last call about a currency decides
whether the connection is listed.
-/

namespace CryptoInfra

/-! ## Requests on their way -/

theorem ClientRequest.kind_eq_of_request {left right : ClientRequest}
    (same : left.request = right.request) : left.kind = right.kind := by
  cases left <;> cases right <;> first | rfl | cases same

/-- The bytes of requests tell where the first one ends and what it asks for. -/
theorem ClientRequest.message_append {left right : ClientRequest} {front rest : List UInt8}
    (same : left.message ++ front = right.message ++ rest) :
    left.request = right.request ∧ left.message.length = right.message.length ∧ front = rest := by
  obtain ⟨buffer, starts⟩ := exists_startsWith (left.message ++ front)
  have first := (read_eq_request_iff buffer left).mpr
    (starts.of_front ((List.take_prefix 8 _).trans (List.prefix_append _ _)))
  rw [same] at starts
  have second := (read_eq_request_iff buffer right).mpr
    (starts.of_front ((List.take_prefix 8 _).trans (List.prefix_append _ _)))
  have requests := first.symm.trans second
  have lengths : left.message.length = right.message.length := by
    rw [length_message, length_message, kind_eq_of_request requests]
  exact ⟨requests, lengths, (List.append_inj same lengths).2⟩

theorem ClientRequest.message_ne_nil (request : ClientRequest) : request.message ≠ [] :=
  List.ne_nil_of_length_pos (request.length_message ▸ request.kind.length_pos)

/-- Whole requests at the front of the bytes of requests are the first of these. -/
theorem exists_left {taken requests : List ClientRequest}
    (within : taken.flatMap ClientRequest.message <+: requests.flatMap ClientRequest.message) :
    ∃ first left, requests = first ++ left ∧
      first.map ClientRequest.request = taken.map ClientRequest.request ∧
        (requests.flatMap ClientRequest.message).drop
          (taken.flatMap ClientRequest.message).length = left.flatMap ClientRequest.message := by
  induction taken generalizing requests with
  | nil => exact ⟨[], requests, rfl, rfl, rfl⟩
  | cons request taken induction =>
      obtain ⟨rest, same⟩ := within
      rw [List.flatMap_cons, List.append_assoc] at same
      cases requests with
      | nil =>
          exact absurd (List.append_eq_nil_iff.mp same).1 request.message_ne_nil
      | cons next requests =>
          rw [List.flatMap_cons] at same ⊢
          obtain ⟨asked, length, later⟩ := ClientRequest.message_append same
          obtain ⟨first, left, rfl, same_requests, dropped⟩ := induction ⟨rest, later⟩
          refine ⟨next :: first, left, rfl, by simp [asked, same_requests], ?_⟩
          rw [List.flatMap_cons, List.length_append, length, ← List.drop_drop, List.drop_left,
            dropped]

/-! ## Calls and receptions -/

namespace WorldEvent

/-- The request which a call of the program sends. -/
def call : WorldEvent → Option ClientRequest
  | .subscribe currencyName numLevels =>
      (clientCurrencyId.lookup currencyName).map fun currencyId => .subscribe currencyId numLevels
  | .unsubscribe currencyName =>
      (clientCurrencyId.lookup currencyName).map fun currencyId => .unsubscribe currencyId
  | .close => some .close
  | _ => none

/-- Whether a call of the program turns the snapshots of a currency on or off. -/
def switch (currency : UInt32) (event : WorldEvent) : Option Bool :=
  event.call.bind fun request => request.request.switch currency

/-- What the connection thread receives at once are whole requests. -/
def Aligned : WorldEvent → Prop
  | .received (.received chunk) => ∃ request later,
      chunk.bytes = (request :: later).flatMap ClientRequest.message
  | _ => True

/-- What the connection thread receives at once is one request. -/
def Single : WorldEvent → Prop
  | .received (.received chunk) => ∃ request : ClientRequest, chunk.bytes = request.message
  | _ => True

end WorldEvent

namespace Session

/-- What an event, and what the server executes for it, do to the requests on their way. -/
inductive Exchanges (session next : Session) (event : WorldEvent) : Option (Event ℚ) → Prop where
  | quiet {executed : Option (Event ℚ)} (uncalled : event.call = none)
      (requests : next.requests = session.requests)
      (elsewhere : ∀ request,
        executed ≠ some (.received session.clientSocket (.received request))) :
      Exchanges session next event executed
  | called {request : ClientRequest} (call : event.call = some request)
      (requests : next.requests = session.requests ++ request.message) :
      Exchanges session next event none
  | taken {chunk : Chunk} (received : event = .received (.received chunk))
      (within : chunk.bytes <+: session.requests)
      (requests : next.requests = session.requests.drop chunk.bytes.length) :
      Exchanges session next event
        (some (.received session.clientSocket (.received (chunk.fill session.socketBuffer))))

/-- The program adds the request of its call, if it makes one. -/
theorem Exchanges.of_call {session next : Session} {event : WorldEvent}
    (requests : next.requests =
      session.requests ++ (event.call.map ClientRequest.message).getD []) :
    session.Exchanges next event none := by
  cases call : event.call with
  | none => exact .quiet call (by simpa [call] using requests) nofun
  | some request => exact .called call (by simpa [call] using requests)

/-- A connection which the server has not closed goes on. -/
structure Continues (session next : Session) (event : WorldEvent)
    (executed : Option (Event ℚ)) : Prop where
  /-- The server had not closed its end. -/
  connected : session.connected = true
  /-- The descriptor is the same. -/
  clientSocket : next.clientSocket = session.clientSocket
  /-- Nothing has been sent yet. -/
  sent : next.sent = session.sent
  /-- Requests are called or received. -/
  exchanges : session.Exchanges next event executed

/-- Bytes which are those of requests with a property. -/
def Requested (property : Request → Prop) (bytes : List UInt8) : Prop :=
  ∃ requests : List ClientRequest, bytes = requests.flatMap ClientRequest.message ∧
    ∀ request ∈ requests, property request.request

/-- If the requests on their way have a property, and those which the program calls have it, so do
those which the connection thread reads and those which it leaves. -/
theorem Exchanges.requested {session next : Session} {event : WorldEvent}
    {executed : Option (Event ℚ)} (exchanges : session.Exchanges next event executed)
    (aligned : event.Aligned) {property : Request → Prop}
    (calls : ∀ request, event.call = some request → property request.request)
    (requested : Requested property session.requests) :
    (∀ request, executed = some (.received session.clientSocket (.received request)) →
        property (Request.read request)) ∧
      Requested property next.requests := by
  obtain ⟨requests, bytes, all⟩ := requested
  cases exchanges with
  | quiet uncalled same elsewhere =>
      exact ⟨fun request received => absurd received (elsewhere request), requests,
        same.trans bytes, all⟩
  | @called request call same =>
      refine ⟨nofun, requests ++ [request], by rw [same, bytes]; simp, ?_⟩
      rw [List.forall_mem_append]
      exact ⟨all, fun last member => List.mem_singleton.mp member ▸ calls request call⟩
  | @taken chunk received within same =>
      subst received
      obtain ⟨request, later, whole⟩ := aligned
      rw [bytes, whole] at within
      obtain ⟨first, left, rfl, asked, dropped⟩ := exists_left within
      obtain ⟨next_request, others, rfl, asks, -⟩ := List.map_eq_cons_iff.mp asked
      rw [List.forall_mem_append, List.forall_mem_cons] at all
      have front : request.message <+: chunk.bytes := by
        rw [whole, List.flatMap_cons]
        exact List.prefix_append _ _
      refine ⟨fun filled received => ?_, left, by rw [same, bytes, whole, dropped], all.2⟩
      obtain rfl : chunk.fill session.socketBuffer = filled := by simpa using received
      rw [read_fill_of_front front, ← asks]
      exact all.1.1

end Session

namespace Server

/-- Whether what the server executes turns the snapshots of a currency on or off for a socket. -/
def switchOf (clientSocket : Socket) (currency : UInt32) : Option (Event ℚ) → Option Bool
  | some (.received sender (.received request)) =>
      CoreComponent.switchOf clientSocket currency (sender, request)
  | _ => none

theorem switchOf_eq_none {event : Option (Event ℚ)} {clientSocket : Socket}
    (elsewhere : ∀ request, event ≠ some (.received clientSocket (.received request)))
    (currency : UInt32) : switchOf clientSocket currency event = none := by
  unfold switchOf
  split
  · rename_i sender request
    have different : sender ≠ clientSocket := by
      rintro rfl
      exact elsewhere request rfl
    exact if_neg different
  · rfl

/-- What a socket reads decides what is executed for it. -/
theorem switchOf_ne {event : Option (Event ℚ)} {clientSocket : Socket} {currency : UInt32}
    {on : Bool}
    (reads : ∀ request, event = some (.received clientSocket (.received request)) →
      (Request.read request).switch currency ≠ some on) :
    switchOf clientSocket currency event ≠ some on := by
  unfold switchOf
  split
  · rename_i sender request
    rw [CoreComponent.switchOf]
    split
    · rename_i same
      change sender = clientSocket at same
      exact reads request (by rw [same])
    · exact (Option.some_ne_none on).symm
  · exact (Option.some_ne_none on).symm

/-- Requests of its own decide whether a socket is listed. -/
theorem Executes.decide_listed {event : Option (Event ℚ)} {server next : Server ℚ}
    {sends : List (Socket × Snapshot ℚ Volume)} (executes : Executes event server next sends)
    (sound : server.Sound) (clientSocket : Socket) (currency : UInt32) :
    decide (clientSocket ∈ next.core.clientSendList currency) =
      (switchOf clientSocket currency event).getD
        (decide (clientSocket ∈ server.core.clientSendList currency)) := by
  cases executes with
  | nothing => rfl
  | @event event _ _ _ moves follows =>
      rw [follows.sendLists]
      cases event with
      | accepted newcomer => rfl
      | fed currencyId call => rfl
      | received sender reception =>
          cases reception with
          | failed => rfl
          | disconnected => rfl
          | received request =>
              rw [Bool.eq_iff_iff, decide_eq_true_iff, Event.updateSendList,
                Request.mem_updateSendList (sound.serviceable.nodup currency)]
              by_cases same : sender = clientSocket
              · subst same
                simp [switchOf, CoreComponent.switchOf]
              · simp [switchOf, CoreComponent.switchOf, same, Ne.symm same]

end Server

namespace World

variable {encode : ℚ → UInt64}

/-- After an event, a connection which the server has not closed is new or goes on. -/
theorem nextSession_cases {world : World} {event : WorldEvent} (enabled : world.Enabled event)
    {server : Server ℚ} {session : Session} (made : session ∈ world.nextSession server event)
    (connected : session.connected = true) :
    (∃ clientSocket socketBuffer, event = .connected clientSocket socketBuffer ∧
        session = .accepted clientSocket socketBuffer) ∨
      ∃ before ∈ world.session, before.Continues session event (world.serverEvent event) := by
  cases event with
  | elsewhere event =>
      right
      refine ⟨session, made, connected, rfl, rfl, .quiet rfl rfl fun request means => ?_⟩
      apply enabled.2 session made connected
      rw [Backend.received_of_serverEvent means, BackendEvent.receiver]
  | connected clientSocket socketBuffer =>
      left
      exact ⟨clientSocket, socketBuffer, rfl, (Option.some_inj.mp made).symm⟩
  | subscribe currencyName numLevels =>
      right
      obtain ⟨before, was, rfl⟩ := Option.map_eq_some_iff.mp made
      obtain ⟨socket, same⟩ := before.sameEnd_subscribe currencyName numLevels
      refine ⟨before, was, same ▸ connected, socket, ?_, .of_call ?_⟩
      · rw [Session.subscribe]
        split <;> rfl
      · rw [Session.subscribe, WorldEvent.call]
        split <;> rename_i known <;> simp [known, Session.sendAll]
  | unsubscribe currencyName =>
      right
      obtain ⟨before, was, rfl⟩ := Option.map_eq_some_iff.mp made
      obtain ⟨socket, same⟩ := before.sameEnd_unsubscribe currencyName
      refine ⟨before, was, same ▸ connected, socket, ?_, .of_call ?_⟩
      · rw [Session.unsubscribe]
        split <;> rfl
      · rw [Session.unsubscribe, WorldEvent.call]
        split <;> rename_i known <;> simp [known, Session.sendAll]
  | close =>
      right
      obtain ⟨before, was, rfl⟩ := Option.map_eq_some_iff.mp made
      exact ⟨before, was, connected, rfl, rfl, .called rfl rfl⟩
  | received reception =>
      right
      obtain ⟨before, was, rfl⟩ := Option.map_eq_some_iff.mp made
      obtain ⟨same, was_again, was_connected, can⟩ := enabled
      obtain rfl := Option.some_inj.mp (was.symm.trans was_again)
      have means : world.serverEvent (.received reception) =
          some (.received before.clientSocket (before.fill reception)) := by
        rw [serverEvent, backendEvent, was]
        rfl
      rw [means]
      cases reception with
      | failed => exact ⟨before, was, was_connected, rfl, rfl, .quiet rfl rfl (by rintro _ ⟨⟩)⟩
      | disconnected =>
          exact ⟨before, was, was_connected, rfl, rfl, .quiet rfl rfl (by rintro _ ⟨⟩)⟩
      | received chunk => exact ⟨before, was, was_connected, rfl, rfl, .taken rfl can rfl⟩
  | listened available =>
      right
      obtain ⟨before, was, rfl⟩ := Option.map_eq_some_iff.mp made
      obtain ⟨socket, same⟩ := before.sameEnd_listen available
      refine ⟨before, was, same ▸ connected, socket, ?_, .quiet rfl ?_ (by rintro _ ⟨⟩)⟩
      · rw [Session.listen]
        split <;> rfl
      · rw [Session.listen]
        split <;> rfl
  | interrupted =>
      right
      obtain ⟨before, was, rfl⟩ := Option.map_eq_some_iff.mp made
      exact ⟨before, was, connected, rfl, rfl, .quiet rfl rfl (by rintro _ ⟨⟩)⟩

theorem sound_of_run {history : List WorldEvent} {sends : List (Socket × Snapshot ℚ Volume)}
    {world : World} (run : Sends encode history sends world) : world.backend.server.Sound := by
  obtain ⟨events, inner, -⟩ := exists_backend run
  obtain ⟨serverEvents, innermost, -⟩ := Backend.exists_accounts inner
  exact Server.sound_of_sends innermost

/-- While whole requests are received, those on their way have every property which those have that
the program calls. -/
theorem requested_of_run {history : List WorldEvent} {sends : List (Socket × Snapshot ℚ Volume)}
    {world : World} (run : Sends encode history sends world) (property : Request → Prop) :
    (∀ event ∈ history, event.Aligned ∧
        ∀ request, event.call = some request → property request.request) →
      ∀ session ∈ world.session, session.connected = true →
        Session.Requested property session.requests := by
  apply run.invariant fun history _ world =>
    (∀ event ∈ history, event.Aligned ∧
        ∀ request, event.call = some request → property request.request) →
      ∀ session ∈ world.session, session.connected = true →
        Session.Requested property session.requests
  · exact fun _ session found => nomatch found
  · intro history sends world event next emitted run induction enabled stepped all session found
      connected
    obtain ⟨earlier, last⟩ := List.forall_mem_append.mp all
    obtain ⟨aligned, calls⟩ := last event (List.mem_singleton_self _)
    rw [(spec_of_step run enabled stepped).2] at found
    obtain ⟨moved, made, rfl⟩ := Option.map_eq_some_iff.mp found
    rw [(moved.sameEnd_deliver encode emitted).2] at connected
    rw [moved.requests_deliver encode emitted]
    rcases nextSession_cases enabled made connected with
      ⟨clientSocket, socketBuffer, rfl, rfl⟩ | ⟨before, was, continues⟩
    · exact ⟨[], rfl, nofun⟩
    · exact (continues.exchanges.requested aligned calls
        (induction earlier before was continues.connected)).2

end World

/-! ## Agreement -/

/-- The send list of a currency, changed by the requests on their way, agrees with the last call of
the program about the currency. -/
def Session.Agrees (session : Session) (server : Server ℚ) (currency : UInt32)
    (called : Option Bool) : Prop :=
  ∃ requests : List ClientRequest, session.requests = requests.flatMap ClientRequest.message ∧
    ∀ on, called = some on →
      (History.latest (fun request : ClientRequest => request.request.switch currency)
        requests).getD
          (decide (session.clientSocket ∈ server.core.clientSendList currency)) = on

namespace Session

variable {session next : Session} {server after : Server ℚ} {event : WorldEvent}
  {executed : Option (Event ℚ)} {sends : List (Socket × Snapshot ℚ Volume)}

/-- A connection which goes on keeps agreeing if its requests are received one at a time. -/
theorem Continues.agrees (continues : session.Continues next event executed)
    (executes : Server.Executes executed server after sends) (sound : server.Sound)
    (single : event.Single) {currency : UInt32} {called : Option Bool}
    (agrees : session.Agrees server currency called) :
    next.Agrees after currency ((event.switch currency).or called) := by
  obtain ⟨requests, bytes, replayed⟩ := agrees
  have listed := executes.decide_listed sound session.clientSocket currency
  rw [Agrees, continues.clientSocket, listed]
  cases continues.exchanges with
  | quiet uncalled same elsewhere =>
      refine ⟨requests, same.trans bytes, fun on last => ?_⟩
      rw [WorldEvent.switch, uncalled, Option.bind_none, Option.none_or] at last
      rw [Server.switchOf_eq_none elsewhere, Option.getD_none]
      exact replayed on last
  | @called request call same =>
      refine ⟨requests ++ [request], by rw [same, bytes]; simp, fun on last => ?_⟩
      rw [WorldEvent.switch, call, Option.bind_some] at last
      have unswitched : Server.switchOf session.clientSocket currency none = none := rfl
      rw [History.latest_snoc, unswitched, Option.getD_none]
      cases switched : request.request.switch currency with
      | some switch =>
          rw [switched, Option.some_or, Option.some_inj] at last
          rw [Option.some_or, Option.getD_some, last]
      | none =>
          rw [switched, Option.none_or] at last
          rw [Option.none_or]
          exact replayed on last
  | @taken chunk received within same =>
      subst received
      obtain ⟨request, whole⟩ := single
      rw [bytes, whole] at within
      have one : [request].flatMap ClientRequest.message <+:
          requests.flatMap ClientRequest.message := by simpa using within
      obtain ⟨first, left, rfl, asked, dropped⟩ := exists_left one
      obtain ⟨next_request, rfl, asks⟩ := List.map_eq_singleton_iff.mp asked
      rw [List.flatMap_singleton, List.singleton_append] at dropped
      refine ⟨left, by rw [same, bytes, whole, List.singleton_append, dropped], fun on last => ?_⟩
      have read : Request.read (chunk.fill session.socketBuffer) = next_request.request :=
        (read_fill_of_front (whole ▸ List.prefix_rfl) _).trans asks.symm
      have replay := replayed on last
      rw [List.singleton_append, History.latest_cons] at replay
      rw [Server.switchOf, CoreComponent.switchOf, if_pos rfl, read, ← replay]
      cases History.latest (fun request : ClientRequest => request.request.switch currency) left <;>
        rfl

theorem Agrees.deliver {currency : UInt32} {called : Option Bool}
    (agrees : session.Agrees server currency called) (encode : ℚ → UInt64) :
    (session.deliver encode sends).Agrees server currency called := by
  rw [Session.deliver]
  split <;> exact agrees

end Session

namespace World

/-- Before the program has connected it has not called. -/
theorem uncalled_of_run {history : List WorldEvent} {sends : List (Socket × Snapshot ℚ Volume)}
    {world : World} (run : Sends encode history sends world) :
    world.session = none → ∀ event ∈ history, event.call = none := by
  apply run.invariant fun history _ world =>
    world.session = none → ∀ event ∈ history, event.call = none
  · exact fun _ event member => nomatch member
  · intro history sends world event next emitted run induction enabled stepped nothing
    rw [(spec_of_step run enabled stepped).2, Option.map_eq_none_iff] at nothing
    have absent : world.session = none := by
      cases event with
      | elsewhere event => exact nothing
      | connected clientSocket socketBuffer => cases nothing
      | _ => exact Option.map_eq_none_iff.mp nothing
    have uncalled : event.call = none := by
      cases event with
      | subscribe currencyName numLevels => simp [Enabled, absent] at enabled
      | unsubscribe currencyName => simp [Enabled, absent] at enabled
      | close => simp [Enabled, absent] at enabled
      | _ => rfl
    rw [List.forall_mem_append]
    exact ⟨induction absent, fun last member => List.mem_singleton.mp member ▸ uncalled⟩

/-- While requests are received one at a time, the server agrees with the program. -/
theorem agrees_of_run {history : List WorldEvent} {sends : List (Socket × Snapshot ℚ Volume)}
    {world : World} (run : Sends encode history sends world) (currency : UInt32) :
    (∀ event ∈ history, event.Single) → ∀ session ∈ world.session, session.connected = true →
      session.Agrees world.backend.server currency
        (History.latest (WorldEvent.switch currency) history) := by
  apply run.invariant fun history _ world =>
    (∀ event ∈ history, event.Single) → ∀ session ∈ world.session, session.connected = true →
      session.Agrees world.backend.server currency
        (History.latest (WorldEvent.switch currency) history)
  · exact fun _ session found => nomatch found
  · intro history sends world event next emitted run induction enabled stepped single session found
      connected
    obtain ⟨earlier, last⟩ := List.forall_mem_append.mp single
    obtain ⟨executes, connection⟩ := spec_of_step run enabled stepped
    rw [connection] at found
    obtain ⟨moved, made, rfl⟩ := Option.map_eq_some_iff.mp found
    rw [(moved.sameEnd_deliver encode emitted).2] at connected
    apply Session.Agrees.deliver
    rw [History.latest_snoc]
    rcases nextSession_cases enabled made connected with
      ⟨clientSocket, socketBuffer, rfl, rfl⟩ | ⟨before, was, continues⟩
    · refine ⟨[], rfl, fun on called => ?_⟩
      obtain ⟨event, member, switched⟩ := History.exists_of_latest called
      rw [WorldEvent.switch, uncalled_of_run run enabled.1 event member] at switched
      cases switched
    · exact continues.agrees executes (sound_of_run run) (last event (List.mem_singleton_self _))
        (induction earlier before was continues.connected)

/-- In every history in which each receiving call for the program's connection returns one request,
once all requests have been received and as long as the server has not closed the connection, the
connection is on the send list of a currency about which the program has made a call exactly if the
last such call is a subscription, whatever everybody else does. -/
theorem server_follows_calls (encode : ℚ → UInt64) (history : List WorldEvent)
    (sends : List (Socket × Snapshot ℚ Volume)) (world : World)
    (run : Sends encode history sends world) (single : ∀ event ∈ history, event.Single)
    (session : Session) (found : world.session = some session)
    (connected : session.connected = true) (drained : session.requests = []) (currency : UInt32)
    (on : Bool) (called : History.latest (WorldEvent.switch currency) history = some on) :
    session.clientSocket ∈ world.backend.server.core.clientSendList currency ↔ on = true := by
  obtain ⟨requests, bytes, replayed⟩ := agrees_of_run run currency single session found connected
  have none_left : requests = [] := by
    rw [drained] at bytes
    cases requests with
    | nil => rfl
    | cons request later =>
        exact absurd (List.append_eq_nil_iff.mp bytes.symm).1 request.message_ne_nil
  subst none_left
  rw [← replayed on called, History.latest_nil, Option.getD_none, decide_eq_true_iff]

/-- The program subscribes to two currencies and cancels the first subscription. -/
def cancelledHistory : List WorldEvent :=
  [.connected 4 fun _ => 0, .subscribe "BTC" 1, .subscribe "ETH" 1,
    .received (.received (ClientRequest.subscribe 1 1).chunk), .unsubscribe "BTC",
    .received (.received (ClientRequest.subscribe 2 1).chunk),
    .received (.received (ClientRequest.unsubscribe 1).chunk)]

theorem server_follows_calls_cancelledHistory :
    ∃ sends world, Sends (fun _ => 0) cancelledHistory sends world ∧
      4 ∉ world.backend.server.core.clientSendList 1 ∧
        4 ∈ world.backend.server.core.clientSendList 2 := by
  have executed : ∃ outcome ∈ History.execute Enabled (step fun _ => 0) new cancelledHistory,
      ∃ session ∈ outcome.2.session, session.clientSocket = 4 ∧ session.connected = true ∧
        session.requests = [] := by
    decide +kernel
  obtain ⟨⟨sends, world⟩, ran, session, found, socket, connected, drained⟩ := executed
  have run : Sends (fun _ => 0) cancelledHistory sends world := History.emits_of_execute ran
  have single : ∀ event ∈ cancelledHistory, event.Single := by
    simp only [cancelledHistory, List.forall_mem_cons]
    exact ⟨trivial, trivial, trivial, ⟨.subscribe 1 1, rfl⟩, trivial, ⟨.subscribe 2 1, rfl⟩,
      ⟨.unsubscribe 1, rfl⟩, nofun⟩
  have follows := server_follows_calls (fun _ => 0) cancelledHistory sends world run single session
    found connected drained
  rw [socket] at follows
  refine ⟨sends, world, run, ?_, (follows 2 true (by decide +kernel)).mpr rfl⟩
  rw [follows 1 false (by decide +kernel)]
  exact Bool.false_ne_true

end World

end CryptoInfra
