import CryptoInfra.System.EndToEnd

/-!
# What is on its way arrives

Nothing blocks for good. Whatever has happened, the connection thread can receive all requests on
their way, the threads of a book can finish their message, and the listener can receive all
snapshots on their way, without any further call of the program and without disturbing it. Then the
program is up to date.
-/

namespace CryptoInfra

namespace Client

/-- A call which asks for some bytes and finds some takes some. -/
theorem length_step_lt (phase : Phase) (running : phase ≠ .stopped) (some_asked : 0 < phase.asked)
    (data : ℤ → Option (List UInt8)) {undelivered : List UInt8} (some_left : undelivered ≠ []) :
    (step { listener := { phase, data }, undelivered } 32).undelivered.length <
      undelivered.length := by
  have left := List.length_pos_of_ne_nil some_left
  have taken : undelivered.take (min phase.asked 32) ≠ [] := by
    apply List.ne_nil_of_length_pos
    rw [List.length_take]
    omega
  rw [step, if_neg running, recv, if_neg some_asked.ne']
  simp only [taken, if_false, List.length_drop]
  omega

/-- A listener in step takes in the rest of the stream in whole calls. -/
theorem whole_and_shorter {client : Client} {awaited : List (Snapshot UInt64 UInt64)}
    (awaits : client.Awaits awaited) (some_left : client.undelivered ≠ []) :
    client.Whole 32 ∧ (client.step 32).undelivered.length < client.undelivered.length := by
  obtain ⟨⟨phase, data⟩, undelivered⟩ := client
  cases phase with
  | currency =>
      have enough : 4 ≤ 32 := by decide
      exact ⟨Or.inr (Or.inr enough), length_step_lt .currency nofun (Nat.succ_pos 3) data some_left⟩
  | header currencyId =>
      have enough : 4 ≤ 32 := by decide
      exact ⟨enough, length_step_lt (.header currencyId) nofun (Nat.succ_pos 3) data some_left⟩
  | payload currencyId messageLength =>
      obtain ⟨snapshot, later, -, -, rfl, -⟩ := awaits
      exact ⟨le_refl 32,
        length_step_lt (.payload currencyId 32) nofun (Nat.succ_pos 31) data some_left⟩
  | stopped => exact awaits.elim

end Client

/-- One request is some whole requests. -/
theorem WorldEvent.Single.aligned {event : WorldEvent} (single : event.Single) :
    event.Aligned := by
  cases event with
  | received reception =>
      cases reception with
      | received chunk =>
          obtain ⟨request, whole⟩ := single
          exact ⟨request, [], by rw [whole, List.flatMap_singleton]⟩
      | failed => trivial
      | disconnected => trivial
  | _ => trivial

theorem Session.deliver_nil (session : Session) (encode : ℚ → UInt64) :
    session.deliver encode [] = session := by
  rw [deliver]
  split
  · simp [Client.stream]
  · rfl

theorem Session.deliver_append (session : Session) (encode : ℚ → UInt64)
    (front rest : List (Socket × Snapshot ℚ Volume)) :
    session.deliver encode (front ++ rest) =
      (session.deliver encode front).deliver encode rest := by
  by_cases connected : session.connected = true
  · simp [deliver, connected, Client.stream]
  · simp [deliver, connected]

theorem Session.running_deliver (session : Session) (encode : ℚ → UInt64)
    (sends : List (Socket × Snapshot ℚ Volume)) :
    (session.deliver encode sends).running = session.running := by
  rw [deliver]
  split <;> rfl

namespace World

variable {encode : ℚ → UInt64}

/-! ## Continuations -/

/-- Undisturbed continuations of a world, with the snapshots which the server sends. -/
abbrev Continues (encode : ℚ → UInt64) (world : World) :
    List WorldEvent → List (Socket × Snapshot ℚ Volume) → World → Prop :=
  History.Emits (fun world event => world.Enabled event ∧ world.Undisturbed event) (step encode)
    world

/-- Without a further call of the program, with single requests received at once and without
disturbing the listener, the world can come to where a property holds. -/
def Attains (encode : ℚ → UInt64) (world : World) (property : World → Session → Prop) : Prop :=
  ∃ rest sends final session, Continues encode world rest sends final ∧
    (∀ event ∈ rest, event.call = none ∧ event.Single) ∧
      final.session = some session ∧ property final session

theorem attains_here {world : World} {session : Session} (found : world.session = some session)
    {property : World → Session → Prop} (holds : property world session) :
    Attains encode world property :=
  ⟨[], [], world, session, .start, nofun, found, holds⟩

/-- What can be attained from where something has been attained can be attained. -/
theorem Attains.bind {world : World} {first second : World → Session → Prop}
    (attains : Attains encode world first)
    (further : ∀ rest sends final session, Continues encode world rest sends final →
      (∀ event ∈ rest, event.call = none ∧ event.Single) → final.session = some session →
        first final session → Attains encode final second) :
    Attains encode world second := by
  obtain ⟨rest, sends, middle, session, continued, quiet, found, holds⟩ := attains
  obtain ⟨later, more, final, settled, ended, quieter, reached, attained⟩ :=
    further rest sends middle session continued quiet found holds
  exact ⟨rest ++ later, sends ++ more, final, settled, continued.append ended,
    List.forall_mem_append.mpr ⟨quiet, quieter⟩, reached, attained⟩

/-- One step may come first. -/
theorem attains_of_step {world : World} {event : WorldEvent}
    (possible : world.Enabled event ∧ world.Undisturbed event)
    (quiet : event.call = none ∧ event.Single) {next : World}
    {sends : List (Socket × Snapshot ℚ Volume)}
    (stepped : world.step encode event = some (next, sends))
    {property : World → Session → Prop} (attains : Attains encode next property) :
    Attains encode world property := by
  obtain ⟨rest, more, final, session, continued, quieter, found, holds⟩ := attains
  have first : Continues encode world [event] sends next := .single possible stepped
  exact ⟨event :: rest, sends ++ more, final, session, first.append continued,
    List.forall_mem_cons.mpr ⟨quiet, quieter⟩, found, holds⟩

theorem step_eq {world : World} {event : WorldEvent} {backend : Backend}
    {sends : List (Socket × Snapshot ℚ Volume)}
    (served : world.nextBackend event = some (backend, sends)) :
    world.step encode event = some
      ({ backend
         session := (world.nextSession backend.server event).map (Session.deliver encode sends) },
        sends) := by
  simp [step, served]

/-! ## Snapshots -/

/-- The listener can receive all snapshots on their way, and the rest stays as it is. -/
theorem attains_drained {history : List WorldEvent} {sends : List (Socket × Snapshot ℚ Volume)}
    {world : World} (run : SendsWhile Undisturbed encode history sends world) {session : Session}
    (found : world.session = some session) (running : session.running = true) :
    Attains encode world fun final settled => settled.client.undelivered = [] ∧
      settled.requests = session.requests ∧ settled.connected = session.connected ∧
        final.backend = world.backend := by
  induction left : session.client.undelivered.length using Nat.strong_induction_on
    generalizing history sends world session with
  | _ left_length induction =>
      by_cases drained : session.client.undelivered = []
      · exact attains_here found ⟨drained, rfl, rfl, rfl⟩
      · obtain ⟨received, awaited, -, awaits, -⟩ := inOrder_of_run run session found
        obtain ⟨whole, shorter⟩ := Client.whole_and_shorter awaits drained
        have possible : world.Enabled (.listened 32) ∧ world.Undisturbed (.listened 32) := by
          refine ⟨⟨session, found, running⟩, fun same was => ?_⟩
          obtain rfl := Option.some_inj.mp (found.symm.trans was)
          exact ⟨whole, Or.inr drained⟩
        let next : Session := { session with client := session.client.step 32 }
        have stepped : world.step encode (.listened 32) =
            some ({ backend := world.backend, session := some next }, []) := by
          have goes_on : ¬ (session.connected = false ∧ session.client.undelivered = []) :=
            fun closed => drained closed.2
          rw [step_eq rfl, nextSession, found, Option.map_some, Session.listen, if_neg goes_on,
            Option.map_some, Session.deliver_nil]
        have moved : (⟨world.backend, some next⟩ : World).session = some next := rfl
        rw [left] at shorter
        have further := induction _ shorter (run.step possible stepped) moved running rfl
        exact attains_of_step possible ⟨rfl, trivial⟩ stepped further

/-! ## Requests -/

/-- A receiving call for the connection does not fail. -/
theorem exists_received {history : List WorldEvent} {sends : List (Socket × Snapshot ℚ Volume)}
    {world : World} (run : Sends encode history sends world) {reception : Reception Chunk}
    (enabled : world.Enabled (.received reception)) :
    ∃ backend emitted, world.nextBackend (.received reception) = some (backend, emitted) := by
  obtain ⟨events, inner, attached, -⟩ := exists_backend run
  have possible := enabled
  obtain ⟨session, found, -, -⟩ := enabled
  have means : world.backendEvent (.received reception) =
      some (.received session.clientSocket (session.fill reception)) := by
    rw [backendEvent, found]
    rfl
  rw [nextBackend, means]
  exact Backend.exists_step inner (attached.enabled possible means) (by rintro _ _ _ ⟨⟩)

/-- The connection thread can receive all requests on their way one by one, until the server closes
its end. -/
theorem attains_received {history : List WorldEvent} {sends : List (Socket × Snapshot ℚ Volume)}
    {world : World} (run : SendsWhile Undisturbed encode history sends world) {session : Session}
    (found : world.session = some session) {requests : List ClientRequest}
    (bytes : session.requests = requests.flatMap ClientRequest.message) :
    Attains encode world fun _ settled =>
      (settled.requests = [] ∨ settled.connected = false) ∧ settled.running = session.running := by
  induction requests generalizing history sends world session with
  | nil => exact attains_here found ⟨Or.inl bytes, rfl⟩
  | cons request requests induction =>
      cases connected : session.connected with
      | false => exact attains_here found ⟨Or.inr connected, rfl⟩
      | true =>
          have front : request.chunk.bytes <+: session.requests := by
            rw [bytes, List.flatMap_cons]
            exact List.prefix_append _ _
          have possible : world.Enabled (.received (.received request.chunk)) ∧
              world.Undisturbed (.received (.received request.chunk)) :=
            ⟨⟨session, found, connected, front⟩, trivial⟩
          obtain ⟨backend, emitted, served⟩ := exists_received run.sends possible.1
          let next : Session := (session.received (.received request.chunk)
            (session.clientSocket ∈ backend.server.connections)).deliver encode emitted
          have stepped : world.step encode (.received (.received request.chunk)) =
              some ({ backend, session := some next }, emitted) := by
            rw [step_eq served, nextSession, found]
            rfl
          have moved : (⟨backend, some next⟩ : World).session = some next := rfl
          have left : next.requests = requests.flatMap ClientRequest.message := by
            rw [Session.requests_deliver]
            change session.requests.drop request.message.length = _
            rw [bytes, List.flatMap_cons, List.drop_left]
          have further := induction (run.step possible stepped) moved left
          have running : next.running = session.running := Session.running_deliver _ encode emitted
          rw [running] at further
          exact attains_of_step possible ⟨rfl, request, rfl⟩ stepped further

/-! ## Updates -/

/-- What the server does on its own happens beyond the connection, which goes on. -/
theorem continues_of_backend {world : World} {session : Session}
    (found : world.session = some session) {events : List BackendEvent}
    {sends : List (Socket × Snapshot ℚ Volume)} {backend : Backend}
    (inner : History.Emits Backend.Enabled Backend.step world.backend events sends backend)
    (quiet : ∀ event ∈ events, event.receiver = none) :
    Continues encode world (events.map .elsewhere) sends
      { backend, session := some (session.deliver encode sends) } := by
  induction inner with
  | start =>
      rw [Session.deliver_nil, ← found]
      exact .start
  | @step events sends emitted middle next event emits possible stepped induction =>
      obtain ⟨earlier, last⟩ := List.forall_mem_append.mp quiet
      have silent := last event (List.mem_singleton_self event)
      rw [List.map_append, Session.deliver_append]
      refine (induction earlier).step ⟨⟨possible, fun _ _ _ => ?_⟩, trivial⟩ (step_eq stepped)
      rw [silent]
      exact (Option.some_ne_none _).symm

/-- The threads of a book can finish the message which one of them is in the middle of, and the
program's end of the connection stays as it is. -/
theorem attains_unlocked {history : List WorldEvent} {sends : List (Socket × Snapshot ℚ Volume)}
    {world : World} (run : Sends encode history sends world) {session : Session}
    (found : world.session = some session) (currency : UInt32) :
    Attains encode world fun final settled => final.backend.allInHand currency = [] ∧
      settled.requests = session.requests ∧ settled.connected = session.connected ∧
        settled.running = session.running := by
  obtain ⟨events, inner, -⟩ := exists_backend run
  obtain ⟨feed, emitted, next, finished, unlocked⟩ := Backend.exists_unlocked inner currency
  have quiet : ∀ event ∈ List.replicate (world.backend.allInHand currency).length
      (BackendEvent.applied currency feed), event.receiver = none := by
    intro event member
    rw [List.eq_of_mem_replicate member]
    rfl
  refine ⟨_, emitted, _, _, continues_of_backend found finished quiet, ?_, rfl, unlocked,
    session.requests_deliver encode emitted, (session.sameEnd_deliver encode emitted).2,
    session.running_deliver encode emitted⟩
  intro event member
  obtain ⟨inner_event, -, rfl⟩ := List.mem_map.mp member
  exact ⟨rfl, trivial⟩

/-! ## Settling -/

/-- While the program is running, everything that is on its way can arrive. -/
theorem attains_settled {history : List WorldEvent} {sends : List (Socket × Snapshot ℚ Volume)}
    {world : World} (run : SendsWhile Undisturbed encode history sends world)
    (aligned : ∀ event ∈ history, event.Aligned) {session : Session}
    (found : world.session = some session) (running : session.running = true) (currency : UInt32) :
    Attains encode world fun final settled =>
      (settled.requests = [] ∨ settled.connected = false) ∧ settled.client.undelivered = [] ∧
        final.backend.allInHand currency = [] := by
  have received : Attains encode world fun _ settled =>
      (settled.requests = [] ∨ settled.connected = false) ∧ settled.running = session.running := by
    cases connected : session.connected with
    | false => exact attains_here found ⟨Or.inr connected, rfl⟩
    | true =>
        obtain ⟨requests, bytes, -⟩ := requested_of_run run.sends (fun _ => True)
          (fun event member => ⟨aligned event member, fun _ _ => trivial⟩) session found connected
        exact attains_received run found bytes
  refine received.bind fun rest more middle after continued _ reached first => ?_
  obtain ⟨requests, still_running⟩ := first
  have run_on : SendsWhile Undisturbed encode (history ++ rest) (sends ++ more) middle :=
    run.append continued
  refine (attains_unlocked run_on.sends reached currency).bind
    fun later further next settled continued_again _ reached_again second => ?_
  obtain ⟨unlocked, same_requests, same_connected, same_running⟩ := second
  refine (attains_drained (run_on.append continued_again) reached_again
    ((same_running.trans still_running).trans running)).bind
      fun _ _ final last _ _ ended third => ?_
  obtain ⟨drained, last_requests, last_connected, backend⟩ := third
  refine attains_here ended ⟨?_, drained, backend ▸ unlocked⟩
  rw [last_requests, last_connected, same_requests, same_connected]
  exact requests

/-- Wherever the world has come to without a disturbance of the listener and with whole requests
received at once, everything can still arrive while the program is running: without a further call
of the program, the connection thread receives all requests on their way, unless the server closes
its end, the listener receives all snapshots on their way, and nobody holds the lock of a book. If
the program has never withdrawn from the currency of the book and the server has not closed its end,
the program then parses nothing or the best levels of the book. -/
theorem program_can_catch_up (encode : ℚ → UInt64) (history : List WorldEvent)
    (sends : List (Socket × Snapshot ℚ Volume)) (world : World)
    (run : SendsWhile Undisturbed encode history sends world)
    (aligned : ∀ event ∈ history, event.Aligned) (session : Session)
    (found : world.session = some session) (running : session.running = true) (currency : UInt32) :
    Attains encode world fun final settled =>
      (settled.requests = [] ∨ settled.connected = false) ∧ settled.client.undelivered = [] ∧
        final.backend.allInHand currency = [] ∧
          ((∀ event ∈ history, event.switch currency ≠ some false) → settled.connected = true →
            ∀ snapshot, (final.backend.server.book currency).topOfBook = some snapshot →
              parse settled.client.listener.data currency.toNat = .nothing ∨
                parse settled.client.listener.data currency.toNat =
                  .values (snapshot.encoded encode).marketData) := by
  refine (attains_settled run aligned found running currency).bind
    fun rest more final settled continued quiet reached arrived => ?_
  obtain ⟨requests, drained, unlocked⟩ := arrived
  refine attains_here reached ⟨requests, drained, unlocked, fun never connected snapshot best => ?_⟩
  have run_on : SendsWhile Undisturbed encode (history ++ rest) (sends ++ more) final :=
    run.append continued
  have stays : ∀ event ∈ history ++ rest, event.Aligned ∧ event.switch currency ≠ some false := by
    rw [List.forall_mem_append]
    refine ⟨fun event member => ⟨aligned event member, never event member⟩, fun event member => ?_⟩
    obtain ⟨uncalled, single⟩ := quiet event member
    refine ⟨single.aligned, ?_⟩
    rw [WorldEvent.switch, uncalled]
    exact (Option.some_ne_none false).symm
  exact parse_of_current run_on reached drained
    (current_of_run run_on.sends currency stays settled reached connected) best

/-- The program subscribes to a currency and each exchange quotes one price. -/
def unheardHistory : List WorldEvent :=
  listenedHistory.take 9

theorem program_can_catch_up_unheardHistory :
    ∃ sends world, SendsWhile Undisturbed listenedPattern unheardHistory sends world ∧
      (∃ session, world.session = some session ∧ session.client.undelivered.length = 40) ∧
        Attains listenedPattern world fun _ settled => settled.client.undelivered = [] := by
  have executed : ∃ outcome ∈ History.execute (fun world event =>
      world.Enabled event ∧ world.Undisturbed event) (step listenedPattern) new unheardHistory,
        ∃ session ∈ outcome.2.session, session.running = true ∧
          session.client.undelivered.length = 40 := by
    decide +kernel
  obtain ⟨⟨sends, world⟩, ran, session, found, running, length⟩ := executed
  have run : SendsWhile Undisturbed listenedPattern unheardHistory sends world :=
    History.emits_of_execute ran
  have aligned : ∀ event ∈ unheardHistory, event.Aligned := fun event member =>
    (stays_listenedHistory event (List.mem_of_mem_take member)).1
  obtain ⟨rest, more, final, settled, continued, quiet, reached, -, drained, -⟩ :=
    program_can_catch_up listenedPattern unheardHistory sends world run aligned session found
      running 1
  exact ⟨sends, world, run, ⟨session, found, length⟩, rest, more, final, settled, continued, quiet,
    reached, drained⟩

end World

end CryptoInfra
