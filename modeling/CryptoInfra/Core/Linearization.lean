import CryptoInfra.Core.Books

/-!
# Requests one at a time

Connection threads serve subscriptions in several steps which interleave. As long as no book is
created over another one, there is an order in which the same requests, served one at a time, lead
to the same server. A subscription counts from the step on which registers its socket, any other
request from the step which receives it.
-/

namespace CryptoInfra

variable {Price : Type*} [LinearOrder Price]

/-! ## The order of requests -/

/-- The requests which count as served, and the subscription every thread has in hand. -/
structure Schedule where
  /-- The requests served so far, in order. -/
  served : List (Socket × SocketBuffer)
  /-- The subscription which a thread has received but not registered. -/
  pending : Socket → Option SocketBuffer

namespace Schedule

/-- Nothing has been received. -/
def new : Schedule where
  served := []
  pending _ := none

/-- Continue with a step of a thread. -/
def step (schedule : Schedule) (event : Socket × Action) : Schedule :=
  match event.2 with
  | .receive request =>
      match Request.read request with
      | .subscribe _ =>
          { schedule with pending := Function.update schedule.pending event.1 (some request) }
      | _ => { schedule with served := schedule.served ++ [(event.1, request)] }
  | .register _ =>
      { served := schedule.served ++
          (schedule.pending event.1).toList.map fun request => (event.1, request)
        pending := Function.update schedule.pending event.1 none }
  | _ => schedule

/-- The order in which the requests of an interleaving are served. -/
def run (history : List (Socket × Action)) : Schedule := history.foldl step new

@[simp]
theorem run_snoc (history : List (Socket × Action)) (event : Socket × Action) :
    run (history ++ [event]) = (run history).step event := by
  simp [run]

/-- The requests of a socket which count as served. -/
def servedTo (schedule : Schedule) (clientSocket : Socket) : List SocketBuffer :=
  schedule.served.filterMap fun request =>
    if request.1 = clientSocket then some request.2 else none

end Schedule

/-- The request which a step of a thread receives. -/
def receivedBy (clientSocket : Socket) (event : Socket × Action) : Option SocketBuffer :=
  if event.1 = clientSocket then
    match event.2 with
    | .receive request => some request
    | _ => none
  else none

/-! ## The server of the served requests -/

namespace Stage

/-- The currency which a thread is about to append. -/
def unlisted : Stage → List UInt32
  | .appending currencyName => [currencyName]
  | _ => []

/-- The subscription in hand is for the currency of the stage. -/
def Holds (stage : Stage) (pending : Option SocketBuffer) : Prop :=
  match stage with
  | .creating currencyName =>
      ∃ request, pending = some request ∧ Request.read request = .subscribe currencyName
  | .registering currencyName =>
      ∃ request, pending = some request ∧ Request.read request = .subscribe currencyName
  | _ => pending = none

end Stage

namespace Threads

/-- A book which has been created but is not registered with yet is not open in the server which
serves requests one at a time. -/
def Created (threads : Threads Price) (core : CoreComponent Price) (currency : UInt32) : Prop :=
  core.openOrderbooks currency = none ∧
    threads.core.openOrderbooks currency = some (Orderbook.new currency) ∧
      ∃ clientSocket, threads.stage clientSocket = .registering currency

/-- The threads are where the served requests lead, but for the steps which are still to come. -/
structure Agrees (threads : Threads Price) (schedule : Schedule) (core : CoreComponent Price) :
    Prop where
  /-- The served requests lead to this server. -/
  served : CoreComponent.processRequests schedule.served CoreComponent.new = some core
  /-- The books are those of this server. -/
  books : ∀ currency, threads.core.openOrderbooks currency = core.openOrderbooks currency ∨
    threads.Created core currency
  /-- So are the subscriptions, once they have been appended. -/
  lists : ∀ clientSocket, core.clientSubscribeList clientSocket =
    threads.core.clientSubscribeList clientSocket ++ (threads.stage clientSocket).unlisted
  /-- Every thread has its subscription in hand. -/
  holds : ∀ clientSocket, (threads.stage clientSocket).Holds (schedule.pending clientSocket)

theorem agrees_new : (new : Threads Price).Agrees Schedule.new CoreComponent.new where
  served := rfl
  books _ := Or.inl rfl
  lists _ := rfl
  holds _ := rfl

/-- A created book stays one while its thread stays where it is. -/
theorem Created.of_update {threads next : Threads Price} {core after : CoreComponent Price}
    {currency : UInt32} (created : threads.Created core currency) {clientSocket : Socket}
    {stage : Stage} (elsewhere : threads.stage clientSocket ≠ .registering currency)
    (moved : next.stage = Function.update threads.stage clientSocket stage)
    (kept : next.core.openOrderbooks currency = threads.core.openOrderbooks currency)
    (same : after.openOrderbooks currency = core.openOrderbooks currency) :
    next.Created after currency := by
  obtain ⟨absent, opened, holder, registering⟩ := created
  have different : holder ≠ clientSocket := by
    rintro rfl
    exact elsewhere registering
  refine ⟨same.trans absent, kept.trans opened, holder, ?_⟩
  rw [moved, Function.update_of_ne different]
  exact registering

namespace Agrees

variable {threads next : Threads Price} {schedule : Schedule} {core : CoreComponent Price}
  {clientSocket : Socket}

theorem serviceable (agrees : threads.Agrees schedule core) : core.Serviceable := by
  obtain ⟨same, served, serviceable⟩ : ∃ same : CoreComponent Price,
      CoreComponent.processRequests schedule.served CoreComponent.new = some same ∧
        same.Serviceable := CoreComponent.processRequests_serviceable schedule.served
  rw [agrees.served, Option.some_inj] at served
  exact served ▸ serviceable

/-- One more request is served. -/
theorem processRequests_snoc (agrees : threads.Agrees schedule core) (request : SocketBuffer) :
    CoreComponent.processRequests (schedule.served ++ [(clientSocket, request)])
        CoreComponent.new =
      some (core.serve (Request.read request) clientSocket) := by
  rw [CoreComponent.processRequests_snoc, agrees.served, Option.bind_some,
    CoreComponent.processRequest_eq_serve agrees.serviceable, Option.map_some]

/-- A thread moves on without anything being served. -/
theorem move (agrees : threads.Agrees schedule core) {stage : Stage}
    {pending : Option SocketBuffer}
    (moved : next.stage = Function.update threads.stage clientSocket stage)
    (books : ∀ currency, next.core.openOrderbooks currency = core.openOrderbooks currency ∨
      next.Created core currency)
    (lists : core.clientSubscribeList clientSocket =
      next.core.clientSubscribeList clientSocket ++ stage.unlisted)
    (others : ∀ other, other ≠ clientSocket →
      next.core.clientSubscribeList other = threads.core.clientSubscribeList other)
    (holds : stage.Holds pending) :
    next.Agrees { schedule with pending := Function.update schedule.pending clientSocket pending }
      core where
  served := agrees.served
  books := books
  lists other := by
    rw [moved]
    by_cases same : other = clientSocket
    · subst same
      rw [Function.update_self, lists]
    · rw [Function.update_of_ne same, others other same, agrees.lists]
  holds other := by
    rw [moved]
    by_cases same : other = clientSocket
    · subst same
      simpa using holds
    · simpa [same] using agrees.holds other

/-- A thread tests whether there is a book for its subscription. -/
theorem test (agrees : threads.Agrees schedule core) (idle : threads.stage clientSocket = .idle)
    {request : SocketBuffer} {currencyName : UInt32}
    (read : Request.read request = .subscribe currencyName)
    (stepped : threads.step (clientSocket, .receive request) = some next) :
    next.Agrees (schedule.step (clientSocket, .receive request)) core := by
  rw [step_test threads clientSocket read, Option.some_inj] at stepped
  subst stepped
  simp only [Schedule.step, read]
  refine agrees.move rfl ?_ ?_ (fun _ _ => rfl) ?_
  · intro currency
    apply (agrees.books currency).imp_right
    intro created
    exact created.of_update (by rw [idle]; nofun) rfl rfl rfl
  · rw [agrees.lists, idle]
    split <;> rfl
  · split <;> exact ⟨request, rfl, read⟩

/-- A thread serves a request which is not a subscription. -/
theorem serve (agrees : threads.Agrees schedule core) (ready : threads.Ready)
    (idle : threads.stage clientSocket = .idle) {request : SocketBuffer}
    (other : ∀ currencyName, Request.read request ≠ .subscribe currencyName)
    (stepped : threads.step (clientSocket, .receive request) = some next) :
    next.Agrees (schedule.step (clientSocket, .receive request))
      (core.serve (Request.read request) clientSocket) := by
  have asked_same : core.clientSubscribeList clientSocket =
      threads.core.clientSubscribeList clientSocket := by
    rw [agrees.lists, idle]
    exact List.append_nil _
  have served := CoreComponent.processRequest_withdraw (ready.asked clientSocket)
    (fun currency book found => by
      simpa [CoreComponent.clientSendList, found] using ready.nodup currency) other
  have scheduled : schedule.step (clientSocket, .receive request) =
      { schedule with served := schedule.served ++ [(clientSocket, request)] } := by
    cases read : Request.read request with
    | subscribe currencyName => exact absurd read (other currencyName)
    | _ => simp [Schedule.step, read]
  have moved : threads.step (clientSocket, .receive request) =
      (CoreComponent.processRequest request clientSocket threads.core).map fun served =>
        { threads with core := served.1 } := by
    cases read : Request.read request with
    | subscribe currencyName => exact absurd read (other currencyName)
    | _ => simp [Threads.step, read]
  rw [moved, served, Option.map_some, Option.some_inj] at stepped
  subst stepped
  rw [scheduled]
  refine ⟨agrees.processRequests_snoc request, ?_, ?_, agrees.holds⟩
  · intro currency
    dsimp only [CoreComponent.serve]
    by_cases asked : currency ∈ threads.core.clientSubscribeList clientSocket
    · have opened := agrees.serviceable.opened clientSocket currency (asked_same ▸ asked)
      have same := (agrees.books currency).resolve_right fun created => opened created.1
      exact Or.inl (by rw [if_pos asked, same])
    · have kept := agrees.serviceable.updateBook_of_not_asked (asked_same ▸ asked) other
      rw [if_neg asked, kept]
      apply (agrees.books currency).imp_right
      rintro ⟨absent, created⟩
      exact ⟨kept.trans absent, (if_neg asked).trans created.1, created.2⟩
  · intro asker
    dsimp only [CoreComponent.serve]
    by_cases same : asker = clientSocket
    · subst same
      rw [Function.update_self, Function.update_self, asked_same, idle]
      exact (List.append_nil _).symm
    · rw [Function.update_of_ne same, Function.update_of_ne same, agrees.lists]

/-- A thread creates a book for a currency which has none. -/
theorem create (agrees : threads.Agrees schedule core) {currencyName : UInt32}
    (staged : threads.stage clientSocket = .creating currencyName)
    (fresh : threads.core.openOrderbooks currencyName = none)
    (stepped : threads.step (clientSocket, .create currencyName) = some next) :
    next.Agrees (schedule.step (clientSocket, .create currencyName)) core := by
  obtain rfl := Option.some_inj.mp stepped
  have holds := agrees.holds clientSocket
  rw [staged] at holds
  have kept : schedule.step (clientSocket, .create currencyName) =
      { schedule with
        pending := Function.update schedule.pending clientSocket
          (schedule.pending clientSocket) } := by
    rw [Function.update_eq_self]
    rfl
  rw [kept]
  refine agrees.move rfl ?_ ?_ (fun _ _ => rfl) holds
  · intro currency
    by_cases same : currency = currencyName
    · subst same
      right
      refine ⟨?_, Function.update_self _ _ _, clientSocket, Function.update_self _ _ _⟩
      rcases agrees.books currency with same | created
      · exact same.symm.trans fresh
      · exact created.1
    · have untouched : (threads.core.addWebsocketConnection currencyName).openOrderbooks currency =
          threads.core.openOrderbooks currency := Function.update_of_ne same _ _
      rw [untouched]
      apply (agrees.books currency).imp_right
      intro created
      exact created.of_update (by rw [staged]; nofun) rfl untouched rfl
  · rw [agrees.lists, staged]
    rfl

/-- A thread registers its socket, which serves its subscription. -/
theorem register (agrees : threads.Agrees schedule core) {currencyName : UInt32}
    (staged : threads.stage clientSocket = .registering currencyName)
    (stepped : threads.step (clientSocket, .register currencyName) = some next) :
    next.Agrees (schedule.step (clientSocket, .register currencyName))
      (core.serve (.subscribe currencyName) clientSocket) := by
  have holds := agrees.holds clientSocket
  rw [staged] at holds
  obtain ⟨request, pending, read⟩ := holds
  have scheduled : schedule.step (clientSocket, .register currencyName) =
      { served := schedule.served ++ [(clientSocket, request)]
        pending := Function.update schedule.pending clientSocket none } := by
    simp [Schedule.step, pending]
  obtain ⟨books, registered, rfl⟩ := Option.map_eq_some_iff.mp stepped
  obtain ⟨book, found, rfl⟩ := Option.map_eq_some_iff.mp registered
  rw [scheduled]
  refine ⟨read ▸ agrees.processRequests_snoc request, ?_, ?_, ?_⟩
  · intro currency
    dsimp only [CoreComponent.serve, Request.updateBook]
    by_cases same : currency = currencyName
    · subst same
      left
      rw [if_pos rfl, Function.update_self]
      rcases agrees.books currency with same | created
      · rw [← same, found, Option.getD_some]
      · have created_book := found.symm.trans created.2.1
        rw [created.1, Option.getD_none, Option.some_inj.mp created_book]
    · rw [if_neg (Ne.symm same), Function.update_of_ne same]
      apply (agrees.books currency).imp_right
      intro created
      have elsewhere : threads.stage clientSocket ≠ .registering currency := by
        rw [staged]
        exact fun equal => same (Stage.registering.inj equal).symm
      exact created.of_update elsewhere rfl (Function.update_of_ne same _ _)
        (if_neg (Ne.symm same))
  · intro asker
    dsimp only [CoreComponent.serve]
    by_cases same : asker = clientSocket
    · subst same
      rw [Function.update_self, Function.update_self, agrees.lists, staged]
      simp [Request.updateSubscribeList, Stage.unlisted]
    · rw [Function.update_of_ne same, Function.update_of_ne same, agrees.lists]
  · intro other
    by_cases same : other = clientSocket
    · subst same
      simp [Stage.Holds]
    · simpa [same] using agrees.holds other

/-- A thread appends the currency to the list of its socket. -/
theorem append (agrees : threads.Agrees schedule core) {currencyName : UInt32}
    (staged : threads.stage clientSocket = .appending currencyName)
    (stepped : threads.step (clientSocket, .append currencyName) = some next) :
    next.Agrees (schedule.step (clientSocket, .append currencyName)) core := by
  obtain rfl := Option.some_inj.mp stepped
  have holds := agrees.holds clientSocket
  rw [staged] at holds
  have kept : schedule.step (clientSocket, .append currencyName) =
      { schedule with pending := Function.update schedule.pending clientSocket none } := by
    rw [← (holds : schedule.pending clientSocket = none), Function.update_eq_self]
    rfl
  rw [kept]
  refine agrees.move rfl ?_ ?_ ?_ rfl
  · intro currency
    apply (agrees.books currency).imp_right
    intro created
    exact created.of_update (by rw [staged]; nofun) rfl rfl rfl
  · rw [agrees.lists, staged]
    simp [Stage.unlisted]
  · intro other different
    exact Function.update_of_ne different _ _

end Agrees

/-- An enabled step which creates no book over another one keeps the agreement. -/
theorem Agrees.step {threads next : Threads Price} {schedule : Schedule}
    {core : CoreComponent Price} (agrees : threads.Agrees schedule core) (ready : threads.Ready)
    {event : Socket × Action} (enabled : threads.Enabled event)
    (fresh : ¬ threads.Recreates event) (stepped : threads.step event = some next) :
    ∃ after, next.Agrees (schedule.step event) after := by
  obtain ⟨clientSocket, action⟩ := event
  cases action with
  | receive request =>
      by_cases other : ∀ currencyName, Request.read request ≠ .subscribe currencyName
      · exact ⟨_, agrees.serve ready enabled other stepped⟩
      · simp only [ne_eq, not_forall, not_not] at other
        obtain ⟨currencyName, read⟩ := other
        exact ⟨_, agrees.test enabled read stepped⟩
  | create currencyName =>
      refine ⟨_, agrees.create enabled ?_ stepped⟩
      by_contra opened
      exact fresh ⟨currencyName, rfl, opened⟩
  | register currencyName => exact ⟨_, agrees.register enabled stepped⟩
  | append currencyName => exact ⟨_, agrees.append enabled stepped⟩

/-! ## The order of every socket -/

/-- Every socket's requests are served in the order in which they are received. -/
def InOrder (history : List (Socket × Action)) (schedule : Schedule) : Prop :=
  ∀ clientSocket, history.filterMap (receivedBy clientSocket) =
    schedule.servedTo clientSocket ++ (schedule.pending clientSocket).toList

theorem InOrder.step {history : List (Socket × Action)} {schedule : Schedule}
    (inOrder : InOrder history schedule) {event : Socket × Action}
    (unoccupied : ∀ request, event.2 = .receive request → schedule.pending event.1 = none) :
    InOrder (history ++ [event]) (schedule.step event) := by
  intro clientSocket
  obtain ⟨sender, action⟩ := event
  rw [List.filterMap_append, inOrder]
  cases action with
  | receive request =>
      have none_pending : schedule.pending sender = none := unoccupied request rfl
      by_cases same : sender = clientSocket
      · subst same
        cases read : Request.read request <;>
          simp [Schedule.step, read, none_pending, receivedBy, Schedule.servedTo]
      · cases read : Request.read request <;>
          simp [Schedule.step, read, receivedBy, Schedule.servedTo, same, Ne.symm same]
  | create currencyName => simp [Schedule.step, receivedBy]
  | register currencyName =>
      by_cases same : sender = clientSocket
      · subst same
        cases pending : schedule.pending sender <;>
          simp [Schedule.step, pending, receivedBy, Schedule.servedTo]
      · cases pending : schedule.pending sender <;>
          simp [Schedule.step, pending, receivedBy, Schedule.servedTo, same, Ne.symm same]
  | append currencyName => simp [Schedule.step, receivedBy]

/-! ## Interleavings -/

/-- An interleaving follows the requests which it serves. -/
structure Linearized (history : List (Socket × Action)) (threads : Threads Price) : Prop where
  /-- Some server of the served requests agrees with the threads. -/
  agrees : ∃ core, threads.Agrees (Schedule.run history) core
  /-- Every socket's requests are served in order. -/
  inOrder : InOrder history (Schedule.run history)

theorem Linearized.step {history : List (Socket × Action)} {threads next : Threads Price}
    (linearized : Linearized history threads) (ready : threads.Ready) {event : Socket × Action}
    (enabled : threads.Enabled event) (fresh : ¬ threads.Recreates event)
    (stepped : threads.step event = some next) : Linearized (history ++ [event]) next := by
  obtain ⟨core, agrees⟩ := linearized.agrees
  refine ⟨?_, ?_⟩
  · rw [Schedule.run_snoc]
    exact agrees.step ready enabled fresh stepped
  · rw [Schedule.run_snoc]
    apply linearized.inOrder.step
    intro request receives
    have idle : threads.stage event.1 = .idle := enabled.trans (by rw [receives, Action.stage])
    have holds := agrees.holds event.1
    rwa [idle] at holds

/-- Creating a book over another one is creating a book twice. -/
theorem not_recreates_of_nodup {history front : List (Socket × Action)} {event : Socket × Action}
    {threads : Threads Price} (once : (created history).Nodup)
    (within : front ++ [event] <+: history) (accounted : Accounted front threads) :
    ¬ threads.Recreates event := by
  rintro ⟨currency, creates, opened⟩
  have earlier : currency ∈ created front := not_not.mp (mt (accounted.created currency).mpr opened)
  have created_within : created (front ++ [event]) <+: created history :=
    List.IsPrefix.filterMap (fun event : Socket × Action => event.2.creates) within
  have twice := once.sublist created_within.sublist
  rw [created_snoc, creates, Option.toList_some, List.nodup_append] at twice
  exact twice.2.2 currency earlier currency (List.mem_singleton_self currency) rfl

theorem linearized_run {history : List (Socket × Action)} {threads : Threads Price}
    (run : Run history (some threads)) (once : (created history).Nodup) :
    Linearized history threads := by
  obtain ⟨same, found, -, linearized⟩ : ∃ same : Threads Price, some threads = some same ∧
      Accounted history same ∧ (history <+: history → Linearized history same) := by
    apply run.invariant fun front threads =>
      Accounted front threads ∧ (front <+: history → Linearized front threads)
    · exact ⟨accounted_new, fun _ => ⟨⟨_, agrees_new⟩, fun _ => rfl⟩⟩
    · rintro front threads event run ⟨accounted, linearized⟩ enabled
      obtain ⟨next, stepped, follows⟩ := exists_follows accounted.ready enabled
      refine ⟨next, stepped, accounted.step follows, fun within => ?_⟩
      have earlier := linearized ((List.prefix_append front [event]).trans within)
      exact earlier.step accounted.ready enabled (not_recreates_of_nodup once within accounted)
        stepped
  rw [Option.some_inj.mp found]
  exact linearized List.prefix_rfl

/-- A book which has been created but is not registered with yet has no clients. -/
theorem Agrees.clientSendList {threads : Threads Price} {schedule : Schedule}
    {core : CoreComponent Price} (agrees : threads.Agrees schedule core) (currency : UInt32) :
    threads.core.clientSendList currency = core.clientSendList currency := by
  rw [CoreComponent.clientSendList, CoreComponent.clientSendList]
  rcases agrees.books currency with same | ⟨absent, opened, -⟩
  · rw [same]
  · rw [absent, opened, Orderbook.new]

/-- Idle threads are where the served requests lead. -/
theorem Agrees.core_eq {threads : Threads Price} {schedule : Schedule}
    {core : CoreComponent Price} (agrees : threads.Agrees schedule core)
    (idle : ∀ clientSocket, threads.stage clientSocket = .idle) : threads.core = core := by
  have books : threads.core.openOrderbooks = core.openOrderbooks := by
    funext currency
    refine (agrees.books currency).resolve_right ?_
    rintro ⟨-, -, clientSocket, registering⟩
    rw [idle] at registering
    cases registering
  have lists : threads.core.clientSubscribeList = core.clientSubscribeList := by
    funext clientSocket
    rw [agrees.lists, idle]
    exact (List.append_nil _).symm
  obtain ⟨⟨openOrderbooks, clientSubscribeList⟩, stage⟩ := threads
  obtain ⟨rfl, rfl⟩ := And.intro books lists
  rfl

/-- As long as no currency gets a second book, every interleaving of the connection threads serves
the requests as if one at a time: in an order in which every socket's requests keep theirs, with the
same send lists at any moment, and with the same books and subscriptions whenever all threads are
idle. -/
theorem subscriptions_linearizable (history : List (Socket × Action)) (threads : Threads Price)
    (run : Run history (some threads)) (once : (created history).Nodup) :
    ∃ core : CoreComponent Price,
      CoreComponent.processRequests (Schedule.run history).served CoreComponent.new = some core ∧
        InOrder history (Schedule.run history) ∧
          (∀ currency, threads.core.clientSendList currency = core.clientSendList currency) ∧
            ((∀ clientSocket, threads.stage clientSocket = .idle) →
              threads.core = core ∧
                ∀ clientSocket, (Schedule.run history).pending clientSocket = none) := by
  obtain ⟨⟨core, agrees⟩, inOrder⟩ := linearized_run run once
  refine ⟨core, agrees.served, inOrder, agrees.clientSendList, fun idle => ?_⟩
  refine ⟨agrees.core_eq idle, fun clientSocket => ?_⟩
  have holds := agrees.holds clientSocket
  rwa [idle] at holds

/-- Two sockets ask for different currencies, and the later one is registered first. -/
def overtakingHistory : List (Socket × Action) :=
  [(4, .receive (ClientRequest.subscribe 1 1).buffer),
    (5, .receive (ClientRequest.subscribe 2 1).buffer), (4, .create 1), (5, .create 2),
    (5, .register 2), (4, .register 1), (4, .append 1), (5, .append 2)]

theorem subscriptions_linearizable_overtakingHistory :
    ∃ threads : Threads ℕ, Run overtakingHistory (some threads) ∧
      CoreComponent.processRequests
        [(5, (ClientRequest.subscribe 2 1).buffer), (4, (ClientRequest.subscribe 1 1).buffer)]
        CoreComponent.new = some threads.core := by
  have read : ∀ currencyId : UInt32,
      Request.read (ClientRequest.subscribe currencyId 1).buffer = .subscribe currencyId :=
    fun currencyId => ClientRequest.read_buffer _
  have tested : Run [(4, .receive (ClientRequest.subscribe 1 1).buffer)] (some _) :=
    History.Reaches.start.next _ rfl (step_test (new : Threads ℕ) 4 (read 1))
  have both := tested.next (5, .receive (ClientRequest.subscribe 2 1).buffer) rfl
    (step_test _ 5 (read 2))
  have created := (both.next (4, .create 1) rfl rfl).next (5, .create 2) rfl rfl
  have registered := (created.next (5, .register 2) rfl rfl).next (4, .register 1) rfl rfl
  have appended := (registered.next (4, .append 1) rfl rfl).next (5, .append 2) rfl rfl
  obtain ⟨core, served, -, -, same⟩ :=
    subscriptions_linearizable overtakingHistory _ appended (by decide)
  refine ⟨_, appended, ?_⟩
  rw [(same fun clientSocket => ?_).1, ← served]
  · simp [overtakingHistory, Schedule.run, Schedule.step, Schedule.new, read]
  · by_cases four : clientSocket = 4 <;> by_cases five : clientSocket = 5 <;>
      simp [four, five, new]

end Threads

end CryptoInfra
