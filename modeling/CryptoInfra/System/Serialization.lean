import CryptoInfra.Orderbook.Updates
import CryptoInfra.System.Backend
import CryptoInfra.Websockets.Refinement

/-!
# Messages one at a time

Between the updates of a message, the server serves other requests, and the other thread of the book
may receive messages of its own. Because of the lock it cannot apply them: the book gets the updates
of whole messages, in the order in which the threads take the lock.
-/

namespace CryptoInfra

/-! ## What the threads have been given -/

/-- The message for the book of a currency which an event hands to a thread. -/
def BackendEvent.messageFor (currency : UInt32) : BackendEvent → Option (Feed × Option Json)
  | .delivered currencyId feed message =>
      if currencyId = currency then some (feed, message) else none
  | _ => none

/-- The messages for the book of a currency, in the order in which their threads take the lock. -/
def messagesFor (currency : UInt32) (history : List BackendEvent) : List (Feed × Option Json) :=
  history.filterMap (BackendEvent.messageFor currency)

theorem messagesFor_append (currency : UInt32) (front rest : List BackendEvent) :
    messagesFor currency (front ++ rest) =
      messagesFor currency front ++ messagesFor currency rest :=
  List.filterMap_append

theorem messagesFor_toList (currency : UInt32) (event : Option BackendEvent) :
    messagesFor currency event.toList =
      (event.bind (BackendEvent.messageFor currency)).toList := by
  cases event with
  | none => rfl
  | some event => cases handed : event.messageFor currency <;> simp [messagesFor, handed]

theorem messagesFor_snoc (currency : UInt32) (history : List BackendEvent) (event : BackendEvent) :
    messagesFor currency (history ++ [event]) =
      messagesFor currency history ++ (event.messageFor currency).toList := by
  rw [messagesFor_append]
  exact congrArg (messagesFor currency history ++ ·) (messagesFor_toList currency (some event))

theorem messagesFor_snoc_of_none {currency : UInt32} {event : BackendEvent}
    (quiet : event.messageFor currency = none) (history : List BackendEvent) :
    messagesFor currency (history ++ [event]) = messagesFor currency history := by
  rw [messagesFor_snoc, quiet, Option.toList_none, List.append_nil]

/-- The updates of messages, one message after the other. -/
def updatesOf (messages : List (Feed × Option Json)) : List (Call ℚ) :=
  messages.flatMap fun message => (message.1.calls message.2).getD []

/-- The updates among the calls which events of the server make on the book of a currency. -/
def appliedTo (currency : UInt32) (events : List (Event ℚ)) : List (Call ℚ) :=
  (events.filterMap (Event.callOn currency)).filter Call.isUpdate

theorem appliedTo_append (currency : UInt32) (front rest : List (Event ℚ)) :
    appliedTo currency (front ++ rest) = appliedTo currency front ++ appliedTo currency rest := by
  rw [appliedTo, List.filterMap_append, List.filter_append, appliedTo, appliedTo]

/-- Requests set no volumes. -/
theorem Request.isUpdate_callOn {Price : Type*} {request : Request} {currency : UInt32}
    {clientSocket : Socket} {call : Call Price}
    (called : request.callOn currency clientSocket = some call) : call.isUpdate = false := by
  cases request with
  | close =>
      obtain rfl := Option.some_inj.mp called
      rfl
  | subscribe currencyName =>
      rw [callOn, Option.ite_none_right_eq_some, Option.some_inj] at called
      obtain ⟨-, rfl⟩ := called
      rfl
  | unsubscribe currencyName =>
      rw [callOn, Option.ite_none_right_eq_some, Option.some_inj] at called
      obtain ⟨-, rfl⟩ := called
      rfl
  | unknown messageType => cases called

theorem isUpdate_of_calls {feed : Feed} {message : Option Json} {calls : List (Call ℚ)}
    (defined : feed.calls message = some calls) : ∀ call ∈ calls, call.isUpdate = true := by
  rw [Feed.calls] at defined
  generalize feed.aggregatedUpdates message = updates at defined
  induction updates generalizing calls with
  | nil =>
      obtain rfl := Option.some_inj.mp defined
      exact fun call member => nomatch member
  | cons update updates induction =>
      rw [List.mapM_cons] at defined
      obtain ⟨call, made, rest⟩ := Option.bind_eq_some_iff.mp defined
      obtain ⟨calls, later, whole⟩ := Option.bind_eq_some_iff.mp rest
      obtain rfl := Option.some_inj.mp whole
      rw [List.forall_mem_cons]
      refine ⟨?_, induction later⟩
      obtain ⟨price, -, priced⟩ := Option.bind_eq_some_iff.mp made
      obtain ⟨volume, -, set⟩ := Option.bind_eq_some_iff.mp priced
      rw [← Option.some_inj.mp set, Call.isUpdate]

namespace Backend

/-- The updates which the threads of a book have in hand. -/
def allInHand (backend : Backend) (currency : UInt32) : List (Call ℚ) :=
  backend.inHand currency .coinbase ++ backend.inHand currency .crypto

theorem allInHand_eq {backend : Backend} {currency : UInt32} {feed : Feed}
    (alone : ∀ other, other ≠ feed → backend.inHand currency other = []) :
    backend.allInHand currency = backend.inHand currency feed := by
  cases feed with
  | coinbase => rw [allInHand, alone .crypto (by decide), List.append_nil]
  | crypto => rw [allInHand, alone .coinbase (by decide), List.nil_append]

theorem inHand_of_moved {backend next : Backend} {currencyId : UInt32} {feed : Feed}
    {worker : Worker} (moved : next.workers = backend.setWorker currencyId feed worker)
    (currency : UInt32) (other : Feed) :
    next.inHand currency other =
      if currency = currencyId ∧ other = feed then worker.updates
      else backend.inHand currency other := by
  rw [inHand, moved, setWorker, inHand]
  by_cases same : currency = currencyId
  · subst same
    by_cases here : other = feed
    · subst here
      simp
    · simp [here]
  · simp [same]

theorem nextServer_of_step {backend next : Backend} {event : BackendEvent}
    {sends : List (Socket × Snapshot ℚ Volume)}
    (stepped : backend.step event = some (next, sends)) :
    backend.nextServer event = some (next.server, sends) ∧
      backend.nextWorkers next.server event = some next.workers := by
  obtain ⟨⟨server, sent⟩, served, rest⟩ := Option.bind_eq_some_iff.mp stepped
  obtain ⟨workers, moved, done⟩ := Option.bind_eq_some_iff.mp rest
  obtain ⟨rfl, rfl⟩ := Prod.mk.inj (Option.some_inj.mp done)
  exact ⟨served, moved⟩

/-! ## What the threads have done -/

/-- The threads of the open books stand where the messages which they have been given, and the
updates which they have applied, leave them. -/
structure Accounts (history : List BackendEvent) (events : List (Event ℚ)) (backend : Backend) :
    Prop where
  /-- Threads are started for open books only. -/
  opened : ∀ currency feed, backend.workers currency feed ≠ none →
    backend.server.core.openOrderbooks currency ≠ none
  /-- A thread runs only if its exchange knows the currency. -/
  named : ∀ currency feed updates, backend.workers currency feed = some (.running updates) →
    feed.getCurrencyName currency ≠ none
  /-- At most one thread of a book holds its lock. -/
  exclusive : ∀ currency feed, backend.inHand currency feed ≠ [] →
    ∀ other, other ≠ feed → backend.inHand currency other = []
  /-- Only updates are in hand. -/
  updates : ∀ currency feed, ∀ call ∈ backend.inHand currency feed, call.isUpdate = true
  /-- Messages are handed out for currencies which their exchange knows, and have finite numbers. -/
  defined : ∀ currency, ∀ message ∈ messagesFor currency history,
    message.1.getCurrencyName currency ≠ none ∧ message.1.calls message.2 ≠ none
  /-- What has been applied, and what is still in hand, are the updates of whole messages. -/
  serialized : ∀ currency, appliedTo currency events ++ backend.allInHand currency =
    updatesOf (messagesFor currency history)

theorem accounts_new : Accounts [] [] new where
  opened _ _ started := absurd rfl started
  named _ _ _ running := nomatch running
  exclusive _ _ held := absurd rfl held
  updates _ _ _ member := nomatch member
  defined _ _ member := nomatch member
  serialized _ := rfl

/-- An event which hands out no message and applies no update leaves what is in hand alone. -/
theorem Accounts.of_quiet {history : List BackendEvent} {events more : List (Event ℚ)}
    {backend next : Backend} {event : BackendEvent} (accounts : Accounts history events backend)
    (opened : ∀ currency feed, next.workers currency feed ≠ none →
      next.server.core.openOrderbooks currency ≠ none)
    (named : ∀ currency feed updates, next.workers currency feed = some (.running updates) →
      feed.getCurrencyName currency ≠ none)
    (inHand : ∀ currency feed, next.inHand currency feed = backend.inHand currency feed)
    (messages : ∀ currency, event.messageFor currency = none)
    (applied : ∀ currency, appliedTo currency more = []) :
    Accounts (history ++ [event]) (events ++ more) next := by
  refine ⟨opened, named, ?_, ?_, ?_, ?_⟩
  · intro currency feed held other different
    rw [inHand] at held ⊢
    exact accounts.exclusive currency feed held other different
  · intro currency feed
    rw [inHand]
    exact accounts.updates currency feed
  · intro currency
    rw [messagesFor_snoc_of_none (messages currency)]
    exact accounts.defined currency
  · intro currency
    rw [messagesFor_snoc_of_none (messages currency), ← accounts.serialized, appliedTo_append,
      applied, List.append_nil, allInHand, inHand, inHand, allInHand]

section Step

variable {history : List BackendEvent} {events : List (Event ℚ)} {backend next : Backend}
  {sends : List (Socket × Snapshot ℚ Volume)}

/-- A thread which moves on keeps the accounts if its new stage is accounted for. -/
theorem opened_setWorker (accounts : Accounts history events backend) {currencyId : UInt32}
    {feed : Feed} {worker : Worker} (started : backend.workers currencyId feed ≠ none)
    (moved : next.workers = backend.setWorker currencyId feed worker)
    (kept : ∀ currency, backend.server.core.openOrderbooks currency ≠ none →
      next.server.core.openOrderbooks currency ≠ none) (currency : UInt32) (other : Feed)
    (some_worker : next.workers currency other ≠ none) :
    next.server.core.openOrderbooks currency ≠ none := by
  apply kept
  by_cases same : currency = currencyId
  · subst same
    exact accounts.opened currency feed started
  · rw [moved, setWorker, Function.update_of_ne same] at some_worker
    exact accounts.opened currency other some_worker

theorem named_setWorker (accounts : Accounts history events backend) {currencyId : UInt32}
    {feed : Feed} {worker : Worker}
    (moved : next.workers = backend.setWorker currencyId feed worker)
    (named : ∀ updates, worker = .running updates → feed.getCurrencyName currencyId ≠ none)
    (currency : UInt32) (other : Feed) (updates : List (Call ℚ))
    (running : next.workers currency other = some (.running updates)) :
    other.getCurrencyName currency ≠ none := by
  rw [moved, setWorker] at running
  by_cases same : currency = currencyId
  · subst same
    rw [Function.update_self] at running
    by_cases here : other = feed
    · subst here
      rw [Function.update_self, Option.some_inj] at running
      exact named updates running
    · rw [Function.update_of_ne here] at running
      exact accounts.named currency other updates running
  · rw [Function.update_of_ne same] at running
    exact accounts.named currency other updates running

/-- A thread which has nothing in hand before and after a move changes nothing in hand. -/
theorem inHand_of_idle {currencyId : UInt32} {feed : Feed} {worker : Worker}
    (moved : next.workers = backend.setWorker currencyId feed worker)
    (before : backend.inHand currencyId feed = []) (after : worker.updates = [])
    (currency : UInt32) (other : Feed) :
    next.inHand currency other = backend.inHand currency other := by
  rw [inHand_of_moved moved]
  split <;> rename_i same
  · rw [same.1, same.2, before, after]
  · rfl

theorem inHand_of_running {currencyId : UInt32} {feed : Feed} {updates : List (Call ℚ)}
    (running : backend.workers currencyId feed = some (.running updates)) :
    backend.inHand currencyId feed = updates := by
  rw [inHand, running, Option.map_some, Option.getD_some, Worker.updates]

/-- An event of the server alone. -/
theorem Accounts.accepted (accounts : Accounts history events backend) {clientSocket : Socket}
    (served : backend.server.step (.accepted clientSocket) = some (next.server, sends))
    (moved : next.workers = backend.workers) :
    Accounts (history ++ [.accepted clientSocket]) (events ++ [.accepted clientSocket]) next := by
  have core : next.server.core = backend.server.core := by
    have outcome := congrArg (fun server => server.core) (Prod.mk.inj (Option.some_inj.mp served)).1
    exact outcome.symm
  apply accounts.of_quiet
  · rw [moved, core]
    exact accounts.opened
  · rw [moved]
    exact accounts.named
  · intro currency feed
    rw [inHand, moved, inHand]
  · exact fun _ => rfl
  · exact fun _ => rfl

/-- A request starts the threads of the book which it opens, and they have nothing in hand. -/
theorem Accounts.received (accounts : Accounts history events backend) {clientSocket : Socket}
    {reception : Reception SocketBuffer}
    (kept : ∀ currency, backend.server.core.openOrderbooks currency ≠ none →
      next.server.core.openOrderbooks currency ≠ none)
    (moved : backend.nextWorkers next.server (.received clientSocket reception) =
      some next.workers) :
    Accounts (history ++ [.received clientSocket reception])
      (events ++ [.received clientSocket reception]) next := by
  have workers : ∀ currency feed, next.workers currency feed =
      if (backend.server.core.openOrderbooks currency).isNone ∧
          (next.server.core.openOrderbooks currency).isSome then some .starting
      else backend.workers currency feed :=
    fun currency feed => congrFun (congrFun (Option.some_inj.mp moved).symm currency) feed
  apply accounts.of_quiet
  · intro currency feed started
    rw [workers] at started
    split at started <;> rename_i fresh
    · exact Option.isSome_iff_ne_none.mp fresh.2
    · exact kept currency (accounts.opened currency feed started)
  · intro currency feed updates running
    rw [workers] at running
    split at running
    · cases running
    · exact accounts.named currency feed updates running
  · intro currency feed
    rw [inHand, inHand, workers]
    split <;> rename_i fresh
    · have unstarted : backend.workers currency feed = none := by
        by_contra started
        exact accounts.opened currency feed started (Option.isNone_iff_eq_none.mp fresh.1)
      rw [unstarted]
      rfl
    · rfl
  · exact fun _ => rfl
  · intro currency
    cases reception with
    | received request =>
        simpa [appliedTo, Event.callOn] using
          fun call called => Request.isUpdate_callOn called
    | failed => rfl
    | disconnected => rfl

/-- A thread which is started registers its exchange and looks its currency up. -/
theorem Accounts.started (accounts : Accounts history events backend) {currencyId : UInt32}
    {feed : Feed} (starting : backend.workers currencyId feed = some .starting)
    (kept : ∀ currency, backend.server.core.openOrderbooks currency ≠ none →
      next.server.core.openOrderbooks currency ≠ none)
    (moved : backend.nextWorkers next.server (.started currencyId feed) = some next.workers) :
    Accounts (history ++ [.started currencyId feed])
      (events ++ [.fed currencyId (.initializeExchange feed.exchangeId)]) next := by
  have workers := (Option.some_inj.mp moved).symm
  apply accounts.of_quiet
  · exact opened_setWorker accounts (by rw [starting]; nofun) workers kept
  · apply named_setWorker accounts workers
    intro updates running
    split at running <;> rename_i known
    · exact Option.isSome_iff_ne_none.mp known
    · cases running
  · apply inHand_of_idle workers
    · rw [inHand, starting]
      rfl
    · split <;> rfl
  · exact fun _ => rfl
  · intro currency
    by_cases same : currencyId = currency <;> simp [appliedTo, Event.callOn, same, Call.isUpdate]

/-- A thread whose connection fails returns between two messages. -/
theorem Accounts.stopped (accounts : Accounts history events backend) {currencyId : UInt32}
    {feed : Feed} (idle : backend.workers currencyId feed = some (.running []))
    (same_server : next.server = backend.server)
    (moved : backend.nextWorkers next.server (.stopped currencyId feed) = some next.workers) :
    Accounts (history ++ [.stopped currencyId feed]) (events ++ []) next := by
  have workers := (Option.some_inj.mp moved).symm
  apply accounts.of_quiet
  · exact opened_setWorker accounts (by rw [idle]; nofun) workers (by rw [same_server]; exact
      fun _ => id)
  · exact named_setWorker accounts workers nofun
  · exact inHand_of_idle workers (inHand_of_running idle) rfl
  · exact fun _ => rfl
  · exact fun _ => rfl

/-- A thread takes the lock with the updates of a message in hand. -/
theorem Accounts.delivered (accounts : Accounts history events backend) {currencyId : UInt32}
    {feed : Feed} {message : Option Json}
    (enabled : backend.Enabled (.delivered currencyId feed message))
    (same_server : next.server = backend.server)
    (moved : backend.nextWorkers next.server (.delivered currencyId feed message) =
      some next.workers) :
    Accounts (history ++ [.delivered currencyId feed message]) (events ++ []) next := by
  obtain ⟨idle, free⟩ := enabled
  obtain ⟨calls, defined, workers⟩ := Option.map_eq_some_iff.mp moved
  have inHand := inHand_of_moved workers.symm
  have known : feed.getCurrencyName currencyId ≠ none := accounts.named currencyId feed [] idle
  refine ⟨?_, ?_, ?_, ?_, ?_, ?_⟩
  · exact opened_setWorker accounts (by rw [idle]; nofun) workers.symm (by rw [same_server]; exact
      fun _ => id)
  · exact named_setWorker accounts workers.symm fun _ _ => known
  · intro currency holder held other different
    rw [inHand] at held ⊢
    by_cases here : currency = currencyId
    · subst here
      by_cases same : other = feed
      · subst same
        rw [if_neg fun equal => different equal.2.symm, free] at held
        exact absurd rfl held
      · rw [if_neg fun equal => same equal.2, free]
    · rw [if_neg fun equal => here equal.1] at held ⊢
      exact accounts.exclusive currency holder held other different
  · intro currency holder call member
    rw [inHand] at member
    split at member
    · exact isUpdate_of_calls defined call member
    · exact accounts.updates currency holder call member
  · intro currency given member
    rw [messagesFor_snoc] at member
    rcases List.mem_append.mp member with earlier | last
    · exact accounts.defined currency given earlier
    · rw [BackendEvent.messageFor, Option.mem_toList, Option.ite_none_right_eq_some,
        Option.some_inj] at last
      obtain ⟨rfl, rfl⟩ := last
      exact ⟨known, by rw [defined]; nofun⟩
  · intro currency
    have before := accounts.serialized currency
    rw [messagesFor_snoc, updatesOf, List.flatMap_append, ← updatesOf, ← before, List.append_nil]
    by_cases here : currencyId = currency
    · subst here
      have alone : ∀ other, other ≠ feed → next.inHand currencyId other = [] := by
        intro other different
        rw [inHand, if_neg fun equal => different equal.2, free]
      rw [allInHand_eq alone, inHand, if_pos ⟨rfl, rfl⟩, allInHand, free, free,
        BackendEvent.messageFor, if_pos rfl]
      simp [defined, Worker.updates]
    · rw [allInHand, inHand, inHand, if_neg fun equal => here equal.1.symm,
        if_neg fun equal => here equal.1.symm, BackendEvent.messageFor, if_neg here]
      simp [allInHand]

/-- A thread which holds the lock applies its next update. -/
theorem Accounts.applied (accounts : Accounts history events backend) {currencyId : UInt32}
    {feed : Feed} {call : Call ℚ} {updates : List (Call ℚ)}
    (held : backend.inHand currencyId feed = call :: updates)
    (kept : ∀ currency, backend.server.core.openOrderbooks currency ≠ none →
      next.server.core.openOrderbooks currency ≠ none)
    (moved : backend.nextWorkers next.server (.applied currencyId feed) = some next.workers) :
    Accounts (history ++ [.applied currencyId feed]) (events ++ [.fed currencyId call]) next := by
  have workers := (Option.some_inj.mp moved).symm
  rw [held, List.tail_cons] at workers
  have inHand := inHand_of_moved workers
  have alone := accounts.exclusive currencyId feed (by rw [held]; nofun)
  have started : ∃ updates, backend.workers currencyId feed = some (.running updates) := by
    rw [Backend.inHand] at held
    cases found : backend.workers currencyId feed with
    | none =>
        rw [found] at held
        cases held
    | some worker =>
        rw [found] at held
        cases worker with
        | running updates => exact ⟨updates, rfl⟩
        | starting => cases held
        | returned => cases held
  obtain ⟨all, running⟩ := started
  refine ⟨?_, ?_, ?_, ?_, ?_, ?_⟩
  · exact opened_setWorker accounts (by rw [running]; nofun) workers kept
  · exact named_setWorker accounts workers fun _ _ => accounts.named currencyId feed all running
  · intro currency holder held_after other different
    rw [inHand] at held_after ⊢
    by_cases here : currency = currencyId
    · subst here
      by_cases same : other = feed
      · subst same
        rw [if_neg fun equal => different equal.2.symm, alone holder (Ne.symm different)]
          at held_after
        exact absurd rfl held_after
      · rw [if_neg fun equal => same equal.2, alone other same]
    · rw [if_neg fun equal => here equal.1] at held_after ⊢
      exact accounts.exclusive currency holder held_after other different
  · intro currency holder other member
    rw [inHand] at member
    split at member
    · exact accounts.updates currencyId feed other (held ▸ List.mem_cons_of_mem call member)
    · exact accounts.updates currency holder other member
  · intro currency
    rw [messagesFor_snoc_of_none rfl]
    exact accounts.defined currency
  · intro currency
    rw [messagesFor_snoc_of_none rfl, ← accounts.serialized, appliedTo_append]
    by_cases here : currencyId = currency
    · subst here
      have update : call.isUpdate = true :=
        accounts.updates currencyId feed call (held ▸ List.mem_cons_self)
      have alone_after : ∀ other, other ≠ feed → next.inHand currencyId other = [] := by
        intro other different
        rw [inHand, if_neg fun equal => different equal.2, alone other different]
      rw [allInHand_eq alone_after, inHand, if_pos ⟨rfl, rfl⟩, allInHand_eq alone, held]
      simp [appliedTo, Event.callOn, update, Worker.updates]
    · rw [allInHand, inHand, inHand, if_neg fun equal => here equal.1.symm,
        if_neg fun equal => here equal.1.symm]
      simp [appliedTo, Event.callOn, here, allInHand]

/-- What an event means to the server is enabled there. -/
theorem Accounts.enabled (accounts : Accounts history events backend) {event : BackendEvent}
    (enabled : backend.Enabled event) {inner : Event ℚ}
    (means : backend.serverEvent event = some inner) : backend.server.Enabled inner := by
  cases event with
  | accepted clientSocket =>
      obtain rfl := Option.some_inj.mp means
      exact enabled
  | received clientSocket reception =>
      obtain rfl := Option.some_inj.mp means
      exact enabled
  | started currencyId feed =>
      obtain rfl := Option.some_inj.mp means
      have starting : backend.workers currencyId feed = some .starting := enabled
      exact ⟨accounts.opened currencyId feed (by rw [starting]; nofun), trivial⟩
  | delivered currencyId feed message => cases means
  | applied currencyId feed =>
      obtain ⟨call, first, rfl⟩ := Option.map_eq_some_iff.mp means
      have member : call ∈ backend.inHand currencyId feed := List.mem_of_head? first
      have update := accounts.updates currencyId feed call member
      refine ⟨accounts.opened currencyId feed fun unstarted => enabled ?_, ?_⟩
      · rw [inHand, unstarted]
        rfl
      · cases call with
        | update here exchangeId price newVolume => trivial
        | initializeExchange exchangeId => trivial
        | addClient clientSocket => cases update
        | removeClient clientSocket => cases update
  | stopped currencyId feed => cases means

/-- Every event is an event of the server or none, and keeps the accounts. -/
theorem Accounts.step (accounts : Accounts history events backend)
    (sound : backend.server.Sound) {event : BackendEvent} (enabled : backend.Enabled event)
    (stepped : backend.step event = some (next, sends)) :
    ∃ more, History.Emits Server.Enabled Server.step backend.server more sends next.server ∧
      Accounts (history ++ [event]) (events ++ more) next := by
  obtain ⟨served, moved⟩ := nextServer_of_step stepped
  have serves : ∀ {inner : Event ℚ}, backend.serverEvent event = some inner →
      History.Emits Server.Enabled Server.step backend.server [inner] sends next.server ∧
        ∀ currency, backend.server.core.openOrderbooks currency ≠ none →
          next.server.core.openOrderbooks currency ≠ none := by
    intro inner means
    rw [nextServer, means] at served
    have possible := accounts.enabled enabled means
    refine ⟨.single possible served, fun currency opened => ?_⟩
    exact ((Server.movesBooks_of_step sound possible served).opened currency).mpr (Or.inl opened)
  cases event with
  | accepted clientSocket =>
      have workers : next.workers = backend.workers := (Option.some_inj.mp moved).symm
      exact ⟨_, (serves rfl).1, accounts.accepted served workers⟩
  | received clientSocket reception =>
      exact ⟨_, (serves rfl).1, accounts.received (serves rfl).2 moved⟩
  | started currencyId feed =>
      exact ⟨_, (serves rfl).1, accounts.started enabled (serves rfl).2 moved⟩
  | delivered currencyId feed message =>
      obtain ⟨same, rfl⟩ := Prod.mk.inj (Option.some_inj.mp served)
      exact ⟨[], same ▸ .start, accounts.delivered enabled same.symm moved⟩
  | applied currencyId feed =>
      obtain ⟨call, updates, held⟩ := List.exists_cons_of_ne_nil enabled
      have means : backend.serverEvent (.applied currencyId feed) =
          some (.fed currencyId call) := by
        rw [serverEvent, held, List.head?_cons, Option.map_some]
      exact ⟨_, (serves means).1, accounts.applied held (serves means).2 moved⟩
  | stopped currencyId feed =>
      obtain ⟨same, rfl⟩ := Prod.mk.inj (Option.some_inj.mp served)
      exact ⟨[], same ▸ .start, accounts.stopped enabled same.symm moved⟩

end Step

/-- Every history of the server and its threads is one of the server, with the same snapshots, and
the threads stand where its events leave them. -/
theorem exists_accounts {history : List BackendEvent}
    {sends : List (Socket × Snapshot ℚ Volume)} {backend : Backend}
    (run : Sends history sends backend) :
    ∃ events, Server.Sends events sends backend.server ∧ Accounts history events backend := by
  apply run.simulate (fun backend => backend.server) Accounts accounts_new
  intro history outputs backend event next sends events _ inner accounts enabled stepped
  exact accounts.step (Server.sound_of_sends inner) enabled stepped

/-- An enabled event is handled, unless it is a message without finite numbers. -/
theorem exists_step {history : List BackendEvent} {sends : List (Socket × Snapshot ℚ Volume)}
    {backend : Backend} (run : Sends history sends backend) {event : BackendEvent}
    (enabled : backend.Enabled event)
    (defined : ∀ currencyId feed message, event = .delivered currencyId feed message →
      feed.calls message ≠ none) :
    ∃ next emitted, backend.step event = some (next, emitted) := by
  obtain ⟨events, inner, accounts⟩ := exists_accounts run
  obtain ⟨server, emitted, served⟩ : ∃ server emitted,
      backend.nextServer event = some (server, emitted) := by
    rw [nextServer]
    cases means : backend.serverEvent event with
    | none => exact ⟨_, _, rfl⟩
    | some serverEvent =>
        obtain ⟨outcome, stepped, -⟩ := Server.step_spec
          (Server.sound_of_sends inner).serviceable (accounts.enabled enabled means)
        exact ⟨_, _, stepped⟩
  obtain ⟨workers, moved⟩ : ∃ workers, backend.nextWorkers server event = some workers := by
    cases event with
    | delivered currencyId feed message =>
        obtain ⟨calls, made⟩ := Option.ne_none_iff_exists'.mp (defined _ _ _ rfl)
        exact ⟨_, by rw [nextWorkers, made, Option.map_some]⟩
    | accepted clientSocket => exact ⟨_, rfl⟩
    | received clientSocket reception => exact ⟨_, rfl⟩
    | started currencyId feed => exact ⟨_, rfl⟩
    | applied currencyId feed => exact ⟨_, rfl⟩
    | stopped currencyId feed => exact ⟨_, rfl⟩
  exact ⟨{ server, workers }, emitted, by simp [step, served, moved]⟩

/-- The thread which holds the lock of a book can finish its message. -/
theorem exists_finished {history : List BackendEvent}
    {sends : List (Socket × Snapshot ℚ Volume)} {backend : Backend}
    (run : Sends history sends backend) {currency : UInt32} {feed : Feed}
    {calls : List (Call ℚ)} (held : backend.inHand currency feed = calls)
    (alone : ∀ other, other ≠ feed → backend.inHand currency other = []) :
    ∃ emitted next,
      History.Emits Enabled step backend (List.replicate calls.length (.applied currency feed))
          emitted next ∧
        ∀ other, next.inHand currency other = [] := by
  induction calls generalizing history sends backend with
  | nil =>
      refine ⟨[], backend, .start, fun other => ?_⟩
      by_cases same : other = feed
      · rw [same, held]
      · exact alone other same
  | cons call calls induction =>
      have possible : backend.Enabled (.applied currency feed) := by
        rw [Enabled, held]
        nofun
      obtain ⟨next, emitted, stepped⟩ := exists_step run possible nofun
      have moved := (nextServer_of_step stepped).2
      rw [nextWorkers, held, List.tail_cons, Option.some_inj] at moved
      obtain ⟨later, final, finished, idle⟩ := induction (run.step possible stepped)
        (by rw [inHand_of_moved moved.symm, if_pos ⟨rfl, rfl⟩, Worker.updates])
        (fun other different => by
          rw [inHand_of_moved moved.symm, if_neg fun same => different same.2,
            alone other different])
      exact ⟨emitted ++ later, final, (History.Emits.single possible stepped).append finished, idle⟩

/-- Some thread of a book can finish what is in hand, after which nobody holds the lock. -/
theorem exists_unlocked {history : List BackendEvent} {sends : List (Socket × Snapshot ℚ Volume)}
    {backend : Backend} (run : Sends history sends backend) (currency : UInt32) :
    ∃ feed emitted next,
      History.Emits Enabled step backend
          (List.replicate (backend.allInHand currency).length (.applied currency feed)) emitted
            next ∧
        next.allInHand currency = [] := by
  obtain ⟨events, inner, accounts⟩ := exists_accounts run
  obtain ⟨feed, alone⟩ : ∃ feed, ∀ other, other ≠ feed → backend.inHand currency other = [] := by
    by_cases held : backend.inHand currency .coinbase = []
    · refine ⟨.crypto, fun other different => ?_⟩
      cases other with
      | coinbase => exact held
      | crypto => exact absurd rfl different
    · exact ⟨.coinbase, accounts.exclusive currency .coinbase held⟩
  obtain ⟨emitted, next, finished, idle⟩ := exists_finished run rfl alone
  refine ⟨feed, emitted, next, by rwa [allInHand_eq alone], ?_⟩
  rw [allInHand, idle, idle, List.append_nil]

/-- A client opens a book, both threads of the book connect, and one of them takes a message. -/
def handedHistory : List BackendEvent :=
  [.accepted 4, .received 4 (.received (ClientRequest.subscribe 1 1).buffer), .started 1 .coinbase,
    .started 1 .crypto, .delivered 1 .coinbase bidMessage]

theorem exists_sends_handedHistory :
    ∃ sends backend, Sends handedHistory sends backend ∧
      (backend.inHand 1 .coinbase).length = 1 := by
  have executed : ∃ outcome ∈ History.execute Enabled step new handedHistory,
      (outcome.2.inHand 1 .coinbase).length = 1 := by
    decide +kernel
  obtain ⟨⟨sends, backend⟩, ran, length⟩ := executed
  exact ⟨sends, backend, History.emits_of_execute ran, length⟩

end Backend

/-! ## Whole messages -/

namespace Feed

/-- Messages whose updates have finite numbers are handled by applying these in order. -/
theorem handleMessages_eq {messages : List (Feed × Option Json)}
    (defined : ∀ message ∈ messages, message.1.calls message.2 ≠ none) (book : Orderbook ℚ) :
    handleMessages messages book =
      some (History.run Orderbook.step book (updatesOf messages)) := by
  induction messages generalizing book with
  | nil => rfl
  | cons message messages induction =>
      obtain ⟨feed, document⟩ := message
      obtain ⟨first, later⟩ := List.forall_mem_cons.mp defined
      obtain ⟨calls, made⟩ := Option.ne_none_iff_exists'.mp first
      have handled : feed.handleMessage document book =
          some (History.run Orderbook.step book calls) := by
        change (feed.calls document).bind _ = _
        rw [made]
        rfl
      rw [updatesOf, List.flatMap_cons, made, Option.getD_some, ← updatesOf,
        History.run_append, handleMessages, handled]
      simp [induction later]

end Feed

theorem sameLevels_sharedBook (currencyId : UInt32) (here : Side) :
    ((Orderbook.new currencyId : Orderbook ℚ).side here).SameLevels
      ((Feed.sharedBook currencyId).side here) := by
  have nothing : ∀ exchangeId price, volumeAt ((Feed.sharedBook currencyId).side here).exchanges
      exchangeId price = 0 := by
    intro exchangeId price
    rw [← Orderbook.getExchangeVolume_eq, getExchangeVolume_sharedBook]
  refine ⟨by cases here <;> rfl, fun exchangeId price => ?_⟩
  rw [nothing]
  cases here <;> simp [Orderbook.side, Orderbook.new, volumeAt]

namespace Backend

/-- At any moment at most one thread of a book is in the middle of a message. What has been applied
to the book, followed by what this thread has in hand, are the updates of the messages in the order
in which their threads took the lock, and the levels of the book are those which the applied updates
make. Between messages they are what the handlers make of these messages one at a time. -/
theorem messages_are_serialized (history : List BackendEvent)
    (sends : List (Socket × Snapshot ℚ Volume)) (backend : Backend)
    (run : Sends history sends backend) (currency : UInt32) :
    (∀ feed, backend.inHand currency feed ≠ [] →
        ∀ other, other ≠ feed → backend.inHand currency other = []) ∧
      (∃ applied, applied ++ backend.allInHand currency =
          updatesOf (messagesFor currency history) ∧
        ∀ here, ((backend.server.book currency).side here).SameLevels
          ((History.run Orderbook.step (Feed.sharedBook currency) applied).1.side here)) ∧
      (backend.allInHand currency = [] → ∃ after sent,
        Feed.handleMessages (messagesFor currency history) (Feed.sharedBook currency) =
            some (after, sent) ∧
          ∀ here, ((backend.server.book currency).side here).SameLevels (after.side here)) := by
  obtain ⟨events, inner, accounts⟩ := exists_accounts run
  have levels : ∀ here, ((backend.server.book currency).side here).SameLevels
      ((History.run Orderbook.step (Feed.sharedBook currency)
        (appliedTo currency events)).1.side here) := by
    intro here
    rw [Server.book_eq inner]
    exact Orderbook.sameLevels_run_filter currency _ here (sameLevels_sharedBook currency here)
  refine ⟨accounts.exclusive currency, ⟨_, accounts.serialized currency, levels⟩, ?_⟩
  intro unlocked
  have whole := accounts.serialized currency
  rw [unlocked, List.append_nil] at whole
  refine ⟨_, _, Feed.handleMessages_eq (fun message member =>
    (accounts.defined currency message member).2) _, ?_⟩
  rwa [← whole]

/-- While one thread is in the middle of its message, the other one has nothing in hand. -/
theorem messages_are_serialized_handedHistory :
    ∃ sends backend, Sends handedHistory sends backend ∧ backend.inHand 1 .coinbase ≠ [] ∧
      backend.inHand 1 .crypto = [] := by
  obtain ⟨sends, backend, run, length⟩ := exists_sends_handedHistory
  have held : backend.inHand 1 .coinbase ≠ [] := List.ne_nil_of_length_eq_add_one length
  exact ⟨sends, backend, run, held,
    (messages_are_serialized handedHistory sends backend run 1).1 .coinbase held .crypto
      (by decide)⟩

end Backend

end CryptoInfra
