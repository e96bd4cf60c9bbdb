import CryptoInfra.Core.Books
import CryptoInfra.Websockets.Basic

/-!
# The server and its feeds

A subscription which opens a book starts two threads, one for each exchange. A thread registers its
exchange, returns if the exchange does not know the currency, and otherwise handles message after
message until its connection fails. It applies the updates of a message one by one while it holds
the lock of the book, which the other thread of the book then waits for. The threads of the client
connections do not take the lock.
-/

namespace CryptoInfra

deriving instance DecidableEq for Call

/-- Where the thread of a connection to an exchange stands. -/
inductive Worker where
  | starting
  | running (updates : List (Call ℚ))
  | returned
  deriving DecidableEq

/-- The updates of its message which a thread has yet to apply. -/
def Worker.updates : Worker → List (Call ℚ)
  | running updates => updates
  | _ => []

/-- The server and the threads of its connections to the exchanges. -/
structure Backend where
  /-- The server. -/
  server : Server ℚ
  /-- The threads which have been started for the book of a currency. -/
  workers : UInt32 → Feed → Option Worker

/-- What happens to the server or to one of its threads. -/
inductive BackendEvent where
  | accepted (clientSocket : Socket)
  | received (clientSocket : Socket) (reception : Reception SocketBuffer)
  | started (currencyId : UInt32) (feed : Feed)
  | delivered (currencyId : UInt32) (feed : Feed) (message : Option Json)
  | applied (currencyId : UInt32) (feed : Feed)
  | stopped (currencyId : UInt32) (feed : Feed)

/-- The calls on the book for the updates of a message, in order. -/
def Feed.calls (feed : Feed) (message : Option Json) : Option (List (Call ℚ)) :=
  (feed.aggregatedUpdates message).mapM feed.call

namespace Backend

/-- A server without connections and threads. -/
def new : Backend where
  server := Server.new
  workers _ _ := none

/-- The updates which the thread of a feed has in hand. It holds the lock of the book while there
are any. -/
def inHand (backend : Backend) (currencyId : UInt32) (feed : Feed) : List (Call ℚ) :=
  ((backend.workers currencyId feed).map Worker.updates).getD []

/-- Move one thread on. -/
def setWorker (backend : Backend) (currencyId : UInt32) (feed : Feed) (worker : Worker) :
    UInt32 → Feed → Option Worker :=
  Function.update backend.workers currencyId
    (Function.update (backend.workers currencyId) feed (some worker))

/-- A thread handles a message once it has handled the last one and nobody holds the lock; it leaves
the message loop between two messages. -/
def Enabled (backend : Backend) : BackendEvent → Prop
  | .accepted clientSocket => clientSocket ∉ backend.server.connections
  | .received clientSocket _ => clientSocket ∈ backend.server.connections
  | .started currencyId feed => backend.workers currencyId feed = some .starting
  | .delivered currencyId feed _ => backend.workers currencyId feed = some (.running []) ∧
      ∀ other, backend.inHand currencyId other = []
  | .applied currencyId feed => backend.inHand currencyId feed ≠ []
  | .stopped currencyId feed => backend.workers currencyId feed = some (.running [])

theorem forall_feed_iff {property : Feed → Prop} :
    (∀ feed, property feed) ↔ property .coinbase ∧ property .crypto := by
  constructor
  · exact fun all => ⟨all .coinbase, all .crypto⟩
  · rintro ⟨coinbase, crypto⟩ feed
    cases feed with
    | coinbase => exact coinbase
    | crypto => exact crypto

instance (backend : Backend) (event : BackendEvent) : Decidable (backend.Enabled event) :=
  match event with
  | .accepted clientSocket =>
      inferInstanceAs (Decidable (clientSocket ∉ backend.server.connections))
  | .received clientSocket _ =>
      inferInstanceAs (Decidable (clientSocket ∈ backend.server.connections))
  | .started currencyId feed =>
      inferInstanceAs (Decidable (backend.workers currencyId feed = some .starting))
  | .delivered currencyId feed _ =>
      have : Decidable (∀ other, backend.inHand currencyId other = []) :=
        decidable_of_iff _ forall_feed_iff.symm
      inferInstanceAs (Decidable (backend.workers currencyId feed = some (.running []) ∧
        ∀ other, backend.inHand currencyId other = []))
  | .applied currencyId feed => inferInstanceAs (Decidable (backend.inHand currencyId feed ≠ []))
  | .stopped currencyId feed =>
      inferInstanceAs (Decidable (backend.workers currencyId feed = some (.running [])))

/-- What an event means to the server. -/
def serverEvent (backend : Backend) : BackendEvent → Option (Event ℚ)
  | .accepted clientSocket => some (.accepted clientSocket)
  | .received clientSocket reception => some (.received clientSocket reception)
  | .started currencyId feed => some (.fed currencyId (.initializeExchange feed.exchangeId))
  | .delivered _ _ _ => none
  | .applied currencyId feed => (backend.inHand currencyId feed).head?.map (.fed currencyId)
  | .stopped _ _ => none

/-- The server after an event, with the snapshots it sends. -/
def nextServer (backend : Backend) (event : BackendEvent) :
    Option (Server ℚ × List (Socket × Snapshot ℚ Volume)) :=
  match backend.serverEvent event with
  | some event => backend.server.step event
  | none => some (backend.server, [])

/-- The threads after an event which leaves a server. A request which opens a book starts both
threads of the book. -/
def nextWorkers (backend : Backend) (server : Server ℚ) :
    BackendEvent → Option (UInt32 → Feed → Option Worker)
  | .accepted _ => some backend.workers
  | .received _ _ => some fun currencyId feed =>
      if (backend.server.core.openOrderbooks currencyId).isNone ∧
          (server.core.openOrderbooks currencyId).isSome then
        some .starting
      else
        backend.workers currencyId feed
  | .started currencyId feed => some <| backend.setWorker currencyId feed
      (if (feed.getCurrencyName currencyId).isSome then .running [] else .returned)
  | .delivered currencyId feed message =>
      (feed.calls message).map fun calls => backend.setWorker currencyId feed (.running calls)
  | .applied currencyId feed => some <| backend.setWorker currencyId feed
      (.running (backend.inHand currencyId feed).tail)
  | .stopped currencyId feed => some <| backend.setWorker currencyId feed .returned

/-- Handle one event, with the snapshots it sends. -/
def step (backend : Backend) (event : BackendEvent) :
    Option (Backend × List (Socket × Snapshot ℚ Volume)) := do
  let (server, sends) ← backend.nextServer event
  let workers ← backend.nextWorkers server event
  return ({ server, workers }, sends)

/-- Histories of the server and its threads, with the snapshots they send. -/
abbrev Sends :
    List BackendEvent → List (Socket × Snapshot ℚ Volume) → Backend → Prop :=
  History.Emits Enabled step new

end Backend

end CryptoInfra
