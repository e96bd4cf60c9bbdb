import CryptoInfra.System.Agreement
import CryptoInfra.System.Delivery

/-!
# From the exchanges to the program

A program which never withdraws from a currency stays listed once it has been sent something, so the
last snapshot on its connection shows the current best levels whenever both sides of the book are
nonempty. Once nothing is on its way to the program, this is what it parses, and while no thread is
in the middle of a message it is the best of what both exchanges quoted last.
-/

namespace CryptoInfra

/-! ## The last snapshot for a currency -/

theorem latest_about_sentTo (clientSocket : Socket) (currency : UInt32)
    (sends : List (Socket × Snapshot ℚ Volume)) :
    History.latest (Snapshot.about currency) (sends.filterMap (Orderbook.sentTo clientSocket)) =
      History.latest (Orderbook.sentTo clientSocket) (Server.sendsFor currency sends) := by
  have same : (fun sent => (Orderbook.sentTo clientSocket sent).bind (Snapshot.about currency)) =
      fun sent : Socket × Snapshot ℚ Volume =>
        if sent.2.currencyId = currency then Orderbook.sentTo clientSocket sent else none := by
    funext sent
    by_cases here : sent.1 = clientSocket <;> by_cases about : sent.2.currencyId = currency <;>
      simp [Orderbook.sentTo, Snapshot.about, here, about]
  rw [History.latest, List.filterMap_filterMap, same, History.latest, Server.sendsFor,
    List.filterMap_filter]
  simp only [decide_eq_true_eq]

namespace Server

/-- A socket which was sent anything is listed, and was sent the best levels last. -/
def Fresh (server : Server ℚ) (clientSocket : Socket) (currency : UInt32)
    (last : Option (Snapshot ℚ Volume)) : Prop :=
  last ≠ none → clientSocket ∈ server.core.clientSendList currency ∧
    (server.book currency).UpToDate last

/-- A socket which does not withdraw stays listed. -/
theorem Executes.stays_listed {event : Option (Event ℚ)} {server next : Server ℚ}
    {sends : List (Socket × Snapshot ℚ Volume)} (executes : Executes event server next sends)
    (sound : server.Sound) {clientSocket : Socket} {currency : UInt32}
    (stays : switchOf clientSocket currency event ≠ some false)
    (listed : clientSocket ∈ server.core.clientSendList currency) :
    clientSocket ∈ next.core.clientSendList currency := by
  have decided := executes.decide_listed sound clientSocket currency
  rw [decide_eq_true listed] at decided
  apply of_decide_eq_true
  rw [decided]
  cases switched : switchOf clientSocket currency event with
  | none => rfl
  | some on =>
      cases on with
      | true => rfl
      | false => exact absurd switched stays

/-- A socket which does not withdraw stays up to date. -/
theorem Executes.fresh {event : Option (Event ℚ)} {server next : Server ℚ}
    {sends : List (Socket × Snapshot ℚ Volume)} (executes : Executes event server next sends)
    (sound : server.Sound) {clientSocket : Socket} {currency : UInt32}
    (stays : switchOf clientSocket currency event ≠ some false)
    {last : Option (Snapshot ℚ Volume)} (fresh : server.Fresh clientSocket currency last) :
    next.Fresh clientSocket currency
      ((History.latest (Orderbook.sentTo clientSocket) (sendsFor currency sends)).or last) := by
  have kept := executes.stays_listed sound stays
  cases executes with
  | nothing => exact fresh
  | @event event _ _ _ moves follows =>
      cases called : event.callOn currency with
      | none =>
          obtain ⟨book, nothing⟩ := moves.unmoved called
          rw [nothing, History.latest_nil, Option.none_or]
          intro some_sent
          obtain ⟨before, upToDate⟩ := fresh some_sent
          exact ⟨kept before, book ▸ upToDate⟩
      | some call =>
          have stepped := moves.stepped called
          have book : ((server.book currency).step call).1 = next.book currency := by rw [stepped]
          have sent : ((server.book currency).step call).2 = sendsFor currency sends := by
            rw [stepped]
          have still : clientSocket ∈ server.core.clientSendList currency →
              clientSocket ∈ ((server.book currency).step call).1.clientSendList := by
            rw [book, clientSendList_book]
            exact kept
          rw [← sent, Fresh, ← book]
          intro some_sent
          cases now : History.latest (Orderbook.sentTo clientSocket)
              ((server.book currency).step call).2 with
          | none =>
              rw [now, Option.none_or] at some_sent
              obtain ⟨before, upToDate⟩ := fresh some_sent
              have after := upToDate.step (still before)
              rw [now] at after
              exact ⟨kept before, after⟩
          | some snapshot =>
              obtain ⟨⟨recipient, content⟩, member, selected⟩ := History.exists_of_latest now
              rw [Orderbook.sentTo, Option.ite_none_right_eq_some] at selected
              obtain ⟨rfl, -⟩ := selected
              have before := Orderbook.recipient_listed member
              rw [clientSendList_book] at before
              exact ⟨kept before, Orderbook.upToDate_of_sent (still before) now⟩

end Server

/-! ## A program which never withdraws -/

/-- If anything was sent for a currency, the connection is listed and was sent its best levels
last. -/
def Session.Current (session : Session) (server : Server ℚ) (currency : UInt32) : Prop :=
  server.Fresh session.clientSocket currency
    (History.latest (Snapshot.about currency) session.sent)

namespace Session

variable {session next : Session} {server after : Server ℚ} {event : WorldEvent}
  {executed : Option (Event ℚ)} {sends : List (Socket × Snapshot ℚ Volume)}

/-- What is delivered is what the server sends last. -/
theorem latest_deliver (session : Session) (connected : session.connected = true)
    (encode : ℚ → UInt64) (currency : UInt32) (sends : List (Socket × Snapshot ℚ Volume)) :
    History.latest (Snapshot.about currency) (session.deliver encode sends).sent =
      (History.latest (Orderbook.sentTo session.clientSocket)
        (Server.sendsFor currency sends)).or
          (History.latest (Snapshot.about currency) session.sent) := by
  rw [deliver, if_pos connected, History.latest_append, latest_about_sentTo]

/-- A new connection is current. -/
theorem current_accepted {clientSocket : Socket}
    (executes : Server.Executes (some (.accepted clientSocket)) server after sends)
    (sound : server.Sound) (socketBuffer : SocketBuffer) (currency : UInt32)
    (encode : ℚ → UInt64) :
    ((accepted clientSocket socketBuffer).deliver encode sends).Current after currency := by
  have fresh : server.Fresh clientSocket currency none := fun sent => absurd rfl sent
  rw [Current, latest_deliver _ rfl, (sameEnd_deliver encode sends _).1]
  exact executes.fresh sound nofun fresh

/-- A connection which goes on and does not withdraw stays current. -/
theorem Continues.current (continues : session.Continues next event executed)
    (connected : next.connected = true) (executes : Server.Executes executed server after sends)
    (sound : server.Sound) {currency : UInt32}
    (stays : Server.switchOf session.clientSocket currency executed ≠ some false)
    (current : session.Current server currency) (encode : ℚ → UInt64) :
    (next.deliver encode sends).Current after currency := by
  rw [Current, latest_deliver next connected, (next.sameEnd_deliver encode sends).1,
    continues.clientSocket, continues.sent]
  exact executes.fresh sound stays current

end Session

namespace World

variable {encode : ℚ → UInt64}

/-- As long as the program does not withdraw from a currency, its connection is current. -/
theorem current_of_run {history : List WorldEvent} {sends : List (Socket × Snapshot ℚ Volume)}
    {world : World} (run : Sends encode history sends world) (currency : UInt32) :
    (∀ event ∈ history, event.Aligned ∧ event.switch currency ≠ some false) →
      ∀ session ∈ world.session, session.connected = true →
        session.Current world.backend.server currency := by
  apply run.invariant fun history _ world =>
    (∀ event ∈ history, event.Aligned ∧ event.switch currency ≠ some false) →
      ∀ session ∈ world.session, session.connected = true →
        session.Current world.backend.server currency
  · exact fun _ session found => nomatch found
  · intro history sends world event next emitted run induction enabled stepped stays session found
      connected
    have calls : ∀ event : WorldEvent, event.Aligned ∧ event.switch currency ≠ some false →
        event.Aligned ∧ ∀ request, event.call = some request →
          request.request.switch currency ≠ some false := by
      rintro event ⟨aligned, stays⟩
      refine ⟨aligned, fun request call => ?_⟩
      rwa [WorldEvent.switch, call, Option.bind_some] at stays
    obtain ⟨earlier, last⟩ := List.forall_mem_append.mp stays
    obtain ⟨aligned, stays⟩ := calls event (last event (List.mem_singleton_self _))
    obtain ⟨executes, connection⟩ := spec_of_step run enabled stepped
    rw [connection] at found
    obtain ⟨moved, made, rfl⟩ := Option.map_eq_some_iff.mp found
    rw [(moved.sameEnd_deliver encode emitted).2] at connected
    rcases nextSession_cases enabled made connected with
      ⟨clientSocket, socketBuffer, rfl, rfl⟩ | ⟨before, was, continues⟩
    · exact Session.current_accepted executes (sound_of_run run) socketBuffer currency encode
    · have requested := requested_of_run run (fun request => request.switch currency ≠ some false)
        (fun event member => calls event (earlier event member)) before was continues.connected
      exact continues.current connected executes (sound_of_run run)
        (Server.switchOf_ne (continues.exchanges.requested aligned stays requested).1)
        (induction earlier before was continues.connected) encode

/-- Once nothing is on its way to the program, what it parses for a currency is nothing, or the last
snapshot on its connection for the currency. -/
theorem parse_of_drained {history : List WorldEvent} {sends : List (Socket × Snapshot ℚ Volume)}
    {world : World} (run : SendsWhile Undisturbed encode history sends world) {session : Session}
    (found : world.session = some session) (drained : session.client.undelivered = [])
    (currency : UInt32) :
    parse session.client.listener.data currency.toNat = .nothing ∨
      ∃ snapshot, History.latest (Snapshot.about currency) session.sent = some snapshot ∧
        parse session.client.listener.data currency.toNat =
          .values (snapshot.encoded encode).marketData := by
  obtain ⟨received, awaited, split, awaits, stored⟩ := inOrder_of_run run session found
  have all : session.sent = received := by
    rw [split, List.map_eq_nil_iff.mp (awaits.nothing drained), List.append_nil]
  rcases parse_of_received stored currency.toNat with nothing | ⟨snapshot, named, last, parsed⟩
  · exact Or.inl nothing
  · have same : snapshot.currencyId = currency := UInt32.toNat_inj.mp (Int.natCast_inj.mp named)
    rw [same] at last
    exact Or.inr ⟨snapshot, all ▸ last, parsed⟩

theorem parse_of_current {history : List WorldEvent} {sends : List (Socket × Snapshot ℚ Volume)}
    {world : World} (run : SendsWhile Undisturbed encode history sends world) {session : Session}
    (found : world.session = some session) (drained : session.client.undelivered = [])
    {currency : UInt32} (current : session.Current world.backend.server currency)
    {snapshot : Snapshot ℚ Volume}
    (best : (world.backend.server.book currency).topOfBook = some snapshot) :
    parse session.client.listener.data currency.toNat = .nothing ∨
      parse session.client.listener.data currency.toNat =
        .values (snapshot.encoded encode).marketData := by
  rcases parse_of_drained run found drained currency with nothing | ⟨shown, last, parsed⟩
  · exact Or.inl nothing
  · obtain ⟨-, upToDate⟩ := current (by rw [last]; nofun)
    obtain ⟨-, same⟩ := upToDate snapshot best
    rw [last, Option.some_inj] at same
    exact Or.inr (same ▸ parsed)

/-- In every history in which no call of its listener is cut short and each receiving call for its
connection returns whole requests, a program which never withdraws from a currency, and whose
connection the server has not closed, parses for the currency nothing or the best levels of the
book, once nothing is on its way to it and if both sides of the book are nonempty. -/
theorem parse_is_never_outdated (encode : ℚ → UInt64) (history : List WorldEvent)
    (sends : List (Socket × Snapshot ℚ Volume)) (world : World)
    (run : SendsWhile Undisturbed encode history sends world) (currency : UInt32)
    (stays : ∀ event ∈ history, event.Aligned ∧ event.switch currency ≠ some false)
    (session : Session) (found : world.session = some session)
    (connected : session.connected = true) (drained : session.client.undelivered = [])
    (snapshot : Snapshot ℚ Volume)
    (best : (world.backend.server.book currency).topOfBook = some snapshot) :
    parse session.client.listener.data currency.toNat = .nothing ∨
      parse session.client.listener.data currency.toNat =
        .values (snapshot.encoded encode).marketData :=
  parse_of_current run found drained
    (current_of_run run.sends currency stays session found connected) best

theorem stays_listenedHistory :
    ∀ event ∈ listenedHistory, event.Aligned ∧ event.switch 1 ≠ some false := by
  have switches : ∀ event ∈ listenedHistory, event.switch 1 ≠ some false := by decide +kernel
  have aligned : ∀ event ∈ listenedHistory, event.Aligned := by
    simp only [listenedHistory, List.forall_mem_cons]
    exact ⟨trivial, trivial, ⟨.subscribe 1 1, [], rfl⟩, trivial, trivial, trivial, trivial,
      trivial, trivial, trivial, trivial, trivial, nofun⟩
  exact fun event member => ⟨aligned event member, switches event member⟩

theorem parse_is_never_outdated_listenedHistory :
    ∃ sends world session, SendsWhile Undisturbed listenedPattern listenedHistory sends world ∧
      world.session = some session ∧ parse session.client.listener.data 1 =
        .values (Backend.quotedSnapshot.encoded listenedPattern).marketData := by
  obtain ⟨sends, world, run, session, found, connected, -, drained, parsed, -, best⟩ :=
    exists_sends_listenedHistory
  refine ⟨sends, world, session, run, found, ?_⟩
  refine (parse_is_never_outdated listenedPattern listenedHistory sends world run 1
    stays_listenedHistory session found connected drained Backend.quotedSnapshot best).resolve_left
      fun nothing => ?_
  cases nothing.symm.trans parsed

/-- In every history in which no call of its listener is cut short and each receiving call for its
connection returns whole requests, consider a program which never withdraws from a currency and
whose connection the server has not closed. As long as the exchanges never make more prices live for
the currency than a side may hold, the program parses for the currency nothing or the best of what
both exchanges quoted last, once nothing is on its way to it and no thread of the book is in the
middle of a message, and if both sides are quoted with volume. -/
theorem best_quotes_reach_the_program (encode : ℚ → UInt64) (history : List WorldEvent)
    (sends : List (Socket × Snapshot ℚ Volume)) (world : World)
    (run : SendsWhile Undisturbed encode history sends world) (currency : UInt32)
    (stays : ∀ event ∈ history, event.Aligned ∧ event.switch currency ≠ some false)
    (deliveries : List Delivery)
    (handed : messagesFor currency (history.filterMap WorldEvent.beyond) =
      deliveries.map fun delivery => (delivery.feed, delivery.message))
    (carried : ∀ delivery ∈ deliveries, Carries delivery.feed delivery.message delivery.quotes)
    (few : ∀ front, front <+: updatesOf (messagesFor currency
      (history.filterMap WorldEvent.beyond)) → FewLive front) (session : Session)
    (found : world.session = some session) (connected : session.connected = true)
    (drained : session.client.undelivered = []) (unlocked : world.backend.allInHand currency = [])
    (snapshot : Snapshot ℚ Volume) (shown : snapshot.currencyId = currency)
    (shows : ShowsQuotes deliveries snapshot) :
    parse session.client.listener.data currency.toNat = .nothing ∨
      parse session.client.listener.data currency.toNat =
        .values (snapshot.encoded encode).marketData := by
  obtain ⟨events, inner, -, messages⟩ := exists_backend run.sends
  obtain ⟨calls, updates, book⟩ :=
    Backend.exists_updates inner ((messages currency).trans handed) unlocked
  have best := (topOfBook_run_iff_showsQuotes carried updates (handed ▸ few) snapshot).mpr
    ⟨shown, shows⟩
  rw [← book] at best
  exact parse_of_current run found drained
    (current_of_run run.sends currency stays session found connected) best

theorem best_quotes_reach_the_program_listenedHistory :
    ∃ sends world session, SendsWhile Undisturbed listenedPattern listenedHistory sends world ∧
      world.session = some session ∧ ShowsQuotes oneQuoteEach Backend.quotedSnapshot ∧
        parse session.client.listener.data 1 =
          .values (Backend.quotedSnapshot.encoded listenedPattern).marketData := by
  obtain ⟨sends, world, run, session, found, connected, -, drained, parsed, unlocked, -⟩ :=
    exists_sends_listenedHistory
  refine ⟨sends, world, session, run, found, Backend.showsQuotes_oneQuoteEach, ?_⟩
  refine (best_quotes_reach_the_program listenedPattern listenedHistory sends world run 1
    stays_listenedHistory oneQuoteEach rfl carries_oneQuoteEach Backend.fewLive_oneQuoteEach session
    found connected drained unlocked Backend.quotedSnapshot rfl
    Backend.showsQuotes_oneQuoteEach).resolve_left
      fun nothing => ?_
  cases nothing.symm.trans parsed

end World

end CryptoInfra
