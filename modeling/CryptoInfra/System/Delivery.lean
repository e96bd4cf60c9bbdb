import CryptoInfra.System.Quotes
import CryptoInfra.System.World

/-!
# What the program receives

While every call of the listener returns all bytes it asks for, the program receives the snapshots
which the server sends to it one by one, in order and without gaps, and stores for every currency
the last one it has received or, after it has subscribed again, nothing.
-/

namespace CryptoInfra

/-- Snapshots which are sent later are awaited after all others. -/
theorem Client.Awaits.append {client : Client} {awaited : List (Snapshot UInt64 UInt64)}
    (awaits : client.Awaits awaited) (more : List (Snapshot UInt64 UInt64)) :
    { client with undelivered := client.undelivered ++ stream more : Client }.Awaits
      (awaited ++ more) := by
  have whole : ∀ snapshots, stream (snapshots ++ more) = stream snapshots ++ stream more :=
    fun snapshots => List.flatMap_append
  obtain ⟨⟨phase, data⟩, undelivered⟩ := client
  cases phase with
  | currency =>
      change undelivered = stream awaited at awaits
      change undelivered ++ stream more = stream (awaited ++ more)
      rw [awaits, whole]
  | header currencyId =>
      obtain ⟨snapshot, later, rfl, same, rest⟩ := awaits
      change undelivered = _ at rest
      refine ⟨snapshot, later ++ more, rfl, same, ?_⟩
      rw [rest, whole, List.append_assoc, List.append_assoc]
  | payload currencyId messageLength =>
      obtain ⟨snapshot, later, rfl, same, length, rest⟩ := awaits
      change undelivered = _ at rest
      refine ⟨snapshot, later ++ more, rfl, same, length, ?_⟩
      rw [rest, whole, List.append_assoc]
  | stopped => exact awaits.elim

/-- When nothing is on its way, nothing is awaited. -/
theorem Client.Awaits.nothing {client : Client} {awaited : List (Snapshot UInt64 UInt64)}
    (awaits : client.Awaits awaited) (drained : client.undelivered = []) : awaited = [] := by
  obtain ⟨taken, few, length⟩ := awaits.length
  rw [drained, List.length_nil] at length
  exact List.length_eq_zero_iff.mp (by omega)

/-- The snapshot itself, if it is for a currency. -/
def Snapshot.about (currency : UInt32) (snapshot : Snapshot ℚ Volume) :
    Option (Snapshot ℚ Volume) :=
  if snapshot.currencyId = currency then some snapshot else none

namespace Session

/-- The program has received some of the snapshots which were sent to it, awaits the others, and has
stored for a currency nothing, or the payload of the last one it has received. -/
def InOrder (encode : ℚ → UInt64) (session : Session) : Prop :=
  ∃ received awaited, session.sent = received ++ awaited ∧
    session.client.Awaits (awaited.map (Snapshot.encoded encode)) ∧
      ∀ currencyId payload, session.client.listener.data currencyId = some payload →
        ∃ snapshot : Snapshot ℚ Volume, snapshot.currencyId.toNat = currencyId ∧
          History.latest (Snapshot.about snapshot.currencyId) received = some snapshot ∧
            payload = (snapshot.encoded encode).payload

variable {encode : ℚ → UInt64} {session : Session}

theorem inOrder_accepted (clientSocket : Socket) (socketBuffer : SocketBuffer) :
    (accepted clientSocket socketBuffer).InOrder encode :=
  ⟨[], [], rfl, rfl, nofun⟩

theorem InOrder.deliver (inOrder : session.InOrder encode)
    (sends : List (Socket × Snapshot ℚ Volume)) :
    (session.deliver encode sends).InOrder encode := by
  obtain ⟨received, awaited, split, awaits, stored⟩ := inOrder
  rw [Session.deliver]
  split
  · refine ⟨received, awaited ++ sends.filterMap (Orderbook.sentTo session.clientSocket), ?_, ?_,
      stored⟩
    · change session.sent ++ _ = _
      rw [split, List.append_assoc]
    · rw [List.map_append]
      exact awaits.append _
  · exact ⟨received, awaited, split, awaits, stored⟩

theorem InOrder.sendAll (inOrder : session.InOrder encode) (request : ClientRequest) :
    (session.sendAll request).InOrder encode :=
  inOrder

theorem InOrder.subscribe (inOrder : session.InOrder encode) (currencyName : String)
    (numLevels : UInt32) : (session.subscribe currencyName numLevels).InOrder encode := by
  rw [Session.subscribe]
  split
  · rename_i currencyId known
    obtain ⟨received, awaited, split, awaits, stored⟩ := inOrder
    refine ⟨received, awaited, split, awaits, fun other payload found => ?_⟩
    apply stored other payload
    change Function.update session.client.listener.data currencyId.toNat none other = _ at found
    by_cases same : other = currencyId.toNat
    · rw [same, Function.update_self] at found
      cases found
    · rwa [Function.update_of_ne same] at found
  · exact inOrder

theorem InOrder.unsubscribe (inOrder : session.InOrder encode) (currencyName : String) :
    (session.unsubscribe currencyName).InOrder encode := by
  rw [Session.unsubscribe]
  split
  · exact inOrder.sendAll _
  · exact inOrder

theorem InOrder.received (inOrder : session.InOrder encode) (reception : Reception Chunk)
    (connected : Bool) : (session.received reception connected).InOrder encode := by
  cases reception <;> exact inOrder

/-- A call of the listener which returns all it asks for takes in its part of the next snapshot. -/
theorem InOrder.listen (inOrder : session.InOrder encode) {available : ℕ}
    (whole : session.client.Whole available)
    (opened : session.connected = true ∨ session.client.undelivered ≠ [])
    (identified : ∀ snapshot ∈ session.sent, snapshot.currencyId.toNat < 2 ^ 31) :
    (session.listen available).InOrder encode := by
  obtain ⟨received, awaited, split, awaits, stored⟩ := inOrder
  have goes_on : ¬ (session.connected = false ∧ session.client.undelivered = []) := by
    rintro ⟨closed, nothing⟩
    rcases opened with connected | some_left
    · rw [closed] at connected
      cases connected
    · exact some_left nothing
  rw [Session.listen, if_neg goes_on]
  rcases Client.step_whole awaits whole with
    ⟨after, kept⟩ | ⟨snapshot, later, currencyId, length, -, first, same, after, updated⟩
  · exact ⟨received, awaited, split, after, fun currencyId payload found =>
      stored currencyId payload (kept ▸ found)⟩
  · obtain ⟨next, rest, rfl, rfl, rfl⟩ := List.map_eq_cons_iff.mp first
    refine ⟨received ++ [next], rest, by rw [split]; simp, after, ?_⟩
    intro other payload found
    have small : next.currencyId.toNat < 2 ^ 31 := identified next (by rw [split]; simp)
    have read_as_sent : currencyId = next.currencyId.toNat := same.trans (if_pos small)
    change (session.client.step available).listener.data other = some payload at found
    rw [updated, read_as_sent] at found
    by_cases here : other = next.currencyId.toNat
    · rw [here, Function.update_self, Option.some_inj] at found
      refine ⟨next, here.symm, ?_, found.symm⟩
      rw [History.latest_snoc, Snapshot.about, if_pos rfl, Option.some_or]
    · rw [Function.update_of_ne here] at found
      obtain ⟨last, named, latest, same_payload⟩ := stored other payload found
      refine ⟨last, named, ?_, same_payload⟩
      have different : next.currencyId ≠ last.currencyId := by
        intro equal
        exact here (by rw [equal, named])
      rw [History.latest_snoc, Snapshot.about, if_neg different, Option.none_or, latest]

end Session

/-! ## Undisturbed programs -/

instance (client : Client) (available : ℕ) : Decidable (client.Whole available) :=
  match client with
  | ⟨⟨.currency, _⟩, undelivered⟩ =>
      inferInstanceAs (Decidable (undelivered = [] ∨ available = 0 ∨ 4 ≤ available))
  | ⟨⟨.header _, _⟩, _⟩ => inferInstanceAs (Decidable (4 ≤ available))
  | ⟨⟨.payload _ messageLength, _⟩, _⟩ => inferInstanceAs (Decidable (messageLength ≤ available))
  | ⟨⟨.stopped, _⟩, _⟩ => inferInstanceAs (Decidable True)

namespace World

/-- A call of the listener returns all bytes it asks for, or none between two snapshots while the
server has not closed its end. -/
def Undisturbed (world : World) : WorldEvent → Prop
  | .listened available => ∀ session ∈ world.session, session.client.Whole available ∧
      (session.connected = true ∨ session.client.undelivered ≠ [])
  | .interrupted => False
  | _ => True

instance (world : World) (event : WorldEvent) : Decidable (world.Undisturbed event) :=
  match event with
  | .listened available => inferInstanceAs (Decidable (∀ session ∈ world.session,
      session.client.Whole available ∧
        (session.connected = true ∨ session.client.undelivered ≠ [])))
  | .interrupted => inferInstanceAs (Decidable False)
  | .elsewhere _ => inferInstanceAs (Decidable True)
  | .connected _ _ => inferInstanceAs (Decidable True)
  | .subscribe _ _ => inferInstanceAs (Decidable True)
  | .unsubscribe _ => inferInstanceAs (Decidable True)
  | .close => inferInstanceAs (Decidable True)
  | .received _ => inferInstanceAs (Decidable True)

variable {encode : ℚ → UInt64}

/-- Only deliveries add to what a connection has been sent. -/
theorem sent_nextSession {world : World} {server : Server ℚ} {event : WorldEvent}
    {session : Session} (made : session ∈ world.nextSession server event) :
    session.sent = [] ∨ ∃ before ∈ world.session,
      session.clientSocket = before.clientSocket ∧ session.sent = before.sent := by
  cases event with
  | elsewhere event => exact Or.inr ⟨session, made, rfl, rfl⟩
  | connected clientSocket socketBuffer =>
      obtain rfl := Option.some_inj.mp made
      exact Or.inl rfl
  | subscribe currencyName numLevels =>
      obtain ⟨before, was, rfl⟩ := Option.map_eq_some_iff.mp made
      refine Or.inr ⟨before, was, (before.sameEnd_subscribe _ _).1, ?_⟩
      rw [Session.subscribe]
      split <;> rfl
  | unsubscribe currencyName =>
      obtain ⟨before, was, rfl⟩ := Option.map_eq_some_iff.mp made
      refine Or.inr ⟨before, was, (before.sameEnd_unsubscribe _).1, ?_⟩
      rw [Session.unsubscribe]
      split <;> rfl
  | close =>
      obtain ⟨before, was, rfl⟩ := Option.map_eq_some_iff.mp made
      exact Or.inr ⟨before, was, rfl, rfl⟩
  | received reception =>
      obtain ⟨before, was, rfl⟩ := Option.map_eq_some_iff.mp made
      refine Or.inr ⟨before, was, (before.received_connected reception _).1, ?_⟩
      cases reception <;> rfl
  | listened available =>
      obtain ⟨before, was, rfl⟩ := Option.map_eq_some_iff.mp made
      refine Or.inr ⟨before, was, (before.sameEnd_listen _).1, ?_⟩
      rw [Session.listen]
      split <;> rfl
  | interrupted =>
      obtain ⟨before, was, rfl⟩ := Option.map_eq_some_iff.mp made
      exact Or.inr ⟨before, was, rfl, rfl⟩

theorem sublist_sentTo (clientSocket : Socket) (sends : List (Socket × Snapshot ℚ Volume)) :
    ((sends.filterMap (Orderbook.sentTo clientSocket)).map fun snapshot =>
      (clientSocket, snapshot)).Sublist sends := by
  induction sends with
  | nil => exact List.Sublist.slnil
  | cons sent sends induction =>
      obtain ⟨recipient, snapshot⟩ := sent
      by_cases same : recipient = clientSocket
      · subst same
        simpa [Orderbook.sentTo] using induction
      · simpa [Orderbook.sentTo, same] using induction.trans (List.sublist_cons_self _ _)

/-- What a connection has been sent is among what the server has sent to its descriptor. -/
theorem sent_sublist {history : List WorldEvent} {sends : List (Socket × Snapshot ℚ Volume)}
    {world : World} (run : Sends encode history sends world) :
    ∀ session ∈ world.session,
      (session.sent.map fun snapshot => (session.clientSocket, snapshot)).Sublist sends := by
  apply run.invariant fun _ sends world => ∀ session ∈ world.session,
    (session.sent.map fun snapshot => (session.clientSocket, snapshot)).Sublist sends
  · exact fun session found => nomatch found
  · intro history sends world event next emitted run induction enabled stepped session found
    rw [(spec_of_step run enabled stepped).2] at found
    obtain ⟨moved, made, rfl⟩ := Option.map_eq_some_iff.mp found
    have before :
        (moved.sent.map fun snapshot => (moved.clientSocket, snapshot)).Sublist sends := by
      rcases sent_nextSession made with nothing | ⟨before, was, socket, sent⟩
      · rw [nothing]
        exact List.nil_sublist _
      · rw [socket, sent]
        exact induction before was
    rw [Session.deliver]
    split
    · rw [List.map_append]
      exact before.append (sublist_sentTo _ _)
    · exact before.trans (List.sublist_append_left _ _)

/-- The currency of every snapshot on a connection is one of the five which the exchanges know. -/
theorem known_of_sent {history : List WorldEvent} {sends : List (Socket × Snapshot ℚ Volume)}
    {world : World} (run : Sends encode history sends world) {session : Session}
    (found : session ∈ world.session) {snapshot : Snapshot ℚ Volume}
    (member : snapshot ∈ session.sent) : snapshot.currencyId ∈ [1, 2, 3, 4, 5] := by
  obtain ⟨events, inner, -⟩ := exists_backend run
  have sent := (sent_sublist run session found).subset
    (List.mem_map_of_mem (f := fun snapshot => (session.clientSocket, snapshot)) member)
  exact Backend.known_of_sends inner _ sent

/-- A step which does not disturb the listener keeps the connection in order. -/
theorem inOrder_nextSession {world : World} {event : WorldEvent}
    (undisturbed : world.Undisturbed event)
    (inOrder : ∀ session ∈ world.session, session.InOrder encode)
    (identified : ∀ session ∈ world.session, ∀ snapshot ∈ session.sent,
      snapshot.currencyId.toNat < 2 ^ 31)
    {server : Server ℚ} {session : Session} (made : session ∈ world.nextSession server event) :
    session.InOrder encode := by
  cases event with
  | elsewhere event => exact inOrder session made
  | connected clientSocket socketBuffer =>
      obtain rfl := Option.some_inj.mp made
      exact Session.inOrder_accepted clientSocket socketBuffer
  | subscribe currencyName numLevels =>
      obtain ⟨before, was, rfl⟩ := Option.map_eq_some_iff.mp made
      exact (inOrder before was).subscribe currencyName numLevels
  | unsubscribe currencyName =>
      obtain ⟨before, was, rfl⟩ := Option.map_eq_some_iff.mp made
      exact (inOrder before was).unsubscribe currencyName
  | close =>
      obtain ⟨before, was, rfl⟩ := Option.map_eq_some_iff.mp made
      exact inOrder before was
  | received reception =>
      obtain ⟨before, was, rfl⟩ := Option.map_eq_some_iff.mp made
      exact (inOrder before was).received reception _
  | listened available =>
      obtain ⟨before, was, rfl⟩ := Option.map_eq_some_iff.mp made
      obtain ⟨whole, opened⟩ := undisturbed before was
      exact (inOrder before was).listen whole opened (identified before was)
  | interrupted => exact undisturbed.elim

theorem inOrder_of_run {history : List WorldEvent} {sends : List (Socket × Snapshot ℚ Volume)}
    {world : World} (run : SendsWhile Undisturbed encode history sends world) :
    ∀ session ∈ world.session, session.InOrder encode := by
  apply run.invariant fun _ _ world => ∀ session ∈ world.session, session.InOrder encode
  · exact fun session found => nomatch found
  · intro history sends world event next emitted run induction possible stepped session found
    have sends_run := SendsWhile.sends run
    rw [(spec_of_step sends_run possible.1 stepped).2] at found
    obtain ⟨moved, made, rfl⟩ := Option.map_eq_some_iff.mp found
    apply Session.InOrder.deliver
    have small : ∀ currencyId ∈ ([1, 2, 3, 4, 5] : List UInt32), currencyId.toNat < 2 ^ 31 := by
      simp only [List.forall_mem_cons]
      exact ⟨by decide, by decide, by decide, by decide, by decide, nofun⟩
    exact inOrder_nextSession possible.2 induction (fun before was snapshot member =>
      small _ (known_of_sent sends_run was member)) made

/-- What is parsed is the last snapshot received. -/
theorem parse_of_received {data : ℤ → Option (List UInt8)} {received : List (Snapshot ℚ Volume)}
    (stored : ∀ currencyId payload, data currencyId = some payload →
      ∃ snapshot : Snapshot ℚ Volume, snapshot.currencyId.toNat = currencyId ∧
        History.latest (Snapshot.about snapshot.currencyId) received = some snapshot ∧
          payload = (snapshot.encoded encode).payload) (currencyId : ℤ) :
    parse data currencyId = .nothing ∨
      ∃ snapshot : Snapshot ℚ Volume, snapshot.currencyId.toNat = currencyId ∧
        History.latest (Snapshot.about snapshot.currencyId) received = some snapshot ∧
          parse data currencyId = .values (snapshot.encoded encode).marketData := by
  cases found : data currencyId with
  | none =>
      left
      rw [parse, found]
  | some payload =>
      right
      obtain ⟨snapshot, named, latest, rfl⟩ := stored currencyId payload found
      exact ⟨snapshot, named, latest, parse_of_stored found⟩

/-- In every history in which no call of its listener is cut short, a client program receives the
snapshots which the server sends on its connection in order and without gaps, each of which is among
what the server sends to its descriptor, and once nothing is on its way it has received all. What it
parses for a currency is nothing, or the last snapshot it has received for it. -/
theorem snapshots_arrive_in_order (encode : ℚ → UInt64) (history : List WorldEvent)
    (sends : List (Socket × Snapshot ℚ Volume)) (world : World)
    (run : SendsWhile Undisturbed encode history sends world) (session : Session)
    (found : world.session = some session) :
    (session.sent.map fun snapshot => (session.clientSocket, snapshot)).Sublist sends ∧
      ∃ received awaited, session.sent = received ++ awaited ∧
        session.client.Awaits (awaited.map (Snapshot.encoded encode)) ∧
        (session.client.undelivered = [] → received = session.sent) ∧
          ∀ currencyId, parse session.client.listener.data currencyId = .nothing ∨
            ∃ snapshot : Snapshot ℚ Volume, snapshot.currencyId.toNat = currencyId ∧
              History.latest (Snapshot.about snapshot.currencyId) received = some snapshot ∧
                parse session.client.listener.data currencyId =
                  .values (snapshot.encoded encode).marketData := by
  refine ⟨sent_sublist run.sends session found, ?_⟩
  obtain ⟨received, awaited, split, awaits, stored⟩ := inOrder_of_run run session found
  refine ⟨received, awaited, split, awaits, fun drained => ?_, parse_of_received stored⟩
  rw [split, List.map_eq_nil_iff.mp (awaits.nothing drained), List.append_nil]

/-- The program subscribes to a currency, each exchange quotes one price, and it listens. -/
def listenedHistory : List WorldEvent :=
  [.connected 4 fun _ => 0, .subscribe "BTC" 1,
    .received (.received (ClientRequest.subscribe 1 1).chunk), .elsewhere (.started 1 .coinbase),
    .elsewhere (.started 1 .crypto), .elsewhere (.delivered 1 .coinbase bidMessage),
    .elsewhere (.applied 1 .coinbase), .elsewhere (.delivered 1 .crypto askMessage),
    .elsewhere (.applied 1 .crypto), .listened 4, .listened 4, .listened 32]

/-- The bit patterns of the numbers of its snapshot. -/
def listenedPattern (number : ℚ) : UInt64 :=
  if number = 3 then 0x4008000000000000
  else if number = Feed.coinbase.adjusted .bid 10 then 0x4023F5C28F5C28F6
  else if number = Feed.crypto.adjusted .ask 10 then 0x402407AE147AE148
  else 0

theorem exists_sends_listenedHistory :
    ∃ sends world, SendsWhile Undisturbed listenedPattern listenedHistory sends world ∧
      ∃ session, world.session = some session ∧ session.connected = true ∧
        session.sent = [Backend.quotedSnapshot] ∧ session.client.undelivered = [] ∧
          parse session.client.listener.data 1 =
            .values (Backend.quotedSnapshot.encoded listenedPattern).marketData ∧
          world.backend.allInHand 1 = [] ∧
            (world.backend.server.book 1).topOfBook = some Backend.quotedSnapshot := by
  have executed : ∃ outcome ∈ History.execute (fun world event =>
      world.Enabled event ∧ world.Undisturbed event) (step listenedPattern) new listenedHistory,
        ∃ session ∈ outcome.2.session, session.connected = true ∧
          session.sent = [Backend.quotedSnapshot] ∧ session.client.undelivered = [] ∧
            parse session.client.listener.data 1 =
              .values (Backend.quotedSnapshot.encoded listenedPattern).marketData ∧
            outcome.2.backend.allInHand 1 = [] ∧
              (outcome.2.backend.server.book 1).topOfBook = some Backend.quotedSnapshot := by
    decide +kernel
  obtain ⟨⟨sends, world⟩, ran, seen⟩ := executed
  exact ⟨sends, world, History.emits_of_execute ran, seen⟩

theorem snapshots_arrive_in_order_listenedHistory :
    ∃ sends world session, SendsWhile Undisturbed listenedPattern listenedHistory sends world ∧
      world.session = some session ∧ session.client.Awaits [] ∧
        parse session.client.listener.data 1 =
          .values (Backend.quotedSnapshot.encoded listenedPattern).marketData := by
  obtain ⟨sends, world, run, session, found, -, sent, drained, parsed, -⟩ :=
    exists_sends_listenedHistory
  obtain ⟨-, received, awaited, split, awaits, all, -⟩ :=
    snapshots_arrive_in_order listenedPattern listenedHistory sends world run session found
  have nothing : awaited = [] := by simpa [all drained] using split
  exact ⟨sends, world, session, run, found, by simpa [nothing] using awaits, parsed⟩

end World

end CryptoInfra
