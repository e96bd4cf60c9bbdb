import CryptoInfra.Core.Subscriptions

/-!
# Pointers to books

The table of books holds a pointer for every key, and subscripting it with a key that is absent
inserts an empty pointer first. This file serves requests on such tables and records what every call
through a pointer found under its key. As long as the server of the books alone has a result, the
tables follow it and every call has found a book.
-/

namespace CryptoInfra

/-! ## Tables -/

/-- A call of a method through the pointer under a key. -/
structure Dereference (Price : Type*) [LinearOrder Price] where
  /-- The key. -/
  currency : UInt32
  /-- What was under the key before the call: nothing, an empty pointer, or a book. -/
  found : Option (Option (Orderbook Price))

/-- The tables which all connections share, with the calls so far. -/
structure Tables (Price : Type*) [LinearOrder Price] where
  /-- The pointer under every key which is present. -/
  openOrderbooks : UInt32 → Option (Option (Orderbook Price))
  /-- The currencies every socket asked for, in order of arrival. -/
  clientSubscribeList : Socket → List UInt32
  /-- The calls through pointers, in order. -/
  dereferences : List (Dereference Price)

variable {Price : Type*} [LinearOrder Price]

namespace Tables

/-- Empty tables. -/
def new : Tables Price where
  openOrderbooks _ := none
  clientSubscribeList _ := []
  dereferences := []

/-- Call a method through the pointer under a key. An absent key is inserted with an empty pointer,
and a call through an empty pointer has no defined result. -/
def dereference (currency : UInt32) (method : Orderbook Price → Orderbook Price)
    (tables : Tables Price) : Except (Tables Price) (Tables Price) :=
  let found := tables.openOrderbooks currency
  let pointer := found.getD none
  let next := { tables with
    openOrderbooks := Function.update tables.openOrderbooks currency (some (pointer.map method))
    dereferences := tables.dereferences ++ [{ currency, found }] }
  if pointer.isSome then .ok next else .error next

/-- Put the pointer to a new book under a key. -/
def addWebsocketConnection (currencyId : UInt32) (tables : Tables Price) : Tables Price :=
  { tables with
    openOrderbooks :=
      Function.update tables.openOrderbooks currencyId (some (some (Orderbook.new currencyId))) }

/-- Serve the request in the buffer of a client, and return its type. -/
def processRequest (request : SocketBuffer) (clientSocket : Socket) (tables : Tables Price) :
    Except (Tables Price) (Tables Price × UInt32) :=
  let data := receivedData request
  if data.messageType = 0 then do
    let tables ← (tables.clientSubscribeList clientSocket).foldlM
      (fun tables currency => dereference currency (Orderbook.removeClient clientSocket) tables)
      tables
    return (tables, data.messageType)
  else if data.messageType = 1 then do
    let tables := if (tables.openOrderbooks data.currencyName).isNone then
        tables.addWebsocketConnection data.currencyName
      else
        tables
    let tables ← dereference data.currencyName (Orderbook.addClient clientSocket) tables
    return ({ tables with
      clientSubscribeList := Function.update tables.clientSubscribeList clientSocket
        (tables.clientSubscribeList clientSocket ++ [data.currencyName]) }, data.messageType)
  else if data.messageType = 2 then do
    let tables ← (tables.clientSubscribeList clientSocket).foldlM
      (fun tables currency =>
        if currency = data.currencyName then
          dereference currency (Orderbook.removeClient clientSocket) tables
        else
          .ok tables)
      tables
    return ({ tables with
      clientSubscribeList := Function.update tables.clientSubscribeList clientSocket
        ((tables.clientSubscribeList clientSocket).filter (· ≠ data.currencyName)) },
      data.messageType)
  else
    return (tables, data.messageType)

/-- Serve requests of any sockets one at a time. -/
def processRequests (requests : List (Socket × SocketBuffer)) (tables : Tables Price) :
    Except (Tables Price) (Tables Price) :=
  requests.foldlM (fun tables request => Prod.fst <$> processRequest request.2 request.1 tables)
    tables

/-! ## Tables of a server -/

/-- The tables hold the books and subscriptions of a server, and every call so far found a book. -/
structure Holds (tables : Tables Price) (core : CoreComponent Price) : Prop where
  /-- No pointer is empty. -/
  pointers : ∀ currency,
    tables.openOrderbooks currency = (core.openOrderbooks currency).map some
  /-- The subscriptions are the same. -/
  subscribeLists : tables.clientSubscribeList = core.clientSubscribeList
  /-- Every call so far found a book. -/
  found : ∀ call ∈ tables.dereferences, ∃ book, call.found = some (some book)

theorem holds_new : (new : Tables Price).Holds CoreComponent.new where
  pointers _ := rfl
  subscribeLists := rfl
  found _ member := nomatch member

/-- A call on the open book of a server is a call through a pointer to it. -/
theorem Holds.dereference {tables : Tables Price} {core : CoreComponent Price}
    (holds : tables.Holds core) {currency : UInt32} {method : Orderbook Price → Orderbook Price}
    {openOrderbooks : UInt32 → Option (Orderbook Price)}
    (called : CoreComponent.withBook currency method core.openOrderbooks = some openOrderbooks) :
    ∃ after, Tables.dereference currency method tables = .ok after ∧
      after.Holds { core with openOrderbooks } := by
  obtain ⟨book, opened, rfl⟩ := Option.map_eq_some_iff.mp called
  have found : tables.openOrderbooks currency = some (some book) := by
    rw [holds.pointers, opened, Option.map_some]
  refine ⟨{ tables with
    openOrderbooks := Function.update tables.openOrderbooks currency (some (some (method book)))
    dereferences := tables.dereferences ++ [{ currency, found := some (some book) }] }, ?_, ?_,
    holds.subscribeLists, ?_⟩
  · simp [Tables.dereference, found]
  · intro other
    by_cases same : other = currency
    · simp [same]
    · simp [same, holds.pointers]
  · intro call member
    rcases List.mem_append.mp member with earlier | last
    · exact holds.found call earlier
    · rw [List.mem_singleton.mp last]
      exact ⟨book, rfl⟩

theorem Holds.dereferenceIf {tables : Tables Price} {core : CoreComponent Price}
    (holds : tables.Holds core) (chosen : Prop) [Decidable chosen] {currency : UInt32}
    {method : Orderbook Price → Orderbook Price}
    {openOrderbooks : UInt32 → Option (Orderbook Price)}
    (called : (if chosen then CoreComponent.withBook currency method core.openOrderbooks
      else some core.openOrderbooks) = some openOrderbooks) :
    ∃ after, (if chosen then Tables.dereference currency method tables else .ok tables) =
        .ok after ∧ after.Holds { core with openOrderbooks } := by
  by_cases selected : chosen
  · rw [if_pos selected] at called ⊢
    exact holds.dereference called
  · rw [if_neg selected] at called ⊢
    obtain rfl := Option.some_inj.mp called
    exact ⟨tables, rfl, holds⟩

/-- A loop over the tables follows a loop over the books if every round does. -/
theorem Holds.loop {step : (UInt32 → Option (Orderbook Price)) → UInt32 →
      Option (UInt32 → Option (Orderbook Price))}
    {round : Tables Price → UInt32 → Except (Tables Price) (Tables Price)}
    (follows : ∀ currency (tables : Tables Price) (core : CoreComponent Price) openOrderbooks,
      tables.Holds core → step core.openOrderbooks currency = some openOrderbooks →
        ∃ after, round tables currency = .ok after ∧ after.Holds { core with openOrderbooks })
    {currencies : List UInt32} {tables : Tables Price} {core : CoreComponent Price}
    (holds : tables.Holds core) {openOrderbooks : UInt32 → Option (Orderbook Price)}
    (looped : currencies.foldlM step core.openOrderbooks = some openOrderbooks) :
    ∃ after, currencies.foldlM round tables = .ok after ∧
      after.Holds { core with openOrderbooks } := by
  induction currencies generalizing tables core with
  | nil =>
      obtain rfl := Option.some_inj.mp looped
      exact ⟨tables, rfl, holds⟩
  | cons currency currencies induction =>
      rw [List.foldlM_cons] at looped ⊢
      obtain ⟨books, stepped, rest⟩ := Option.bind_eq_some_iff.mp looped
      obtain ⟨next, turned, held⟩ := follows currency tables core books holds stepped
      obtain ⟨after, turns, final⟩ := induction held rest
      rw [turned]
      exact ⟨after, turns, final⟩

/-- A new book gets a pointer of its own. -/
theorem Holds.addWebsocketConnection {tables : Tables Price} {core : CoreComponent Price}
    (holds : tables.Holds core) (currencyId : UInt32) :
    (tables.addWebsocketConnection currencyId).Holds (core.addWebsocketConnection currencyId) where
  pointers other := by
    by_cases same : other = currencyId
    · simp [Tables.addWebsocketConnection, CoreComponent.addWebsocketConnection, same]
    · simp [Tables.addWebsocketConnection, CoreComponent.addWebsocketConnection, same,
        holds.pointers]
  subscribeLists := holds.subscribeLists
  found := holds.found

theorem Holds.openBook {tables : Tables Price} {core : CoreComponent Price}
    (holds : tables.Holds core) (currencyId : UInt32) :
    Holds
      (if (tables.openOrderbooks currencyId).isNone then tables.addWebsocketConnection currencyId
        else tables)
      (if (core.openOrderbooks currencyId).isNone then core.addWebsocketConnection currencyId
        else core) := by
  rw [holds.pointers, Option.isNone_map]
  split
  · exact holds.addWebsocketConnection currencyId
  · exact holds

/-- The subscriptions of a socket are edited on both sides. -/
theorem Holds.editSubscriptions {tables : Tables Price} {core : CoreComponent Price}
    (holds : tables.Holds core) (clientSocket : Socket) (edit : List UInt32 → List UInt32) :
    Holds
      { tables with
        clientSubscribeList := Function.update tables.clientSubscribeList clientSocket
          (edit (tables.clientSubscribeList clientSocket)) }
      { core with
        clientSubscribeList := Function.update core.clientSubscribeList clientSocket
          (edit (core.clientSubscribeList clientSocket)) } where
  pointers := holds.pointers
  subscribeLists := by rw [holds.subscribeLists]
  found := holds.found

/-! ## Requests -/

/-- As long as the server of the books has a result, the tables follow it. -/
theorem Holds.processRequest {tables : Tables Price} {core next : CoreComponent Price}
    (holds : tables.Holds core) {request : SocketBuffer} {clientSocket : Socket} {type : UInt32}
    (served : CoreComponent.processRequest request clientSocket core = some (next, type)) :
    ∃ after, Tables.processRequest request clientSocket tables = .ok (after, type) ∧
      after.Holds next := by
  rw [CoreComponent.processRequest] at served
  rw [Tables.processRequest]
  dsimp only at served ⊢
  by_cases close : (receivedData request).messageType = 0
  · rw [if_pos close] at served ⊢
    obtain ⟨openOrderbooks, looped, same⟩ := Option.map_eq_some_iff.mp served
    obtain ⟨rfl, rfl⟩ := Prod.mk.inj same
    obtain ⟨after, turns, held⟩ := holds.loop
      (fun _ _ _ _ holds called => holds.dereference called) looped
    rw [holds.subscribeLists, turns]
    exact ⟨after, rfl, held⟩
  rw [if_neg close] at served ⊢
  by_cases subscribe : (receivedData request).messageType = 1
  · rw [if_pos subscribe] at served ⊢
    obtain ⟨openOrderbooks, called, same⟩ := Option.map_eq_some_iff.mp served
    obtain ⟨rfl, rfl⟩ := Prod.mk.inj same
    obtain ⟨after, dereferenced, held⟩ :=
      (holds.openBook (receivedData request).currencyName).dereference called
    rw [dereferenced]
    exact ⟨_, rfl, held.editSubscriptions clientSocket
      (· ++ [(receivedData request).currencyName])⟩
  rw [if_neg subscribe] at served ⊢
  by_cases unsubscribe : (receivedData request).messageType = 2
  · rw [if_pos unsubscribe] at served ⊢
    obtain ⟨openOrderbooks, looped, same⟩ := Option.map_eq_some_iff.mp served
    obtain ⟨rfl, rfl⟩ := Prod.mk.inj same
    obtain ⟨after, turns, held⟩ := holds.loop
      (fun _ _ _ _ holds called => holds.dereferenceIf _ called) looped
    rw [holds.subscribeLists, turns]
    exact ⟨_, rfl, held.editSubscriptions clientSocket
      (List.filter (· ≠ (receivedData request).currencyName))⟩
  · rw [if_neg unsubscribe] at served ⊢
    obtain ⟨rfl, rfl⟩ := Prod.mk.inj (Option.some_inj.mp served)
    exact ⟨tables, rfl, holds⟩

theorem Holds.processRequests {requests : List (Socket × SocketBuffer)} {tables : Tables Price}
    {core final : CoreComponent Price} (holds : tables.Holds core)
    (served : CoreComponent.processRequests requests core = some final) :
    ∃ after, Tables.processRequests requests tables = .ok after ∧ after.Holds final := by
  induction requests generalizing tables core with
  | nil =>
      obtain rfl := Option.some_inj.mp served
      exact ⟨tables, rfl, holds⟩
  | cons request requests induction =>
      rw [CoreComponent.processRequests, List.foldlM_cons] at served
      obtain ⟨next, answered, rest⟩ := Option.bind_eq_some_iff.mp served
      obtain ⟨⟨answer, type⟩, first, rfl⟩ := Option.map_eq_some_iff.mp answered
      obtain ⟨middle, followed, held⟩ := holds.processRequest first
      obtain ⟨after, follows, holds⟩ := induction held rest
      refine ⟨after, ?_, holds⟩
      rw [Tables.processRequests, List.foldlM_cons, followed]
      exact follows

/-- In every run of requests, handled one at a time, every call of a method of a book finds the
book under its key, and no key holds an empty pointer. -/
theorem every_dereference_finds_book (requests : List (Socket × SocketBuffer)) :
    ∃ tables : Tables Price, processRequests requests new = .ok tables ∧
      (∀ call ∈ tables.dereferences, ∃ book, call.found = some (some book)) ∧
        ∀ currency, tables.openOrderbooks currency ≠ some none := by
  obtain ⟨core, served, -⟩ : ∃ core : CoreComponent Price,
      CoreComponent.processRequests requests CoreComponent.new = some core ∧ core.Serviceable :=
    CoreComponent.processRequests_serviceable requests
  obtain ⟨tables, follows, holds⟩ := holds_new.processRequests served
  refine ⟨tables, follows, holds.found, ?_⟩
  intro currency
  rw [holds.pointers]
  cases core.openOrderbooks currency <;> simp

end Tables

end CryptoInfra
