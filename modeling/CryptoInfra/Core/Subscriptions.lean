import CryptoInfra.Core.Basic
import CryptoInfra.History
import Mathlib.Data.List.Nodup

/-!
# Requests and subscriptions

A request does to every send list one list operation, whatever currencies the socket has asked for
before. This needs that a listed socket has asked for the currency, and that a book is open for
every currency somebody asked for; every request keeps both. Hence a send list holds a socket
exactly when the last request of the socket about the currency is a subscription.
-/

namespace CryptoInfra

variable {Price : Type*} [LinearOrder Price]

/-! ## Requests -/

/-- What a request asks for. -/
inductive Request where
  | close
  | subscribe (currencyName : UInt32)
  | unsubscribe (currencyName : UInt32)
  | unknown (messageType : UInt32)
  deriving DecidableEq

/-- Read a request from a buffer. -/
def Request.read (request : SocketBuffer) : Request :=
  let data := receivedData request
  if data.messageType = 0 then .close
  else if data.messageType = 1 then .subscribe data.currencyName
  else if data.messageType = 2 then .unsubscribe data.currencyName
  else .unknown data.messageType

namespace CoreComponent

/-- The sockets which receive the snapshots of a currency. -/
def clientSendList (core : CoreComponent Price) (currency : UInt32) : List Socket :=
  match core.openOrderbooks currency with
  | some book => book.clientSendList
  | none => []

theorem mem_clientSendList_iff {core : CoreComponent Price} {clientSocket : Socket}
    {currency : UInt32} :
    clientSocket ∈ core.clientSendList currency ↔
      ∃ book, core.openOrderbooks currency = some book ∧ clientSocket ∈ book.clientSendList := by
  rw [clientSendList]
  cases core.openOrderbooks currency <;> simp

/-- Every listed socket has asked for the currency, which then has an open book, and it is listed
once. -/
structure Serviceable (core : CoreComponent Price) : Prop where
  /-- Somebody's currency has an open book. -/
  opened : ∀ clientSocket, ∀ currency ∈ core.clientSubscribeList clientSocket,
    core.openOrderbooks currency ≠ none
  /-- A listed socket has asked for the currency. -/
  asked : ∀ currency, ∀ clientSocket ∈ core.clientSendList currency,
    currency ∈ core.clientSubscribeList clientSocket
  /-- No socket is listed twice. -/
  nodup : ∀ currency, (core.clientSendList currency).Nodup

end CoreComponent

/-- The send list of a currency after a request of a socket. -/
def Request.updateSendList (request : Request) (clientSocket : Socket) (currency : UInt32)
    (clientSendList : List Socket) : List Socket :=
  match request with
  | .close => clientSendList.erase clientSocket
  | .subscribe currencyName =>
      if currencyName = currency ∧ clientSocket ∉ clientSendList then
        clientSendList ++ [clientSocket]
      else clientSendList
  | .unsubscribe currencyName =>
      if currencyName = currency then clientSendList.erase clientSocket else clientSendList
  | .unknown _ => clientSendList

/-- The currencies a socket asked for after its own request. -/
def Request.updateSubscribeList (request : Request) (currencies : List UInt32) : List UInt32 :=
  match request with
  | .subscribe currencyName => currencies ++ [currencyName]
  | .unsubscribe currencyName => currencies.filter (· ≠ currencyName)
  | _ => currencies

/-- Whether a request turns the snapshots of a currency on or off for its socket. -/
def Request.switch (request : Request) (currency : UInt32) : Option Bool :=
  match request with
  | .close => some false
  | .subscribe currencyName => if currencyName = currency then some true else none
  | .unsubscribe currencyName => if currencyName = currency then some false else none
  | .unknown _ => none

/-- A request changes the membership of its own socket alone, as it switches the currency. -/
theorem Request.mem_updateSendList {clientSendList : List Socket} (nodup : clientSendList.Nodup)
    (request : Request) (clientSocket : Socket) (currency : UInt32) {other : Socket} :
    other ∈ request.updateSendList clientSocket currency clientSendList ↔
      if other = clientSocket then
        (request.switch currency).getD (decide (other ∈ clientSendList)) = true
      else other ∈ clientSendList := by
  cases request with
  | close =>
      by_cases same : other = clientSocket <;>
        simp [updateSendList, switch, same, nodup.mem_erase_iff]
  | subscribe currencyName =>
      by_cases same : other = clientSocket <;> by_cases about : currencyName = currency <;>
        by_cases listed : clientSocket ∈ clientSendList <;>
          simp [updateSendList, switch, same, about, listed]
  | unsubscribe currencyName =>
      by_cases same : other = clientSocket <;> by_cases about : currencyName = currency <;>
        simp [updateSendList, switch, same, about, nodup.mem_erase_iff]
  | unknown messageType =>
      by_cases same : other = clientSocket <;> simp [updateSendList, switch, same]

theorem Request.nodup_updateSendList {clientSendList : List Socket} (nodup : clientSendList.Nodup)
    (request : Request) (clientSocket : Socket) (currency : UInt32) :
    (request.updateSendList clientSocket currency clientSendList).Nodup := by
  cases request with
  | close => exact nodup.erase clientSocket
  | subscribe currencyName =>
      rw [updateSendList]
      split <;> rename_i added
      · rw [← List.concat_eq_append]
        exact nodup.concat added.2
      · exact nodup
  | unsubscribe currencyName =>
      rw [updateSendList]
      split
      · exact nodup.erase clientSocket
      · exact nodup
  | unknown messageType => exact nodup

/-- A socket which stays switched on still has asked for the currency. -/
theorem Request.mem_updateSubscribeList {request : Request} {currency : UInt32}
    {currencies : List UInt32} (asked : request.switch currency = none → currency ∈ currencies)
    (kept : request.switch currency ≠ some false) :
    currency ∈ request.updateSubscribeList currencies := by
  cases request with
  | close => contradiction
  | subscribe currencyName =>
      by_cases about : currencyName = currency <;>
        simp_all [updateSubscribeList, switch]
  | unsubscribe currencyName =>
      by_cases about : currencyName = currency <;>
        simp_all [updateSubscribeList, switch, eq_comm]
  | unknown messageType => exact asked rfl

/-! ## The removal loop -/

namespace CoreComponent

theorem removeClient_idem {book : Orderbook Price} (nodup : book.clientSendList.Nodup)
    (clientSocket : Socket) :
    (book.removeClient clientSocket).removeClient clientSocket =
      book.removeClient clientSocket := by
  have gone : clientSocket ∉ book.clientSendList.erase clientSocket := nodup.not_mem_erase
  simp [Orderbook.removeClient, List.erase_of_not_mem gone]

/-- The loop over the currencies of a socket removes it from every selected book. -/
theorem removeLoop_eq (clientSocket : Socket) (selected : UInt32 → Prop) [DecidablePred selected]
    {currencies : List UInt32} {openOrderbooks : UInt32 → Option (Orderbook Price)}
    (opened : ∀ currency ∈ currencies, selected currency → openOrderbooks currency ≠ none)
    (nodup : ∀ currency book, openOrderbooks currency = some book → book.clientSendList.Nodup) :
    currencies.foldlM (fun openOrderbooks currency =>
        if selected currency then
          withBook currency (Orderbook.removeClient clientSocket) openOrderbooks
        else some openOrderbooks) openOrderbooks =
      some fun currency =>
        if currency ∈ currencies ∧ selected currency then
          (openOrderbooks currency).map (Orderbook.removeClient clientSocket)
        else openOrderbooks currency := by
  induction currencies generalizing openOrderbooks with
  | nil => simp
  | cons currency currencies induction =>
      have later : ∀ other ∈ currencies, selected other → openOrderbooks other ≠ none :=
        fun other member => opened other (List.mem_cons_of_mem currency member)
      rw [List.foldlM_cons]
      by_cases chosen : selected currency
      · obtain ⟨book, found⟩ := Option.ne_none_iff_exists'.mp
          (opened currency List.mem_cons_self chosen)
        rw [if_pos chosen, withBook, found, Option.map_some, Option.bind_eq_bind, Option.bind_some,
          induction]
        · congr 1
          funext other
          by_cases same : other = currency
          · subst same
            simp [chosen, found, removeClient_idem (nodup other book found)]
          · simp [same]
        · intro other member picked
          by_cases same : other = currency
          · simp [same]
          · simpa [same] using later other member picked
        · intro other updated
          by_cases same : other = currency
          · subst same
            simp only [Function.update_self, Option.some.injEq]
            rintro rfl
            exact (nodup other book found).erase clientSocket
          · simpa [same] using nodup other updated
      · rw [if_neg chosen, Option.bind_eq_bind, Option.bind_some, induction later nodup]
        congr 1
        funext other
        by_cases same : other = currency
        · simp [same, chosen]
        · simp [same]

/-! ## One request -/

/-- What a request of a socket does to the server. -/
structure Serves (request : Request) (clientSocket : Socket) (core next : CoreComponent Price) :
    Prop where
  /-- Every send list is updated on its own. -/
  sendLists : ∀ currency, next.clientSendList currency =
    request.updateSendList clientSocket currency (core.clientSendList currency)
  /-- The socket's own currencies are updated. -/
  own : next.clientSubscribeList clientSocket =
    request.updateSubscribeList (core.clientSubscribeList clientSocket)
  /-- Other sockets keep their currencies. -/
  others : ∀ other, other ≠ clientSocket →
    next.clientSubscribeList other = core.clientSubscribeList other
  /-- Open books stay open. -/
  opened : ∀ currency, core.openOrderbooks currency ≠ none → next.openOrderbooks currency ≠ none
  /-- A subscription leaves an open book for its currency. -/
  subscribed : ∀ currencyName, request = .subscribe currencyName →
    next.openOrderbooks currencyName ≠ none

theorem Serviceable.nodup_book {core : CoreComponent Price} (serviceable : core.Serviceable)
    {currency : UInt32} {book : Orderbook Price}
    (found : core.openOrderbooks currency = some book) : book.clientSendList.Nodup := by
  simpa [clientSendList, found] using serviceable.nodup currency

/-- A socket is not listed for a currency it has not asked for. -/
theorem Serviceable.erase_of_not_asked {core : CoreComponent Price}
    (serviceable : core.Serviceable) {currency : UInt32} {clientSocket : Socket}
    (absent : currency ∉ core.clientSubscribeList clientSocket) :
    (core.clientSendList currency).erase clientSocket = core.clientSendList currency :=
  List.erase_of_not_mem fun listed => absent (serviceable.asked currency clientSocket listed)

theorem clientSendList_removeLoop (core : CoreComponent Price) (clientSocket : Socket)
    (selected : UInt32 → Prop) [DecidablePred selected]
    (clientSubscribeList : Socket → List UInt32) (currency : UInt32) :
    (CoreComponent.mk (fun currency =>
        if currency ∈ core.clientSubscribeList clientSocket ∧ selected currency then
          (core.openOrderbooks currency).map (Orderbook.removeClient clientSocket)
        else core.openOrderbooks currency) clientSubscribeList).clientSendList currency =
      if currency ∈ core.clientSubscribeList clientSocket ∧ selected currency then
        (core.clientSendList currency).erase clientSocket
      else core.clientSendList currency := by
  by_cases chosen : currency ∈ core.clientSubscribeList clientSocket ∧ selected currency
  · simp only [clientSendList, if_pos chosen]
    cases core.openOrderbooks currency <;> rfl
  · simp only [clientSendList, if_neg chosen]

theorem clientSendList_removed {core : CoreComponent Price} (serviceable : core.Serviceable)
    (clientSocket : Socket) (selected : UInt32 → Prop) [DecidablePred selected]
    (clientSubscribeList : Socket → List UInt32) (currency : UInt32) :
    (CoreComponent.mk (fun currency =>
        if currency ∈ core.clientSubscribeList clientSocket ∧ selected currency then
          (core.openOrderbooks currency).map (Orderbook.removeClient clientSocket)
        else core.openOrderbooks currency) clientSubscribeList).clientSendList currency =
      if selected currency then (core.clientSendList currency).erase clientSocket
      else core.clientSendList currency := by
  rw [clientSendList_removeLoop]
  by_cases asked : currency ∈ core.clientSubscribeList clientSocket
  · simp only [asked, true_and]
  · rw [serviceable.erase_of_not_asked asked, ite_self, ite_self]

/-- A loop of removals leaves the books of other currencies and keeps open books open. -/
theorem opened_removed {core : CoreComponent Price} (clientSocket : Socket)
    (selected : UInt32 → Prop) [DecidablePred selected] {currency : UInt32}
    (opened : core.openOrderbooks currency ≠ none) :
    (if currency ∈ core.clientSubscribeList clientSocket ∧ selected currency then
        (core.openOrderbooks currency).map (Orderbook.removeClient clientSocket)
      else core.openOrderbooks currency) ≠ none := by
  split
  · simpa using opened
  · exact opened

theorem processRequest_close {core : CoreComponent Price} (serviceable : core.Serviceable)
    {request : SocketBuffer} (clientSocket : Socket)
    (type : (receivedData request).messageType = 0) :
    ∃ next, processRequest request clientSocket core =
        some (next, (receivedData request).messageType) ∧
      Serves (Request.read request) clientSocket core next := by
  have loop := removeLoop_eq clientSocket (fun _ => True)
    (fun currency member _ => serviceable.opened clientSocket currency member)
    (fun _ _ found => serviceable.nodup_book found)
  have sendLists := clientSendList_removed serviceable clientSocket (fun _ => True)
    core.clientSubscribeList
  simp only [if_true] at loop sendLists
  refine ⟨_, by rw [processRequest, if_pos type, loop, Option.map_some], ?_⟩
  rw [Request.read, if_pos type]
  refine ⟨sendLists, rfl, fun _ _ => rfl, ?_, fun _ same => nomatch same⟩
  exact fun currency => opened_removed clientSocket (fun _ => True)

theorem processRequest_unsubscribe {core : CoreComponent Price} (serviceable : core.Serviceable)
    {request : SocketBuffer} (clientSocket : Socket)
    (type : (receivedData request).messageType = 2) :
    ∃ next, processRequest request clientSocket core =
        some (next, (receivedData request).messageType) ∧
      Serves (Request.read request) clientSocket core next := by
  have not_close : (receivedData request).messageType ≠ 0 := by simp [type]
  have not_subscribe : (receivedData request).messageType ≠ 1 := by simp [type]
  have loop := removeLoop_eq clientSocket (· = (receivedData request).currencyName)
    (fun currency member _ => serviceable.opened clientSocket currency member)
    (fun _ _ found => serviceable.nodup_book found)
  refine ⟨_, by rw [processRequest, if_neg not_close, if_neg not_subscribe, if_pos type, loop,
    Option.map_some], ?_⟩
  rw [Request.read, if_neg not_close, if_neg not_subscribe, if_pos type]
  generalize (receivedData request).currencyName = name
  refine ⟨?_, ?_, ?_, ?_, fun _ same => nomatch same⟩
  · intro currency
    rw [clientSendList_removed serviceable clientSocket (· = name), Request.updateSendList]
    simp only [eq_comm]
  · simp [Request.updateSubscribeList]
  · intro other different
    simp [different]
  · exact fun currency => opened_removed clientSocket (· = name)

/-- A subscription finds an open book for its currency, opening one first if there is none. -/
theorem exists_book_subscribe (core : CoreComponent Price) (name : UInt32) :
    ∃ book, (if (core.openOrderbooks name).isNone then core.addWebsocketConnection name else core) =
          { core with openOrderbooks := Function.update core.openOrderbooks name (some book) } ∧
      book.clientSendList = core.clientSendList name := by
  cases found : core.openOrderbooks name with
  | none => exact ⟨Orderbook.new name, rfl, by simp [clientSendList, found, Orderbook.new]⟩
  | some book =>
      have kept : Function.update core.openOrderbooks name (some book) = core.openOrderbooks := by
        rw [← found, Function.update_eq_self]
      exact ⟨book, by simp [kept], by simp [clientSendList, found]⟩

theorem clientSendList_addClient (clientSocket : Socket) (book : Orderbook Price) :
    (book.addClient clientSocket).clientSendList =
      if clientSocket ∈ book.clientSendList then book.clientSendList
      else book.clientSendList ++ [clientSocket] := by
  rw [Orderbook.addClient]
  split <;> rfl

theorem processRequest_subscribe {core : CoreComponent Price} {request : SocketBuffer}
    (clientSocket : Socket) (type : (receivedData request).messageType = 1) :
    ∃ next, processRequest request clientSocket core =
        some (next, (receivedData request).messageType) ∧
      Serves (Request.read request) clientSocket core next := by
  have not_close : (receivedData request).messageType ≠ 0 := by simp [type]
  obtain ⟨book, ready, clients⟩ := exists_book_subscribe core (receivedData request).currencyName
  have served : processRequest request clientSocket core =
      some ({ openOrderbooks := Function.update core.openOrderbooks
                (receivedData request).currencyName (some (book.addClient clientSocket))
              clientSubscribeList := Function.update core.clientSubscribeList clientSocket
                (core.clientSubscribeList clientSocket ++ [(receivedData request).currencyName]) },
        (receivedData request).messageType) := by
    rw [processRequest, if_neg not_close, if_pos type]
    dsimp only
    rw [ready]
    simp [withBook]
  refine ⟨_, served, ?_⟩
  rw [Request.read, if_neg not_close, if_pos type]
  generalize (receivedData request).currencyName = name at clients
  refine ⟨?_, ?_, ?_, ?_, ?_⟩
  · intro currency
    by_cases same : name = currency
    · subst same
      rw [Request.updateSendList, ← clients]
      simp [clientSendList, clientSendList_addClient, ite_not]
    · simp [clientSendList, Request.updateSendList, same, Ne.symm same]
  · simp [Request.updateSubscribeList]
  · intro other different
    simp [different]
  · intro currency opened
    by_cases same : currency = name <;> simp [same, opened]
  · rintro currencyName ⟨⟩
    simp

theorem processRequest_unknown {request : SocketBuffer} (clientSocket : Socket)
    (core : CoreComponent Price) (not_close : (receivedData request).messageType ≠ 0)
    (not_subscribe : (receivedData request).messageType ≠ 1)
    (not_unsubscribe : (receivedData request).messageType ≠ 2) :
    processRequest request clientSocket core = some (core, (receivedData request).messageType) := by
  rw [processRequest, if_neg not_close, if_neg not_subscribe, if_neg not_unsubscribe]

/-- Every request of a serviceable server is served. -/
theorem processRequest_spec {core : CoreComponent Price} (serviceable : core.Serviceable)
    (request : SocketBuffer) (clientSocket : Socket) :
    ∃ next, processRequest request clientSocket core =
        some (next, (receivedData request).messageType) ∧
      Serves (Request.read request) clientSocket core next := by
  by_cases close : (receivedData request).messageType = 0
  · exact processRequest_close serviceable clientSocket close
  by_cases subscribe : (receivedData request).messageType = 1
  · exact processRequest_subscribe clientSocket subscribe
  by_cases unsubscribe : (receivedData request).messageType = 2
  · exact processRequest_unsubscribe serviceable clientSocket unsubscribe
  refine ⟨core, processRequest_unknown clientSocket core close subscribe unsubscribe, ?_⟩
  rw [Request.read, if_neg close, if_neg subscribe, if_neg unsubscribe]
  exact ⟨fun _ => rfl, rfl, fun _ _ => rfl, fun _ opened => opened, fun _ same => nomatch same⟩

/-- Every request keeps the server serviceable. -/
theorem Serves.serviceable {request : Request} {clientSocket : Socket}
    {core next : CoreComponent Price} (serves : Serves request clientSocket core next)
    (serviceable : core.Serviceable) : next.Serviceable where
  opened other currency member := by
    by_cases same : other = clientSocket
    · subst same
      rw [serves.own] at member
      cases request with
      | close => exact serves.opened currency (serviceable.opened other currency member)
      | subscribe currencyName =>
          rcases List.mem_append.mp member with earlier | added
          · exact serves.opened currency (serviceable.opened other currency earlier)
          · rw [List.mem_singleton.mp added]
            exact serves.subscribed currencyName rfl
      | unsubscribe currencyName =>
          exact serves.opened currency
            (serviceable.opened other currency (List.mem_of_mem_filter member))
      | unknown messageType =>
          exact serves.opened currency (serviceable.opened other currency member)
    · rw [serves.others other same] at member
      exact serves.opened currency (serviceable.opened other currency member)
  asked currency other listed := by
    rw [serves.sendLists, Request.mem_updateSendList (serviceable.nodup currency)] at listed
    split at listed <;> rename_i same
    · subst same
      rw [serves.own]
      apply Request.mem_updateSubscribeList
      · intro untouched
        rw [untouched, Option.getD_none, decide_eq_true_iff] at listed
        exact serviceable.asked currency other listed
      · intro off
        rw [off] at listed
        contradiction
    · rw [serves.others other same]
      exact serviceable.asked currency other listed
  nodup currency := by
    rw [serves.sendLists]
    exact Request.nodup_updateSendList (serviceable.nodup currency) request clientSocket currency

theorem serviceable_new : (new : CoreComponent Price).Serviceable where
  opened _ _ member := nomatch member
  asked _ _ listed := nomatch listed
  nodup _ := List.nodup_nil

/-! ## Runs of requests -/

/-- Serve requests of any sockets one at a time. -/
def processRequests (requests : List (Socket × SocketBuffer)) (core : CoreComponent Price) :
    Option (CoreComponent Price) :=
  requests.foldlM (fun core request => (processRequest request.2 request.1 core).map Prod.fst) core

theorem processRequests_snoc (requests : List (Socket × SocketBuffer))
    (request : Socket × SocketBuffer) (core : CoreComponent Price) :
    processRequests (requests ++ [request]) core =
      (processRequests requests core).bind fun served =>
        (processRequest request.2 request.1 served).map Prod.fst := by
  simp [processRequests]

/-- Every run of requests is served, and ends in what every served request keeps. -/
theorem processRequests_invariant
    (invariant : List (Socket × SocketBuffer) → CoreComponent Price → Prop)
    (initial : invariant [] new)
    (preserved : ∀ front request core next, core.Serviceable → invariant front core →
      Serves (Request.read request.2) request.1 core next → invariant (front ++ [request]) next)
    (requests : List (Socket × SocketBuffer)) :
    ∃ core : CoreComponent Price, processRequests requests new = some core ∧
      core.Serviceable ∧ invariant requests core := by
  induction requests using List.reverseRecOn with
  | nil => exact ⟨new, rfl, serviceable_new, initial⟩
  | append_singleton requests request induction =>
      obtain ⟨core, served, serviceable, holds⟩ := induction
      obtain ⟨next, answered, serves⟩ := processRequest_spec serviceable request.2 request.1
      refine ⟨next, ?_, serves.serviceable serviceable,
        preserved requests request core next serviceable holds serves⟩
      rw [processRequests_snoc, served, Option.bind_some, answered, Option.map_some]

/-- Every run of requests is served. -/
theorem processRequests_serviceable (requests : List (Socket × SocketBuffer)) :
    ∃ core : CoreComponent Price, processRequests requests new = some core ∧ core.Serviceable := by
  obtain ⟨core, served, serviceable, -⟩ : ∃ core : CoreComponent Price,
      processRequests requests new = some core ∧ core.Serviceable ∧ True :=
    processRequests_invariant (fun _ _ => True) trivial (fun _ _ _ _ _ _ _ => trivial) requests
  exact ⟨core, served, serviceable⟩

/-- Whether a request of some socket switches the snapshots of a currency for a given socket. -/
def switchOf (clientSocket : Socket) (currency : UInt32) (request : Socket × SocketBuffer) :
    Option Bool :=
  if request.1 = clientSocket then (Request.read request.2).switch currency else none

/-- Every run of requests is served. A send list then holds a socket exactly when the last request
of the socket about the currency is a subscription, and it holds it once. -/
theorem listed_iff_last_switched_on (requests : List (Socket × SocketBuffer)) :
    ∃ core : CoreComponent Price, processRequests requests new = some core ∧
      ∀ clientSocket currency,
        (clientSocket ∈ core.clientSendList currency ↔
          History.latest (switchOf clientSocket currency) requests = some true) ∧
        (clientSocket ∈ core.clientSendList currency →
          (core.clientSendList currency).count clientSocket = 1) := by
  obtain ⟨core, served, serviceable, listed⟩ : ∃ core : CoreComponent Price,
      processRequests requests new = some core ∧ core.Serviceable ∧ ∀ clientSocket currency,
        clientSocket ∈ core.clientSendList currency ↔
          History.latest (switchOf clientSocket currency) requests = some true := by
    apply processRequests_invariant fun front core => ∀ clientSocket currency,
      clientSocket ∈ core.clientSendList currency ↔
        History.latest (switchOf clientSocket currency) front = some true
    · simp [clientSendList, new]
    · intro front request core next serviceable listed serves clientSocket currency
      rw [serves.sendLists, Request.mem_updateSendList (serviceable.nodup currency),
        History.latest_snoc, switchOf]
      by_cases same : clientSocket = request.1
      · subst same
        cases (Request.read request.2).switch currency <;> simp [listed]
      · simp [same, Ne.symm same, listed]
  refine ⟨core, served, fun clientSocket currency => ⟨listed clientSocket currency, ?_⟩⟩
  exact List.count_eq_one_of_mem (serviceable.nodup currency)

end CoreComponent

end CryptoInfra
