import CryptoInfra.Core.Framing

/-!
# The two subscription indices

The server records a subscription twice: the book of the currency lists the socket, and the socket's
own list names the currency. A subscription and its cancellation edit both records. A request of
type zero edits the books alone, so the records part exactly when it comes from a socket which still
has currencies on its list.
-/

namespace CryptoInfra

variable {Price : Type*} [LinearOrder Price]

namespace CoreComponent

/-- A socket's list names a currency exactly when the open book of the currency lists the socket. -/
def IndicesAgree (core : CoreComponent Price) : Prop :=
  ∀ clientSocket currency, currency ∈ core.clientSubscribeList clientSocket ↔
    ∃ book, core.openOrderbooks currency = some book ∧ clientSocket ∈ book.clientSendList

/-- The request is of type zero, and the socket still has currencies on its list. -/
def LeavesSubscriptions (core : CoreComponent Price) (request : Socket × SocketBuffer) : Prop :=
  Request.read request.2 = .close ∧ core.clientSubscribeList request.1 ≠ []

theorem indicesAgree_iff {core : CoreComponent Price} :
    core.IndicesAgree ↔ ∀ clientSocket currency,
      currency ∈ core.clientSubscribeList clientSocket ↔
        clientSocket ∈ core.clientSendList currency := by
  simp only [IndicesAgree, mem_clientSendList_iff]

/-- A request which does not close switches the socket's own list as it switches the book. -/
theorem mem_updateSubscribeList_iff {request : Request} (stays : request ≠ .close)
    (currencies : List UInt32) (currency : UInt32) :
    currency ∈ request.updateSubscribeList currencies ↔
      (request.switch currency).getD (decide (currency ∈ currencies)) = true := by
  cases request with
  | close => exact absurd rfl stays
  | subscribe currencyName =>
      by_cases about : currencyName = currency
      · simp [Request.updateSubscribeList, Request.switch, about]
      · simp [Request.updateSubscribeList, Request.switch, about, Ne.symm about]
  | unsubscribe currencyName =>
      by_cases about : currencyName = currency
      · simp [Request.updateSubscribeList, Request.switch, about]
      · simp [Request.updateSubscribeList, Request.switch, about, Ne.symm about]
  | unknown messageType => simp [Request.updateSubscribeList, Request.switch]

/-- A request keeps the indices in agreement exactly when it leaves no subscriptions behind. -/
theorem indicesAgree_step_iff {core next : CoreComponent Price} (serviceable : core.Serviceable)
    (agree : core.IndicesAgree) {request : Socket × SocketBuffer}
    (serves : Serves (Request.read request.2) request.1 core next) :
    next.IndicesAgree ↔ ¬ core.LeavesSubscriptions request := by
  rw [indicesAgree_iff] at agree ⊢
  have others : ∀ other, other ≠ request.1 → ∀ currency,
      currency ∈ next.clientSubscribeList other ↔ other ∈ next.clientSendList currency := by
    intro other different currency
    rw [serves.others other different, serves.sendLists,
      Request.mem_updateSendList (serviceable.nodup currency), if_neg different, agree]
  have own : ∀ currency, request.1 ∈ next.clientSendList currency ↔
      ((Request.read request.2).switch currency).getD
        (decide (currency ∈ core.clientSubscribeList request.1)) = true := by
    intro currency
    simp only [serves.sendLists, Request.mem_updateSendList (serviceable.nodup currency), if_true,
      agree]
  by_cases closes : Request.read request.2 = .close
  · rw [LeavesSubscriptions, not_and, not_not]
    constructor
    · intro after _
      rw [List.eq_nil_iff_forall_not_mem]
      intro currency member
      have kept : currency ∈ next.clientSubscribeList request.1 := by
        rw [serves.own, closes]
        exact member
      have listed := (own currency).mp ((after request.1 currency).mp kept)
      rw [closes] at listed
      exact Bool.false_ne_true listed
    · intro none_left other currency
      by_cases same : other = request.1
      · rw [same, own, closes, serves.own, closes]
        simp [Request.updateSubscribeList, Request.switch, none_left closes]
      · exact others other same currency
  · refine iff_of_true ?_ fun leaves => closes leaves.1
    intro other currency
    by_cases same : other = request.1
    · rw [same, own, serves.own, mem_updateSubscribeList_iff closes]
    · exact others other same currency

/-! ## Runs -/

/-- Along a run of requests, handled one at a time, the indices agree after every request exactly
when no request of type zero comes from a socket which still has currencies on its list. -/
theorem indices_agree_iff_none_leaves (requests : List (Socket × SocketBuffer)) :
    (∀ front, front <+: requests → ∃ core : CoreComponent Price,
        processRequests front new = some core ∧ core.IndicesAgree) ↔
      ∀ front request, front ++ [request] <+: requests → ∀ core : CoreComponent Price,
        processRequests front new = some core → ¬ core.LeavesSubscriptions request := by
  apply History.forall_prefix_iff
    (fun front => ∃ core : CoreComponent Price,
      processRequests front new = some core ∧ core.IndicesAgree)
    (fun front request => ∀ core : CoreComponent Price,
      processRequests front new = some core → ¬ core.LeavesSubscriptions request)
  · refine ⟨new, rfl, indicesAgree_iff.mpr ?_⟩
    intro clientSocket currency
    simp [new, clientSendList]
  · rintro front request ⟨core, served, agree⟩
    obtain ⟨same, found, serviceable⟩ : ∃ core : CoreComponent Price,
        processRequests front new = some core ∧ core.Serviceable :=
      processRequests_serviceable front
    obtain rfl := Option.some_inj.mp (served.symm.trans found)
    obtain ⟨next, answered, serves⟩ := processRequest_spec serviceable request.2 request.1
    have after : processRequests (front ++ [request]) new = some next := by
      rw [processRequests_snoc, served, Option.bind_some, answered, Option.map_some]
    simp only [after, served, Option.some.injEq, exists_eq_left', forall_eq']
    exact indicesAgree_step_iff serviceable agree serves

/-- A client subscribes to a currency and closes. -/
def closingRequests : List (Socket × SocketBuffer) :=
  [(4, (ClientRequest.subscribe 1 1).buffer), (4, ClientRequest.close.buffer)]

/-- The currency stays on the list of the socket which closed, and its book does not list it. -/
theorem closingRequests_part_indices :
    ∃ core : CoreComponent ℕ, processRequests closingRequests new = some core ∧
      ¬ core.IndicesAgree := by
  have ready : (new : CoreComponent ℕ).Serviceable := serviceable_new
  obtain ⟨subscribed, answered, serves⟩ := processRequest_spec ready
    (ClientRequest.subscribe 1 1).buffer 4
  obtain ⟨closed, left, leaves⟩ := processRequest_spec (serves.serviceable ready)
    ClientRequest.close.buffer 4
  have kept : 1 ∈ closed.clientSubscribeList 4 := by
    rw [leaves.own, serves.own, ClientRequest.read_buffer, ClientRequest.read_buffer]
    exact List.mem_singleton_self 1
  have removed : 4 ∉ closed.clientSendList 1 := by
    rw [leaves.sendLists, serves.sendLists, ClientRequest.read_buffer, ClientRequest.read_buffer]
    decide
  refine ⟨closed, ?_, fun agree => removed ((indicesAgree_iff.mp agree 4 1).mp kept)⟩
  simp [processRequests, closingRequests, answered, left]

end CoreComponent

end CryptoInfra
