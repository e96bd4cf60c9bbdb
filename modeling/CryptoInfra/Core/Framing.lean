import CryptoInfra.Core.Subscriptions
import Mathlib.Tactic.IntervalCases

/-!
# Framing of requests

A connection thread serves one request for every receiving call, from a buffer which keeps what
earlier calls left behind. A buffer asks for what its first eight bytes say, so a chunk which starts
with a whole request is read as that request; three bytes of a closing request are enough, since the
terminator is zero like the missing byte. The thread leaves the server in the state which the
requests of its buffers leave it in one by one.
-/

namespace CryptoInfra

/-! ## Requests of the client -/

/-- The requests a client can make. -/
inductive ClientRequest where
  | subscribe (currencyId numLevels : UInt32)
  | unsubscribe (currencyId : UInt32)
  | close

/-- The kinds of requests, which differ in length. -/
inductive Kind where
  | subscribe
  | unsubscribe
  | close
  deriving DecidableEq

namespace ClientRequest

/-- The bytes the client sends. -/
def message : ClientRequest → List UInt8
  | subscribe currencyId numLevels => pack [1, currencyId, numLevels]
  | unsubscribe currencyId => pack [2, currencyId]
  | close => pack [0]

/-- What the client asks for. -/
def request : ClientRequest → Request
  | subscribe currencyId _ => .subscribe currencyId
  | unsubscribe currencyId => .unsubscribe currencyId
  | close => .close

/-- The kind of a request. -/
def kind : ClientRequest → Kind
  | subscribe _ _ => .subscribe
  | unsubscribe _ => .unsubscribe
  | close => .close

end ClientRequest

/-- Number of bytes of a request. -/
def Kind.length : Kind → ℕ
  | subscribe => 12
  | unsubscribe => 8
  | close => 4

theorem Kind.length_pos (kind : Kind) : 0 < kind.length := by
  cases kind <;> decide

@[simp]
theorem ClientRequest.length_message (request : ClientRequest) :
    request.message.length = request.kind.length := by
  cases request <;> simp [message, pack, kind, Kind.length]

theorem ClientRequest.message_close : ClientRequest.close.message = [0, 0, 0, 0] := rfl

theorem ClientRequest.kind_eq_close_iff {request : ClientRequest} :
    request.kind = .close ↔ request = .close := by
  cases request <;> simp [kind]

theorem ClientRequest.request_eq_close_iff {request : ClientRequest} :
    request.request = .close ↔ request = .close := by
  cases request <;> simp [ClientRequest.request]

/-! ## Reading a buffer -/

theorem length_bytesAt (request : SocketBuffer) (offset : Fin 1024) :
    (bytesAt request offset).length = 4 := rfl

/-- A word is loaded and swapped to its value in network order. -/
theorem networkWord_eq (request : SocketBuffer) (offset : Fin 1024) :
    osSwapHostToBigInt32 (memcpyWord request offset) =
      UInt32.ofNat (ByteOrder.ofBig (bytesAt request offset)) := by
  have fits := ByteOrder.ofLittle_lt (bytesAt request offset)
  rw [length_bytesAt, four_bytes] at fits
  rw [osSwapHostToBigInt32, memcpyWord, UInt32.toNat_ofNat_of_lt' fits,
    ← length_bytesAt request offset, ByteOrder.swap_ofLittle]

theorem networkWord_eq_iff (request : SocketBuffer) (offset : Fin 1024) (word : UInt32) :
    osSwapHostToBigInt32 (memcpyWord request offset) = word ↔
      bytesAt request offset = ByteOrder.toBig 4 word.toNat := by
  have fits := ByteOrder.ofBig_lt (bytesAt request offset)
  rw [length_bytesAt, four_bytes] at fits
  rw [networkWord_eq, ← UInt32.toNat_inj, UInt32.toNat_ofNat_of_lt' fits,
    ← ByteOrder.ofBig_inj (by simp [length_bytesAt]),
    ByteOrder.ofBig_toBig (four_bytes ▸ word.toNat_lt)]

theorem messageType_eq_iff {buffer : SocketBuffer} {word : UInt32} :
    (receivedData buffer).messageType = word ↔
      bytesAt buffer 0 = ByteOrder.toBig 4 word.toNat :=
  networkWord_eq_iff buffer 0 word

theorem currencyName_eq_iff {buffer : SocketBuffer} {word : UInt32} :
    (receivedData buffer).currencyName = word ↔
      bytesAt buffer 4 = ByteOrder.toBig 4 word.toNat :=
  networkWord_eq_iff buffer 4 word

theorem Request.read_eq_close_iff (buffer : SocketBuffer) :
    Request.read buffer = .close ↔ bytesAt buffer 0 = [0, 0, 0, 0] := by
  change _ ↔ bytesAt buffer 0 = ByteOrder.toBig 4 (0 : UInt32).toNat
  rw [← messageType_eq_iff, read]
  split_ifs <;> simp_all

theorem Request.read_eq_subscribe_iff (buffer : SocketBuffer) (currencyId : UInt32) :
    Request.read buffer = .subscribe currencyId ↔
      bytesAt buffer 0 = [0, 0, 0, 1] ∧
        bytesAt buffer 4 = ByteOrder.toBig 4 currencyId.toNat := by
  change _ ↔ bytesAt buffer 0 = ByteOrder.toBig 4 (1 : UInt32).toNat ∧ _
  rw [← messageType_eq_iff, ← currencyName_eq_iff, read]
  split_ifs <;> simp_all

theorem Request.read_eq_unsubscribe_iff (buffer : SocketBuffer) (currencyId : UInt32) :
    Request.read buffer = .unsubscribe currencyId ↔
      bytesAt buffer 0 = [0, 0, 0, 2] ∧
        bytesAt buffer 4 = ByteOrder.toBig 4 currencyId.toNat := by
  change _ ↔ bytesAt buffer 0 = ByteOrder.toBig 4 (2 : UInt32).toNat ∧ _
  rw [← messageType_eq_iff, ← currencyName_eq_iff, read]
  split_ifs <;> simp_all

/-- A buffer starts with some bytes. -/
def StartsWith (buffer : SocketBuffer) (bytes : List UInt8) : Prop :=
  ∀ position : Fin 1024, ∀ byte, bytes[position.val]? = some byte → buffer position = byte

theorem StartsWith.of_front {buffer : SocketBuffer} {bytes front : List UInt8}
    (starts : StartsWith buffer bytes) (within : front <+: bytes) : StartsWith buffer front := by
  obtain ⟨rest, rfl⟩ := within
  intro position byte found
  apply starts position byte
  rwa [List.getElem?_append_left (List.getElem?_eq_some_iff.mp found).1]

theorem startsWith_word_iff {buffer : SocketBuffer} {word : List UInt8} (four : word.length = 4) :
    StartsWith buffer word ↔ bytesAt buffer 0 = word := by
  constructor
  · intro starts
    obtain ⟨a, b, c, d, rfl⟩ := List.length_eq_four.mp four
    rw [bytesAt, starts 0 a rfl, starts (0 + 1) b rfl, starts (0 + 2) c rfl, starts (0 + 3) d rfl]
  · rintro rfl ⟨position, small⟩ byte found
    obtain ⟨below, -⟩ := List.getElem?_eq_some_iff.mp found
    rw [length_bytesAt] at below
    interval_cases position <;> exact Option.some_inj.mp found

theorem startsWith_words_iff {buffer : SocketBuffer} {first second : List UInt8}
    (first_four : first.length = 4) (second_four : second.length = 4) :
    StartsWith buffer (first ++ second) ↔
      bytesAt buffer 0 = first ∧ bytesAt buffer 4 = second := by
  constructor
  · intro starts
    refine ⟨(startsWith_word_iff first_four).mp (starts.of_front (List.prefix_append _ _)), ?_⟩
    obtain ⟨a, b, c, d, rfl⟩ := List.length_eq_four.mp first_four
    obtain ⟨e, f, g, h, rfl⟩ := List.length_eq_four.mp second_four
    rw [bytesAt, starts 4 e rfl, starts (4 + 1) f rfl, starts (4 + 2) g rfl, starts (4 + 3) h rfl]
  · rintro ⟨rfl, rfl⟩ ⟨position, small⟩ byte found
    obtain ⟨below, -⟩ := List.getElem?_eq_some_iff.mp found
    rw [List.length_append, length_bytesAt, length_bytesAt] at below
    interval_cases position <;> exact Option.some_inj.mp found

/-- A buffer asks for a request exactly when it starts with its type and its currency. -/
theorem read_eq_request_iff (buffer : SocketBuffer) (request : ClientRequest) :
    Request.read buffer = request.request ↔ StartsWith buffer (request.message.take 8) := by
  cases request with
  | subscribe currencyId numLevels =>
      rw [ClientRequest.request, Request.read_eq_subscribe_iff]
      exact (startsWith_words_iff rfl (ByteOrder.length_toBig 4 _)).symm
  | unsubscribe currencyId =>
      rw [ClientRequest.request, Request.read_eq_unsubscribe_iff]
      exact (startsWith_words_iff rfl (ByteOrder.length_toBig 4 _)).symm
  | close =>
      rw [ClientRequest.request, Request.read_eq_close_iff]
      exact (startsWith_word_iff rfl).symm

/-! ## Reading a chunk -/

theorem Chunk.fill_of_lt {chunk : Chunk} {position : Fin 1024} {byte : UInt8}
    (found : chunk.bytes[position.val]? = some byte) (socketBuffer : SocketBuffer) :
    chunk.fill socketBuffer position = byte := by
  obtain ⟨below, same⟩ := List.getElem?_eq_some_iff.mp found
  rw [fill, dif_pos below, same]

theorem Chunk.fill_terminator {chunk : Chunk} {position : Fin 1024}
    (last : position.val = chunk.bytes.length) (socketBuffer : SocketBuffer) :
    chunk.fill socketBuffer position = 0 := by
  rw [fill, dif_neg last.not_lt, if_pos last]

theorem Chunk.fill_of_gt {chunk : Chunk} {position : Fin 1024}
    (behind : chunk.bytes.length < position.val) (socketBuffer : SocketBuffer) :
    chunk.fill socketBuffer position = socketBuffer position := by
  rw [fill, dif_neg behind.not_gt, if_neg behind.ne']

theorem Chunk.getElem?_of_fill {chunk : Chunk} (position : Fin 1024)
    (below : position.val < chunk.bytes.length) (socketBuffer : SocketBuffer) :
    chunk.bytes[position.val]? = some (chunk.fill socketBuffer position) := by
  rw [fill, dif_pos below, List.getElem?_eq_getElem below]

theorem startsWith_fill (chunk : Chunk) (socketBuffer : SocketBuffer) :
    StartsWith (chunk.fill socketBuffer) chunk.bytes :=
  fun _ _ found => Chunk.fill_of_lt found socketBuffer

/-- A chunk which starts with a whole request is read as that request. -/
theorem read_fill_of_front {chunk : Chunk} {request : ClientRequest}
    (whole : request.message <+: chunk.bytes) (socketBuffer : SocketBuffer) :
    Request.read (chunk.fill socketBuffer) = request.request :=
  (read_eq_request_iff _ request).mpr
    ((startsWith_fill chunk socketBuffer).of_front ((List.take_prefix 8 _).trans whole))

/-- Three bytes of a closing request are enough. -/
theorem read_fill_close {chunk : Chunk} (zeros : ∀ byte ∈ chunk.bytes, byte = 0)
    (three : 3 ≤ chunk.bytes.length) (socketBuffer : SocketBuffer) :
    Request.read (chunk.fill socketBuffer) = .close := by
  apply (read_eq_request_iff _ ClientRequest.close).mpr
  change StartsWith _ [0, 0, 0, 0]
  intro position byte found
  obtain ⟨below, -⟩ := List.getElem?_eq_some_iff.mp found
  have zero : byte = 0 := by simpa using List.mem_of_getElem? found
  rw [zero]
  rcases Nat.lt_or_ge position.val chunk.bytes.length with inside | outside
  · apply Chunk.fill_of_lt
    rw [List.getElem?_eq_getElem inside, zeros _ (List.getElem_mem inside)]
  · refine Chunk.fill_terminator ?_ socketBuffer
    simp only [List.length_cons, List.length_nil] at below
    omega

/-! ## Serving a stream -/

/-- The buffers which a connection thread serves, up to the first closing request. -/
def servedBuffers : SocketBuffer → List Chunk → List SocketBuffer
  | _, [] => []
  | socketBuffer, chunk :: chunks =>
      let request := chunk.fill socketBuffer
      if Request.read request = .close then [request]
      else request :: servedBuffers request chunks

theorem read_servedBuffers_cons (socketBuffer : SocketBuffer) (chunk : Chunk)
    (chunks : List Chunk) :
    (servedBuffers socketBuffer (chunk :: chunks)).map Request.read =
      Request.read (chunk.fill socketBuffer) ::
        if Request.read (chunk.fill socketBuffer) = .close then []
        else (servedBuffers (chunk.fill socketBuffer) chunks).map Request.read := by
  rw [servedBuffers]
  split <;> rfl

/-- The bytes of a request, all in one piece. -/
def ClientRequest.chunk (request : ClientRequest) : Chunk where
  bytes := request.message
  nonempty := by
    apply List.ne_nil_of_length_pos
    cases request <;> simp [kind, Kind.length]
  fits := by
    cases request <;> simp [kind, Kind.length]

theorem ClientRequest.message_prefix_chunk (request : ClientRequest) :
    request.message <+: request.chunk.bytes :=
  List.prefix_rfl

/-- The buffer of a thread whose first reception is a request. -/
def ClientRequest.buffer (request : ClientRequest) : SocketBuffer :=
  request.chunk.fill fun _ => 0

@[simp]
theorem ClientRequest.read_buffer (request : ClientRequest) :
    Request.read request.buffer = request.request :=
  read_fill_of_front request.message_prefix_chunk _

section Serving

variable {Price : Type*} [LinearOrder Price]

theorem Request.read_eq_close_iff_type (buffer : SocketBuffer) :
    Request.read buffer = .close ↔ (receivedData buffer).messageType = 0 := by
  rw [read]
  split_ifs <;> simp_all

namespace CoreComponent

/-- Serving depends on the type of the request, and on its currency for a subscription or its
cancellation. -/
theorem processRequest_eq {left right : SocketBuffer}
    (types : (receivedData left).messageType = (receivedData right).messageType)
    (currencies : (receivedData right).messageType = 1 ∨ (receivedData right).messageType = 2 →
      (receivedData left).currencyName = (receivedData right).currencyName)
    (clientSocket : Socket) (core : CoreComponent Price) :
    processRequest left clientSocket core = processRequest right clientSocket core := by
  by_cases named : (receivedData left).currencyName = (receivedData right).currencyName
  · rw [processRequest, processRequest, types, named]
  · obtain ⟨not_subscribe, not_unsubscribe⟩ := not_or.mp (mt currencies named)
    rw [processRequest, processRequest, types]
    dsimp only
    rw [if_neg not_subscribe, if_neg not_unsubscribe, if_neg not_subscribe,
      if_neg not_unsubscribe]

/-- Serving depends on what the request asks for. -/
theorem processRequest_congr {left right : SocketBuffer}
    (same : Request.read left = Request.read right) (clientSocket : Socket)
    (core : CoreComponent Price) :
    (processRequest left clientSocket core).map Prod.fst =
      (processRequest right clientSocket core).map Prod.fst := by
  rw [Request.read, Request.read] at same
  have types : (receivedData left).messageType = (receivedData right).messageType := by
    split_ifs at same <;> simp_all
  rw [processRequest_eq types]
  rintro (subscribe | unsubscribe)
  · simpa [types, subscribe] using same
  · simpa [types, unsubscribe] using same

theorem processRequests_congr {left right : List SocketBuffer}
    (same : left.map Request.read = right.map Request.read) (clientSocket : Socket)
    (core : CoreComponent Price) :
    processRequests (left.map fun request => (clientSocket, request)) core =
      processRequests (right.map fun request => (clientSocket, request)) core := by
  induction left generalizing right core with
  | nil =>
      obtain rfl := List.map_eq_nil_iff.mp same.symm
      rfl
  | cons first left induction =>
      obtain ⟨second, right, rfl, firsts, rests⟩ := List.map_eq_cons_iff.mp same.symm
      simp only [processRequests, List.map_cons, List.foldlM_cons,
        processRequest_congr firsts.symm]
      cases (processRequest second clientSocket core).map Prod.fst with
      | none => rfl
      | some next => exact induction rests.symm next

/-- A connection thread serves the buffers one by one. -/
theorem connectionHandler_spec {core : CoreComponent Price} (serviceable : core.Serviceable)
    (clientSocket : Socket) (socketBuffer : SocketBuffer) (chunks : List Chunk) :
    ∃ handled, connectionHandler clientSocket socketBuffer (chunks.map .received) core =
        some handled ∧
      handled.served = servedBuffers socketBuffer chunks ∧
        processRequests ((servedBuffers socketBuffer chunks).map fun request =>
          (clientSocket, request)) core = some handled.core := by
  induction chunks generalizing core socketBuffer with
  | nil => exact ⟨_, rfl, rfl, rfl⟩
  | cons chunk chunks induction =>
      obtain ⟨next, served, serves⟩ :=
        processRequest_spec serviceable (chunk.fill socketBuffer) clientSocket
      have round : connectionRound clientSocket core (.received (chunk.fill socketBuffer)) =
          some (next, decide ((receivedData (chunk.fill socketBuffer)).messageType ≠ 0)) := by
        rw [connectionRound, served, Option.map_some]
      have first : processRequest (chunk.fill socketBuffer) clientSocket core =
          some (next, (receivedData (chunk.fill socketBuffer)).messageType) := served
      by_cases close : (receivedData (chunk.fill socketBuffer)).messageType = 0
      · refine ⟨{ core := next, served := [chunk.fill socketBuffer], closed := true }, ?_, ?_, ?_⟩
        · simp [connectionHandler, round, close]
        · simp [servedBuffers, Request.read_eq_close_iff_type, close]
        · simp [servedBuffers, Request.read_eq_close_iff_type, close, processRequests, first]
      · obtain ⟨handled, handles, all, final⟩ :=
          induction (serves.serviceable serviceable) (chunk.fill socketBuffer)
        refine ⟨{ handled with served := chunk.fill socketBuffer :: handled.served }, ?_, ?_, ?_⟩
        · simp [connectionHandler, round, close, handles]
        · simp [servedBuffers, Request.read_eq_close_iff_type, close, all]
        · rw [processRequests] at final
          simp [servedBuffers, Request.read_eq_close_iff_type, close, processRequests, first, final]

end CoreComponent

end Serving

end CryptoInfra
