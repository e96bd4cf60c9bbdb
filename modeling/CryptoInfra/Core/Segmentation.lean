import CryptoInfra.Core.Framing

/-!
# Segmentations

The requests of a client form one stream of bytes, which the receiving calls of its connection cut
anywhere. A segmentation delivers every sequence of requests exactly when each receiving call
returns one request. Only the end of the stream is more tolerant.
-/

namespace CryptoInfra

/-! ## Segmentations -/

/-- A way to cut the bytes of requests of given kinds into receiving calls. -/
structure Segmentation where
  /-- The kinds of the requests, in order. -/
  kinds : List Kind
  /-- The numbers of bytes which the receiving calls return, in order. -/
  lengths : List ℕ
  /-- A receiving call returns at least one byte and leaves room for the terminator. -/
  bounded : ∀ length ∈ lengths, 0 < length ∧ length ≤ 1023
  /-- The receiving calls return all bytes. -/
  covers : lengths.sum = (kinds.map Kind.length).sum

namespace Segmentation

/-- The chunks are the bytes of the requests, cut in this way. -/
structure Cuts (segmentation : Segmentation) (requests : List ClientRequest)
    (chunks : List Chunk) : Prop where
  /-- The requests are of the given kinds. -/
  kinds : requests.map ClientRequest.kind = segmentation.kinds
  /-- The chunks have the given lengths. -/
  lengths : chunks.map (fun chunk => chunk.bytes.length) = segmentation.lengths
  /-- The chunks make up the stream of the requests. -/
  bytes : chunks.flatMap Chunk.bytes = requests.flatMap ClientRequest.message

end Segmentation

/-- Every receiving call returns one request. A closing request, which must be the last one, may
lack its last byte, or be one byte early with the three others alone. -/
def Aligned : List Kind → List ℕ → Prop
  | [], [] => True
  | kind :: kinds, length :: lengths =>
      if kind = .close then kinds = [] ∧ 3 ≤ length
      else (length = kind.length ∧ Aligned kinds lengths) ∨
        (length = kind.length + 1 ∧ kinds = [.close] ∧ lengths = [3])
  | _, _ => False

/-! ## Aligned segmentations deliver -/

/-- An aligned segmentation serves the requests, whatever they contain. -/
theorem served_of_aligned {requests : List ClientRequest} {chunks : List Chunk}
    (aligned : Aligned (requests.map ClientRequest.kind)
      (chunks.map fun chunk => chunk.bytes.length))
    (bytes : chunks.flatMap Chunk.bytes = requests.flatMap ClientRequest.message)
    (socketBuffer : SocketBuffer) :
    (servedBuffers socketBuffer chunks).map Request.read =
      requests.map ClientRequest.request := by
  induction requests generalizing chunks socketBuffer with
  | nil =>
      cases chunks with
      | nil => rfl
      | cons chunk chunks => exact aligned.elim
  | cons request requests induction =>
      cases chunks with
      | nil => exact aligned.elim
      | cons chunk chunks =>
          simp only [List.map_cons, Aligned] at aligned
          simp only [List.flatMap_cons] at bytes
          rw [read_servedBuffers_cons, List.map_cons]
          split at aligned <;> rename_i close
          · obtain ⟨last, three⟩ := aligned
            obtain rfl := List.map_eq_nil_iff.mp last
            obtain rfl := ClientRequest.kind_eq_close_iff.mp close
            have zeros : ∀ byte ∈ chunk.bytes, byte = 0 := by
              intro byte member
              have whole := List.mem_append_left (chunks.flatMap Chunk.bytes) member
              rw [bytes] at whole
              simpa [ClientRequest.message_close] using whole
            rw [read_fill_close zeros three, if_pos rfl]
            rfl
          · have goes_on : request.request ≠ .close :=
              mt (ClientRequest.kind_eq_close_iff.mpr ∘ ClientRequest.request_eq_close_iff.mp) close
            rcases aligned with ⟨whole, aligned⟩ | ⟨early, last, three⟩
            · rw [← ClientRequest.length_message] at whole
              obtain ⟨same, rest⟩ := List.append_inj bytes whole
              rw [read_fill_of_front ⟨[], by rw [List.append_nil, same]⟩, if_neg goes_on,
                induction aligned rest]
            · obtain ⟨request', rfl, closes⟩ := List.map_eq_singleton_iff.mp last
              obtain rfl := ClientRequest.kind_eq_close_iff.mp closes
              obtain ⟨chunk', rfl, length⟩ := List.map_eq_singleton_iff.mp three
              rw [← ClientRequest.length_message] at early
              have split : chunk.bytes = request.message ++ [0] ∧ chunk'.bytes = [0, 0, 0] := by
                apply List.append_inj
                · simpa [ClientRequest.message_close] using bytes
                · simpa using early
              rw [read_fill_of_front (split.1 ▸ List.prefix_append _ _), if_neg goes_on,
                read_servedBuffers_cons, read_fill_close (by simp [split.2]) length.ge,
                if_pos rfl]
              rfl

/-! ## Other segmentations misread some requests -/

/-- The request of a kind which carries the same word everywhere. -/
def Kind.filled (word : UInt32) : Kind → ClientRequest
  | subscribe => .subscribe word word
  | unsubscribe => .unsubscribe word
  | close => .close

@[simp]
theorem Kind.kind_filled (word : UInt32) (kind : Kind) : (kind.filled word).kind = kind := by
  cases kind <;> rfl

@[simp]
theorem Kind.kind_comp_filled (word : UInt32) : ClientRequest.kind ∘ Kind.filled word = id :=
  funext (Kind.kind_filled word)

theorem Kind.request_filled_ne_close {kind : Kind} (open_ended : kind ≠ .close) (word : UInt32) :
    (kind.filled word).request ≠ .close := by
  cases kind with
  | subscribe => exact nofun
  | unsubscribe => exact nofun
  | close => exact absurd rfl open_ended

/-- The word whose four bytes are all `255`. -/
def loud : UInt32 := 0xFFFFFFFF

theorem message_loud {kind : Kind} (open_ended : kind ≠ .close) :
    ∃ type : UInt8, type ≠ 255 ∧ (kind.filled loud).message =
      [0, 0, 0, type] ++ List.replicate (kind.length - 4) 255 := by
  cases kind with
  | subscribe => exact ⟨1, by decide, rfl⟩
  | unsubscribe => exact ⟨2, by decide, rfl⟩
  | close => exact absurd rfl open_ended

/-- A loud request has its loud bytes behind its type. -/
theorem loud_iff {kind : Kind} (open_ended : kind ≠ .close) {position : ℕ} :
    (kind.filled loud).message[position]? = some 255 ↔ 4 ≤ position ∧ position < kind.length := by
  obtain ⟨type, different, message⟩ := message_loud open_ended
  rw [message]
  rcases Nat.lt_or_ge position 4 with front | back
  · interval_cases position <;> simp [different]
  · rw [List.getElem?_append_right back]
    simp [List.getElem?_replicate, back]

theorem quiet_bytes (kind : Kind) : ∀ byte ∈ (kind.filled 0).message, byte ≠ 255 := by
  rintro byte member rfl
  cases kind <;> exact absurd member (by decide)

/-- What an earlier request leaves in a buffer: a type, and a currency with a low first byte. -/
structure Stale (buffer : SocketBuffer) : Prop where
  /-- The last byte of the type. -/
  type : buffer 3 ≠ 0
  /-- The first byte of the currency. -/
  currency : buffer 4 = 0

theorem stale_fill {kind : Kind} (open_ended : kind ≠ .close) {chunk : Chunk}
    (front : (kind.filled 0).message <+: chunk.bytes) (socketBuffer : SocketBuffer) :
    Stale (chunk.fill socketBuffer) := by
  have message := (startsWith_fill chunk socketBuffer).of_front front
  cases kind with
  | subscribe =>
      refine ⟨?_, message 4 0 rfl⟩
      rw [message 3 1 rfl]
      decide
  | unsubscribe =>
      refine ⟨?_, message 4 0 rfl⟩
      rw [message 3 2 rfl]
      decide
  | close => exact absurd rfl open_ended

/-- A buffer which is read as a request starts with the first byte of a type. -/
theorem first_byte_of_read {buffer : SocketBuffer} {request : ClientRequest}
    (read : Request.read buffer = request.request) : buffer 0 = 0 := by
  have starts := (read_eq_request_iff buffer request).mp read
  cases request <;> exact starts 0 0 rfl

/-- A buffer which is read as a loud request has a loud currency behind a type which is not. -/
theorem bytes_of_read_loud {buffer : SocketBuffer} {kind : Kind} (open_ended : kind ≠ .close)
    (read : Request.read buffer = (kind.filled loud).request) :
    buffer 3 ≠ 255 ∧ ∀ position : Fin 1024, 4 ≤ position.val → position.val < 8 →
      buffer position = 255 := by
  have starts := (read_eq_request_iff buffer _).mp read
  constructor
  · cases kind with
    | subscribe =>
        rw [starts 3 1 rfl]
        decide
    | unsubscribe =>
        rw [starts 3 2 rfl]
        decide
    | close => exact absurd rfl open_ended
  · intro position back front
    apply starts
    rw [List.getElem?_take_of_lt front, loud_iff open_ended]
    refine ⟨back, ?_⟩
    cases kind with
    | subscribe => exact front.trans (by decide)
    | unsubscribe => exact front
    | close => exact absurd rfl open_ended

/-- Behind a stale buffer, a chunk which is read as a loud request holds its type and currency. -/
theorem covers_of_read_loud {kind : Kind} (open_ended : kind ≠ .close)
    {socketBuffer : SocketBuffer} (stale : Stale socketBuffer) {chunk : Chunk}
    (read : Request.read (chunk.fill socketBuffer) = (kind.filled loud).request) :
    8 ≤ chunk.bytes.length := by
  have currency := (bytes_of_read_loud open_ended read).2
  by_contra below
  rcases Nat.lt_or_ge chunk.bytes.length 4 with front | back
  · have kept : chunk.fill socketBuffer 4 = socketBuffer 4 :=
      Chunk.fill_of_gt front socketBuffer
    rw [currency 4 le_rfl (by decide), stale.currency] at kept
    exact absurd kept (by decide)
  · have fits : chunk.bytes.length < 1024 := by omega
    have terminated : chunk.fill socketBuffer ⟨chunk.bytes.length, fits⟩ = 0 :=
      Chunk.fill_terminator rfl socketBuffer
    rw [currency _ back (Nat.lt_of_not_le below)] at terminated
    exact absurd terminated (by decide)

/-- Too short a chunk misreads a loud request, or its successor. -/
theorem misread_short {kind : Kind} (open_ended : kind ≠ .close) {socketBuffer : SocketBuffer}
    (stale : Stale socketBuffer) {chunk : Chunk} {chunks : List Chunk}
    {requests : List ClientRequest} (short : chunk.bytes.length < kind.length)
    (bytes : chunk.bytes ++ chunks.flatMap Chunk.bytes =
      (kind.filled loud).message ++ requests.flatMap ClientRequest.message) :
    (servedBuffers socketBuffer (chunk :: chunks)).map Request.read ≠
      (kind.filled loud).request :: requests.map ClientRequest.request := by
  rw [read_servedBuffers_cons]
  intro same
  obtain ⟨first, rest⟩ := List.cons.inj same
  have long := covers_of_read_loud open_ended stale first
  rw [first, if_neg (Kind.request_filled_ne_close open_ended loud)] at rest
  have loud_next : (chunks.flatMap Chunk.bytes)[0]? = some 255 := by
    have at_cut : (kind.filled loud).message[chunk.bytes.length]? = some 255 :=
      (loud_iff open_ended).mpr ⟨by omega, short⟩
    have below : chunk.bytes.length < (kind.filled loud).message.length := by
      simpa using short
    have whole := congrArg (·[chunk.bytes.length]?) bytes
    simp only [List.getElem?_append_right le_rfl, Nat.sub_self,
      List.getElem?_append_left below, at_cut] at whole
    exact whole
  cases chunks with
  | nil => exact absurd loud_next (by simp)
  | cons next chunks =>
      cases requests with
      | nil =>
          rw [read_servedBuffers_cons] at rest
          exact List.cons_ne_nil _ _ rest
      | cons request requests =>
          rw [read_servedBuffers_cons] at rest
          have read := first_byte_of_read (List.cons.inj rest).1
          have head : next.bytes[(0 : Fin 1024).val]? = some 255 := by
            rw [List.flatMap_cons, List.getElem?_append_left
              (List.length_pos_of_ne_nil next.nonempty)] at loud_next
            exact loud_next
          rw [Chunk.fill_of_lt head] at read
          exact absurd read (by decide)

/-- In a loud request which quiet ones follow, loud bytes are its own. -/
theorem lt_of_loud_byte {kind : Kind} {kinds : List Kind} {position : ℕ}
    (found : ((kind.filled loud).message ++
      (kinds.map (Kind.filled 0)).flatMap ClientRequest.message)[position]? = some 255) :
    position < kind.length := by
  by_contra outside
  have within : (kind.filled loud).message.length ≤ position := by simpa using outside
  rw [List.getElem?_append_right within] at found
  obtain ⟨request, member, byte⟩ := List.mem_flatMap.mp (List.mem_of_getElem? found)
  obtain ⟨other, -, rfl⟩ := List.mem_map.mp member
  exact quiet_bytes other 255 byte rfl

/-- Behind a stale buffer, a chunk which starts inside a loud request does not read as it. -/
theorem misread_inside {next : Kind} (open_ended : next ≠ .close) {socketBuffer : SocketBuffer}
    (stale : Stale socketBuffer) {chunk : Chunk} {kinds : List Kind} {swallowed rest : List UInt8}
    (some_swallowed : swallowed ≠ [])
    (bytes : (next.filled loud).message ++
      (kinds.map (Kind.filled 0)).flatMap ClientRequest.message =
        swallowed ++ (chunk.bytes ++ rest)) :
    Request.read (chunk.fill socketBuffer) ≠ (next.filled loud).request := by
  intro read
  obtain ⟨type, currency⟩ := bytes_of_read_loud open_ended read
  have loud_byte : chunk.fill socketBuffer 4 = 255 := currency 4 le_rfl (by decide)
  have shown : ∀ position, position < chunk.bytes.length →
      ((next.filled loud).message ++ (kinds.map (Kind.filled 0)).flatMap
        ClientRequest.message)[swallowed.length + position]? = chunk.bytes[position]? := by
    intro position below
    rw [bytes, List.getElem?_append_right (Nat.le_add_right _ _), Nat.add_sub_cancel_left,
      List.getElem?_append_left below]
  have long : 4 < chunk.bytes.length :=
    Nat.lt_of_lt_of_le (by decide) (covers_of_read_loud open_ended stale read)
  have fourth := shown 4 long
  have fourth_byte : chunk.bytes[4]? = some (chunk.fill socketBuffer 4) :=
    Chunk.getElem?_of_fill 4 long socketBuffer
  rw [fourth_byte, loud_byte] at fourth
  have inside := lt_of_loud_byte fourth
  have some_length := List.length_pos_of_ne_nil some_swallowed
  have third := shown 3 (by omega)
  have third_byte : chunk.bytes[3]? = some (chunk.fill socketBuffer 3) :=
    Chunk.getElem?_of_fill 3 (Nat.lt_of_succ_lt long) socketBuffer
  rw [List.getElem?_append_left (by rw [ClientRequest.length_message, Kind.kind_filled]; omega),
    (loud_iff open_ended).mpr ⟨by omega, by omega⟩, third_byte] at third
  exact type (Option.some_inj.mp third).symm

/-- Less than three bytes do not close a connection which has served a request. -/
theorem misread_close {socketBuffer : SocketBuffer} (stale : Stale socketBuffer) {chunk : Chunk}
    (short : chunk.bytes.length < 3) :
    Request.read (chunk.fill socketBuffer) ≠ .close := by
  intro read
  have zero := (read_eq_request_iff _ ClientRequest.close).mp read 3 0 rfl
  have kept : chunk.fill socketBuffer 3 = socketBuffer 3 := Chunk.fill_of_gt short socketBuffer
  exact stale.type (kept.symm.trans zero)

/-- Behind a stale buffer, a closing request is read too early, or too late. -/
theorem misread_last {kinds : List Kind} {socketBuffer : SocketBuffer} (stale : Stale socketBuffer)
    {chunk : Chunk} {chunks : List Chunk}
    (crossing : ¬ (kinds = [] ∧ 3 ≤ chunk.bytes.length)) :
    (servedBuffers socketBuffer (chunk :: chunks)).map Request.read ≠
      .close :: (kinds.map (Kind.filled 0)).map ClientRequest.request := by
  rw [read_servedBuffers_cons]
  intro same
  obtain ⟨read, rest⟩ := List.cons.inj same
  rw [read, if_pos rfl] at rest
  have last : kinds = [] := by simpa using rest.symm
  have short : chunk.bytes.length < 3 := Nat.lt_of_not_le fun three => crossing ⟨last, three⟩
  exact misread_close stale short read

/-- Behind a stale buffer, the rest of a closing request reads as it only when one byte is
missing. -/
theorem close_split_of_read {socketBuffer : SocketBuffer} (stale : Stale socketBuffer)
    {swallowed : List UInt8} (some_swallowed : swallowed ≠ []) {chunk : Chunk}
    {chunks : List Chunk} (stream : ClientRequest.close.message =
      swallowed ++ (chunk.bytes ++ chunks.flatMap Chunk.bytes))
    (read : Request.read (chunk.fill socketBuffer) = .close) :
    swallowed.length = 1 ∧ (chunk :: chunks).map (fun chunk => chunk.bytes.length) = [3] := by
  have three : 3 ≤ chunk.bytes.length := by
    by_contra short
    exact misread_close stale (Nat.lt_of_not_le short) read
  have some_length := List.length_pos_of_ne_nil some_swallowed
  have lengths := congrArg List.length stream
  rw [ClientRequest.message_close, List.length_append, List.length_append] at lengths
  change 4 = _ at lengths
  cases chunks with
  | nil =>
      rw [List.flatMap_nil, List.length_nil] at lengths
      refine ⟨by omega, ?_⟩
      rw [List.map_singleton, List.singleton_inj]
      omega
  | cons next chunks =>
      have some_next := List.length_pos_of_ne_nil next.nonempty
      rw [List.flatMap_cons, List.length_append] at lengths
      omega

/-- Too long a chunk swallows the start of what follows its message. -/
theorem exists_swallowed {received message later rest : List UInt8}
    (long : message.length < received.length) (bytes : received ++ later = message ++ rest) :
    ∃ swallowed, swallowed ≠ [] ∧ received = message ++ swallowed ∧ rest = swallowed ++ later := by
  rcases List.append_eq_append_iff.mp bytes with ⟨missing, rfl, -⟩ | ⟨swallowed, rfl, split⟩
  · rw [List.length_append] at long
    omega
  · refine ⟨swallowed, ?_, rfl, split⟩
    rintro rfl
    rw [List.append_nil] at long
    exact Nat.lt_irrefl _ long

/-- The start of a loud request which too long a chunk has swallowed makes it misread. -/
theorem misread_long {kind next : Kind} (open_ended : kind ≠ .close) {socketBuffer : SocketBuffer}
    {chunk : Chunk} {chunks : List Chunk} {kinds : List Kind}
    (long : kind.length < chunk.bytes.length)
    (special : ¬ (chunk.bytes.length = kind.length + 1 ∧ next :: kinds = [.close] ∧
      chunks.map (fun chunk => chunk.bytes.length) = [3]))
    (bytes : chunk.bytes ++ chunks.flatMap Chunk.bytes =
      (kind.filled 0).message ++ ((next.filled loud).message ++
        (kinds.map (Kind.filled 0)).flatMap ClientRequest.message)) :
    (servedBuffers socketBuffer (chunk :: chunks)).map Request.read ≠
      (kind.filled 0).request :: (next.filled loud).request ::
        (kinds.map (Kind.filled 0)).map ClientRequest.request := by
  have length_message : (kind.filled 0).message.length = kind.length := by simp
  obtain ⟨swallowed, some_swallowed, whole, stream⟩ :=
    exists_swallowed (length_message ▸ long) bytes
  have front : (kind.filled 0).message <+: chunk.bytes := ⟨swallowed, whole.symm⟩
  have stale := stale_fill open_ended front socketBuffer
  rw [read_servedBuffers_cons, read_fill_of_front front,
    if_neg (Kind.request_filled_ne_close open_ended 0)]
  intro same
  have rest := (List.cons.inj same).2
  cases chunks with
  | nil => exact absurd rest nofun
  | cons second chunks =>
      rw [read_servedBuffers_cons] at rest
      obtain ⟨read, more⟩ := List.cons.inj rest
      rw [List.flatMap_cons] at stream
      by_cases closes : next = .close
      · subst closes
        rw [read] at more
        obtain rfl : kinds = [] := by simpa [Kind.filled, ClientRequest.request] using more
        rw [List.map_nil, List.flatMap_nil, List.append_nil] at stream
        obtain ⟨one, last⟩ := close_split_of_read stale some_swallowed stream read
        refine special ⟨?_, rfl, last⟩
        rw [whole, List.length_append, length_message, one]
      · exact misread_inside closes stale some_swallowed stream read

/-- A chunk which is a whole request passes a misreading of the later chunks on. -/
theorem misread_later {kind : Kind} (open_ended : kind ≠ .close) {socketBuffer : SocketBuffer}
    {chunk : Chunk} {chunks : List Chunk} {requests : List ClientRequest}
    (whole : chunk.bytes.length = kind.length)
    (bytes : chunk.bytes ++ chunks.flatMap Chunk.bytes =
      (kind.filled 0).message ++ requests.flatMap ClientRequest.message)
    (misread : ∀ buffer, Stale buffer →
      chunks.flatMap Chunk.bytes = requests.flatMap ClientRequest.message →
        (servedBuffers buffer chunks).map Request.read ≠ requests.map ClientRequest.request) :
    (servedBuffers socketBuffer (chunk :: chunks)).map Request.read ≠
      (kind.filled 0).request :: requests.map ClientRequest.request := by
  obtain ⟨same, stream⟩ := List.append_inj bytes (by simpa using whole)
  have front : (kind.filled 0).message <+: chunk.bytes :=
    ⟨[], by rw [List.append_nil, same]⟩
  rw [read_servedBuffers_cons, read_fill_of_front front,
    if_neg (Kind.request_filled_ne_close open_ended 0)]
  intro equal
  exact misread _ (stale_fill open_ended front socketBuffer) stream (List.cons.inj equal).2

/-- A segmentation which is not aligned misreads some requests of its kinds, behind any stale
buffer. -/
theorem exists_misread {kinds : List Kind} {lengths : List ℕ}
    (positive : ∀ length ∈ lengths, 0 < length)
    (covers : lengths.sum = (kinds.map Kind.length).sum) (crossing : ¬ Aligned kinds lengths) :
    ∃ requests : List ClientRequest, requests.map ClientRequest.kind = kinds ∧
      ∀ socketBuffer, Stale socketBuffer → ∀ chunks : List Chunk,
        chunks.map (fun chunk => chunk.bytes.length) = lengths →
          chunks.flatMap Chunk.bytes = requests.flatMap ClientRequest.message →
            (servedBuffers socketBuffer chunks).map Request.read ≠
              requests.map ClientRequest.request := by
  induction kinds generalizing lengths with
  | nil =>
      cases lengths with
      | nil => exact absurd trivial crossing
      | cons length lengths =>
          have some_length := positive length List.mem_cons_self
          simp only [List.sum_cons, List.map_nil, List.sum_nil] at covers
          omega
  | cons kind kinds induction =>
      cases lengths with
      | nil =>
          have some_length := kind.length_pos
          simp only [List.sum_nil, List.map_cons, List.sum_cons] at covers
          omega
      | cons length lengths =>
          simp only [Aligned] at crossing
          simp only [List.sum_cons, List.map_cons] at covers
          by_cases open_ended : kind ≠ .close
          · rw [if_neg open_ended] at crossing
            rcases Nat.lt_trichotomy length kind.length with short | whole | long
            · refine ⟨kind.filled loud :: kinds.map (Kind.filled 0), by simp, ?_⟩
              intro socketBuffer stale chunks cut bytes
              obtain ⟨chunk, chunks, rfl, rfl, -⟩ := List.map_eq_cons_iff.mp cut
              rw [List.flatMap_cons, List.flatMap_cons] at bytes
              exact misread_short open_ended stale short bytes
            · obtain ⟨requests, kinds_eq, misread⟩ := induction
                (fun other member => positive other (List.mem_cons_of_mem length member))
                (by omega) (fun aligned => crossing (Or.inl ⟨whole, aligned⟩))
              refine ⟨kind.filled 0 :: requests, by simp [kinds_eq], ?_⟩
              intro socketBuffer _ chunks cut bytes
              obtain ⟨chunk, chunks, rfl, rfl, rest⟩ := List.map_eq_cons_iff.mp cut
              rw [List.flatMap_cons, List.flatMap_cons] at bytes
              exact misread_later open_ended whole bytes fun buffer stale stream =>
                misread buffer stale chunks rest stream
            · cases kinds with
              | nil =>
                  simp only [List.map_nil, List.sum_nil] at covers
                  omega
              | cons next kinds =>
                  refine ⟨kind.filled 0 :: next.filled loud :: kinds.map (Kind.filled 0),
                    by simp, ?_⟩
                  intro socketBuffer _ chunks cut bytes
                  obtain ⟨chunk, chunks, rfl, rfl, rest⟩ := List.map_eq_cons_iff.mp cut
                  rw [List.flatMap_cons, List.flatMap_cons, List.flatMap_cons] at bytes
                  refine misread_long open_ended long ?_ bytes
                  rw [rest]
                  exact fun special => crossing (Or.inr special)
          · rw [not_not] at open_ended
            subst open_ended
            rw [if_pos rfl] at crossing
            refine ⟨.close :: kinds.map (Kind.filled 0), by simp [ClientRequest.kind], ?_⟩
            intro socketBuffer stale chunks cut _
            obtain ⟨chunk, chunks, rfl, rfl, -⟩ := List.map_eq_cons_iff.mp cut
            exact misread_last stale crossing

/-! ## The law of framing -/

section Law

variable {Price : Type*} [LinearOrder Price]

/-- The connection thread serves exactly the requests, and leaves the server in the state which they
leave it in one by one. -/
def CarriesOut (clientSocket : Socket) (socketBuffer : SocketBuffer) (core : CoreComponent Price)
    (requests : List ClientRequest) (chunks : List Chunk) : Prop :=
  ∃ handled, CoreComponent.connectionHandler clientSocket socketBuffer
      (chunks.map .received) core = some handled ∧
    handled.served.map Request.read = requests.map ClientRequest.request ∧
      CoreComponent.processRequests (requests.map fun request =>
        (clientSocket, request.chunk.fill fun _ => 0)) core = some handled.core

theorem carriesOut_iff {core : CoreComponent Price} (serviceable : core.Serviceable)
    (clientSocket : Socket) (socketBuffer : SocketBuffer) (requests : List ClientRequest)
    (chunks : List Chunk) :
    CarriesOut clientSocket socketBuffer core requests chunks ↔
      (servedBuffers socketBuffer chunks).map Request.read =
        requests.map ClientRequest.request := by
  obtain ⟨handled, handles, served, final⟩ :=
    CoreComponent.connectionHandler_spec serviceable clientSocket socketBuffer chunks
  constructor
  · rintro ⟨other, handles', same, -⟩
    rw [handles, Option.some_inj] at handles'
    rwa [← served, handles']
  · intro same
    refine ⟨handled, handles, served ▸ same, ?_⟩
    have one_by_one : (requests.map fun request => request.chunk.fill fun _ => 0).map
        Request.read = (servedBuffers socketBuffer chunks).map Request.read := by
      rw [same, List.map_map]
      apply List.map_congr_left
      intro request _
      rw [Function.comp_apply, read_fill_of_front request.message_prefix_chunk]
    have congr := CoreComponent.processRequests_congr one_by_one clientSocket core
    rw [List.map_map] at congr
    exact congr.trans final

theorem exists_chunks {lengths : List ℕ} (bounded : ∀ length ∈ lengths, 0 < length ∧ length ≤ 1023)
    {bytes : List UInt8} (covers : bytes.length = lengths.sum) :
    ∃ chunks : List Chunk, chunks.map (fun chunk => chunk.bytes.length) = lengths ∧
      chunks.flatMap Chunk.bytes = bytes := by
  induction lengths generalizing bytes with
  | nil => exact ⟨[], rfl, (List.length_eq_zero_iff.mp covers).symm⟩
  | cons length lengths induction =>
      obtain ⟨positive, fits⟩ := bounded length List.mem_cons_self
      rw [List.sum_cons] at covers
      have taken : (bytes.take length).length = length := by
        rw [List.length_take]
        omega
      have left : (bytes.drop length).length = lengths.sum := by
        rw [List.length_drop]
        omega
      obtain ⟨chunks, cut, stream⟩ := induction
        (fun other member => bounded other (List.mem_cons_of_mem length member)) left
      refine ⟨{ bytes := bytes.take length, nonempty := ?_, fits := by omega } :: chunks, ?_, ?_⟩
      · exact List.ne_nil_of_length_pos (by omega)
      · rw [List.map_cons, cut, taken]
      · rw [List.flatMap_cons, stream, List.take_append_drop]

/-- A segmentation delivers all requests of its kinds, on every socket, behind every buffer and to
every serviceable server, exactly when it is aligned. -/
theorem segmentation_delivers_iff (segmentation : Segmentation) :
    (∀ requests chunks, segmentation.Cuts requests chunks →
      ∀ clientSocket socketBuffer (core : CoreComponent Price), core.Serviceable →
        CarriesOut clientSocket socketBuffer core requests chunks) ↔
      Aligned segmentation.kinds segmentation.lengths := by
  constructor
  · intro delivers
    by_contra crossing
    obtain ⟨requests, kinds, misread⟩ := exists_misread
      (fun length member => (segmentation.bounded length member).1) segmentation.covers crossing
    have total : (requests.flatMap ClientRequest.message).length = segmentation.lengths.sum := by
      rw [segmentation.covers, ← kinds, List.length_flatMap, List.map_map]
      simp [Function.comp_def]
    obtain ⟨chunks, cut, stream⟩ := exists_chunks segmentation.bounded total
    let stale : SocketBuffer := fun position => if position = 3 then 1 else 0
    have carried := delivers requests chunks ⟨kinds, cut, stream⟩ 0 stale
      CoreComponent.new CoreComponent.serviceable_new
    rw [carriesOut_iff CoreComponent.serviceable_new] at carried
    exact misread stale ⟨by decide, by decide⟩ chunks cut stream carried
  · intro aligned requests chunks cuts clientSocket socketBuffer core serviceable
    rw [carriesOut_iff serviceable]
    rw [← cuts.kinds, ← cuts.lengths] at aligned
    exact served_of_aligned aligned cuts.bytes socketBuffer

end Law

/-- Two subscriptions which one receiving call returns together. -/
def coalesced : Chunk where
  bytes := (ClientRequest.subscribe 1 1).message ++ (ClientRequest.subscribe 2 1).message
  nonempty := by decide
  fits := by decide

/-- Of two subscriptions in one chunk the second is lost. -/
theorem coalesced_not_carried_out :
    [coalesced].flatMap Chunk.bytes =
        [.subscribe 1 1, .subscribe 2 1].flatMap ClientRequest.message ∧
      ¬ CarriesOut 4 (fun _ => 0) (CoreComponent.new : CoreComponent ℕ)
        [.subscribe 1 1, .subscribe 2 1] [coalesced] ∧
      (CoreComponent.connectionHandler 4 (fun _ => 0) [.received coalesced]
        (CoreComponent.new : CoreComponent ℕ)).map (fun handled => handled.core.clientSendList 2) =
          some [] := by
  refine ⟨by simp [coalesced], ?_, by decide +kernel⟩
  rw [carriesOut_iff CoreComponent.serviceable_new]
  decide +kernel

end CryptoInfra
