import CryptoInfra.Core.Framing

/-!
# Leftovers in the buffer

A connection thread knows how many bytes it received, but serves a request from its buffer without
this number. Behind the received bytes and their terminator the buffer holds what earlier calls left
there, or nothing that was ever written. This file determines when the received bytes alone settle
what the request does: its type must be complete, and so must its currency where it matters.
-/

namespace CryptoInfra

/-! ## Buffers and what they start with -/

/-- The bytes of a chunk and the terminator. -/
def Chunk.terminated (chunk : Chunk) : List UInt8 := chunk.bytes ++ [0]

/-- The buffer holds the bytes of a chunk and the terminator, and anything behind them. -/
def Chunk.StoredIn (chunk : Chunk) (buffer : SocketBuffer) : Prop :=
  StartsWith buffer chunk.terminated

@[simp]
theorem Chunk.length_terminated (chunk : Chunk) :
    chunk.terminated.length = chunk.bytes.length + 1 := by
  simp [terminated]

theorem Chunk.storedIn_fill (chunk : Chunk) (socketBuffer : SocketBuffer) :
    chunk.StoredIn (chunk.fill socketBuffer) := by
  intro position byte found
  rw [terminated, List.getElem?_append] at found
  split at found <;> rename_i below
  · exact fill_of_lt found socketBuffer
  · rw [List.getElem?_singleton] at found
    split at found <;> rename_i last
    · obtain rfl := Option.some_inj.mp found
      exact fill_terminator (by omega) socketBuffer
    · cases found

theorem exists_startsWith (bytes : List UInt8) : ∃ buffer, StartsWith buffer bytes := by
  refine ⟨fun position => bytes.getD position.val 0, ?_⟩
  intro position byte found
  simp [found]

/-- Of two texts at the front of one buffer, the shorter one is a prefix of the longer one. -/
theorem StartsWith.isPrefix {buffer : SocketBuffer} {front bytes : List UInt8}
    (first : StartsWith buffer front) (second : StartsWith buffer bytes)
    (shorter : front.length ≤ bytes.length) (fits : bytes.length ≤ 1024) : front <+: bytes := by
  rw [List.prefix_iff_getElem?]
  intro index below
  have inside : index < bytes.length := by omega
  have front_byte := first ⟨index, by omega⟩ _ (List.getElem?_eq_getElem below)
  have byte := second ⟨index, by omega⟩ _ (List.getElem?_eq_getElem inside)
  rw [List.getElem?_eq_getElem inside, ← byte, ← front_byte]

theorem StartsWith.bytesAt_zero {buffer : SocketBuffer} {bytes : List UInt8}
    (starts : StartsWith buffer bytes) (four : 4 ≤ bytes.length) :
    bytesAt buffer 0 = bytes.take 4 :=
  (startsWith_word_iff (List.length_take_of_le four)).mp (starts.of_front (List.take_prefix 4 _))

/-- A word may continue fewer than four bytes, with any last byte. -/
theorem exists_word_continuing {front : List UInt8} (short : front.length < 4) (last : UInt8) :
    ∃ word : UInt32, front <+: ByteOrder.toBig 4 word.toNat ∧
      (ByteOrder.toBig 4 word.toNat).getLast? = some last := by
  let bytes := front ++ (List.replicate (3 - front.length) 0 ++ [last])
  have four : bytes.length = 4 := by
    simp [bytes]
    omega
  have fits := ByteOrder.ofBig_lt bytes
  rw [four, four_bytes] at fits
  have written : ByteOrder.toBig 4 (UInt32.ofNat (ByteOrder.ofBig bytes)).toNat = bytes := by
    rw [UInt32.toNat_ofNat_of_lt' fits, ← four, ByteOrder.toBig_ofBig]
  refine ⟨UInt32.ofNat (ByteOrder.ofBig bytes), ?_, ?_⟩
  · rw [written]
    exact List.prefix_append _ _
  · rw [written]
    simp [bytes]

/-! ## What the received bytes settle -/

/-- The type a chunk begins with, zeros in the place of missing bytes. -/
def Chunk.messageType (chunk : Chunk) : UInt32 :=
  (receivedData (chunk.fill fun _ => 0)).messageType

/-- The bytes of a currency continue the bytes received behind the type. -/
def Chunk.Continues (chunk : Chunk) (currency : UInt32) : Prop :=
  chunk.terminated.drop 4 <+: ByteOrder.toBig 4 currency.toNat

/-- From three bytes on, the terminator or another byte completes the type. -/
theorem Chunk.messageType_eq {chunk : Chunk} (three : 3 ≤ chunk.bytes.length)
    {buffer : SocketBuffer} (stored : chunk.StoredIn buffer) :
    (receivedData buffer).messageType = chunk.messageType := by
  have four : 4 ≤ chunk.terminated.length := by
    rw [length_terminated]
    omega
  have filled : bytesAt (chunk.fill fun _ => 0) 0 = ByteOrder.toBig 4 chunk.messageType.toNat :=
    messageType_eq_iff.mp rfl
  rw [messageType_eq_iff, ← filled, stored.bytesAt_zero four,
    (chunk.storedIn_fill _).bytesAt_zero four]

/-- From seven bytes on, the terminator or another byte completes the currency. -/
theorem Chunk.currencyName_eq {chunk : Chunk} (seven : 7 ≤ chunk.bytes.length)
    {left right : SocketBuffer} (left_stored : chunk.StoredIn left)
    (right_stored : chunk.StoredIn right) :
    (receivedData left).currencyName = (receivedData right).currencyName := by
  have eight : (chunk.terminated.take 8).length = 8 := by
    rw [List.length_take, length_terminated]
    omega
  have split := (List.take_append_drop 4 (chunk.terminated.take 8)).symm
  have first_four : ((chunk.terminated.take 8).take 4).length = 4 := by simp [eight]
  have second_four : ((chunk.terminated.take 8).drop 4).length = 4 := by simp [eight]
  have read : ∀ {buffer}, chunk.StoredIn buffer →
      bytesAt buffer 4 = (chunk.terminated.take 8).drop 4 := by
    intro buffer stored
    have starts := stored.of_front (List.take_prefix 8 chunk.terminated)
    rw [split, startsWith_words_iff first_four second_four] at starts
    exact starts.2
  rw [currencyName_eq_iff, ← currencyName_eq_iff.mp rfl, read left_stored, read right_stored]

/-- The currency of a short chunk is read from its bytes and what lies behind them. -/
theorem Chunk.continues_currencyName {chunk : Chunk} (short : chunk.bytes.length < 7)
    {buffer : SocketBuffer} (stored : chunk.StoredIn buffer) :
    chunk.Continues (receivedData buffer).currencyName := by
  have words : StartsWith buffer (bytesAt buffer 0 ++ bytesAt buffer 4) :=
    (startsWith_words_iff (length_bytesAt buffer 0) (length_bytesAt buffer 4)).mpr ⟨rfl, rfl⟩
  have eight : (bytesAt buffer 0 ++ bytesAt buffer 4).length = 8 := rfl
  have front := stored.isPrefix words (by rw [length_terminated]; omega) (by rw [eight]; omega)
  have behind := front.drop 4
  rwa [List.drop_left' (length_bytesAt buffer 0), currencyName_eq_iff.mp rfl] at behind

/-- Every currency which continues a chunk may be read from a buffer which holds the chunk. -/
theorem Chunk.exists_storedIn {chunk : Chunk} (three : 3 ≤ chunk.bytes.length)
    {currency : UInt32} (continues : chunk.Continues currency) :
    ∃ buffer, chunk.StoredIn buffer ∧ (receivedData buffer).messageType = chunk.messageType ∧
      (receivedData buffer).currencyName = currency := by
  have four : (chunk.terminated.take 4).length = 4 := by
    rw [List.length_take, length_terminated]
    omega
  obtain ⟨buffer, starts⟩ :=
    exists_startsWith (chunk.terminated.take 4 ++ ByteOrder.toBig 4 currency.toNat)
  have stored : chunk.StoredIn buffer := by
    apply starts.of_front
    have split := (List.prefix_append_right_inj (chunk.terminated.take 4)).mpr continues
    rwa [List.take_append_drop] at split
  have words := (startsWith_words_iff four (ByteOrder.length_toBig 4 _)).mp starts
  exact ⟨buffer, stored, messageType_eq three stored,
    currencyName_eq_iff.mpr words.2⟩

/-- More than one currency continues a short chunk. -/
theorem Chunk.exists_continues_ne {chunk : Chunk} (short : chunk.bytes.length < 7)
    (currency : UInt32) : ∃ other, other ≠ currency ∧ chunk.Continues other := by
  have few : (chunk.terminated.drop 4).length < 4 := by
    rw [List.length_drop, length_terminated]
    omega
  obtain ⟨zero, continues_zero, ends_zero⟩ := exists_word_continuing few 0
  obtain ⟨one, continues_one, ends_one⟩ := exists_word_continuing few 1
  by_cases same : zero = currency
  · refine ⟨one, ?_, continues_one⟩
    rintro rfl
    rw [same, ends_one] at ends_zero
    cases ends_zero
  · exact ⟨zero, same, continues_zero⟩

/-! ## What a request does to any server -/

section Serving

variable {Price : Type*} [LinearOrder Price]

namespace CoreComponent

/-- The loop of a cancellation has no result exactly if it meets its currency without a book. -/
theorem cancelLoop_eq_none_iff (method : Orderbook Price → Orderbook Price) (name : UInt32)
    (currencies : List UInt32) (openOrderbooks : UInt32 → Option (Orderbook Price)) :
    currencies.foldlM (fun openOrderbooks currency =>
        if currency = name then withBook currency method openOrderbooks
        else some openOrderbooks) openOrderbooks = none ↔
      name ∈ currencies ∧ openOrderbooks name = none := by
  induction currencies generalizing openOrderbooks with
  | nil => simp
  | cons currency currencies induction =>
      rw [List.foldlM_cons]
      by_cases chosen : currency = name
      · subst chosen
        rw [if_pos rfl, withBook]
        cases found : openOrderbooks currency with
        | none => simp
        | some book =>
            rw [Option.map_some, Option.bind_eq_bind, Option.bind_some, induction]
            simp
      · rw [if_neg chosen, Option.bind_eq_bind, Option.bind_some, induction]
        simp [Ne.symm chosen]

/-- The loop of a cancellation whose currency it does not meet changes nothing. -/
theorem cancelLoop_of_notMem (method : Orderbook Price → Orderbook Price) {name : UInt32}
    {currencies : List UInt32} (absent : name ∉ currencies)
    (openOrderbooks : UInt32 → Option (Orderbook Price)) :
    currencies.foldlM (fun openOrderbooks currency =>
        if currency = name then withBook currency method openOrderbooks
        else some openOrderbooks) openOrderbooks = some openOrderbooks := by
  induction currencies with
  | nil => rfl
  | cons currency currencies induction =>
      obtain ⟨other, later⟩ := not_or.mp (mt List.mem_cons.mpr absent)
      rw [List.foldlM_cons, if_neg (Ne.symm other)]
      exact induction later

/-- A cancellation leaves the server alone if the socket has not asked for its currency, has no
result if the currency has no book, and edits the list of the socket otherwise. -/
theorem processRequest_unsubscribe_cases (core : CoreComponent Price) {request : SocketBuffer}
    (clientSocket : Socket) (type : (receivedData request).messageType = 2) :
    (receivedData request).currencyName ∉ core.clientSubscribeList clientSocket ∧
        processRequest request clientSocket core = some (core, 2) ∨
      (receivedData request).currencyName ∈ core.clientSubscribeList clientSocket ∧
        core.openOrderbooks (receivedData request).currencyName = none ∧
          processRequest request clientSocket core = none ∨
      (receivedData request).currencyName ∈ core.clientSubscribeList clientSocket ∧
        core.openOrderbooks (receivedData request).currencyName ≠ none ∧
          ∃ next, processRequest request clientSocket core = some (next, 2) ∧
            next.clientSubscribeList clientSocket = (core.clientSubscribeList clientSocket).filter
              (· ≠ (receivedData request).currencyName) := by
  have not_close : ¬ (2 : UInt32) = 0 := by decide
  have not_subscribe : ¬ (2 : UInt32) = 1 := by decide
  rw [processRequest]
  dsimp only
  rw [type, if_neg not_close, if_neg not_subscribe, if_pos rfl]
  generalize (receivedData request).currencyName = name
  by_cases asked : name ∈ core.clientSubscribeList clientSocket
  · have loop := cancelLoop_eq_none_iff (Orderbook.removeClient clientSocket) name
      (core.clientSubscribeList clientSocket) core.openOrderbooks
    cases looped : (core.clientSubscribeList clientSocket).foldlM (fun openOrderbooks currency =>
        if currency = name then
          withBook currency (Orderbook.removeClient clientSocket) openOrderbooks
        else some openOrderbooks) core.openOrderbooks with
    | none => exact Or.inr (Or.inl ⟨asked, (loop.mp looped).2, rfl⟩)
    | some openOrderbooks =>
        rw [looped] at loop
        refine Or.inr (Or.inr ⟨asked, fun missing => ?_, _, rfl, by simp⟩)
        cases loop.mpr ⟨asked, missing⟩
  · refine Or.inl ⟨asked, ?_⟩
    have kept : (core.clientSubscribeList clientSocket).filter (· ≠ name) =
        core.clientSubscribeList clientSocket := by
      rw [List.filter_eq_self]
      intro currency member
      simpa using ne_of_mem_of_not_mem member asked
    rw [cancelLoop_of_notMem _ asked, Option.map_some, kept, Function.update_eq_self]

/-! ## Requests which the received bytes settle -/

/-- The received bytes settle the request: its type is complete, and its currency is complete or
does not matter. For a cancellation it does not matter if the socket has asked for no currency which
may be read. The last case is for servers whose books are missing, which no run reaches. -/
structure Settles (chunk : Chunk) (clientSocket : Socket) (core : CoreComponent Price) : Prop where
  /-- The type is complete. -/
  type : 3 ≤ chunk.bytes.length
  /-- A subscription is complete. -/
  subscribe : chunk.bytes.length < 7 → chunk.messageType ≠ 1
  /-- A cancellation is complete, or does nothing in any case. -/
  unsubscribe : chunk.bytes.length < 7 → chunk.messageType = 2 →
    (∀ currency, chunk.Continues currency → currency ∉ core.clientSubscribeList clientSocket) ∨
      ∀ currency, chunk.Continues currency →
        currency ∈ core.clientSubscribeList clientSocket ∧ core.openOrderbooks currency = none

/-- A request is served alike from all buffers which hold the same received bytes. -/
def ServedAlike (chunk : Chunk) (clientSocket : Socket) (core : CoreComponent Price) : Prop :=
  ∀ left right, chunk.StoredIn left → chunk.StoredIn right →
    processRequest left clientSocket core = processRequest right clientSocket core

theorem Settles.servedAlike {chunk : Chunk} {clientSocket : Socket} {core : CoreComponent Price}
    (settles : Settles chunk clientSocket core) : ServedAlike chunk clientSocket core := by
  intro left right left_stored right_stored
  have type : ∀ {buffer}, chunk.StoredIn buffer →
      (receivedData buffer).messageType = chunk.messageType := Chunk.messageType_eq settles.type
  have types := (type left_stored).trans (type right_stored).symm
  by_cases short : chunk.bytes.length < 7
  · by_cases unsubscribe : chunk.messageType = 2
    · have continues : ∀ {buffer}, chunk.StoredIn buffer →
          chunk.Continues (receivedData buffer).currencyName := Chunk.continues_currencyName short
      rcases settles.unsubscribe short unsubscribe with absent | missing
      · have ignored : ∀ buffer, chunk.StoredIn buffer →
            processRequest buffer clientSocket core = some (core, 2) := by
          intro buffer stored
          have cancels := (type stored).trans unsubscribe
          rcases processRequest_unsubscribe_cases core clientSocket cancels with
            ⟨-, served⟩ | ⟨asked, -⟩ | ⟨asked, -⟩
          · exact served
          · exact absurd asked (absent _ (continues stored))
          · exact absurd asked (absent _ (continues stored))
        rw [ignored left left_stored, ignored right right_stored]
      · have fails : ∀ buffer, chunk.StoredIn buffer →
            processRequest buffer clientSocket core = none := by
          intro buffer stored
          obtain ⟨asked, no_book⟩ := missing _ (continues stored)
          have cancels := (type stored).trans unsubscribe
          rcases processRequest_unsubscribe_cases core clientSocket cancels with
            ⟨absent, -⟩ | ⟨-, -, served⟩ | ⟨-, opened, -⟩
          · exact absurd asked absent
          · exact served
          · exact absurd no_book opened
        rw [fails left left_stored, fails right right_stored]
    · apply processRequest_eq types
      rintro (subscribe | cancels)
      · exact absurd ((type right_stored).symm.trans subscribe) (settles.subscribe short)
      · exact absurd ((type right_stored).symm.trans cancels) unsubscribe
  · exact processRequest_eq types
      (fun _ => Chunk.currencyName_eq (not_lt.mp short) left_stored right_stored) _ _

/-- Behind an incomplete type there may be any last byte, which makes the type unknown unless it is
zero, one or two. -/
theorem exists_unknown_type {chunk : Chunk} (few : chunk.terminated.length < 4) (last : UInt8)
    (not_zero : last ≠ 0) (not_one : last ≠ 1) (not_two : last ≠ 2) (clientSocket : Socket)
    (core : CoreComponent Price) :
    ∃ buffer, chunk.StoredIn buffer ∧
      (ByteOrder.toBig 4 (receivedData buffer).messageType.toNat).getLast? = some last ∧
      processRequest buffer clientSocket core =
        some (core, (receivedData buffer).messageType) := by
  obtain ⟨word, continues, ends⟩ := exists_word_continuing few last
  obtain ⟨buffer, starts⟩ := exists_startsWith (ByteOrder.toBig 4 word.toNat)
  have type : (receivedData buffer).messageType = word :=
    messageType_eq_iff.mpr ((startsWith_word_iff (ByteOrder.length_toBig 4 _)).mp starts)
  have differs : ∀ known : UInt32, (ByteOrder.toBig 4 known.toNat).getLast? ≠ some last →
      (receivedData buffer).messageType ≠ known := by
    rintro known other rfl
    exact other (type ▸ ends)
  refine ⟨buffer, starts.of_front continues, type ▸ ends, processRequest_unknown _ _ ?_ ?_ ?_⟩
  · exact differs 0 (by simpa [ByteOrder.toBig, ByteOrder.toLittle] using Ne.symm not_zero)
  · exact differs 1 (by simpa [ByteOrder.toBig, ByteOrder.toLittle] using Ne.symm not_one)
  · exact differs 2 (by simpa [ByteOrder.toBig, ByteOrder.toLittle] using Ne.symm not_two)

/-- The type of a request which is served alike is complete. -/
theorem ServedAlike.type {chunk : Chunk} {clientSocket : Socket} {core : CoreComponent Price}
    (alike : ServedAlike chunk clientSocket core) : 3 ≤ chunk.bytes.length := by
  by_contra short
  have few : chunk.terminated.length < 4 := by
    rw [Chunk.length_terminated]
    omega
  obtain ⟨three, stored_three, ends_three, serves_three⟩ :=
    exists_unknown_type few 3 (by decide) (by decide) (by decide) clientSocket core
  obtain ⟨four, stored_four, ends_four, serves_four⟩ :=
    exists_unknown_type few 4 (by decide) (by decide) (by decide) clientSocket core
  have same := alike three four stored_three stored_four
  rw [serves_three, serves_four, Option.some_inj, Prod.mk.injEq] at same
  rw [same.2, ends_four] at ends_three
  exact absurd ends_three (by decide)

theorem ServedAlike.subscribe {chunk : Chunk} {clientSocket : Socket} {core : CoreComponent Price}
    (alike : ServedAlike chunk clientSocket core) (short : chunk.bytes.length < 7) :
    chunk.messageType ≠ 1 := by
  intro subscribe
  obtain ⟨one, -, continues_one⟩ := Chunk.exists_continues_ne short 0
  obtain ⟨two, different, continues_two⟩ := Chunk.exists_continues_ne short one
  have lists : ∀ currency, chunk.Continues currency → ∃ buffer, chunk.StoredIn buffer ∧
      (processRequest buffer clientSocket core).map
          (fun served => served.1.clientSubscribeList clientSocket) =
        some (core.clientSubscribeList clientSocket ++ [currency]) := by
    intro currency continues
    obtain ⟨buffer, stored, type, rfl⟩ := Chunk.exists_storedIn alike.type continues
    obtain ⟨next, served, serves⟩ : ∃ next, processRequest buffer clientSocket core =
          some (next, (receivedData buffer).messageType) ∧
        Serves (Request.read buffer) clientSocket core next :=
      processRequest_subscribe clientSocket (type.trans subscribe)
    refine ⟨buffer, stored, ?_⟩
    rw [served, Option.map_some, serves.own, Request.read]
    simp [type, subscribe, Request.updateSubscribeList]
  obtain ⟨left, left_stored, left_list⟩ := lists one continues_one
  obtain ⟨right, right_stored, right_list⟩ := lists two continues_two
  rw [alike left right left_stored right_stored, right_list] at left_list
  exact different (by simpa using left_list)

/-- If the socket has asked for a currency which a short cancellation may be read with, all buffers
are served as that one is, so that it has asked for all of them and none has a book. -/
theorem ServedAlike.unsubscribe {chunk : Chunk} {clientSocket : Socket}
    {core : CoreComponent Price} (alike : ServedAlike chunk clientSocket core)
    (short : chunk.bytes.length < 7) (unsubscribe : chunk.messageType = 2) :
    (∀ currency, chunk.Continues currency → currency ∉ core.clientSubscribeList clientSocket) ∨
      ∀ currency, chunk.Continues currency →
        currency ∈ core.clientSubscribeList clientSocket ∧ core.openOrderbooks currency = none := by
  by_contra mixed
  obtain ⟨some_asked, not_missing⟩ := not_or.mp mixed
  push Not at some_asked
  obtain ⟨asked, continues_asked, member⟩ := some_asked
  obtain ⟨first, first_stored, first_type, rfl⟩ := Chunk.exists_storedIn alike.type continues_asked
  rcases processRequest_unsubscribe_cases core clientSocket (first_type.trans unsubscribe) with
    ⟨absent, -⟩ | ⟨-, -, fails⟩ | ⟨-, -, next, served, edited⟩
  · exact absent member
  · apply not_missing
    intro currency continues
    obtain ⟨buffer, stored, type, rfl⟩ := Chunk.exists_storedIn alike.type continues
    have same := (alike buffer first stored first_stored).trans fails
    rcases processRequest_unsubscribe_cases core clientSocket (type.trans unsubscribe) with
      ⟨-, ignored⟩ | ⟨listed, missing, -⟩ | ⟨-, -, after, other, -⟩
    · rw [ignored] at same
      cases same
    · exact ⟨listed, missing⟩
    · rw [other] at same
      cases same
  · obtain ⟨currency, different, continues⟩ :=
      Chunk.exists_continues_ne short (receivedData first).currencyName
    obtain ⟨buffer, stored, type, rfl⟩ := Chunk.exists_storedIn alike.type continues
    have same := (alike buffer first stored first_stored).trans served
    have removed : (receivedData first).currencyName ∉ next.clientSubscribeList clientSocket := by
      simp [edited]
    rcases processRequest_unsubscribe_cases core clientSocket (type.trans unsubscribe) with
      ⟨-, ignored⟩ | ⟨-, -, fails⟩ | ⟨-, -, after, other, kept⟩
    · rw [ignored, Option.some_inj, Prod.mk.injEq] at same
      exact removed (same.1 ▸ member)
    · rw [fails] at same
      cases same
    · rw [other, Option.some_inj, Prod.mk.injEq] at same
      rw [← same.1, kept] at removed
      exact removed (by simp [member, Ne.symm different])

/-- A request is served alike whatever lies behind the received bytes exactly if these settle it. -/
theorem servedAlike_iff (chunk : Chunk) (clientSocket : Socket) (core : CoreComponent Price) :
    ServedAlike chunk clientSocket core ↔ Settles chunk clientSocket core :=
  ⟨fun alike => ⟨alike.type, alike.subscribe, alike.unsubscribe⟩, Settles.servedAlike⟩

/-- In a serviceable server a short cancellation is settled only if the socket has asked for no
currency which may be read. -/
theorem Serviceable.settles_iff {core : CoreComponent Price} (serviceable : core.Serviceable)
    (chunk : Chunk) (clientSocket : Socket) :
    Settles chunk clientSocket core ↔ 3 ≤ chunk.bytes.length ∧ (chunk.bytes.length < 7 →
      chunk.messageType ≠ 1 ∧ (chunk.messageType = 2 → ∀ currency, chunk.Continues currency →
        currency ∉ core.clientSubscribeList clientSocket)) := by
  constructor
  · intro settles
    refine ⟨settles.type, fun short => ⟨settles.subscribe short, fun unsubscribe => ?_⟩⟩
    rcases settles.unsubscribe short unsubscribe with absent | missing
    · exact absent
    · obtain ⟨currency, -, continues⟩ := Chunk.exists_continues_ne short 0
      obtain ⟨asked, no_book⟩ := missing currency continues
      exact absurd no_book (serviceable.opened clientSocket currency asked)
  · rintro ⟨type, short_case⟩
    exact ⟨type, fun short => (short_case short).1,
      fun short unsubscribe => Or.inl ((short_case short).2 unsubscribe)⟩

/-- The type of a subscription, received alone. -/
def truncatedSubscription : Chunk where
  bytes := [0, 0, 0, 1]
  nonempty := by decide
  fits := by decide

/-- The currency of a truncated subscription is the one of an earlier subscription, if the buffer
holds one. -/
theorem truncatedSubscription_reads_leftover :
    let fresh := truncatedSubscription.fill fun _ => 0
    let used := truncatedSubscription.fill (ClientRequest.subscribe 7 1).buffer
    let asked := fun buffer => (processRequest buffer 4 (new : CoreComponent ℕ)).map
      fun served => served.1.clientSubscribeList 4
    asked fresh = some [0] ∧ asked used = some [7] ∧
      ¬ ServedAlike truncatedSubscription 4 (new : CoreComponent ℕ) := by
  intro fresh used asked
  have first : asked fresh = some [0] := by decide +kernel
  have second : asked used = some [7] := by decide +kernel
  refine ⟨first, second, fun alike => ?_⟩
  have same := alike fresh used (Chunk.storedIn_fill _ _) (Chunk.storedIn_fill _ _)
  have equal : asked fresh = asked used := by
    simp only [asked, same]
  rw [first, second] at equal
  cases equal

end CoreComponent

end Serving

end CryptoInfra
