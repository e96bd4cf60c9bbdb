import CryptoInfra.Client.Listen

/-!
# From the server's numbers to the client's

The server writes the bit patterns of four numbers behind two words, and the client reads them back
from what the listener has stored. While every call returns all bytes it asks for, three calls take
in one snapshot, so a list of snapshots is read to its last byte and every currency ends with the
numbers of its last snapshot.
-/

namespace CryptoInfra

/-! ## Numbers -/

/-- The numbers which the client returns, as bit patterns. -/
structure MarketData where
  /-- Price of the best bid. -/
  bestBidPrice : UInt64
  /-- Volume of the best bid. -/
  bestBidVolume : UInt64
  /-- Price of the best ask. -/
  bestAskPrice : UInt64
  /-- Volume of the best ask. -/
  bestAskVolume : UInt64
  deriving DecidableEq

/-- The numbers of a snapshot. -/
def Snapshot.marketData (snapshot : Snapshot UInt64 UInt64) : MarketData where
  bestBidPrice := snapshot.bestBidPrice
  bestBidVolume := snapshot.bestBidVolume
  bestAskPrice := snapshot.bestAskPrice
  bestAskVolume := snapshot.bestAskVolume

/-- The bit pattern of the number in network order at an offset. -/
def unpackDouble (bytes : List UInt8) (offset : ℕ) : UInt64 :=
  UInt64.ofNat (ByteOrder.ofBig ((bytes.drop offset).take 8))

/-- Unpack four numbers in network order, which take exactly 32 bytes. -/
def unpackDoubles (bytes : List UInt8) : Option MarketData :=
  if bytes.length = 32 then
    some
      { bestBidPrice := unpackDouble bytes 0
        bestBidVolume := unpackDouble bytes 8
        bestAskPrice := unpackDouble bytes 16
        bestAskVolume := unpackDouble bytes 24 }
  else
    none

/-- What a call of `parse` results in. -/
inductive Parsed where
  | nothing
  | structError
  | values (marketData : MarketData)
  deriving DecidableEq

/-- Decode the stored payload of a currency, unless there is none. -/
def parse (data : ℤ → Option (List UInt8)) (currencyId : ℤ) : Parsed :=
  match data currencyId with
  | none => .nothing
  | some stored =>
      if stored = [] then
        .nothing
      else
        match unpackDoubles (stored.take 32) with
        | some marketData => .values marketData
        | none => .structError

theorem eight_bytes : 256 ^ 8 = UInt64.size := rfl

/-- A number is sent in network order. -/
theorem toNetworkOrder_eq (raw : UInt64) : toNetworkOrder raw = ByteOrder.toBig 8 raw.toNat := by
  have fits : ByteOrder.swap 8 raw.toNat < UInt64.size := by
    have bound := ByteOrder.ofLittle_lt (ByteOrder.toBig 8 raw.toNat)
    rwa [ByteOrder.length_toBig, eight_bytes] at bound
  rw [toNetworkOrder, osSwapHostToBigInt64, UInt64.toNat_ofNat_of_lt' fits,
    ByteOrder.toLittle_swap]

/-- A number is read back bit for bit, wherever it stands. -/
theorem unpackDouble_toNetworkOrder (front : List UInt8) {offset : ℕ}
    (length : front.length = offset) (raw : UInt64) (rest : List UInt8) :
    unpackDouble (front ++ (toNetworkOrder raw ++ rest)) offset = raw := by
  rw [unpackDouble, ← length, List.drop_left, toNetworkOrder_eq,
    List.take_left' (ByteOrder.length_toBig 8 _),
    ByteOrder.ofBig_toBig (eight_bytes ▸ raw.toNat_lt), UInt64.ofNat_toNat]

/-- The client unpacks the numbers of a snapshot from its payload. -/
theorem unpackDoubles_payload (snapshot : Snapshot UInt64 UInt64) :
    unpackDoubles snapshot.payload = some snapshot.marketData := by
  obtain ⟨currencyId, bidPrice, bidVolume, askPrice, askVolume⟩ := snapshot
  have first : unpackDouble (toNetworkOrder bidPrice ++ (toNetworkOrder bidVolume ++
      (toNetworkOrder askPrice ++ toNetworkOrder askVolume))) 0 = bidPrice :=
    unpackDouble_toNetworkOrder [] rfl bidPrice _
  have second : unpackDouble (toNetworkOrder bidPrice ++ (toNetworkOrder bidVolume ++
      (toNetworkOrder askPrice ++ toNetworkOrder askVolume))) 8 = bidVolume :=
    unpackDouble_toNetworkOrder (toNetworkOrder bidPrice) (by simp) bidVolume _
  have third : unpackDouble (toNetworkOrder bidPrice ++ toNetworkOrder bidVolume ++
      (toNetworkOrder askPrice ++ toNetworkOrder askVolume)) 16 = askPrice :=
    unpackDouble_toNetworkOrder _ (by simp) askPrice _
  have fourth : unpackDouble (toNetworkOrder bidPrice ++ toNetworkOrder bidVolume ++
      toNetworkOrder askPrice ++ (toNetworkOrder askVolume ++ [])) 24 = askVolume :=
    unpackDouble_toNetworkOrder _ (by simp) askVolume _
  simp only [List.append_assoc, List.append_nil] at first second third fourth
  rw [unpackDoubles, if_pos (Snapshot.length_payload _)]
  simp only [Snapshot.payload, List.append_assoc, first, second, third, fourth,
    Snapshot.marketData]

/-- A stored payload is parsed to the numbers of its snapshot. -/
theorem parse_of_stored {data : ℤ → Option (List UInt8)} {currencyId : ℤ}
    {snapshot : Snapshot UInt64 UInt64} (stored : data currencyId = some snapshot.payload) :
    parse data currencyId = .values snapshot.marketData := by
  have some_payload : snapshot.payload ≠ [] :=
    List.ne_nil_of_length_eq_add_one snapshot.length_payload
  have whole : snapshot.payload.take 32 = snapshot.payload :=
    List.take_of_length_le snapshot.length_payload.le
  simp [parse, stored, some_payload, whole, unpackDoubles_payload]

namespace Client

/-! ## Whole calls -/

/-- One call of the listener which returns all bytes it asks for, if that many are on their way. -/
def receiveWhole (client : Client) : Option Client :=
  if client.listener.phase.asked ≤ client.undelivered.length then
    some (client.step client.listener.phase.asked)
  else
    none

/-- A number of calls which return all bytes they ask for. -/
def receiveCalls : ℕ → Client → Option Client
  | 0, client => some client
  | calls + 1, client => (receiveWhole client).bind (receiveCalls calls)

theorem receiveWhole_eq (phase : Phase) (running : phase ≠ .stopped)
    (data : ℤ → Option (List UInt8)) {front : List UInt8} (length : front.length = phase.asked)
    (some_asked : 0 < phase.asked) (rest : List UInt8) :
    receiveWhole { listener := { phase, data }, undelivered := front ++ rest } =
      some { listener := Listener.listen { phase, data } (.bytes front), undelivered := rest } := by
  have enough : phase.asked ≤ (front ++ rest).length := by
    rw [List.length_append, length]
    exact Nat.le_add_right _ _
  rw [receiveWhole, if_pos enough,
    step_eq phase running data (recv_whole length some_asked le_rfl rest)]

/-- Three whole calls take in one snapshot. -/
theorem receiveCalls_snapshot (snapshot : Snapshot UInt64 UInt64)
    (snapshots : List (Snapshot UInt64 UInt64)) (data : ℤ → Option (List UInt8)) (calls : ℕ) :
    receiveCalls (calls + 3)
        { listener := { phase := .currency, data }
          undelivered := stream (snapshot :: snapshots) } =
      receiveCalls calls
        { listener :=
            { phase := .currency
              data := Function.update data (signed snapshot.currencyId.toNat)
                (some snapshot.payload) }
          undelivered := stream snapshots } := by
  have unpacked : unpackInt [0, 0, 0, 32] = some ((32 : ℕ) : ℤ) := unpackInt_toBig 32
  have some_payload : snapshot.payload ≠ [] :=
    List.ne_nil_of_length_eq_add_one snapshot.length_payload
  rw [stream_cons]
  simp only [receiveCalls]
  rw [receiveWhole_eq .currency nofun data (ByteOrder.length_toBig 4 _) (Nat.succ_pos 3),
    Option.bind_some, listen_currency (unpackInt_toBig snapshot.currencyId),
    receiveWhole_eq (.header _) nofun data rfl (Nat.succ_pos 3), Option.bind_some,
    listen_header unpacked, receiveWhole_eq (.payload _ 32) nofun data snapshot.length_payload
      (Nat.succ_pos 31),
    Option.bind_some, listen_payload some_payload]

/-- The snapshot itself, if it is about a currency. -/
def snapshotFor (currencyId : ℤ) (snapshot : Snapshot UInt64 UInt64) :
    Option (Snapshot UInt64 UInt64) :=
  if snapshot.currencyId.toNat = currencyId then some snapshot else none

/-- Three whole calls for each snapshot take in the whole stream and store the last payload of every
currency. -/
theorem receiveCalls_stream (snapshots : List (Snapshot UInt64 UInt64))
    (identified : ∀ snapshot ∈ snapshots, snapshot.currencyId.toNat < 2 ^ 31)
    (data : ℤ → Option (List UInt8)) :
    receiveCalls (3 * snapshots.length)
        { listener := { phase := .currency, data }, undelivered := stream snapshots } =
      some
        { listener :=
            { phase := .currency
              data := fun currencyId =>
                ((History.latest (snapshotFor currencyId) snapshots).map Snapshot.payload).or
                  (data currencyId) }
          undelivered := [] } := by
  induction snapshots generalizing data with
  | nil => rfl
  | cons snapshot snapshots induction =>
      obtain ⟨small, later⟩ := List.forall_mem_cons.mp identified
      have read_as_sent : signed snapshot.currencyId.toNat = snapshot.currencyId.toNat :=
        if_pos small
      rw [List.length_cons, Nat.mul_succ, receiveCalls_snapshot, induction later, read_as_sent]
      congr 3
      funext currencyId
      rw [History.latest_cons]
      cases History.latest (snapshotFor currencyId) snapshots with
      | some last => rfl
      | none =>
          by_cases here : (snapshot.currencyId.toNat : ℤ) = currencyId
          · simp [snapshotFor, here]
          · simp [snapshotFor, here, Ne.symm here]

/-- Whatever was stored before, the client reads a list of snapshots with currencies below the sign
bit to its last byte, parses for every currency the numbers of its last snapshot, and keeps what it
has stored for the others. -/
theorem snapshots_round_trip (snapshots : List (Snapshot UInt64 UInt64))
    (identified : ∀ snapshot ∈ snapshots, snapshot.currencyId.toNat < 2 ^ 31)
    (data : ℤ → Option (List UInt8)) :
    ∃ client, receiveCalls (3 * snapshots.length)
          { listener := { phase := .currency, data }, undelivered := stream snapshots } =
        some client ∧
      client.listener.phase = .currency ∧ client.undelivered = [] ∧
      ∀ currencyId, match History.latest (snapshotFor currencyId) snapshots with
        | some snapshot => parse client.listener.data currencyId = .values snapshot.marketData
        | none => client.listener.data currencyId = data currencyId := by
  refine ⟨_, receiveCalls_stream snapshots identified data, rfl, rfl, ?_⟩
  intro currencyId
  cases found : History.latest (snapshotFor currencyId) snapshots with
  | none => simp [found]
  | some snapshot => exact parse_of_stored (by simp [found])

/-- Another snapshot of the same currency. -/
def nextSnapshot : Snapshot UInt64 UInt64 :=
  { roundSnapshot with bestBidPrice := 0x4059200000000000 }

/-- A snapshot of another currency. -/
def otherSnapshot : Snapshot UInt64 UInt64 :=
  { roundSnapshot with currencyId := 2, bestAskVolume := 0x3FF8000000000000 }

theorem snapshots_round_trip_roundSnapshot :
    ∃ client, receiveCalls 9
          { listener := { phase := .currency, data := fun _ => none }
            undelivered := stream [roundSnapshot, otherSnapshot, nextSnapshot] } = some client ∧
      client.listener.phase = .currency ∧ client.undelivered = [] ∧
        parse client.listener.data 1 = .values nextSnapshot.marketData ∧
          parse client.listener.data 2 = .values otherSnapshot.marketData ∧
            client.listener.data 3 = none := by
  have identified : ∀ snapshot ∈ [roundSnapshot, otherSnapshot, nextSnapshot],
      snapshot.currencyId.toNat < 2 ^ 31 := by
    decide
  obtain ⟨client, received, between, nothing, parsed⟩ :=
    snapshots_round_trip [roundSnapshot, otherSnapshot, nextSnapshot] identified fun _ => none
  exact ⟨client, received, between, nothing, parsed 1, parsed 2, parsed 3⟩

end Client

end CryptoInfra
