import CryptoInfra.History
import CryptoInfra.Wire

/-!
# The listening client

The listener of the client reads a snapshot with three calls on a socket which does not block: the
currency, the length of the payload, and the payload. It starts again from the top whenever a call
would block, and takes whatever a call returns. So it stays in step with the snapshots exactly as
long as no call inside a snapshot blocks and every call which returns bytes returns all it asked
for.
-/

namespace CryptoInfra

/-! ## The listener -/

/-- What a call on the socket returns; no bytes mean that the server has closed the connection. -/
inductive Recv where
  | wouldBlock
  | failed
  | bytes (received : List UInt8)

/-- The call which the listener makes next. -/
inductive Phase where
  | currency
  | header (currencyId : ℤ)
  | payload (currencyId : ℤ) (messageLength : ℕ)
  | stopped
  deriving DecidableEq

/-- The listener and the payloads it has stored. -/
structure Listener where
  /-- What the listener is about to do. -/
  phase : Phase
  /-- The stored payload of every currency. -/
  data : ℤ → Option (List UInt8)

/-- Number of bytes which the next call asks for. -/
def Phase.asked : Phase → ℕ
  | currency => 4
  | header _ => 4
  | payload _ messageLength => messageLength
  | stopped => 0

/-- Continue with what a call returned. A word which is not complete and a negative length raise an
error, which stops the listener. -/
def Listener.listen (listener : Listener) : Recv → Listener
  | .wouldBlock =>
      match listener.phase with
      | .stopped => listener
      | _ => { listener with phase := .currency }
  | .failed => { listener with phase := .stopped }
  | .bytes received =>
      match listener.phase with
      | .currency =>
          match unpackInt received with
          | some currencyId => { listener with phase := .header currencyId }
          | none => { listener with phase := .stopped }
      | .header currencyId =>
          match unpackInt received with
          | some messageLength =>
              if messageLength < 0 then { listener with phase := .stopped }
              else { listener with phase := .payload currencyId messageLength.toNat }
          | none => { listener with phase := .stopped }
      | .payload currencyId _ =>
          if received = [] then { listener with phase := .stopped }
          else
            { phase := .currency
              data := Function.update listener.data currencyId (some received) }
      | .stopped => listener

theorem listen_currency {received : List UInt8} {currencyId : ℤ}
    (unpacked : unpackInt received = some currencyId) (data : ℤ → Option (List UInt8)) :
    Listener.listen { phase := .currency, data } (.bytes received) =
      { phase := .header currencyId, data } := by
  simp [Listener.listen, unpacked]

theorem listen_header {received : List UInt8} {messageLength : ℕ}
    (unpacked : unpackInt received = some (messageLength : ℤ)) (currencyId : ℤ)
    (data : ℤ → Option (List UInt8)) :
    Listener.listen { phase := .header currencyId, data } (.bytes received) =
      { phase := .payload currencyId messageLength, data } := by
  simp [Listener.listen, unpacked]

theorem listen_payload {received : List UInt8} (some_received : received ≠ [])
    (currencyId : ℤ) (messageLength : ℕ) (data : ℤ → Option (List UInt8)) :
    Listener.listen { phase := .payload currencyId messageLength, data } (.bytes received) =
      { phase := .currency, data := Function.update data currencyId (some received) } := by
  simp [Listener.listen, some_received]

/-- A call which would block sends the listener back to the top. -/
theorem listen_wouldBlock {phase : Phase} (running : phase ≠ .stopped)
    (data : ℤ → Option (List UInt8)) :
    Listener.listen { phase, data } .wouldBlock = { phase := .currency, data } := by
  cases phase with
  | currency => rfl
  | header currencyId => rfl
  | payload currencyId messageLength => rfl
  | stopped => exact absurd rfl running

/-- A word which is not complete stops the listener. -/
theorem listen_incomplete {received : List UInt8} (incomplete : received.length ≠ 4)
    {phase : Phase} (word : phase = .currency ∨ ∃ currencyId, phase = .header currencyId)
    (data : ℤ → Option (List UInt8)) :
    (Listener.listen { phase, data } (.bytes received)).phase = .stopped := by
  rcases word with rfl | ⟨currencyId, rfl⟩ <;>
    simp [Listener.listen, unpackInt_eq_none incomplete]

/-! ## The connection -/

/-- The listener and the bytes which were sent to it but not delivered yet. -/
structure Client where
  /-- The listener. -/
  listener : Listener
  /-- The bytes on their way. -/
  undelivered : List UInt8

/-- A call on the socket which finds some of the undelivered bytes available. -/
def recv (asked available : ℕ) (undelivered : List UInt8) : Recv × List UInt8 :=
  if asked = 0 then
    (.bytes [], undelivered)
  else
    let received := undelivered.take (min asked available)
    if received = [] then (.wouldBlock, undelivered)
    else (.bytes received, undelivered.drop (min asked available))

namespace Client

/-- The bytes of snapshots sent one after the other. -/
def stream (snapshots : List (Snapshot UInt64 UInt64)) : List UInt8 :=
  snapshots.flatMap Snapshot.buffer

/-- A client which has received nothing. -/
def start (snapshots : List (Snapshot UInt64 UInt64)) : Client where
  listener := { phase := .currency, data := fun _ => none }
  undelivered := stream snapshots

/-- One call of the listener, which finds some bytes available. -/
def step (client : Client) (available : ℕ) : Client :=
  if client.listener.phase = .stopped then
    client
  else
    let received := recv client.listener.phase.asked available client.undelivered
    { listener := client.listener.listen received.1, undelivered := received.2 }

/-- The client after a delivery of the stream, given by what every call finds available. -/
def run (snapshots : List (Snapshot UInt64 UInt64)) (delivery : List ℕ) : Client :=
  delivery.foldl step (start snapshots)

/-! ## Being in step -/

/-- The listener has received some snapshots and awaits the bytes of the others, from where its next
call stands in the first of them. -/
def Awaits (client : Client) (awaited : List (Snapshot UInt64 UInt64)) : Prop :=
  match client.listener.phase with
  | .currency => client.undelivered = stream awaited
  | .header currencyId => ∃ snapshot later, awaited = snapshot :: later ∧
      currencyId = signed snapshot.currencyId.toNat ∧
        client.undelivered = [0, 0, 0, 32] ++ (snapshot.payload ++ stream later)
  | .payload currencyId messageLength => ∃ snapshot later, awaited = snapshot :: later ∧
      currencyId = signed snapshot.currencyId.toNat ∧ messageLength = 32 ∧
        client.undelivered = snapshot.payload ++ stream later
  | .stopped => False

/-- The next call of the listener stands where its part of a snapshot starts. -/
def InStep (snapshots : List (Snapshot UInt64 UInt64)) (client : Client) : Prop :=
  ∃ received awaited, snapshots = received ++ awaited ∧ client.Awaits awaited

/-- The snapshots whose bytes have all been delivered. -/
def delivered (snapshots : List (Snapshot UInt64 UInt64)) (client : Client) :
    List (Snapshot UInt64 UInt64) :=
  snapshots.take ((40 * snapshots.length - client.undelivered.length) / 40)

/-- The payload of a snapshot for a currency. -/
def payloadFor (currencyId : ℤ) (snapshot : Snapshot UInt64 UInt64) : Option (List UInt8) :=
  if snapshot.currencyId.toNat = currencyId then some snapshot.payload else none

/-- The client is true to the snapshots. -/
structure Faithful (snapshots : List (Snapshot UInt64 UInt64)) (client : Client) : Prop where
  /-- Every stored payload is the whole payload of a delivered snapshot for its currency. -/
  complete : ∀ currencyId payload, client.listener.data currencyId = some payload →
    ∃ snapshot ∈ delivered snapshots client,
      snapshot.currencyId.toNat = currencyId ∧ payload = snapshot.payload
  /-- The listener is in step. -/
  inStep : InStep snapshots client
  /-- In the end the last payload of every currency is stored. -/
  final : client.undelivered = [] → ∀ currencyId,
    client.listener.data currencyId = History.latest (payloadFor currencyId) snapshots

/-- The next call returns all bytes which it asks for, or it would block between two snapshots. -/
def Whole (client : Client) (available : ℕ) : Prop :=
  match client.listener.phase with
  | .currency => client.undelivered = [] ∨ available = 0 ∨ 4 ≤ available
  | .header _ => 4 ≤ available
  | .payload _ messageLength => messageLength ≤ available
  | .stopped => True

/-- A payload which is about to be read belongs to a currency which the client has read as it was
sent. -/
def Identified (client : Client) : Prop :=
  ∀ currencyId messageLength, client.listener.phase = .payload currencyId messageLength →
    0 ≤ currencyId

theorem length_stream (snapshots : List (Snapshot UInt64 UInt64)) :
    (stream snapshots).length = 40 * snapshots.length := by
  induction snapshots with
  | nil => rfl
  | cons snapshot snapshots induction =>
      rw [stream] at induction ⊢
      rw [List.flatMap_cons, List.length_append, induction, Snapshot.length_buffer,
        List.length_cons]
      omega

theorem stream_cons (snapshot : Snapshot UInt64 UInt64)
    (snapshots : List (Snapshot UInt64 UInt64)) :
    stream (snapshot :: snapshots) = ByteOrder.toBig 4 snapshot.currencyId.toNat ++
      ([0, 0, 0, 32] ++ (snapshot.payload ++ stream snapshots)) := by
  simp [stream, Snapshot.buffer_eq]

/-- Between two snapshots only whole snapshots are on their way. -/
theorem InStep.length {snapshots : List (Snapshot UInt64 UInt64)} {client : Client}
    (inStep : InStep snapshots client) (between : client.listener.phase = .currency) :
    40 ∣ client.undelivered.length := by
  obtain ⟨received, awaited, -, awaits⟩ := inStep
  rw [Awaits, between] at awaits
  rw [awaits, length_stream]
  exact Nat.dvd_mul_right 40 _

/-! ## One call -/

/-- A call which finds enough bytes available returns all it asks for. -/
theorem recv_whole {asked available : ℕ} {front : List UInt8} (length : front.length = asked)
    (some_asked : 0 < asked) (enough : asked ≤ available) (rest : List UInt8) :
    recv asked available (front ++ rest) = (.bytes front, rest) := by
  have some_front : front ≠ [] := List.ne_nil_of_length_pos (length ▸ some_asked)
  subst length
  rw [recv, if_neg some_asked.ne', Nat.min_eq_left enough]
  simp [some_front]

/-- A call which finds nothing available would block. -/
theorem recv_blocked {asked available : ℕ} {undelivered : List UInt8} (some_asked : 0 < asked)
    (nothing : undelivered = [] ∨ available = 0) :
    recv asked available undelivered = (.wouldBlock, undelivered) := by
  rw [recv, if_neg some_asked.ne']
  rcases nothing with rfl | rfl <;> simp

/-- A call which finds too few bytes available returns those. -/
theorem recv_short {asked available : ℕ} {undelivered : List UInt8} (some_available : 0 < available)
    (short : available < asked) (enough : asked ≤ undelivered.length) :
    recv asked available undelivered =
      (.bytes (undelivered.take available), undelivered.drop available) := by
  have some_taken : undelivered.take available ≠ [] := by
    apply List.ne_nil_of_length_pos
    rw [List.length_take]
    omega
  rw [recv, if_neg (by omega), Nat.min_eq_right short.le]
  simp [some_taken]

theorem step_eq (phase : Phase) (running : phase ≠ .stopped) (data : ℤ → Option (List UInt8))
    {available : ℕ} {undelivered rest : List UInt8} {result : Recv}
    (received : recv phase.asked available undelivered = (result, rest)) :
    step { listener := { phase, data }, undelivered } available =
      { listener := Listener.listen { phase, data } result, undelivered := rest } := by
  rw [step, if_neg running, received]

/-- A whole call for a payload stores it for the currency which was read. -/
theorem step_payload {client : Client} {awaited : List (Snapshot UInt64 UInt64)}
    (awaits : client.Awaits awaited) {currencyId : ℤ} {messageLength : ℕ}
    (reading : client.listener.phase = .payload currencyId messageLength) {available : ℕ}
    (enough : messageLength ≤ available) :
    ∃ snapshot later, awaited = snapshot :: later ∧
      currencyId = signed snapshot.currencyId.toNat ∧ (client.step available).Awaits later ∧
        (client.step available).listener.data =
          Function.update client.listener.data currencyId (some snapshot.payload) := by
  obtain ⟨⟨phase, data⟩, undelivered⟩ := client
  change phase = _ at reading
  subst reading
  obtain ⟨snapshot, later, rfl, same, rfl, rest⟩ := awaits
  change undelivered = _ at rest
  subst rest
  have some_payload : snapshot.payload ≠ [] :=
    List.ne_nil_of_length_eq_add_one snapshot.length_payload
  rw [step_eq (.payload _ 32) nofun data
    (recv_whole snapshot.length_payload (by decide) enough _), listen_payload some_payload]
  exact ⟨snapshot, later, rfl, same, rfl, rfl⟩

/-- A whole call in step stays in step, and stores the payload of the awaited snapshot if it is the
last call for it. -/
theorem step_whole {client : Client} {awaited : List (Snapshot UInt64 UInt64)}
    (awaits : client.Awaits awaited) {available : ℕ} (whole : client.Whole available) :
    ((client.step available).Awaits awaited ∧
        (client.step available).listener.data = client.listener.data) ∨
      ∃ snapshot later currencyId messageLength,
        client.listener.phase = .payload currencyId messageLength ∧
          awaited = snapshot :: later ∧ currencyId = signed snapshot.currencyId.toNat ∧
            (client.step available).Awaits later ∧
              (client.step available).listener.data =
                Function.update client.listener.data currencyId (some snapshot.payload) := by
  obtain ⟨⟨phase, data⟩, undelivered⟩ := client
  cases phase with
  | currency =>
      left
      change undelivered = stream awaited at awaits
      by_cases nothing : undelivered = [] ∨ available = 0
      · rw [step_eq .currency nofun data (recv_blocked (Nat.succ_pos 3) nothing)]
        exact ⟨awaits, rfl⟩
      · obtain ⟨some_left, some_available⟩ := not_or.mp nothing
        have enough : 4 ≤ available := (whole.resolve_left some_left).resolve_left some_available
        cases awaited with
        | nil => exact absurd awaits some_left
        | cons snapshot later =>
            rw [stream_cons] at awaits
            subst awaits
            rw [step_eq .currency nofun data
              (recv_whole (ByteOrder.length_toBig 4 _) (Nat.succ_pos 3) enough _),
              listen_currency (unpackInt_toBig snapshot.currencyId)]
            exact ⟨⟨snapshot, later, rfl, rfl, rfl⟩, rfl⟩
  | header currencyId =>
      left
      obtain ⟨snapshot, later, rfl, same, rest⟩ := awaits
      change undelivered = _ at rest
      subst rest
      have length : ([0, 0, 0, 32] : List UInt8).length = (Phase.header currencyId).asked := rfl
      have unpacked : unpackInt [0, 0, 0, 32] = some ((32 : ℕ) : ℤ) := unpackInt_toBig 32
      rw [step_eq (.header currencyId) nofun data (recv_whole length (Nat.succ_pos 3) whole _),
        listen_header unpacked]
      exact ⟨⟨snapshot, later, rfl, same, rfl, rfl⟩, rfl⟩
  | payload currencyId messageLength =>
      right
      obtain ⟨snapshot, later, split, same, after, stored⟩ := step_payload awaits rfl whole
      exact ⟨snapshot, later, currencyId, messageLength, rfl, split, same, after, stored⟩
  | stopped => exact awaits.elim

theorem not_inStep_of_stopped {client : Client} {snapshots : List (Snapshot UInt64 UInt64)}
    (stopped : client.listener.phase = .stopped) : ¬ InStep snapshots client := by
  rintro ⟨received, awaited, -, awaits⟩
  rwa [Awaits, stopped] at awaits

/-- A call for a word which returns only some of its bytes stops the listener. -/
theorem step_incomplete {phase : Phase}
    (word : phase = .currency ∨ ∃ currencyId, phase = .header currencyId)
    (data : ℤ → Option (List UInt8)) {available : ℕ} {undelivered : List UInt8}
    (some_available : 0 < available) (short : available < 4) (enough : 4 ≤ undelivered.length) :
    (step { listener := { phase, data }, undelivered } available).listener.phase = .stopped := by
  have asked : phase.asked = 4 := by rcases word with rfl | ⟨currencyId, rfl⟩ <;> rfl
  have running : phase ≠ .stopped := by rcases word with rfl | ⟨currencyId, rfl⟩ <;> exact nofun
  have received := recv_short some_available short enough
  rw [← asked] at received
  rw [step_eq phase running data received]
  refine listen_incomplete ?_ word data
  rw [List.length_take]
  omega

/-- A call which would block inside a snapshot leaves the listener out of step. -/
theorem not_inStep_of_blocked (phase : Phase) (running : phase ≠ .stopped)
    (some_asked : 0 < phase.asked) (data : ℤ → Option (List UInt8)) {undelivered : List UInt8}
    (inside : ¬ 40 ∣ undelivered.length) (snapshots : List (Snapshot UInt64 UInt64)) :
    ¬ InStep snapshots (step { listener := { phase, data }, undelivered } 0) := by
  rw [step_eq phase running data (recv_blocked some_asked (Or.inr rfl)),
    listen_wouldBlock running]
  exact fun inStep => inside (inStep.length rfl)

/-- Any other call in step leaves the listener out of step. -/
theorem step_not_whole {client : Client} {snapshots awaited : List (Snapshot UInt64 UInt64)}
    (awaits : client.Awaits awaited) {available : ℕ} (cut : ¬ client.Whole available) :
    ¬ InStep snapshots (client.step available) := by
  obtain ⟨⟨phase, data⟩, undelivered⟩ := client
  cases phase with
  | currency =>
      change undelivered = stream awaited at awaits
      change ¬ (undelivered = [] ∨ available = 0 ∨ 4 ≤ available) at cut
      obtain ⟨some_left, some_available, short⟩ := by simpa only [not_or] using cut
      have enough : 4 ≤ undelivered.length := by
        have some_length := List.length_pos_of_ne_nil some_left
        rw [awaits, length_stream] at some_length ⊢
        omega
      exact not_inStep_of_stopped (step_incomplete (Or.inl rfl) data
        (Nat.pos_of_ne_zero some_available) (Nat.lt_of_not_le short) enough)
  | header currencyId =>
      obtain ⟨snapshot, later, rfl, -, rest⟩ := awaits
      change undelivered = _ at rest
      have length : undelivered.length = 36 + 40 * later.length := by
        rw [rest]
        simp [length_stream]
        omega
      rcases Nat.eq_zero_or_pos available with rfl | some_available
      · have inside : ¬ 40 ∣ undelivered.length := by omega
        exact not_inStep_of_blocked (.header currencyId) nofun (Nat.succ_pos 3) data inside
          snapshots
      · exact not_inStep_of_stopped (step_incomplete (Or.inr ⟨currencyId, rfl⟩) data
          some_available (Nat.lt_of_not_le cut) (by omega))
  | payload currencyId messageLength =>
      obtain ⟨snapshot, later, rfl, -, rfl, rest⟩ := awaits
      change undelivered = _ at rest
      have short : available < 32 := Nat.lt_of_not_le cut
      have length : undelivered.length = 32 + 40 * later.length := by
        rw [rest]
        simp [length_stream]
      have some_asked : 0 < (Phase.payload currencyId 32).asked := Nat.succ_pos 31
      have enough : (Phase.payload currencyId 32).asked ≤ undelivered.length :=
        length ▸ Nat.le_add_right 32 _
      rcases Nat.eq_zero_or_pos available with rfl | some_available
      · have inside : ¬ 40 ∣ undelivered.length := by omega
        exact not_inStep_of_blocked (.payload currencyId 32) nofun some_asked data inside
          snapshots
      · have some_taken : undelivered.take available ≠ [] := by
          apply List.ne_nil_of_length_pos
          rw [List.length_take]
          omega
        rw [step_eq (.payload currencyId 32) nofun data
          (recv_short some_available short enough), listen_payload some_taken]
        intro inStep
        have divides := inStep.length rfl
        rw [List.length_drop] at divides
        omega
  | stopped => exact awaits.elim

theorem inStep_step_iff {client : Client} {snapshots : List (Snapshot UInt64 UInt64)}
    (inStep : InStep snapshots client) (available : ℕ) :
    InStep snapshots (client.step available) ↔ client.Whole available := by
  obtain ⟨received, awaited, rfl, awaits⟩ := inStep
  constructor
  · intro after
    by_contra cut
    exact step_not_whole awaits cut after
  · intro whole
    rcases step_whole awaits whole with ⟨after, -⟩ | ⟨snapshot, later, -, -, -, rfl, -, after, -⟩
    · exact ⟨received, awaited, rfl, after⟩
    · exact ⟨received ++ [snapshot], later, by simp, after⟩

/-! ## Whole deliveries -/

theorem run_snoc (snapshots : List (Snapshot UInt64 UInt64)) (delivery : List ℕ)
    (available : ℕ) :
    run snapshots (delivery ++ [available]) = (run snapshots delivery).step available := by
  simp [run]

theorem inStep_start (snapshots : List (Snapshot UInt64 UInt64)) :
    InStep snapshots (run snapshots []) :=
  ⟨[], snapshots, rfl, rfl⟩

/-- The listener is in step after every part of a delivery exactly when all calls are whole. -/
theorem inStep_run_iff (snapshots : List (Snapshot UInt64 UInt64)) (delivery : List ℕ) :
    (∀ front, front <+: delivery → InStep snapshots (run snapshots front)) ↔
      ∀ front available, front ++ [available] <+: delivery →
        (run snapshots front).Whole available :=
  History.forall_prefix_iff (fun front => InStep snapshots (run snapshots front))
    (fun front available => (run snapshots front).Whole available) (inStep_start snapshots)
    (fun front available inStep => by
      rw [run_snoc]
      exact inStep_step_iff inStep available) delivery

/-- While all calls are whole and all currencies are identified, the listener stores the last
payload of every currency among the snapshots it has received. -/
theorem exists_received {snapshots : List (Snapshot UInt64 UInt64)} {delivery : List ℕ}
    (steps : ∀ front available, front ++ [available] <+: delivery →
      (run snapshots front).Whole available ∧ (run snapshots front).Identified) :
    ∃ received awaited, snapshots = received ++ awaited ∧
      (run snapshots delivery).Awaits awaited ∧
        ∀ currencyId, (run snapshots delivery).listener.data currencyId =
          History.latest (payloadFor currencyId) received := by
  induction delivery using List.reverseRecOn with
  | nil => exact ⟨[], snapshots, rfl, rfl, fun _ => rfl⟩
  | append_singleton delivery available induction =>
      obtain ⟨received, awaited, split, awaits, stored⟩ := induction fun front available within =>
        steps front available (within.trans (List.prefix_append delivery _))
      obtain ⟨whole, identified⟩ := steps delivery available List.prefix_rfl
      rw [run_snoc]
      rcases step_whole awaits whole with
        ⟨after, kept⟩ | ⟨snapshot, later, read, length, reading, rfl, same, after, updated⟩
      · exact ⟨received, awaited, split, after, fun currencyId => by rw [kept, stored]⟩
      · have read_as_sent := identified read length reading
        rw [same, signed_nonneg_iff] at read_as_sent
        refine ⟨received ++ [snapshot], later, by simp [split], after, ?_⟩
        intro currencyId
        rw [updated, same, read_as_sent, History.latest_snoc, payloadFor]
        by_cases here : (snapshot.currencyId.toNat : ℤ) = currencyId
        · simp [here]
        · simp [here, Ne.symm here, stored]

/-- At most eight bytes of the awaited snapshots have been delivered. -/
theorem Awaits.length {client : Client} {awaited : List (Snapshot UInt64 UInt64)}
    (awaits : client.Awaits awaited) :
    ∃ taken ≤ 8, client.undelivered.length + taken = 40 * awaited.length := by
  obtain ⟨⟨phase, data⟩, undelivered⟩ := client
  cases phase with
  | currency =>
      change undelivered = stream awaited at awaits
      exact ⟨0, by decide, by rw [awaits, length_stream, Nat.add_zero]⟩
  | header currencyId =>
      obtain ⟨snapshot, later, rfl, -, rest⟩ := awaits
      refine ⟨4, by decide, ?_⟩
      rw [rest]
      simp [length_stream]
      omega
  | payload currencyId messageLength =>
      obtain ⟨snapshot, later, rfl, -, -, rest⟩ := awaits
      refine ⟨8, by decide, ?_⟩
      rw [rest]
      simp [length_stream]
      omega
  | stopped => exact awaits.elim

/-- At every moment of every delivery the client is true to the snapshots, exactly when no call
inside a snapshot blocks or returns less than it asks for, and no payload is read for a currency
which the client has mistaken for a negative number. -/
theorem listener_faithful_iff (snapshots : List (Snapshot UInt64 UInt64)) (delivery : List ℕ) :
    (∀ front, front <+: delivery → Faithful snapshots (run snapshots front)) ↔
      ∀ front available, front ++ [available] <+: delivery →
        (run snapshots front).Whole available ∧ (run snapshots front).Identified := by
  constructor
  · intro faithful front available within
    have whole : (run snapshots front).Whole available :=
      (inStep_run_iff snapshots delivery).mp (fun part part_within =>
        (faithful part part_within).inStep) front available within
    obtain ⟨-, awaited, -, awaits⟩ :=
      (faithful front ((List.prefix_append front _).trans within)).inStep
    refine ⟨whole, ?_⟩
    intro currencyId messageLength reading
    rw [Whole, reading] at whole
    obtain ⟨snapshot, -, -, -, -, stored⟩ := step_payload awaits reading whole
    have found := congrFun stored currencyId
    rw [Function.update_self, ← run_snoc] at found
    obtain ⟨sent, -, same, -⟩ := (faithful _ within).complete currencyId _ found
    exact same ▸ Int.natCast_nonneg _
  · intro steps front within
    have steps_front : ∀ part available, part ++ [available] <+: front →
        (run snapshots part).Whole available ∧ (run snapshots part).Identified :=
      fun part available part_within => steps part available (part_within.trans within)
    obtain ⟨received, awaited, split, awaits, stored⟩ := exists_received steps_front
    obtain ⟨taken, few, length⟩ := awaits.length
    have lengths : snapshots.length = received.length + awaited.length := by
      rw [split, List.length_append]
    have received_eq : delivered snapshots (run snapshots front) = received := by
      have count : (40 * snapshots.length - (run snapshots front).undelivered.length) / 40 =
          received.length := by omega
      rw [delivered, count, split, List.take_left]
    refine ⟨?_, ⟨received, awaited, split, awaits⟩, ?_⟩
    · intro currencyId payload found
      rw [stored] at found
      obtain ⟨snapshot, member, selected⟩ := History.exists_of_latest found
      rw [payloadFor, Option.ite_none_right_eq_some] at selected
      exact ⟨snapshot, received_eq ▸ member, selected.1, (Option.some_inj.mp selected.2).symm⟩
    · intro nothing currencyId
      rw [nothing, List.length_nil, Nat.zero_add] at length
      have last : awaited = [] := List.length_eq_zero_iff.mp (by omega)
      rw [stored, split, last, List.append_nil]

/-- A snapshot with a bid of one hundred. -/
def roundSnapshot : Snapshot UInt64 UInt64 where
  currencyId := 1
  bestBidPrice := 0x4059000000000000
  bestBidVolume := 0x3FF0000000000000
  bestAskPrice := 0x4059400000000000
  bestAskVolume := 0x3FF0000000000000

/-- When the second call would block, the whole snapshot is delivered without ever being stored for
its currency, and a rest of it is stored for another one. -/
theorem roundSnapshot_lost_after_block :
    ¬ Faithful [roundSnapshot] (run [roundSnapshot] [4, 0, 4, 4, 40]) ∧
      (run [roundSnapshot] [4, 0, 4, 4, 40]).undelivered = [] ∧
      (run [roundSnapshot] [4, 0, 4, 4, 40]).listener.data 1 = none ∧
      ((run [roundSnapshot] [4, 0, 4, 4, 40]).listener.data 32).map List.length = some 28 := by
  have nothing : (run [roundSnapshot] [4, 0, 4, 4, 40]).undelivered = [] := by decide +kernel
  have unset : (run [roundSnapshot] [4, 0, 4, 4, 40]).listener.data 1 = none := by decide +kernel
  refine ⟨?_, nothing, unset, by decide +kernel⟩
  intro faithful
  have stored := faithful.final nothing 1
  rw [unset] at stored
  exact absurd stored nofun

end Client

end CryptoInfra
