import AquaticTracker.Ws.Network

/-! # The connection state machine of the mio WebSocket tracker

`Connection` of `aquatic_ws`: the TLS and WebSocket handshakes, `read`, and the queue of
`write_or_queue_message` with its writable interest.
-/

namespace AquaticTracker.Ws

set_option autoImplicit false

/-- `std::io::Error`: its kind, and the text it displays. -/
structure IoError where
  kind : IoErrorKind
  text : String
deriving DecidableEq, Repr

/-- `tungstenite::Error`, by the cases this file matches on. -/
inductive WsError where
  | sendQueueFull
  | io (err : IoError)
  | other (text : String)
deriving DecidableEq, Repr

/-- The text a `tungstenite::Error` displays. -/
def WsError.text : WsError → String
  | .sendQueueFull => "Send queue is full"
  | .io err => err.text
  | .other text => text

/-- `ConnectionState`, by the variant; what each variant holds is the environment. -/
inductive ConnectionState where
  | tlsHandshaking
  | wsHandshaking
  | wsConnection
deriving DecidableEq, Repr

/-- How far a connection has come: TLS handshake, WebSocket handshake, connection. -/
def ConnectionState.rank : ConnectionState → Nat
  | .tlsHandshaking => 0
  | .wsHandshaking => 1
  | .wsConnection => 2

theorem ConnectionState.rank_le_two (st : ConnectionState) : st.rank ≤ 2 := by
  cases st <;> decide

/-- `ConnectionReadStatus<ConnectionState>`, over the incoming message type `M`. -/
inductive ConnectionReadStatus (M : Type) where
  | message (state : ConnectionState) (message : M)
  | ok (state : ConnectionState)
  | wouldBlock (state : ConnectionState)

/-- The state a status carries. -/
def ConnectionReadStatus.state {M : Type} : ConnectionReadStatus M → ConnectionState
  | .message state _ => state
  | .ok state => state
  | .wouldBlock state => state

/-- The result of a `tungstenite` server handshake step: the WebSocket, or a
`HandshakeError`. -/
inductive HandshakeResult where
  | ok
  | interrupted
  | failure (text : String)
deriving DecidableEq, Repr

/-- What `TlsHandshaking::read` gets from the socket, `rustls` and `tungstenite`, in the order
it asks: `read_tls`, `process_new_packets`, the `write_tls` loop as a whole, `is_handshaking`,
and `accept_with_config`. -/
structure TlsReadOutcome where
  readTls : Except IoError Nat
  processNewPackets : Except String Unit
  writeTls : Except IoError Unit
  isHandshaking : Bool
  accept : HandshakeResult

/-- What `WebSocket::read_message` returns, by the cases `WsConnection::read` matches: a text
or binary message with the result of `InMessage::from_ws_message` on it, a message of another
type, or an error. -/
inductive WsReadOutcome (M : Type) where
  | data (message : Except String M)
  | unexpected
  | error (err : WsError)

/-- What one inner `read` gets, for whichever state the connection is in. -/
structure ReadOutcome (M : Type) where
  tls : TlsReadOutcome
  handshake : HandshakeResult
  ws : WsReadOutcome M

section Read

variable {M : Type}

/-- `WsHandshaking::handle_handshake_result` -/
def handleHandshakeResult : HandshakeResult → Except IoError (ConnectionReadStatus M)
  | .ok => .ok (.ok .wsConnection)
  | .interrupted => .ok (.wouldBlock .wsHandshaking)
  | .failure text => .error ⟨.invalidData, text⟩

/-- `TlsHandshaking::read` -/
def tlsHandshakingRead (o : TlsReadOutcome) : Except IoError (ConnectionReadStatus M) :=
  match o.readTls with
  | .ok 0 => .error ⟨.connectionReset, "Connection closed"⟩
  | .ok _ =>
    match o.processNewPackets with
    | .ok () => do
      o.writeTls
      if o.isHandshaking then pure (.wouldBlock .tlsHandshaking)
      else handleHandshakeResult o.accept
    | .error text => .error ⟨.invalidData, text⟩
  | .error err => if err.kind = .wouldBlock then .ok (.wouldBlock .tlsHandshaking) else .error err

/-- `WsHandshaking::read`: the result of the next handshake step. -/
def wsHandshakingRead (handshake : HandshakeResult) : Except IoError (ConnectionReadStatus M) :=
  handleHandshakeResult handshake

/-- `WsConnection::read` -/
def wsConnectionRead : WsReadOutcome M → Except IoError (ConnectionReadStatus M)
  | .data (.ok message) => .ok (.message .wsConnection message)
  | .data (.error text) => .error ⟨.invalidData, text⟩
  | .unexpected => .error ⟨.invalidData, "unexpected WebSocket message type"⟩
  | .error (.io err) =>
    if err.kind = .wouldBlock then .ok (.wouldBlock .wsConnection) else .error err
  | .error err => .error ⟨.invalidData, err.text⟩

/-- The inner `read` that `Connection::read` calls for a state. -/
def ConnectionState.read (o : ReadOutcome M) : ConnectionState → Except IoError (ConnectionReadStatus M)
  | .tlsHandshaking => tlsHandshakingRead o.tls
  | .wsHandshaking => wsHandshakingRead o.handshake
  | .wsConnection => wsConnectionRead o.ws

theorem handleHandshakeResult_rank {r : HandshakeResult} {status : ConnectionReadStatus M}
    (h : handleHandshakeResult r = .ok status) :
    1 ≤ status.state.rank ∧ ∀ state, status = .ok state → state = .wsConnection := by
  cases r <;> cases h <;> simp [ConnectionReadStatus.state, ConnectionState.rank]

theorem tlsHandshakingRead_eq_ok {o : TlsReadOutcome} {status : ConnectionReadStatus M}
    (h : tlsHandshakingRead o = .ok status) :
    status = .wouldBlock .tlsHandshaking ∨ handleHandshakeResult o.accept = .ok status := by
  unfold tlsHandshakingRead at h
  split at h
  · cases h
  · split at h
    · cases hWrite : o.writeTls <;> simp only [hWrite, bind, Except.bind, pure, Except.pure] at h
      · cases h
      · split at h
        · exact .inl (Except.ok.inj h).symm
        · exact .inr h
    · cases h
  · split at h
    · exact .inl (Except.ok.inj h).symm
    · cases h

theorem ConnectionState.read_rank {o : ReadOutcome M} {st : ConnectionState}
    {status : ConnectionReadStatus M} (h : st.read o = .ok status) :
    st.rank ≤ status.state.rank ∧ ∀ state, status = .ok state → state = .wsConnection := by
  cases st with
  | tlsHandshaking =>
    rcases tlsHandshakingRead_eq_ok h with rfl | h
    · simp [ConnectionReadStatus.state, ConnectionState.rank]
    · exact ⟨Nat.zero_le _, (handleHandshakeResult_rank h).2⟩
  | wsHandshaking => exact handleHandshakeResult_rank h
  | wsConnection =>
    simp only [ConnectionState.read, wsConnectionRead] at h
    split at h <;> (try split at h) <;> cases h <;>
      simp [ConnectionReadStatus.state, ConnectionState.rank]

theorem wsConnectionRead_ne_ok (o : WsReadOutcome M) (state : ConnectionState) :
    wsConnectionRead o ≠ .ok (.ok state) := by
  unfold wsConnectionRead
  split <;> (try split) <;> simp

end Read

/-- `mio::Interest`, by the two values a connection sets. -/
inductive Interest where
  | readable
  | writable
deriving DecidableEq, Repr

/-- `Connection<R>`, by the fields that its `read`, `write_or_queue_message` and `write` use:
the state, the outgoing messages `O` waiting to be written, and the registered interest. -/
structure Connection (O : Type) where
  state : ConnectionState
  messageQueue : List O
  interest : Interest

/-- `Connection::new`: a TLS handshake, nothing queued, registered for reading. -/
def Connection.new {O : Type} : Connection O := ⟨.tlsHandshaking, [], .readable⟩

/-! ## Connection::read -/

section ReadLoop

variable {M O : Type} (outcome : Nat → ReadOutcome M)

/-- One iteration of the loop of `Connection::read`, after `calls` inner reads: it leaves with
the connection and the message it hands to `message_handler`, or with the error. -/
def Connection.readStep (s : Connection O × Nat) :
    (Connection O × Nat) ⊕ Except IoError (Connection O × Option M) :=
  match s.1.state.read (outcome s.2) with
  | .ok (.message state message) => .inr (.ok ({ s.1 with state }, some message))
  | .ok (.ok state) => .inl ({ s.1 with state }, s.2 + 1)
  | .ok (.wouldBlock state) => .inr (.ok ({ s.1 with state }, none))
  | .error err => .inr (.error err)

/-- `Connection::read`, for at most `fuel` inner reads: `outcome i` is what the `i`-th gets. -/
def Connection.read (fuel : Nat) (conn : Connection O) :
    (Connection O × Nat) ⊕ Except IoError (Connection O × Option M) :=
  loopFor (Connection.readStep outcome) fuel (conn, 0)

theorem Connection.readStep_inl {s s' : Connection O × Nat}
    (h : Connection.readStep outcome s = .inl s') : s'.1 = { s.1 with state := .wsConnection } := by
  unfold Connection.readStep at h
  split at h <;> cases h
  rename_i state hRead
  rw [(ConnectionState.read_rank hRead).2 state rfl]

theorem Connection.readStep_inr_ok {s : Connection O × Nat} {conn : Connection O}
    {message : Option M} (h : Connection.readStep outcome s = .inr (.ok (conn, message))) :
    s.1.state.rank ≤ conn.state.rank := by
  unfold Connection.readStep at h
  split at h <;> cases h <;> rename_i hRead <;> exact (ConnectionState.read_rank hRead).1

theorem Connection.readStep_of_wsConnection {s : Connection O × Nat}
    (h : s.1.state = .wsConnection) : ∃ r, Connection.readStep outcome s = .inr r := by
  unfold Connection.readStep
  split
  · exact ⟨_, rfl⟩
  · rename_i state hRead
    rw [h] at hRead
    exact absurd hRead (wsConnectionRead_ne_ok _ state)
  · exact ⟨_, rfl⟩
  · exact ⟨_, rfl⟩

/-- `Connection::read` returns after at most two inner reads, with the same result however
many more it were allowed, and never leaves the connection in an earlier state. -/
theorem connection_read_returns_within_two_calls (conn : Connection O) :
    ∃ r, (∀ fuel, 2 ≤ fuel → Connection.read outcome fuel conn = .inr r) ∧
      ∀ conn' message, r = .ok (conn', message) → conn.state.rank ≤ conn'.state.rank := by
  have hFuel : ∀ r, Connection.read outcome 2 conn = .inr r →
      ∀ fuel, 2 ≤ fuel → Connection.read outcome fuel conn = .inr r := fun r h fuel hFuel => by
    obtain ⟨k, rfl⟩ := Nat.exists_eq_add_of_le hFuel
    exact loopFor_add_of_inr _ 2 k _ h
  cases hFirst : Connection.readStep outcome (conn, 0) with
  | inr r =>
    refine ⟨r, hFuel r (loopFor_of_inr _ hFirst 1), ?_⟩
    rintro conn' message rfl
    exact Connection.readStep_inr_ok outcome hFirst
  | inl s =>
    have hState := Connection.readStep_inl outcome hFirst
    obtain ⟨r, hSecond⟩ := Connection.readStep_of_wsConnection outcome (s := s) (by rw [hState])
    refine ⟨r, hFuel r ((loopFor_of_inl _ hFirst 1).trans (loopFor_of_inr _ hSecond 0)), ?_⟩
    rintro conn' message rfl
    have hRank := Connection.readStep_inr_ok outcome hSecond
    rw [hState] at hRank
    exact conn.state.rank_le_two.trans hRank

end ReadLoop

/-! ## Writing -/

/-- `MAX_PENDING_MESSAGES` -/
def maxPendingMessages : Nat := 16

/-- What the socket returns to one `Connection::write_message`: `WebSocket::write_message`, and
then `write_pending`. -/
structure WriteOutcome where
  writeMessage : Except WsError Unit
  writePending : Except WsError Unit

/-- A registered connection as it is written to, with the messages handed to
`WebSocket::write_message` so far, in order: bookkeeping that only the proofs read. -/
structure WriteState (O : Type) where
  conn : Connection O
  written : List O

/-- A call on a registered connection, with what the socket returns to it: to
`write_message`, to the `i`-th `write_message` of `write`'s loop, and to `reregister`. -/
inductive WriteCall (O : Type) where
  | writeOrQueueMessage (message : O) (sent : WriteOutcome) (reregistered : Except IoError Unit)
  | write (sent : Nat → WriteOutcome) (reregistered : Except IoError Unit)

section Write

variable {O : Type}

/-- `Connection::write_message` -/
def Connection.writeMessage (conn : Connection O) (o : WriteOutcome) : Except IoError Unit :=
  if conn.state = .wsConnection then do
    match o.writeMessage with
    | .ok () => pure ()
    | .error .sendQueueFull => throw ⟨.wouldBlock, "Send queue full"⟩
    | .error (.io err) => throw err
    | .error err => throw ⟨.other, err.text⟩
    match o.writePending with
    | .ok () => pure ()
    | .error (.io err) => throw err
    | .error err => throw ⟨.other, err.text⟩
  else throw ⟨.notConnected, "WebSocket connection not established"⟩

/-- `Connection::write_or_queue_message`. The message reaches the socket only in a
`WsConnection`; one that would block is queued while fewer than `MAX_PENDING_MESSAGES` wait,
and dropped otherwise. -/
def WriteState.writeOrQueueMessage (s : WriteState O) (message : O) (sent : WriteOutcome)
    (reregistered : Except IoError Unit) : WriteState O × Except IoError Unit :=
  let s' := { s with
    written := if s.conn.state = .wsConnection then s.written ++ [message] else s.written }
  match s.conn.writeMessage sent with
  | .ok () => (s', .ok ())
  | .error err =>
    if err.kind = .wouldBlock then
      if s.conn.messageQueue.length < maxPendingMessages then
        let conn := { s.conn with messageQueue := s.conn.messageQueue ++ [message] }
        if conn.interest ≠ .writable then
          ({ s' with conn := { conn with interest := .writable } }, reregistered)
        else ({ s' with conn }, .ok ())
      else (s', .ok ())
    else (s', .error err)

/-- The loop `while let Some(message) = self.message_queue.pop_front()` of `Connection::write`,
over the queue, with what its `i`-th `write_message` returns: the queue it leaves, the
messages it hands to `write_message`, and `some r` where `write` returns `r` from inside it. -/
def writeQueue (conn : Connection O) :
    (Nat → WriteOutcome) → List O → List O × List O × Option (Except IoError Unit)
  | _, [] => ([], [], none)
  | sent, message :: rest =>
    match conn.writeMessage (sent 0) with
    | .ok () =>
      let (queue, written, exit) := writeQueue conn (fun i => sent (i + 1)) rest
      (queue, message :: written, exit)
    | .error err =>
      if err.kind = .wouldBlock then (message :: rest, [message], some (.ok ()))
      else (rest, [message], some (.error err))

/-- `Connection::write` -/
def WriteState.write (s : WriteState O) (sent : Nat → WriteOutcome)
    (reregistered : Except IoError Unit) : WriteState O × Except IoError Unit :=
  if s.conn.state = .wsConnection then
    let (queue, written, exit) := writeQueue s.conn sent s.conn.messageQueue
    let s : WriteState O := ⟨{ s.conn with messageQueue := queue }, s.written ++ written⟩
    match exit with
    | some r => (s, r)
    | none =>
      let s := if queue.isEmpty then { s with conn := { s.conn with interest := .readable } } else s
      (s, reregistered)
  else (s, .error ⟨.notConnected, "WebSocket connection not established"⟩)

/-- One call, its result dropped. -/
def WriteState.call (s : WriteState O) : WriteCall O → WriteState O
  | .writeOrQueueMessage message sent reregistered =>
    (s.writeOrQueueMessage message sent reregistered).1
  | .write sent reregistered => (s.write sent reregistered).1

/-- A sequence of calls. -/
def WriteState.run (s : WriteState O) (calls : List (WriteCall O)) : WriteState O :=
  calls.foldl WriteState.call s

theorem writeQueue_spec (conn : Connection O) :
    ∀ (queue : List O) (sent : Nat → WriteOutcome), ∃ k ≤ queue.length,
      (writeQueue conn sent queue).2.1 = queue.take k ∧
      (((writeQueue conn sent queue).2.2 = none ∧ k = queue.length ∧
          (writeQueue conn sent queue).1 = []) ∨
        (0 < k ∧ (∃ err, conn.writeMessage (sent (k - 1)) = .error err ∧ err.kind = .wouldBlock) ∧
          (writeQueue conn sent queue).2.2 = some (.ok ()) ∧
          (writeQueue conn sent queue).1 = queue.drop (k - 1)) ∨
        (0 < k ∧ (∃ err, conn.writeMessage (sent (k - 1)) = .error err ∧ err.kind ≠ .wouldBlock ∧
          (writeQueue conn sent queue).2.2 = some (.error err)) ∧
          (writeQueue conn sent queue).1 = queue.drop k))
  | [], _ => ⟨0, le_rfl, rfl, .inl ⟨rfl, rfl, rfl⟩⟩
  | message :: rest, sent => by
    cases hWrite : conn.writeMessage (sent 0) with
    | ok =>
      obtain ⟨k, hk, hWritten, hExit⟩ := writeQueue_spec conn rest fun i => sent (i + 1)
      refine ⟨k + 1, by simp; omega, by simp [writeQueue, hWrite, hWritten], ?_⟩
      simp only [writeQueue, hWrite, Nat.add_sub_cancel, List.length_cons, Nat.succ_pos,
        true_and, List.drop_succ_cons, Nat.add_right_cancel_iff]
      rcases hExit with ⟨hNone, rfl, hQueue⟩ | ⟨hk0, hBlock, hSome, hQueue⟩ |
          ⟨hk0, hErr, hQueue⟩
      · exact .inl ⟨hNone, rfl, hQueue⟩
      · obtain ⟨j, rfl⟩ := Nat.exists_eq_add_of_lt hk0
        refine .inr (.inl ⟨hBlock, hSome, ?_⟩)
        simpa using hQueue
      · obtain ⟨j, rfl⟩ := Nat.exists_eq_add_of_lt hk0
        exact .inr (.inr ⟨by simpa using hErr, hQueue⟩)
    | error err =>
      have hStep : writeQueue conn sent (message :: rest) =
          if err.kind = .wouldBlock then (message :: rest, [message], some (.ok ()))
          else (rest, [message], some (.error err)) := by simp [writeQueue, hWrite]
      rw [hStep]
      by_cases hKind : err.kind = .wouldBlock
      · rw [if_pos hKind]
        exact ⟨1, by simp, rfl, .inr (.inl ⟨Nat.one_pos, ⟨err, hWrite, hKind⟩, rfl, rfl⟩)⟩
      · rw [if_neg hKind]
        exact ⟨1, by simp, rfl, .inr (.inr ⟨Nat.one_pos, ⟨err, hWrite, hKind, rfl⟩, rfl⟩)⟩

theorem length_writeQueue_le (conn : Connection O) (sent : Nat → WriteOutcome) (queue : List O) :
    (writeQueue conn sent queue).1.length ≤ queue.length := by
  obtain ⟨k, -, -, hExit⟩ := writeQueue_spec conn queue sent
  rcases hExit with ⟨-, -, h⟩ | ⟨-, -, -, h⟩ | ⟨-, -, h⟩ <;> simp [h]

theorem WriteState.length_write_le (s : WriteState O) (sent : Nat → WriteOutcome)
    (reregistered : Except IoError Unit) :
    (s.write sent reregistered).1.conn.messageQueue.length ≤ s.conn.messageQueue.length := by
  have hLe := length_writeQueue_le s.conn sent s.conn.messageQueue
  unfold WriteState.write
  split
  · generalize writeQueue s.conn sent s.conn.messageQueue = q at hLe ⊢
    obtain ⟨queue, written, exit⟩ := q
    cases exit <;> dsimp only <;> (try split) <;> exact hLe
  · exact le_rfl

theorem WriteState.length_writeOrQueueMessage_le (s : WriteState O) (message : O)
    (sent : WriteOutcome) (reregistered : Except IoError Unit)
    (h : s.conn.messageQueue.length ≤ maxPendingMessages) :
    (s.writeOrQueueMessage message sent reregistered).1.conn.messageQueue.length ≤
      maxPendingMessages := by
  unfold WriteState.writeOrQueueMessage
  cases s.conn.writeMessage sent with
  | ok => exact h
  | error err =>
    dsimp only
    split_ifs <;> simp <;> omega

theorem WriteState.run_length_le :
    ∀ (calls : List (WriteCall O)) (s : WriteState O),
      s.conn.messageQueue.length ≤ maxPendingMessages →
      (s.run calls).conn.messageQueue.length ≤ maxPendingMessages
  | [], _, h => h
  | .writeOrQueueMessage message sent reregistered :: calls, s, h =>
    WriteState.run_length_le calls _ (s.length_writeOrQueueMessage_le message sent reregistered h)
  | .write sent reregistered :: calls, s, h =>
    WriteState.run_length_le calls _ ((s.length_write_le sent reregistered).trans h)

/-- Over any sequence of calls the queue never holds more than `MAX_PENDING_MESSAGES`
messages. And `write` hands a prefix of the queue to `write_message`, in order; when it stops
at a message that would block, the queue is the unsent messages with that one back in front. -/
theorem message_queue_bounded_and_written_in_order :
    (∀ (calls : List (WriteCall O)) (s : WriteState O),
      s.conn.messageQueue.length ≤ maxPendingMessages →
      (s.run calls).conn.messageQueue.length ≤ maxPendingMessages) ∧
    (∀ (s : WriteState O) (sent : Nat → WriteOutcome) (reregistered : Except IoError Unit),
      s.conn.state = .wsConnection →
      ∃ k ≤ s.conn.messageQueue.length,
        (s.write sent reregistered).1.written = s.written ++ s.conn.messageQueue.take k ∧
        ((k = s.conn.messageQueue.length ∧ (s.write sent reregistered).1.conn.messageQueue = []) ∨
          (0 < k ∧
            (∃ err, s.conn.writeMessage (sent (k - 1)) = .error err ∧ err.kind = .wouldBlock) ∧
            (s.write sent reregistered).2 = .ok () ∧
            (s.write sent reregistered).1.conn.messageQueue = s.conn.messageQueue.drop (k - 1)) ∨
          (0 < k ∧
            (∃ err, s.conn.writeMessage (sent (k - 1)) = .error err ∧ err.kind ≠ .wouldBlock ∧
              (s.write sent reregistered).2 = .error err) ∧
            (s.write sent reregistered).1.conn.messageQueue = s.conn.messageQueue.drop k))) := by
  refine ⟨WriteState.run_length_le, fun s sent reregistered hState => ?_⟩
  obtain ⟨k, hk, hWritten, hExit⟩ := writeQueue_spec s.conn s.conn.messageQueue sent
  refine ⟨k, hk, ?_⟩
  unfold WriteState.write
  rw [if_pos hState]
  generalize writeQueue s.conn sent s.conn.messageQueue = q at hWritten hExit
  obtain ⟨queue, written, exit⟩ := q
  dsimp only at hWritten hExit ⊢
  subst hWritten
  rcases hExit with ⟨rfl, hk, rfl⟩ | ⟨hk0, hBlock, rfl, rfl⟩ | ⟨hk0, ⟨err, hErr, hKind, rfl⟩, rfl⟩
  · exact ⟨rfl, .inl ⟨hk, rfl⟩⟩
  · exact ⟨rfl, .inr (.inl ⟨hk0, hBlock, rfl, rfl⟩)⟩
  · exact ⟨rfl, .inr (.inr ⟨hk0, ⟨err, hErr, hKind, rfl⟩, rfl⟩)⟩

/-- While a message waits in the queue, the connection is registered for writability, so the
poll reports it writable and `write` runs again. -/
def WriteState.QueueRegistered (s : WriteState O) : Prop :=
  s.conn.messageQueue ≠ [] → s.conn.interest = .writable

theorem writeQueue_ne_nil {conn : Connection O} {sent : Nat → WriteOutcome} {queue : List O}
    (h : (writeQueue conn sent queue).1 ≠ []) : queue ≠ [] := by
  rintro rfl
  exact h rfl

theorem WriteState.queueRegistered_writeOrQueueMessage {s : WriteState O} (h : s.QueueRegistered)
    (message : O) (sent : WriteOutcome) (reregistered : Except IoError Unit) :
    (s.writeOrQueueMessage message sent reregistered).1.QueueRegistered := by
  unfold WriteState.writeOrQueueMessage
  cases s.conn.writeMessage sent with
  | ok => exact h
  | error err =>
    dsimp only
    split_ifs <;> first
      | exact fun _ => rfl
      | exact fun _ => not_not.mp ‹¬s.conn.interest ≠ .writable›
      | exact h

theorem WriteState.queueRegistered_write {s : WriteState O} (h : s.QueueRegistered)
    (sent : Nat → WriteOutcome) (reregistered : Except IoError Unit) :
    (s.write sent reregistered).1.QueueRegistered := by
  unfold WriteState.write
  split
  · have hQueue := @writeQueue_ne_nil _ s.conn sent s.conn.messageQueue
    generalize writeQueue s.conn sent s.conn.messageQueue = q at hQueue
    obtain ⟨queue, written, exit⟩ := q
    cases exit with
    | some r => exact fun hNe => h (hQueue hNe)
    | none =>
      dsimp only
      split
      · rename_i hEmpty
        exact fun hNe => absurd (List.isEmpty_iff.mp hEmpty) hNe
      · exact fun hNe => h (hQueue hNe)
  · exact h

/-- Over every run of `write_or_queue_message` and `write` calls, whatever each write returns,
a connection registered for writability whenever its queue held a message stays so: no queued
message is left waiting on a connection the poll would not report writable. -/
theorem queued_messages_keep_writable_interest :
    ∀ (calls : List (WriteCall O)) (s : WriteState O), s.QueueRegistered →
      (s.run calls).QueueRegistered
  | [], _, h => h
  | .writeOrQueueMessage message sent reregistered :: calls, s, h =>
    queued_messages_keep_writable_interest calls _
      (s.queueRegistered_writeOrQueueMessage h message sent reregistered)
  | .write sent reregistered :: calls, s, h =>
    queued_messages_keep_writable_interest calls _ (s.queueRegistered_write h sent reregistered)

/-- A message whose write finds the send queue full is queued, and the connection registered
for writability. -/
theorem queued_messages_keep_writable_interest_send_queue_full :
    (WriteState.run (⟨⟨.wsConnection, [], .readable⟩, []⟩ : WriteState Nat)
      [.writeOrQueueMessage 1 ⟨.error .sendQueueFull, .ok ()⟩ (.ok ())]).QueueRegistered :=
  queued_messages_keep_writable_interest _ _ fun h => absurd rfl h

end Write

end AquaticTracker.Ws
