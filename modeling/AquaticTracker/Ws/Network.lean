import AquaticTracker.Common.Primitives
import Mathlib.Logic.Relation

/-! # The socket worker of the WebSocket tracker

`run_socket_worker` of `aquatic_ws`: its two inner loops, accepting connections into the slab,
the cleaning `retain`, and `send_out_messages`.
-/

namespace AquaticTracker.Ws

set_option autoImplicit false

/-- `std::io::ErrorKind`, by the kinds the WebSocket tracker tests for or makes. -/
inductive IoErrorKind where
  | wouldBlock
  | connectionReset
  | invalidData
  | notConnected
  | other
deriving DecidableEq, Repr

/-- The result of a `tungstenite` call, by the cases the worker matches on: its value,
`Error::Io` of a kind, `Error::ConnectionClosed`, or another error. -/
inductive WsResult (α : Type) where
  | ok (value : α)
  | io (kind : IoErrorKind)
  | connectionClosed
  | other
deriving DecidableEq, Repr

/-- `slab::Slab<T>`: its slots by key, `none` for a vacant one. -/
structure Slab (T : Type) where
  entries : List (Option T)

namespace Slab

variable {T : Type}

/-- `Slab::get_mut`: the value in an occupied slot. -/
def get (slab : Slab T) (key : Nat) : Option T := (slab.entries[key]?).join

/-- A write through the reference that `get_mut` returns. -/
def set (slab : Slab T) (key : Nat) (value : T) : Slab T := ⟨slab.entries.set key (some value)⟩

/-- `Slab::remove`, which the worker calls only on an occupied slot, where it does not panic. -/
def remove (slab : Slab T) (key : Nat) : Slab T := ⟨slab.entries.set key none⟩

@[simp] theorem get_remove_self (slab : Slab T) (key : Nat) : (slab.remove key).get key = none := by
  simp only [get, remove, List.getElem?_set, if_pos]
  split <;> rfl

theorem get_set_self_of_get {slab : Slab T} {key : Nat} {value : T}
    (h : slab.get key = some value) (value' : T) : (slab.set key value').get key = some value' := by
  have hKey : key < slab.entries.length := by
    by_contra hKey
    simp [get, List.getElem?_eq_none (Nat.le_of_not_lt hKey)] at h
  simp [get, set, List.getElem?_set_self hKey]

def Vacant (slab : Slab T) (key : Nat) : Prop :=
  slab.entries[key]? = some none ∨ key = slab.entries.length

def insert (slab : Slab T) (key : Nat) (value : T) : Slab T :=
  ⟨if key < slab.entries.length then slab.entries.set key (some value)
    else slab.entries ++ [some value]⟩

def retain (slab : Slab T) (keep : Nat → T → Bool) : Slab T :=
  ⟨slab.entries.mapIdx fun key entry => entry.filter (keep key)⟩

theorem get_of_vacant {slab : Slab T} {key : Nat} (h : slab.Vacant key) : slab.get key = none := by
  rcases h with h | rfl
  · simp [get, h]
  · simp [get]

theorem get_insert_of_ne {slab : Slab T} {key key' : Nat} (h : slab.Vacant key) (hKey : key' ≠ key)
    (value : T) : (slab.insert key value).get key' = slab.get key' := by
  unfold insert get
  split
  · rw [List.getElem?_set_ne (Ne.symm hKey)]
  · rcases h with h | rfl
    · simp [List.getElem?_eq_none (Nat.le_of_not_lt ‹_›)] at h
    · rcases Nat.lt_or_gt_of_ne hKey with hLt | hGt
      · rw [List.getElem?_append_left hLt]
      · rw [List.getElem?_eq_none (by simp; omega), List.getElem?_eq_none (by omega)]

theorem get_set_of_ne (slab : Slab T) {key key' : Nat} (hKey : key' ≠ key) (value : T) :
    (slab.set key value).get key' = slab.get key' := by
  simp only [get, set, List.getElem?_set_ne (Ne.symm hKey)]

theorem get_remove_of_ne (slab : Slab T) {key key' : Nat} (hKey : key' ≠ key) :
    (slab.remove key).get key' = slab.get key' := by
  simp only [get, remove, List.getElem?_set_ne (Ne.symm hKey)]

theorem get_retain (slab : Slab T) (keep : Nat → T → Bool) (key : Nat) :
    (slab.retain keep).get key = (slab.get key).filter (keep key) := by
  simp only [get, retain, List.getElem?_mapIdx]
  cases slab.entries[key]? <;> rfl

end Slab

/-- `PeerConnection`, by the fields the worker reads; its `ws` is the environment. -/
structure PeerConnection where
  peerSocketAddr : SocketAddr
  validUntil : ValidUntil

/-- `ConnectionMeta` -/
structure ConnectionMeta where
  socketWorkerIndex : Nat
  socketWorkerSlabIndex : Nat
  peerSocketAddr : SocketAddr

/-! ## read_and_forward_in_messages -/

/-- What the loop of `read_and_forward_in_messages` changes: the slab, the messages sent to
the request workers, and the number of `read_message` calls made. -/
structure ReadState (I : Type) where
  connections : Slab (Option PeerConnection)
  sent : List (ConnectionMeta × I)
  reads : Nat

section ReadAndForward

variable {W I : Type} (socketWorkerIndex : Nat) (fromWsMessage : W → Option I)
  (readMessage : Nat → WsResult W) (pollToken : Nat) (validUntil : ValidUntil)

/-- One iteration of the loop of `read_and_forward_in_messages`; `.inr ()` where it breaks. -/
def readAndForwardStep (s : ReadState I) : ReadState I ⊕ Unit :=
  match s.connections.get pollToken with
  | some (some connection) =>
    let reads := s.reads + 1
    match readMessage s.reads with
    | .ok wsMessage =>
      let connectionMeta : ConnectionMeta :=
        ⟨socketWorkerIndex, pollToken, connection.peerSocketAddr⟩
      .inl ⟨s.connections.set pollToken (some { connection with validUntil }),
        s.sent ++ ((fromWsMessage wsMessage).map fun m => (connectionMeta, m)).toList, reads⟩
    | .io .wouldBlock => .inr ()
    | .io _ => .inl { s with reads }
    | .connectionClosed => .inl { s with connections := s.connections.remove pollToken, reads }
    | .other => .inl { s with reads }
  | _ => .inl s

/-- `read_and_forward_in_messages`, for at most `fuel` iterations of its loop. -/
def readAndForwardInMessages (fuel : Nat) (s : ReadState I) : ReadState I ⊕ Unit :=
  loopFor (readAndForwardStep socketWorkerIndex fromWsMessage readMessage pollToken validUntil)
    fuel s

theorem readAndForwardStep_of_vacant {s : ReadState I}
    (h : (s.connections.get pollToken).join = none) :
    readAndForwardStep socketWorkerIndex fromWsMessage readMessage pollToken validUntil s =
      .inl s := by
  unfold readAndForwardStep
  split
  · rename_i hGet
    simp [hGet] at h
  · rfl

theorem readAndForwardStep_cases {s s' : ReadState I}
    (h : readAndForwardStep socketWorkerIndex fromWsMessage readMessage pollToken validUntil s =
      .inl s') :
    s'.connections = s.connections ∧ s'.sent = s.sent ∨
      ∃ connection, s.connections.get pollToken = some (some connection) ∧
        (∀ key, key ≠ pollToken → s'.connections.get key = s.connections.get key) ∧
        ∃ forwarded, s'.sent = s.sent ++ forwarded ∧
          ∀ m ∈ forwarded, m.1 = ⟨socketWorkerIndex, pollToken, connection.peerSocketAddr⟩ := by
  unfold readAndForwardStep at h
  split at h
  · next connection hGet =>
    split at h <;> cases h
    · refine .inr ⟨connection, hGet, fun key hKey => Slab.get_set_of_ne _ hKey _, _, rfl,
        fun m hm => ?_⟩
      obtain ⟨m', -, rfl⟩ := Option.mem_map.mp (Option.mem_toList.mp hm)
      rfl
    · exact .inl ⟨rfl, rfl⟩
    · exact .inr ⟨connection, hGet, fun key hKey => Slab.get_remove_of_ne _ hKey, [],
        (List.append_nil _).symm, by simp⟩
    · exact .inl ⟨rfl, rfl⟩
  · cases h
    exact .inl ⟨rfl, rfl⟩

theorem readAndForwardInMessages_spins_of_vacant (s : ReadState I)
    (h : (s.connections.get pollToken).join = none) (fuel : Nat) :
    readAndForwardInMessages socketWorkerIndex fromWsMessage readMessage pollToken validUntil
      fuel s = .inl s := by
  have hStep := readAndForwardStep_of_vacant socketWorkerIndex fromWsMessage readMessage
    pollToken validUntil h
  obtain ⟨s', hLoop, rfl⟩ := loopFor_of_invariant _ (fun s' => s' = s)
    (fun _ hs => ⟨s, by subst hs; exact hStep, rfl⟩) fuel s rfl
  exact hLoop

theorem readAndForwardInMessages_spins_after_close {s : ReadState I} {connection : PeerConnection}
    (h : s.connections.get pollToken = some (some connection))
    (hClosed : readMessage s.reads = .connectionClosed) (fuel : Nat) :
    ∃ s', readAndForwardInMessages socketWorkerIndex fromWsMessage readMessage pollToken
      validUntil fuel s = .inl s' := by
  cases fuel with
  | zero => exact ⟨s, rfl⟩
  | succ fuel =>
    have hStep : readAndForwardStep socketWorkerIndex fromWsMessage readMessage pollToken
        validUntil s =
          .inl { s with connections := s.connections.remove pollToken, reads := s.reads + 1 } := by
      simp [readAndForwardStep, h, hClosed]
    exact ⟨_, (loopFor_of_inl _ hStep fuel).trans
      (readAndForwardInMessages_spins_of_vacant _ _ _ _ _ _ (by simp) fuel)⟩

theorem readAndForwardInMessages_returns (k : Nat) :
    ∀ (s : ReadState I) (connection : PeerConnection),
      s.connections.get pollToken = some (some connection) →
      readMessage (s.reads + k) = .io .wouldBlock →
      (∀ i < k, readMessage (s.reads + i) ≠ .connectionClosed) →
      readAndForwardInMessages socketWorkerIndex fromWsMessage readMessage pollToken validUntil
        (k + 1) s = .inr () := by
  induction k with
  | zero =>
    intro s connection h hBlock _
    rw [Nat.add_zero] at hBlock
    exact loopFor_of_inr _ (by simp [readAndForwardStep, h, hBlock]) 0
  | succ k ih =>
    intro s connection h hBlock hOpen
    have hNext : ∀ s' : ReadState I, s'.reads = s.reads + 1 →
        (∃ c, s'.connections.get pollToken = some (some c)) →
        readAndForwardInMessages socketWorkerIndex fromWsMessage readMessage pollToken
          validUntil (k + 1) s' = .inr () := by
      rintro s' hReads ⟨c, hc⟩
      refine ih s' c hc (by rwa [hReads, Nat.add_right_comm]) fun i hi => ?_
      rw [hReads, Nat.add_right_comm]
      exact hOpen (i + 1) (by omega)
    unfold readAndForwardInMessages
    rw [loopFor]
    unfold readAndForwardStep
    rw [h]
    cases hRead : readMessage s.reads with
    | ok wsMessage => exact hNext _ rfl ⟨_, Slab.get_set_self_of_get h _⟩
    | io kind => cases kind <;> first | rfl | exact hNext _ rfl ⟨connection, h⟩
    | connectionClosed => exact absurd hRead (hOpen 0 (Nat.succ_pos k))
    | other => exact hNext _ rfl ⟨connection, h⟩

end ReadAndForward

/-! ## The write_pending loop of the cleaning retain -/

section WritePending

variable (writePending : Nat → WsResult Unit)

/-- One iteration of the `write_pending` loop in the closure of the cleaning `retain`, after
`calls` calls: it leaves keeping the connection on `WouldBlock` and dropping it on
`ConnectionClosed`; every other result, `Ok(())` among them, goes around again. -/
def writePendingStep (calls : Nat) : Nat ⊕ Bool :=
  match writePending calls with
  | .io .wouldBlock => .inr true
  | .connectionClosed => .inr false
  | _ => .inl (calls + 1)

/-- The `write_pending` loop, for at most `fuel` iterations: whether the closure keeps the
connection, once it leaves. -/
def writePendingLoop (fuel calls : Nat) : Nat ⊕ Bool :=
  loopFor (writePendingStep writePending) fuel calls

theorem writePendingLoop_spins_of_ok (calls : Nat) (h : ∀ i, calls ≤ i → writePending i = .ok ())
    (fuel : Nat) : ∃ calls', writePendingLoop writePending fuel calls = .inl calls' := by
  obtain ⟨calls', hLoop, -⟩ := loopFor_of_invariant (writePendingStep writePending) (calls ≤ ·)
    (fun c hc => ⟨c + 1, by simp [writePendingStep, h c hc], by omega⟩) fuel calls le_rfl
  exact ⟨calls', hLoop⟩

theorem writePendingLoop_exits (k : Nat) :
    ∀ calls, (writePending (calls + k) = .io .wouldBlock ∨
        writePending (calls + k) = .connectionClosed) →
      ∃ keep, writePendingLoop writePending (k + 1) calls = .inr keep := by
  induction k with
  | zero =>
    rintro calls (h | h) <;> rw [Nat.add_zero] at h
    · exact ⟨true, loopFor_of_inr _ (by simp [writePendingStep, h]) 0⟩
    · exact ⟨false, loopFor_of_inr _ (by simp [writePendingStep, h]) 0⟩
  | succ k ih =>
    intro calls h
    unfold writePendingLoop
    rw [loopFor]
    split
    · rename_i c hStep
      have hc : c = calls + 1 := by
        unfold writePendingStep at hStep
        split at hStep <;> cases hStep
        rfl
      subst hc
      exact ih (calls + 1) (by rwa [Nat.add_right_comm])
    · exact ⟨_, rfl⟩

end WritePending

/-- One iteration of the main loop need not finish on outcomes that end each inner loop as
expected: `read_and_forward_in_messages` never returns for a polled slot that holds no
connection, nor after a read that reports `ConnectionClosed`; and the `write_pending` loop
never exits once every call returns `Ok(())`. Both loops do end when a `WouldBlock` comes
first (or, for `write_pending`, a `ConnectionClosed`). -/
theorem ws_socket_worker_inner_loops_spin {W I : Type} (socketWorkerIndex : Nat)
    (fromWsMessage : W → Option I) (pollToken : Nat) (validUntil : ValidUntil) :
    (∀ (readMessage : Nat → WsResult W) (s : ReadState I),
      (s.connections.get pollToken).join = none → ∀ fuel,
        readAndForwardInMessages socketWorkerIndex fromWsMessage readMessage pollToken validUntil
          fuel s = .inl s) ∧
    (∀ (readMessage : Nat → WsResult W) (s : ReadState I) (connection : PeerConnection),
      s.connections.get pollToken = some (some connection) →
      readMessage s.reads = .connectionClosed → ∀ fuel, ∃ s',
        readAndForwardInMessages socketWorkerIndex fromWsMessage readMessage pollToken validUntil
          fuel s = .inl s') ∧
    (∀ (writePending : Nat → WsResult Unit) (calls : Nat),
      (∀ i, calls ≤ i → writePending i = .ok ()) → ∀ fuel, ∃ calls',
        writePendingLoop writePending fuel calls = .inl calls') ∧
    (∀ (readMessage : Nat → WsResult W) (s : ReadState I) (connection : PeerConnection) (k : Nat),
      s.connections.get pollToken = some (some connection) →
      readMessage (s.reads + k) = .io .wouldBlock →
      (∀ i < k, readMessage (s.reads + i) ≠ .connectionClosed) →
      readAndForwardInMessages socketWorkerIndex fromWsMessage readMessage pollToken validUntil
        (k + 1) s = .inr ()) ∧
    (∀ (writePending : Nat → WsResult Unit) (calls k : Nat),
      (writePending (calls + k) = .io .wouldBlock ∨
        writePending (calls + k) = .connectionClosed) →
      ∃ keep, writePendingLoop writePending (k + 1) calls = .inr keep) :=
  ⟨fun readMessage s h => readAndForwardInMessages_spins_of_vacant socketWorkerIndex
      fromWsMessage readMessage pollToken validUntil s h,
    fun readMessage _ _ h hClosed => readAndForwardInMessages_spins_after_close socketWorkerIndex
      fromWsMessage readMessage pollToken validUntil h hClosed,
    writePendingLoop_spins_of_ok,
    fun readMessage s connection k => readAndForwardInMessages_returns socketWorkerIndex
      fromWsMessage readMessage pollToken validUntil k s connection,
    fun writePending calls k => writePendingLoop_exits writePending k calls⟩

/-! ## Accepting connections and sending out messages -/

/-- What the loop of `accept_new_connections` changes: the slab, and the number of
`listener.accept()` calls made. -/
structure AcceptState where
  connections : Slab (Option PeerConnection)
  accepts : Nat

section AcceptNewConnections

variable (accept : Nat → Except IoErrorKind SocketAddr)
  (vacantKey : Slab (Option PeerConnection) → Nat) (validUntil : ValidUntil)

/-- One iteration of the loop of `accept_new_connections`; `.inr ()` where it breaks. The
`i`-th call of `listener.accept()` gives `accept i`: the peer address of a stream, or the kind
of the error. `vacantKey` is the key that `Slab::vacant_entry` hands out. -/
def acceptStep (s : AcceptState) : AcceptState ⊕ Unit :=
  match accept s.accepts with
  | .ok src =>
    .inl ⟨s.connections.insert (vacantKey s.connections) (some ⟨src, validUntil⟩), s.accepts + 1⟩
  | .error .wouldBlock => .inr ()
  | .error _ => .inl { s with accepts := s.accepts + 1 }

/-- `accept_new_connections`, for at most `fuel` iterations of its loop. -/
def acceptNewConnections (fuel : Nat) (s : AcceptState) : AcceptState ⊕ Unit :=
  loopFor (acceptStep accept vacantKey validUntil) fuel s

theorem acceptStep_get_of_ne {s s' : AcceptState}
    (h : acceptStep accept vacantKey validUntil s = .inl s')
    (hVacant : s.connections.Vacant (vacantKey s.connections)) {key : Nat}
    (hKey : key ≠ vacantKey s.connections) : s'.connections.get key = s.connections.get key := by
  unfold acceptStep at h
  split at h
  · cases h
    exact Slab.get_insert_of_ne hVacant hKey _
  · cases h
  · cases h
    rfl

end AcceptNewConnections

/-- What `send_out_messages` changes: the slab, the out messages handed to a connection's
`write_message`, each with that connection, and the number of `write_message` calls made. -/
structure SendState (O : Type) where
  connections : Slab (Option PeerConnection)
  written : List (ConnectionMeta × PeerConnection × O)
  writes : Nat

section SendOutMessages

variable {O : Type} (writeMessage : Nat → WsResult Unit)

/-- One message of the drain in `send_out_messages`: it goes to the connection in the slot its
meta names, if that connection's peer address is the meta's. The `i`-th call of
`write_message` returns `writeMessage i`; a `ConnectionClosed` empties the slot, and every
other result goes on to the next message. -/
def sendOutMessage (s : SendState O) (message : ConnectionMeta × O) : SendState O :=
  match s.connections.get message.1.socketWorkerSlabIndex with
  | some (some connection) =>
    if connection.peerSocketAddr ≠ message.1.peerSocketAddr then s
    else
      let written := s.written ++ [(message.1, connection, message.2)]
      match writeMessage s.writes with
      | .connectionClosed =>
        ⟨s.connections.remove message.1.socketWorkerSlabIndex, written, s.writes + 1⟩
      | _ => ⟨s.connections, written, s.writes + 1⟩
  | _ => s

/-- `send_out_messages`, over the messages that the drain of `out_message_receiver` yields. -/
def sendOutMessages (s : SendState O) (messages : List (ConnectionMeta × O)) : SendState O :=
  messages.foldl (sendOutMessage writeMessage) s

theorem sendOutMessage_cases (s : SendState O) (message : ConnectionMeta × O) :
    sendOutMessage writeMessage s message = s ∨
      ∃ connection, s.connections.get message.1.socketWorkerSlabIndex = some (some connection) ∧
        connection.peerSocketAddr = message.1.peerSocketAddr ∧
        (sendOutMessage writeMessage s message).written =
          s.written ++ [(message.1, connection, message.2)] ∧
        ∀ key, (sendOutMessage writeMessage s message).connections.get key =
            s.connections.get key ∨
          key = message.1.socketWorkerSlabIndex ∧
            (sendOutMessage writeMessage s message).connections.get key = none := by
  unfold sendOutMessage
  split
  · next connection hGet =>
    split
    · exact .inl rfl
    · next hAddr =>
      refine .inr ⟨connection, hGet, not_not.mp hAddr, ?_⟩
      split
      · refine ⟨rfl, fun key => ?_⟩
        by_cases hKey : key = message.1.socketWorkerSlabIndex
        · exact .inr ⟨hKey, hKey ▸ Slab.get_remove_self _ _⟩
        · exact .inl (Slab.get_remove_of_ne _ hKey)
      · exact ⟨rfl, fun _ => .inl rfl⟩
  · exact .inl rfl

theorem sendOutMessages_spec (s : SendState O) (messages : List (ConnectionMeta × O)) :
    ∃ handed, (sendOutMessages writeMessage s messages).written = s.written ++ handed ∧
      (∀ w ∈ handed, (w.1, w.2.2) ∈ messages ∧
        s.connections.get w.1.socketWorkerSlabIndex = some (some w.2.1) ∧
        w.2.1.peerSocketAddr = w.1.peerSocketAddr) ∧
      ∀ key, (sendOutMessages writeMessage s messages).connections.get key =
          s.connections.get key ∨
        (sendOutMessages writeMessage s messages).connections.get key = none ∧
          ∃ connection, s.connections.get key = some (some connection) := by
  induction messages generalizing s with
  | nil => exact ⟨[], by simp [sendOutMessages], by simp, fun _ => .inl rfl⟩
  | cons message messages ih =>
    obtain ⟨handed, hWritten, hHanded, hSlots⟩ := ih (sendOutMessage writeMessage s message)
    simp only [sendOutMessages, List.foldl_cons] at hWritten hSlots ⊢
    rcases sendOutMessage_cases writeMessage s message with
      hSame | ⟨connection, hGet, hAddr, hStep, hStepSlots⟩
    · rw [hSame] at hWritten hHanded hSlots ⊢
      exact ⟨handed, hWritten,
        fun w hw => ⟨List.mem_cons_of_mem _ (hHanded w hw).1, (hHanded w hw).2⟩, hSlots⟩
    · refine ⟨(message.1, connection, message.2) :: handed, by simp [hWritten, hStep], ?_,
        fun key => ?_⟩
      · intro w hw
        rcases List.mem_cons.mp hw with rfl | hw
        · exact ⟨List.mem_cons_self _ _, hGet, hAddr⟩
        · obtain ⟨hMem, hwGet, hwAddr⟩ := hHanded w hw
          refine ⟨List.mem_cons_of_mem _ hMem, ?_, hwAddr⟩
          rcases hStepSlots w.1.socketWorkerSlabIndex with hEq | ⟨-, hNone⟩
          · rwa [← hEq]
          · rw [hNone] at hwGet
            cases hwGet
      · rcases hSlots key with hFinal | ⟨hFinal, connection', hConnection'⟩ <;>
          rcases hStepSlots key with hEq | ⟨rfl, hNone⟩
        · exact .inl (hFinal.trans hEq)
        · exact .inr ⟨hFinal.trans hNone, connection, hGet⟩
        · exact .inr ⟨hFinal, connection', hEq ▸ hConnection'⟩
        · rw [hNone] at hConnection'
          cases hConnection'

/-- A connection that reports `ConnectionClosed` for a message of a drain is handed nothing
more in that drain: every later message that names its slot is dropped. -/
theorem send_out_messages_skips_closed_connection (s : SendState O)
    (before after : List (ConnectionMeta × O)) (message : ConnectionMeta × O)
    (connection : PeerConnection)
    (hGet : (sendOutMessages writeMessage s before).connections.get
      message.1.socketWorkerSlabIndex = some (some connection))
    (hAddr : connection.peerSocketAddr = message.1.peerSocketAddr)
    (hClosed : writeMessage (sendOutMessages writeMessage s before).writes = .connectionClosed) :
    ∃ handed, (sendOutMessages writeMessage s (before ++ message :: after)).written =
        (sendOutMessages writeMessage s before).written ++
          (message.1, connection, message.2) :: handed ∧
      ∀ w ∈ handed, w.1.socketWorkerSlabIndex ≠ message.1.socketWorkerSlabIndex := by
  have hStep : sendOutMessage writeMessage (sendOutMessages writeMessage s before) message =
      ⟨(sendOutMessages writeMessage s before).connections.remove message.1.socketWorkerSlabIndex,
        (sendOutMessages writeMessage s before).written ++ [(message.1, connection, message.2)],
        (sendOutMessages writeMessage s before).writes + 1⟩ := by
    simp [sendOutMessage, hGet, hAddr, hClosed]
  obtain ⟨handed, hWritten, hHanded, -⟩ := sendOutMessages_spec writeMessage
    (sendOutMessage writeMessage (sendOutMessages writeMessage s before) message) after
  have hRun : sendOutMessages writeMessage s (before ++ message :: after) =
      sendOutMessages writeMessage
        (sendOutMessage writeMessage (sendOutMessages writeMessage s before) message) after := by
    simp only [sendOutMessages, List.foldl_append, List.foldl_cons]
  refine ⟨handed, ?_, fun w hw hSlot => ?_⟩
  · rw [hRun, hWritten, hStep, List.append_assoc, List.singleton_append]
  · have hwGet := (hHanded w hw).2.1
    rw [hStep, hSlot] at hwGet
    simp at hwGet

theorem send_out_messages_skips_closed_connection_repeated :
    ∃ handed, (sendOutMessages (fun _ => .connectionClosed)
        ⟨⟨[some none, some (some ⟨⟨.v4 ⟨Bytes.replicate 4 1⟩, 1⟩, 600⟩)]⟩, [], 0⟩
        [(⟨0, 1, ⟨.v4 ⟨Bytes.replicate 4 1⟩, 1⟩⟩, ()), (⟨0, 1, ⟨.v4 ⟨Bytes.replicate 4 1⟩, 1⟩⟩, ())]
          ).written =
        (⟨0, 1, ⟨.v4 ⟨Bytes.replicate 4 1⟩, 1⟩⟩, ⟨⟨.v4 ⟨Bytes.replicate 4 1⟩, 1⟩, 600⟩, ()) ::
          handed ∧
      ∀ w ∈ handed, w.1.socketWorkerSlabIndex ≠ 1 :=
  send_out_messages_skips_closed_connection _ _ [] _ _ _ rfl rfl rfl

end SendOutMessages

/-- The socket worker along a run: its slab, the messages it forwarded to the request workers,
and the out messages it handed to a connection's `write_message`, each with that connection. -/
structure WorkerState (I O : Type) where
  connections : Slab (Option PeerConnection)
  sent : List (ConnectionMeta × I)
  written : List (ConnectionMeta × PeerConnection × O)

namespace WorkerState

variable {W I O : Type}

/-- The worker when its main loop starts: the slab holds `None` in slot 0, inserted "to prevent
assignment of index 0". -/
def init : WorkerState I O := ⟨⟨[some none]⟩, [], []⟩

/-- The closure of the cleaning `retain`, given whether the `write_pending` loop of the
connection in each slot keeps it: a slot that holds no connection is kept. -/
def cleaningKeeps (keep : Nat → Bool) (key : Nat) : Option PeerConnection → Bool
  | some _ => keep key
  | none => true

/-- A step of the worker's main loop other than sending out messages. The environments (what
the listener, `read_message` and `write_pending` return) are the step's own. -/
inductive LocalStep (socketWorkerIndex : Nat) (fromWsMessage : W → Option I) :
    WorkerState I O → WorkerState I O → Prop
  /-- An iteration of `accept_new_connections` that does not break. -/
  | accept {s : WorkerState I O} {s' : AcceptState} (accept : Nat → Except IoErrorKind SocketAddr)
      (vacantKey : Slab (Option PeerConnection) → Nat) (validUntil : ValidUntil) (accepts : Nat)
      (hVacant : s.connections.Vacant (vacantKey s.connections))
      (h : acceptStep accept vacantKey validUntil ⟨s.connections, accepts⟩ = .inl s') :
      LocalStep socketWorkerIndex fromWsMessage s { s with connections := s'.connections }
  /-- An iteration of `read_and_forward_in_messages` for a polled token that does not break. -/
  | read {s : WorkerState I O} {s' : ReadState I} (readMessage : Nat → WsResult W)
      (pollToken : Nat) (validUntil : ValidUntil) (reads : Nat)
      (h : readAndForwardStep socketWorkerIndex fromWsMessage readMessage pollToken validUntil
        ⟨s.connections, s.sent, reads⟩ = .inl s') :
      LocalStep socketWorkerIndex fromWsMessage s
        { s with connections := s'.connections, sent := s'.sent }
  /-- The cleaning `retain`, once the `write_pending` loop of every connection has left. -/
  | clean {s : WorkerState I O} (writePending : Nat → Nat → WsResult Unit) (fuel : Nat)
      (keep : Nat → Bool)
      (hExit : ∀ key connection, s.connections.get key = some (some connection) →
        writePendingLoop (writePending key) fuel 0 = .inr (keep key)) :
      LocalStep socketWorkerIndex fromWsMessage s
        { s with connections := s.connections.retain (cleaningKeeps keep) }

/-- `send_out_messages` over one drain of `out_message_receiver`, which yields `messages`; the
`i`-th call of `write_message` returns `writeMessage i` from `writes` on. -/
def sendOut (s : WorkerState I O) (writeMessage : Nat → WsResult Unit) (writes : Nat)
    (messages : List (ConnectionMeta × O)) : WorkerState I O :=
  { s with
    connections := (sendOutMessages writeMessage ⟨s.connections, s.written, writes⟩
      messages).connections
    written := (sendOutMessages writeMessage ⟨s.connections, s.written, writes⟩ messages).written }

/-- One step of the worker's main loop, where a drain may yield any messages of the request
workers. -/
def Step (socketWorkerIndex : Nat) (fromWsMessage : W → Option I) (s s' : WorkerState I O) :
    Prop :=
  LocalStep socketWorkerIndex fromWsMessage s s' ∨
    ∃ writeMessage writes messages, s' = s.sendOut writeMessage writes messages

theorem LocalStep.sent_written {socketWorkerIndex : Nat} {fromWsMessage : W → Option I}
    {s s' : WorkerState I O} (h : LocalStep socketWorkerIndex fromWsMessage s s') :
    (∃ forwarded, s'.sent = s.sent ++ forwarded) ∧ s'.written = s.written := by
  cases h with
  | read readMessage pollToken validUntil reads h =>
    refine ⟨?_, rfl⟩
    rcases readAndForwardStep_cases socketWorkerIndex fromWsMessage readMessage pollToken
      validUntil h with ⟨-, hSent⟩ | ⟨-, -, -, forwarded, hSent, -⟩
    · exact ⟨[], by simpa using hSent⟩
    · exact ⟨forwarded, hSent⟩
  | accept | clean => exact ⟨⟨[], (List.append_nil _).symm⟩, rfl⟩

/-- The states a run of the worker reaches. -/
def Reachable (socketWorkerIndex : Nat) (fromWsMessage : W → Option I) (s : WorkerState I O) :
    Prop :=
  Relation.ReflTransGen (Step socketWorkerIndex fromWsMessage) init s

/-- Slot 0 holds `None`, so the listener keeps token 0: nothing was forwarded as read from it,
and every out message handed to a connection went to one whose peer address is the message's. -/
structure ListenerSlotReserved (socketWorkerIndex : Nat) (s : WorkerState I O) : Prop where
  get_zero : s.connections.get 0 = some none
  sent : ∀ m ∈ s.sent, m.1.socketWorkerIndex = socketWorkerIndex ∧ m.1.socketWorkerSlabIndex ≠ 0
  written : ∀ w ∈ s.written, w.1.socketWorkerSlabIndex ≠ 0 ∧
    w.2.1.peerSocketAddr = w.1.peerSocketAddr

theorem ne_zero_of_get {slab : Slab (Option PeerConnection)} (h0 : slab.get 0 = some none)
    {key : Nat} {connection : PeerConnection} (h : slab.get key = some (some connection)) :
    key ≠ 0 := by
  rintro rfl
  rw [h0] at h
  cases h

theorem ListenerSlotReserved.localStep {socketWorkerIndex : Nat} {fromWsMessage : W → Option I}
    {s s' : WorkerState I O} (hInv : ListenerSlotReserved socketWorkerIndex s)
    (hStep : LocalStep socketWorkerIndex fromWsMessage s s') :
    ListenerSlotReserved socketWorkerIndex s' := by
  cases hStep with
  | accept accept vacantKey validUntil accepts hVacant h =>
    have hKey : 0 ≠ vacantKey s.connections := fun hZero => by
      simpa [hZero, Slab.get_of_vacant hVacant] using hInv.get_zero
    exact ⟨(acceptStep_get_of_ne accept vacantKey validUntil h hVacant hKey).trans hInv.get_zero,
      hInv.sent, hInv.written⟩
  | read readMessage pollToken validUntil reads h =>
    rcases readAndForwardStep_cases socketWorkerIndex fromWsMessage readMessage pollToken
      validUntil h with
      ⟨hConnections, hSent⟩ | ⟨connection, hGet, hSlots, forwarded, hSent, hForwarded⟩
    · exact ⟨hConnections ▸ hInv.get_zero, hSent ▸ hInv.sent, hInv.written⟩
    · have hToken := ne_zero_of_get hInv.get_zero hGet
      refine ⟨(hSlots 0 (Ne.symm hToken)).trans hInv.get_zero, fun m hm => ?_, hInv.written⟩
      rcases List.mem_append.mp (hSent ▸ hm) with hm | hm
      · exact hInv.sent m hm
      · rw [hForwarded m hm]
        exact ⟨rfl, hToken⟩
  | clean writePending fuel keep hExit =>
    refine ⟨?_, hInv.sent, hInv.written⟩
    simp [Slab.get_retain, hInv.get_zero, Option.filter, cleaningKeeps]

theorem ListenerSlotReserved.sendOut {socketWorkerIndex : Nat} {s : WorkerState I O}
    (hInv : ListenerSlotReserved socketWorkerIndex s) (writeMessage : Nat → WsResult Unit)
    (writes : Nat) (messages : List (ConnectionMeta × O)) :
    ListenerSlotReserved socketWorkerIndex (s.sendOut writeMessage writes messages) := by
  obtain ⟨handed, hWritten, hHanded, hSlots⟩ :=
    sendOutMessages_spec writeMessage ⟨s.connections, s.written, writes⟩ messages
  refine ⟨?_, hInv.sent, fun w hw => ?_⟩
  · rcases hSlots 0 with hEq | ⟨-, connection, hGet⟩
    · exact hEq.trans hInv.get_zero
    · rw [hInv.get_zero] at hGet
      cases hGet
  · simp only [WorkerState.sendOut, hWritten] at hw
    rcases List.mem_append.mp hw with hw | hw
    · exact hInv.written w hw
    · obtain ⟨-, hGet, hAddr⟩ := hHanded w hw
      exact ⟨ne_zero_of_get hInv.get_zero hGet, hAddr⟩

/-- Token 0 stays the listener's over every run: slot 0 of the slab holds `None` in every state
the worker reaches, so no connection is ever accepted into it and nothing is forwarded as read
from it; every message forwarded names this worker, and every out message handed to a
connection goes to a slot other than 0, to a connection whose peer address is the message's. -/
theorem listener_token_never_names_connection {socketWorkerIndex : Nat}
    {fromWsMessage : W → Option I} {s : WorkerState I O}
    (hReach : Reachable socketWorkerIndex fromWsMessage s) :
    s.connections.get 0 = some none ∧
      (∀ m ∈ s.sent, m.1.socketWorkerIndex = socketWorkerIndex ∧ m.1.socketWorkerSlabIndex ≠ 0) ∧
      ∀ w ∈ s.written,
        w.1.socketWorkerSlabIndex ≠ 0 ∧ w.2.1.peerSocketAddr = w.1.peerSocketAddr := by
  have hInv : ListenerSlotReserved socketWorkerIndex s := by
    induction hReach with
    | refl => exact ⟨rfl, by simp [init], by simp [init]⟩
    | tail _ hStep ih =>
      rcases hStep with hStep | ⟨writeMessage, writes, messages, rfl⟩
      · exact ih.localStep hStep
      · exact ih.sendOut writeMessage writes messages
  exact ⟨hInv.get_zero, hInv.sent, hInv.written⟩

theorem listener_token_never_names_connection_after_accept :
    ∃ s : WorkerState Unit Unit, Reachable 0 (fun _ : Unit => none) s ∧
      s.connections.get 1 = some (some ⟨⟨.v4 ⟨Bytes.replicate 4 1⟩, 1⟩, 600⟩) ∧
      s.connections.get 0 = some none ∧
      (∀ m ∈ s.sent, m.1.socketWorkerIndex = 0 ∧ m.1.socketWorkerSlabIndex ≠ 0) ∧
      ∀ w ∈ s.written,
        w.1.socketWorkerSlabIndex ≠ 0 ∧ w.2.1.peerSocketAddr = w.1.peerSocketAddr := by
  have hReach : @Reachable Unit Unit Unit 0 (fun _ => none) _ :=
    .tail .refl (.inl (LocalStep.accept (fun _ => .ok ⟨.v4 ⟨Bytes.replicate 4 1⟩, 1⟩)
      (fun slab => slab.entries.length) 600 0 (.inr rfl) rfl))
  exact ⟨_, hReach, rfl, listener_token_never_names_connection hReach⟩

end WorkerState

end AquaticTracker.Ws
