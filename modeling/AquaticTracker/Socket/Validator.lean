import AquaticTracker.Protocol.Wire

/-! # Connection ids

`ConnectionValidator` of `crates/udp`: the elapsed seconds and four bytes of a keyed hash of
them and the client's IP, with the hasher reset after every use.
-/

namespace AquaticTracker.Socket

open Wire

set_option autoImplicit false

/-- `aquatic_common::CanonicalSocketAddr`, already in canonical form. -/
structure CanonicalSocketAddr where
  addr : SocketAddr
deriving DecidableEq, Repr

/-- `CanonicalSocketAddr::get` -/
def CanonicalSocketAddr.get (a : CanonicalSocketAddr) : SocketAddr := a.addr

/-- A keyed `blake3::Hasher`, by the bytes fed to it since its last reset. -/
structure Blake3Hasher where
  input : List U8

/-- `Hasher::update` -/
def Blake3Hasher.update (h : Blake3Hasher) (bytes : List U8) : Blake3Hasher :=
  ⟨h.input ++ bytes⟩

/-- `Hasher::reset` -/
def Blake3Hasher.reset (_ : Blake3Hasher) : Blake3Hasher := ⟨[]⟩

/-- `ConnectionValidator`, without `start_time`: the elapsed seconds are given to each call. -/
structure ConnectionValidator where
  maxConnectionAge : Nat
  keyedHasher : Blake3Hasher

/-- `constant_time_eq`: whether two byte strings are equal. -/
def constantTimeEq (a b : List U8) : Bool := decide (a = b)

section Validator

variable (xof : List U8 → Bytes 4) (endian : Endian)

/-- `ConnectionValidator::new`, with the `u32` `max_connection_age` of the config. -/
def ConnectionValidator.new (maxConnectionAge : BitVec 32) : ConnectionValidator :=
  ⟨maxConnectionAge.toNat, ⟨[]⟩⟩

/-- `ConnectionValidator::hash`: the validator with its hasher reset, and the first four
bytes of the hash of what was fed. -/
def ConnectionValidator.hash (v : ConnectionValidator) (elapsed : List U8) (ipAddr : IpAddr) :
    ConnectionValidator × Bytes 4 :=
  let hasher := (v.keyedHasher.update elapsed).update ipAddr.octets
  ({ v with keyedHasher := hasher.reset }, xof hasher.input)

/-- `ConnectionValidator::create_connection_id` at `elapsedSecs` seconds after the start. -/
def ConnectionValidator.createConnectionId (v : ConnectionValidator) (elapsedSecs : Nat)
    (sourceAddr : CanonicalSocketAddr) : ConnectionValidator × ConnectionId :=
  let elapsed := neBytes endian 4 (BitVec.ofNat 32 elapsedSecs).toNat
  let (v, hash) := v.hash xof elapsed sourceAddr.get.ip
  let connectionIdBytes := elapsed ++ hash.toList
  (v, BitVec.ofNat 64 (fromNeBytes endian connectionIdBytes))

/-- `ConnectionValidator::connection_id_valid` at `elapsedSecs` seconds after the start. -/
def ConnectionValidator.connectionIdValid (v : ConnectionValidator) (elapsedSecs : Nat)
    (sourceAddr : CanonicalSocketAddr) (connectionId : ConnectionId) : ConnectionValidator × Bool :=
  let bytes := neBytes endian 8 connectionId.toNat
  let (elapsed, hash) := (bytes.take 4, bytes.drop 4)
  let (v, expected) := v.hash xof elapsed sourceAddr.get.ip
  if !constantTimeEq hash expected.toList then (v, false)
  else
    let trackerElapsed := elapsedSecs
    let clientElapsed := fromNeBytes endian elapsed
    let clientExpirationTime := clientElapsed + v.maxConnectionAge
    (v, decide (clientExpirationTime > trackerElapsed) && decide (clientElapsed ≤ trackerElapsed))

/-- The calls a validator and its clones receive. -/
inductive ValidatorCall where
  | create (elapsedSecs : Nat) (sourceAddr : CanonicalSocketAddr)
  | valid (elapsedSecs : Nat) (sourceAddr : CanonicalSocketAddr) (connectionId : ConnectionId)

/-- The validator after one call. -/
def ConnectionValidator.call (v : ConnectionValidator) : ValidatorCall → ConnectionValidator
  | .create elapsedSecs sourceAddr => (v.createConnectionId xof endian elapsedSecs sourceAddr).1
  | .valid elapsedSecs sourceAddr connectionId =>
    (v.connectionIdValid xof endian elapsedSecs sourceAddr connectionId).1

/-- The validator after a history of calls. -/
def ConnectionValidator.runCalls (v : ConnectionValidator) (calls : List ValidatorCall) :
    ConnectionValidator :=
  calls.foldl (ConnectionValidator.call xof endian) v

@[simp] theorem ConnectionValidator.hash_fst (v : ConnectionValidator) (elapsed : List U8)
    (ipAddr : IpAddr) :
    (v.hash xof elapsed ipAddr).1 = { v with keyedHasher := ⟨[]⟩ } := rfl

theorem ConnectionValidator.hash_snd {v : ConnectionValidator} (hv : v.keyedHasher.input = [])
    (elapsed : List U8) (ipAddr : IpAddr) :
    (v.hash xof elapsed ipAddr).2 = xof (elapsed ++ ipAddr.octets) := by
  simp [ConnectionValidator.hash, Blake3Hasher.update, hv]

theorem ConnectionValidator.call_eq (v : ConnectionValidator) (c : ValidatorCall) :
    v.call xof endian c = { v with keyedHasher := ⟨[]⟩ } := by
  cases c with
  | create => rfl
  | valid elapsedSecs sourceAddr connectionId =>
    simp only [ConnectionValidator.call, ConnectionValidator.connectionIdValid]
    split <;> rfl

@[simp] theorem ConnectionValidator.createConnectionId_fst (v : ConnectionValidator)
    (elapsedSecs : Nat) (sourceAddr : CanonicalSocketAddr) :
    (v.createConnectionId xof endian elapsedSecs sourceAddr).1 = { v with keyedHasher := ⟨[]⟩ } :=
  v.call_eq xof endian (.create elapsedSecs sourceAddr)

@[simp] theorem ConnectionValidator.connectionIdValid_fst (v : ConnectionValidator)
    (elapsedSecs : Nat) (sourceAddr : CanonicalSocketAddr) (connectionId : ConnectionId) :
    (v.connectionIdValid xof endian elapsedSecs sourceAddr connectionId).1 =
      { v with keyedHasher := ⟨[]⟩ } :=
  v.call_eq xof endian (.valid elapsedSecs sourceAddr connectionId)

theorem ConnectionValidator.reset_of_input_eq_nil {v : ConnectionValidator}
    (hv : v.keyedHasher.input = []) : { v with keyedHasher := ⟨[]⟩ } = v := by
  obtain ⟨maxConnectionAge, ⟨input⟩⟩ := v
  cases hv
  rfl

theorem runCalls_new (maxConnectionAge : BitVec 32) (calls : List ValidatorCall) :
    (ConnectionValidator.new maxConnectionAge).runCalls xof endian calls =
      ConnectionValidator.new maxConnectionAge := by
  induction calls with
  | nil => rfl
  | cons c calls ih =>
    simp only [ConnectionValidator.runCalls, List.foldl_cons] at ih ⊢
    rw [ConnectionValidator.call_eq]
    exact ih

section Spec

variable {xof endian} {v : ConnectionValidator} (hv : v.keyedHasher.input = [])
include hv

theorem connectionIdValid_fst_of_input_eq_nil (elapsedSecs : Nat)
    (sourceAddr : CanonicalSocketAddr) (connectionId : ConnectionId) :
    (v.connectionIdValid xof endian elapsedSecs sourceAddr connectionId).1 = v := by
  rw [ConnectionValidator.connectionIdValid_fst, ConnectionValidator.reset_of_input_eq_nil hv]

theorem connectionIdValid_iff (elapsedSecs : Nat) (sourceAddr : CanonicalSocketAddr)
    (connectionId : ConnectionId) :
    (v.connectionIdValid xof endian elapsedSecs sourceAddr connectionId).2 = true ↔
      (neBytes endian 8 connectionId.toNat).drop 4 =
        (xof ((neBytes endian 8 connectionId.toNat).take 4 ++ sourceAddr.get.ip.octets)).toList ∧
      fromNeBytes endian ((neBytes endian 8 connectionId.toNat).take 4) ≤ elapsedSecs ∧
      elapsedSecs <
        fromNeBytes endian ((neBytes endian 8 connectionId.toNat).take 4) + v.maxConnectionAge := by
  set bytes := neBytes endian 8 connectionId.toNat
  simp only [ConnectionValidator.connectionIdValid, ConnectionValidator.hash_snd xof hv]
  by_cases hHash : bytes.drop 4 = (xof (bytes.take 4 ++ sourceAddr.get.ip.octets)).toList
  · simp [constantTimeEq, bytes, hHash]
    omega
  · simp [constantTimeEq, bytes, hHash]

theorem neBytes_createConnectionId (elapsedSecs : Nat) (sourceAddr : CanonicalSocketAddr) :
    neBytes endian 8 (v.createConnectionId xof endian elapsedSecs sourceAddr).2.toNat =
      neBytes endian 4 (elapsedSecs % 2 ^ 32) ++
        (xof (neBytes endian 4 (elapsedSecs % 2 ^ 32) ++ sourceAddr.get.ip.octets)).toList := by
  set elapsed := neBytes endian 4 (elapsedSecs % 2 ^ 32)
  have hLen : (elapsed ++ (xof (elapsed ++ sourceAddr.get.ip.octets)).toList).length = 8 := by
    simp [elapsed, Bytes.length_toList]
  have hLt := fromNeBytes_lt endian (elapsed ++ (xof (elapsed ++ sourceAddr.get.ip.octets)).toList)
  rw [hLen] at hLt
  simp only [ConnectionValidator.createConnectionId, ConnectionValidator.hash_snd xof hv,
    BitVec.toNat_ofNat]
  rw [Nat.mod_eq_of_lt (by simpa using hLt), ← hLen, neBytes_fromNeBytes]

theorem connectionIdValid_createConnectionId_iff (elapsedSecs trackerElapsedSecs : Nat)
    {sourceAddr sourceAddr' : CanonicalSocketAddr} (hIp : sourceAddr'.get.ip = sourceAddr.get.ip) :
    (v.connectionIdValid xof endian trackerElapsedSecs sourceAddr'
        (v.createConnectionId xof endian elapsedSecs sourceAddr).2).2 = true ↔
      elapsedSecs % 2 ^ 32 ≤ trackerElapsedSecs ∧
        trackerElapsedSecs < elapsedSecs % 2 ^ 32 + v.maxConnectionAge := by
  rw [connectionIdValid_iff hv, neBytes_createConnectionId hv, hIp]
  have hLen : (neBytes endian 4 (elapsedSecs % 2 ^ 32)).length = 4 := length_neBytes _ _ _
  have hTime : fromNeBytes endian (neBytes endian 4 (elapsedSecs % 2 ^ 32)) = elapsedSecs % 2 ^ 32 := by
    rw [fromNeBytes_neBytes]
    omega
  simp only [List.take_left' hLen, List.drop_left' hLen, hTime, true_and]

end Spec

/-- After any history of calls on a validator and its clones: an id is accepted exactly when
its last four bytes are the hash of its first four and the source's IP octets and the
tracker's elapsed seconds lie in `[t, t + max_connection_age)` for the `u32` time `t` of its
first four bytes; `create_connection_id` at `c` seconds gives the id of `c as u32` and that
hash; so an id minted for an address is accepted from the same IP, on any port, during
exactly `[c, c + max_connection_age)` (for `c < 2^32`). -/
theorem connection_id_validity (maxConnectionAge : BitVec 32) (calls : List ValidatorCall) :
    let v := (ConnectionValidator.new maxConnectionAge).runCalls xof endian calls
    (∀ (elapsedSecs : Nat) (sourceAddr : CanonicalSocketAddr) (connectionId : ConnectionId),
      let bytes := neBytes endian 8 connectionId.toNat
      (v.connectionIdValid xof endian elapsedSecs sourceAddr connectionId).2 = true ↔
        bytes.drop 4 = (xof (bytes.take 4 ++ sourceAddr.get.ip.octets)).toList ∧
        fromNeBytes endian (bytes.take 4) ≤ elapsedSecs ∧
        elapsedSecs < fromNeBytes endian (bytes.take 4) + maxConnectionAge.toNat) ∧
    (∀ (elapsedSecs : Nat) (sourceAddr : CanonicalSocketAddr),
      let elapsed := neBytes endian 4 (elapsedSecs % 2 ^ 32)
      neBytes endian 8 (v.createConnectionId xof endian elapsedSecs sourceAddr).2.toNat =
        elapsed ++ (xof (elapsed ++ sourceAddr.get.ip.octets)).toList) ∧
    (∀ (elapsedSecs trackerElapsedSecs : Nat) (sourceAddr sourceAddr' : CanonicalSocketAddr),
      sourceAddr'.get.ip = sourceAddr.get.ip →
      ((v.connectionIdValid xof endian trackerElapsedSecs sourceAddr'
          (v.createConnectionId xof endian elapsedSecs sourceAddr).2).2 = true ↔
        elapsedSecs % 2 ^ 32 ≤ trackerElapsedSecs ∧
          trackerElapsedSecs < elapsedSecs % 2 ^ 32 + maxConnectionAge.toNat)) := by
  intro v
  have hv : v.keyedHasher.input = [] := by simp [v, runCalls_new, ConnectionValidator.new]
  have hAge : v.maxConnectionAge = maxConnectionAge.toNat := by
    simp [v, runCalls_new, ConnectionValidator.new]
  refine ⟨fun elapsedSecs sourceAddr connectionId => hAge ▸ connectionIdValid_iff hv _ _ _,
    fun elapsedSecs sourceAddr => neBytes_createConnectionId hv _ _,
    fun elapsedSecs trackerElapsedSecs sourceAddr sourceAddr' hIp => ?_⟩
  rw [connectionIdValid_iff hv, neBytes_createConnectionId hv, hIp, hAge]
  have hLen : (neBytes endian 4 (elapsedSecs % 2 ^ 32)).length = 4 := length_neBytes _ _ _
  have hTime : fromNeBytes endian (neBytes endian 4 (elapsedSecs % 2 ^ 32)) = elapsedSecs % 2 ^ 32 := by
    rw [fromNeBytes_neBytes]
    omega
  simp only [List.take_left' hLen, List.drop_left' hLen, hTime, true_and]

end Validator

end AquaticTracker.Socket
