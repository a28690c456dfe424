import Mathlib.Data.BitVec

/-! # Primitive values of the tracker

Fixed-width integers as bit vectors, sized byte arrays, clock readings as natural numbers, the
`usize` decrement that panics at zero, and a Rust `loop` run for a given number of iterations.
-/

namespace AquaticTracker

set_option autoImplicit false

/-- `u8` -/
abbrev U8 := BitVec 8
/-- `u16` -/
abbrev U16 := BitVec 16
/-- `i32` -/
abbrev I32 := BitVec 32
/-- `i64` -/
abbrev I64 := BitVec 64

/-- A byte array `[u8; n]`. -/
structure Bytes (n : Nat) where
  toList : List U8
  length_toList : toList.length = n
deriving DecidableEq, Repr

namespace Bytes

/-- `bytes[i]`, in bounds by the type. -/
def get {n : Nat} (b : Bytes n) (i : Fin n) : U8 :=
  b.toList.get ⟨i, by rw [b.length_toList]; exact i.isLt⟩

/-- The array `[x; n]`. -/
def replicate (n : Nat) (x : U8) : Bytes n := ⟨List.replicate n x, List.length_replicate n x⟩

end Bytes

abbrev InfoHash := Bytes 20
abbrev PeerId := Bytes 20
abbrev ConnectionId := I64
abbrev TransactionId := I32
abbrev NumberOfBytes := I64
abbrev NumberOfPeers := I32
abbrev NumberOfDownloads := I32
abbrev AnnounceInterval := I32
abbrev PeerKey := I32
abbrev Port := U16
abbrev Ipv4AddrBytes := Bytes 4

/-- `std::net::Ipv4Addr`, by its octets. -/
structure Ipv4Addr where
  octets : Bytes 4
deriving DecidableEq, Repr

/-- `std::net::Ipv6Addr`, by its octets. -/
structure Ipv6Addr where
  octets : Bytes 16
deriving DecidableEq, Repr

/-- `std::net::IpAddr` -/
inductive IpAddr where
  | v4 (ip : Ipv4Addr)
  | v6 (ip : Ipv6Addr)
deriving DecidableEq, Repr

/-- `IpAddr::is_ipv4` -/
def IpAddr.isIpv4 : IpAddr → Bool
  | .v4 _ => true
  | .v6 _ => false

/-- The octets a BLAKE3 hasher is fed for an address: 4 for IPv4, 16 for IPv6. -/
def IpAddr.octets : IpAddr → List U8
  | .v4 ip => ip.octets.toList
  | .v6 ip => ip.octets.toList

/-- `std::net::SocketAddr`, by the address and port that the modelled code reads. -/
structure SocketAddr where
  ip : IpAddr
  port : Port
deriving DecidableEq, Repr

/-- A reading of the monotonic clock, in its own units. -/
abbrev Instant := Nat

/-- `ValidUntil(Instant)`: an entity stays while the clock has not passed this instant. -/
abbrev ValidUntil := Instant

/-- `n -= 1` on a `usize` counter: `none` at 0, where the subtraction overflows and a debug
build panics. -/
def decrementCounter (n : Nat) : Option Nat := if n = 0 then none else some (n - 1)

@[simp] theorem decrementCounter_succ (n : Nat) : decrementCounter (n + 1) = some n := rfl

theorem decrementCounter_eq_some_iff {n m : Nat} : decrementCounter n = some m ↔ 0 < n ∧ m = n - 1 := by
  unfold decrementCounter
  split <;> simp [*, Nat.pos_iff_ne_zero, eq_comm]

theorem decrementCounter_of_pos {n : Nat} (h : 0 < n) : decrementCounter n = some (n - 1) := by
  simp [decrementCounter, Nat.pos_iff_ne_zero.mp h]

/-! ## Loops -/

section Loops

variable {σ ρ : Type} (body : σ → σ ⊕ ρ)

/-- `loop { body }` for at most `fuel` iterations: `.inl s` while it is still looping after
them, `.inr r` once the body has left the loop with `r`. -/
def loopFor : Nat → σ → σ ⊕ ρ
  | 0, s => .inl s
  | n + 1, s =>
    match body s with
    | .inl s => loopFor n s
    | .inr r => .inr r

theorem loopFor_of_invariant (P : σ → Prop) (h : ∀ s, P s → ∃ s', body s = .inl s' ∧ P s') :
    ∀ (n : Nat) (s : σ), P s → ∃ s', loopFor body n s = .inl s' ∧ P s'
  | 0, s, hs => ⟨s, rfl, hs⟩
  | n + 1, s, hs => by
    obtain ⟨s', hBody, hs'⟩ := h s hs
    simpa only [loopFor, hBody] using loopFor_of_invariant P h n s' hs'

theorem loopFor_of_inr {s : σ} {r : ρ} (h : body s = .inr r) (n : Nat) :
    loopFor body (n + 1) s = .inr r := by
  simp [loopFor, h]

theorem loopFor_add_of_inr {r : ρ} :
    ∀ (n k : Nat) (s : σ), loopFor body n s = .inr r → loopFor body (n + k) s = .inr r
  | 0, _, _, h => by cases h
  | n + 1, k, s, h => by
    rw [Nat.add_right_comm]
    unfold loopFor at h ⊢
    split at h
    · exact loopFor_add_of_inr n k _ h
    · exact h

theorem loopFor_of_inl {s s' : σ} (h : body s = .inl s') (n : Nat) :
    loopFor body (n + 1) s = loopFor body n s' := by
  simp [loopFor, h]

end Loops

end AquaticTracker
