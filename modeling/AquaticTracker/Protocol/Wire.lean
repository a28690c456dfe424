import AquaticTracker.Common.Primitives
import Mathlib.Data.List.Range

/-! # Big-endian words on the wire

Integers in network byte order, and a `Cursor` whose reads fail with `UnexpectedEof` as
`Read::read_exact` does.
-/

namespace AquaticTracker.Wire

set_option autoImplicit false

/-- The `n` low bytes of `x`, most significant first. -/
def toBeBytes : Nat → Nat → List U8
  | 0, _ => []
  | n + 1, x => toBeBytes n (x / 256) ++ [BitVec.ofNat 8 x]

/-- The number a big-endian byte string spells. -/
def fromBeBytes (bs : List U8) : Nat := bs.foldl (fun acc b => acc * 256 + b.toNat) 0

@[simp] theorem length_toBeBytes (n x : Nat) : (toBeBytes n x).length = n := by
  induction n generalizing x with
  | zero => rfl
  | succ n ih => simp [toBeBytes, ih]

theorem fromBeBytes_append_singleton (bs : List U8) (b : U8) :
    fromBeBytes (bs ++ [b]) = fromBeBytes bs * 256 + b.toNat := by
  simp [fromBeBytes, List.foldl_append]

theorem fromBeBytes_toBeBytes (n x : Nat) : fromBeBytes (toBeBytes n x) = x % 256 ^ n := by
  induction n generalizing x with
  | zero => simp [toBeBytes, fromBeBytes, Nat.mod_one]
  | succ n ih =>
    have hSplit : x % 256 ^ (n + 1) = x % 256 + 256 * (x / 256 % 256 ^ n) := by
      rw [pow_succ', Nat.mod_mul]
    rw [toBeBytes, fromBeBytes_append_singleton, ih, BitVec.toNat_ofNat, hSplit]
    omega

theorem fromBeBytes_lt (bs : List U8) : fromBeBytes bs < 256 ^ bs.length := by
  induction bs using List.reverseRecOn with
  | nil => simp [fromBeBytes]
  | append_singleton init b ih =>
    have hb : b.toNat < 256 := b.isLt
    rw [fromBeBytes_append_singleton, List.length_append, List.length_singleton, pow_succ]
    omega

theorem toBeBytes_fromBeBytes (bs : List U8) : toBeBytes bs.length (fromBeBytes bs) = bs := by
  induction bs using List.reverseRecOn with
  | nil => rfl
  | append_singleton init b ih =>
    have hb : b.toNat < 256 := b.isLt
    have hDiv : (fromBeBytes init * 256 + b.toNat) / 256 = fromBeBytes init := by omega
    have hMod : BitVec.ofNat 8 (fromBeBytes init * 256 + b.toNat) = b := by
      apply BitVec.eq_of_toNat_eq
      rw [BitVec.toNat_ofNat]
      omega
    rw [List.length_append, List.length_singleton, toBeBytes, fromBeBytes_append_singleton, hDiv,
      hMod, ih]

/-- `write_*::<NetworkEndian>`, and the `as_bytes` of zerocopy's network-endian integers:
the `n` bytes of a word, most significant first. -/
def beBytes {w : Nat} (n : Nat) (x : BitVec w) : List U8 := toBeBytes n x.toNat

/-- `read_*::<NetworkEndian>`, `I32::from_bytes` and `I64::get`: the word of width `w`
that a big-endian byte string spells. -/
def ofBeBytes (w : Nat) (bs : List U8) : BitVec w := BitVec.ofNat w (fromBeBytes bs)

@[simp] theorem length_beBytes {w : Nat} (n : Nat) (x : BitVec w) : (beBytes n x).length = n :=
  length_toBeBytes n x.toNat

/-- A word read back from its bytes is itself, whenever the bytes hold all of its bits. -/
@[simp] theorem ofBeBytes_beBytes {w n : Nat} (x : BitVec w) (h : w ≤ 8 * n) :
    ofBeBytes w (beBytes n x) = x := by
  have hLt : x.toNat < 256 ^ n :=
    calc x.toNat < 2 ^ w := x.isLt
      _ ≤ 2 ^ (8 * n) := Nat.pow_le_pow_right (by decide) h
      _ = 256 ^ n := by rw [pow_mul]; rfl
  rw [ofBeBytes, beBytes, fromBeBytes_toBeBytes, Nat.mod_eq_of_lt hLt, BitVec.ofNat_toNat,
    BitVec.setWidth_eq]

theorem beBytes_ofBeBytes {w n : Nat} {bs : List U8} (hLen : bs.length = n) (h : 8 * n ≤ w) :
    beBytes n (ofBeBytes w bs) = bs := by
  have hLt : fromBeBytes bs < 2 ^ w :=
    calc fromBeBytes bs < 256 ^ n := hLen ▸ fromBeBytes_lt bs
      _ = 2 ^ (8 * n) := by rw [pow_mul]; rfl
      _ ≤ 2 ^ w := Nat.pow_le_pow_right (by decide) h
  rw [beBytes, ofBeBytes, BitVec.toNat_ofNat, Nat.mod_eq_of_lt hLt, ← hLen, toBeBytes_fromBeBytes]

/-- The byte order of the machine, which `to_ne_bytes` and `from_ne_bytes` follow. -/
inductive Endian where
  | little
  | big
deriving DecidableEq, Repr

/-- `to_ne_bytes` of an `n`-byte integer. -/
def neBytes : Endian → Nat → Nat → List U8
  | .big, n, x => toBeBytes n x
  | .little, n, x => (toBeBytes n x).reverse

/-- `from_ne_bytes` -/
def fromNeBytes : Endian → List U8 → Nat
  | .big, bs => fromBeBytes bs
  | .little, bs => fromBeBytes bs.reverse

@[simp] theorem length_neBytes (e : Endian) (n x : Nat) : (neBytes e n x).length = n := by
  cases e <;> simp [neBytes]

theorem fromNeBytes_neBytes (e : Endian) (n x : Nat) :
    fromNeBytes e (neBytes e n x) = x % 256 ^ n := by
  cases e <;> simp [neBytes, fromNeBytes, fromBeBytes_toBeBytes]

theorem fromNeBytes_lt (e : Endian) (bs : List U8) : fromNeBytes e bs < 256 ^ bs.length := by
  cases e
  · simpa using fromBeBytes_lt bs.reverse
  · exact fromBeBytes_lt bs

theorem neBytes_fromNeBytes (e : Endian) (bs : List U8) :
    neBytes e bs.length (fromNeBytes e bs) = bs := by
  cases e
  · simpa [neBytes, fromNeBytes] using congrArg List.reverse (toBeBytes_fromBeBytes bs.reverse)
  · exact toBeBytes_fromBeBytes bs

/-- Equality of results, so that a parse can be evaluated. -/
instance instDecidableEqExcept {ε α : Type} [DecidableEq ε] [DecidableEq α] :
    DecidableEq (Except ε α)
  | .error a, .error b => decidable_of_iff (a = b) ⟨congrArg _, Except.error.inj⟩
  | .ok a, .ok b => decidable_of_iff (a = b) ⟨congrArg _, Except.ok.inj⟩
  | .error _, .ok _ => isFalse Except.noConfusion
  | .ok _, .error _ => isFalse Except.noConfusion

/-- `io::ErrorKind` as far as reading from a slice can fail. -/
inductive IoError where
  | unexpectedEof
deriving DecidableEq, Repr

/-- `Read::read_exact` of `n` bytes from a cursor: the bytes read and the unread rest. -/
def readExact (n : Nat) (cursor : List U8) : Except IoError (List U8 × List U8) :=
  if n ≤ cursor.length then .ok (cursor.take n, cursor.drop n) else .error .unexpectedEof

/-- A big-endian word of width `w` read from `n` bytes of a cursor. -/
def readWord (w n : Nat) (cursor : List U8) : Except IoError (BitVec w × List U8) :=
  (readExact n cursor).map fun r => (ofBeBytes w r.1, r.2)

theorem readExact_append {n : Nat} {bs rest : List U8} (h : bs.length = n) :
    readExact n (bs ++ rest) = .ok (bs, rest) := by
  subst h
  simp [readExact]

theorem readWord_append {w n : Nat} (x : BitVec w) (h : w ≤ 8 * n) (rest : List U8) :
    readWord w n (beBytes n x ++ rest) = .ok (x, rest) := by
  simp [readWord, readExact_append (length_beBytes n x), Except.map, h]

theorem readWord_beBytes {w n : Nat} (x : BitVec w) (h : w ≤ 8 * n) :
    readWord w n (beBytes n x) = .ok (x, []) := by
  simpa using readWord_append x h []

theorem readExact_eq_ok_iff {n : Nat} {cursor bs rest : List U8} :
    readExact n cursor = .ok (bs, rest) ↔ bs.length = n ∧ cursor = bs ++ rest := by
  unfold readExact
  split
  · simp only [Except.ok.injEq, Prod.mk.injEq]
    constructor
    · rintro ⟨rfl, rfl⟩
      simp_all
    · rintro ⟨hLen, rfl⟩
      simp [← hLen]
  · constructor
    · intro h
      cases h
    · rintro ⟨hLen, rfl⟩
      simp_all

/-- `slice.chunks_exact(n)`: the consecutive chunks of `n` elements, the remainder left out. -/
def chunksExact {α : Type} (n : Nat) (l : List α) : List (List α) :=
  (List.range (l.length / n)).map fun i => (l.drop (i * n)).take n

theorem chunksExact_of_lt {α : Type} {n : Nat} {l : List α} (h : l.length < n) :
    chunksExact n l = [] := by
  simp [chunksExact, Nat.div_eq_of_lt h]

theorem chunksExact_append {α : Type} {n : Nat} {c : List α} (l : List α) (hc : c.length = n)
    (hn : 0 < n) : chunksExact n (c ++ l) = c :: chunksExact n l := by
  have hLen : (c ++ l).length / n = l.length / n + 1 := by
    rw [List.length_append, hc, Nat.add_comm, Nat.add_div_right _ hn]
  have hDrop : (c ++ l).drop n = l := hc ▸ List.drop_left c l
  simp only [chunksExact, hLen, List.range_succ_eq_map, List.map_cons, List.map_map]
  refine congrArg₂ _ (by simp [← hc]) (List.map_congr_left fun i _ => ?_)
  simp only [Function.comp, Nat.succ_mul, Nat.add_comm _ n, ← List.drop_drop, hDrop]

theorem chunksExact_flatten {α : Type} {n : Nat} (pieces : List (List α)) (rest : List α)
    (hPieces : ∀ p ∈ pieces, p.length = n) (hn : 0 < n) (hRest : rest.length < n) :
    chunksExact n (pieces.flatten ++ rest) = pieces := by
  induction pieces with
  | nil => exact chunksExact_of_lt hRest
  | cons p ps ih =>
    rw [List.flatten_cons, List.append_assoc,
      chunksExact_append _ (hPieces p (List.mem_cons_self _ _)) hn,
      ih fun q hq => hPieces q (List.mem_cons_of_mem _ hq)]

theorem map_chunksExact_flatten {α β : Type} {n : Nat} (write : β → List α) (read : List α → β)
    (hLen : ∀ x, (write x).length = n) (hRead : ∀ x, read (write x) = x) (hn : 0 < n)
    (xs : List β) : (chunksExact n (xs.map write).flatten).map read = xs := by
  have hChunks := chunksExact_flatten (xs.map write) [] (by simp [hLen]) hn (by simpa using hn)
  rw [List.append_nil] at hChunks
  simp [hChunks, Function.comp_def, hRead]

theorem map_chunksExact_flatten_append {α β : Type} {n : Nat} (write : β → List α)
    (read : List α → β) (hLen : ∀ x, (write x).length = n) (hRead : ∀ x, read (write x) = x)
    (xs : List β) {rest : List α} (hRest : rest.length < n) :
    (chunksExact n ((xs.map write).flatten ++ rest)).map read = xs := by
  rw [chunksExact_flatten (xs.map write) rest (by simp [hLen]) (by omega) hRest]
  simp [Function.comp_def, hRead]

theorem length_of_mem_chunksExact {α : Type} {n : Nat} {l c : List α} (h : c ∈ chunksExact n l) :
    c.length = n := by
  obtain ⟨i, hi, rfl⟩ := List.mem_map.mp h
  have hn : 0 < n := Nat.pos_of_ne_zero fun h0 => by simp [h0] at hi
  have hLe : (i + 1) * n ≤ l.length := (Nat.le_div_iff_mul_le hn).mp (List.mem_range.mp hi)
  simp only [List.length_take, List.length_drop, Nat.succ_mul] at hLe ⊢
  omega

theorem flatten_chunksExact_isPrefix {α : Type} (n : Nat) :
    ∀ (k : Nat) (l : List α), l.length / n = k → (chunksExact n l).flatten <+: l
  | 0, l, hk => by simp [chunksExact, hk]
  | k + 1, l, hk => by
    have hn : 0 < n := Nat.pos_of_ne_zero fun h0 => by simp [h0] at hk
    have hLe : n ≤ l.length := (Nat.one_le_div_iff hn).mp (by omega)
    have hRest : (l.drop n).length / n = k := by
      have := Nat.add_div_right (l.length - n) hn
      rw [Nat.sub_add_cancel hLe, hk] at this
      rw [List.length_drop]
      omega
    rw [← List.take_append_drop n l, chunksExact_append _ (by simp [hLe]) hn, List.flatten_cons,
      List.prefix_append_right_inj]
    exact flatten_chunksExact_isPrefix n k _ hRest

theorem flatten_take_chunksExact_isPrefix {α : Type} (n j : Nat) (l : List α) :
    ((chunksExact n l).take j).flatten <+: l := by
  have hSplit := congrArg List.flatten (List.take_append_drop j (chunksExact n l))
  rw [List.flatten_append] at hSplit
  exact (hSplit ▸ List.prefix_append _ _).trans (flatten_chunksExact_isPrefix n _ l rfl)

end AquaticTracker.Wire
