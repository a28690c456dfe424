import AquaticTracker.Collections.IndexMap
import Mathlib.Data.List.Sort

/-! # Ordered maps with `usize` keys

`std::collections::BTreeMap<usize, V>` as the trackers use it: `insert`, `get`, `extend`, and
iteration in increasing key order, with the order carried as a field.
-/

namespace AquaticTracker

set_option autoImplicit false

/-- A `BTreeMap<usize, V>`: its entries in increasing key order. -/
structure BTreeMap (V : Type) where
  entries : List (Nat × V)
  sorted : (entries.map Prod.fst).Sorted (· < ·)

namespace BTreeMap

variable {V : Type}

/-- `BTreeMap::new()` -/
def empty : BTreeMap V := ⟨[], List.sorted_nil⟩

/-- `BTreeMap::get` -/
def get (m : BTreeMap V) (k : Nat) : Option V := m.entries.lookup k

/-- The entries with `(k, v)` put in key order, replacing an entry of key `k`. -/
def insertEntry (k : Nat) (v : V) : List (Nat × V) → List (Nat × V)
  | [] => [(k, v)]
  | (k', v') :: rest =>
    if k < k' then (k, v) :: (k', v') :: rest
    else if k = k' then (k, v) :: rest
    else (k', v') :: insertEntry k v rest

theorem mem_keys_insertEntry {k x : Nat} {v : V} {l : List (Nat × V)}
    (h : x ∈ (insertEntry k v l).map Prod.fst) : x = k ∨ x ∈ l.map Prod.fst := by
  induction l with
  | nil => simpa [insertEntry] using h
  | cons e l ih =>
    obtain ⟨k', v'⟩ := e
    unfold insertEntry at h
    split_ifs at h <;> simp_all only [List.map_cons, List.mem_cons]
    · tauto
    · rcases h with h | h
      · exact .inr (.inl h)
      · rcases ih h with h | h
        · exact .inl h
        · exact .inr (.inr h)

theorem sorted_insertEntry (k : Nat) (v : V) {l : List (Nat × V)}
    (h : (l.map Prod.fst).Sorted (· < ·)) : ((insertEntry k v l).map Prod.fst).Sorted (· < ·) := by
  induction l with
  | nil => simp [insertEntry]
  | cons e l ih =>
    obtain ⟨k', v'⟩ := e
    rw [List.map_cons, List.sorted_cons] at h
    unfold insertEntry
    split_ifs with hLt hEq
    · simp only [List.map_cons, List.sorted_cons, List.mem_cons]
      refine ⟨?_, h.1, h.2⟩
      rintro x (rfl | hx)
      · exact hLt
      · exact lt_trans hLt (h.1 x hx)
    · subst hEq
      simp only [List.map_cons, List.sorted_cons]
      exact h
    · simp only [List.map_cons, List.sorted_cons]
      refine ⟨fun x hx => ?_, ih h.2⟩
      rcases mem_keys_insertEntry hx with rfl | hx
      · omega
      · exact h.1 x hx

/-- `BTreeMap::insert`; the value it displaces is not read by any modelled caller. -/
def insert (m : BTreeMap V) (k : Nat) (v : V) : BTreeMap V :=
  ⟨insertEntry k v m.entries, sorted_insertEntry k v m.sorted⟩

/-- `BTreeMap::extend`: the pairs inserted one after another. -/
def extend (m : BTreeMap V) (kvs : List (Nat × V)) : BTreeMap V :=
  kvs.foldl (fun m kv => m.insert kv.1 kv.2) m

/-- `BTreeMap::into_values`: the values in increasing key order. -/
def values (m : BTreeMap V) : List V := m.entries.map Prod.snd

@[simp] theorem get_empty (k : Nat) : (empty : BTreeMap V).get k = none := rfl

theorem lookup_cons_eq (k' k : Nat) (v : V) (l : List (Nat × V)) :
    ((k, v) :: l).lookup k' = if k' = k then some v else l.lookup k' := by
  by_cases h : k' = k
  · subst h
    simp
  · rw [List.lookup_cons, beq_false_of_ne h]
    simp [h]

theorem lookup_insertEntry (k : Nat) (v : V) (l : List (Nat × V)) (k' : Nat) :
    (insertEntry k v l).lookup k' = if k' = k then some v else l.lookup k' := by
  induction l with
  | nil => simp [insertEntry, lookup_cons_eq]
  | cons e l ih =>
    obtain ⟨k'', v''⟩ := e
    unfold insertEntry
    split_ifs with hLt hEq <;> simp only [lookup_cons_eq, ih] <;> split_ifs <;> simp_all

theorem get_insert (m : BTreeMap V) (k : Nat) (v : V) (k' : Nat) :
    (m.insert k v).get k' = if k' = k then some v else m.get k' :=
  lookup_insertEntry k v m.entries k'

theorem get_extend_of_not_mem {kvs : List (Nat × V)} {k : Nat} (h : k ∉ kvs.map Prod.fst)
    (m : BTreeMap V) : (m.extend kvs).get k = m.get k := by
  induction kvs generalizing m with
  | nil => rfl
  | cons kv kvs ih =>
    simp only [List.map_cons, List.mem_cons, not_or] at h
    simp only [extend, List.foldl_cons] at ih ⊢
    rw [ih h.2, get_insert, if_neg h.1]

theorem get_extend_of_mem {kvs : List (Nat × V)} (hNodup : (kvs.map Prod.fst).Nodup) {k : Nat}
    {v : V} (h : (k, v) ∈ kvs) (m : BTreeMap V) : (m.extend kvs).get k = some v := by
  induction kvs generalizing m with
  | nil => cases h
  | cons kv kvs ih =>
    rw [List.map_cons, List.nodup_cons] at hNodup
    simp only [extend, List.foldl_cons] at ih ⊢
    rcases List.mem_cons.mp h with rfl | h
    · rw [← extend, get_extend_of_not_mem hNodup.1, get_insert, if_pos rfl]
    · exact ih hNodup.2 h _

theorem nodup_keys (m : BTreeMap V) : (m.entries.map Prod.fst).Nodup := m.sorted.nodup

theorem get_eq_some_iff (m : BTreeMap V) {k : Nat} {v : V} :
    m.get k = some v ↔ (k, v) ∈ m.entries :=
  IndexMap.lookup_eq_some_iff_mem m.nodup_keys

theorem get_extend_empty {kvs : List (Nat × V)} (hNodup : (kvs.map Prod.fst).Nodup) (k : Nat) :
    (empty.extend kvs).get k = kvs.lookup k := by
  cases h : kvs.lookup k with
  | none => rw [get_extend_of_not_mem (IndexMap.lookup_eq_none_iff_not_mem.mp h), get_empty]
  | some v => exact get_extend_of_mem hNodup ((IndexMap.lookup_eq_some_iff_mem hNodup).mp h) _

theorem lookup_map_snd {W : Type} (f : Nat → V → W) (l : List (Nat × V)) (k : Nat) :
    (l.map fun e => (e.1, f e.1 e.2)).lookup k = (l.lookup k).map (f k) := by
  induction l with
  | nil => rfl
  | cons e l ih =>
    obtain ⟨k', v⟩ := e
    simp only [List.map_cons, lookup_cons_eq, ih]
    split_ifs with h
    · subst h
      rfl
    · rfl

theorem getElem?_map_snd_of_keys {l : List (Nat × V)} {k : Nat}
    (h : l.map Prod.fst = List.range' k l.length) (i : Nat) :
    (l.map Prod.snd)[i]? = l.lookup (k + i) := by
  induction l generalizing k i with
  | nil => rfl
  | cons e l ih =>
    obtain ⟨k', v⟩ := e
    simp only [List.map_cons, List.length_cons, List.range'_succ, List.cons.injEq] at h
    obtain ⟨rfl, h⟩ := h
    cases i with
    | zero => simp [lookup_cons_eq]
    | succ i =>
      rw [List.map_cons, List.getElem?_cons_succ, ih h, lookup_cons_eq, if_neg (by omega)]
      congr 1
      omega

theorem extend_append (m : BTreeMap V) (kvs kvs' : List (Nat × V)) :
    m.extend (kvs ++ kvs') = (m.extend kvs).extend kvs' :=
  List.foldl_append _ _ _ _

theorem mem_keys_iff_get_ne_none (m : BTreeMap V) (k : Nat) :
    k ∈ m.entries.map Prod.fst ↔ m.get k ≠ none := by
  rw [get, Ne, IndexMap.lookup_eq_none_iff_not_mem, not_not]

theorem values_of_keys_perm_range {m : BTreeMap V} {n : Nat}
    (h : (m.entries.map Prod.fst).Perm (List.range n)) :
    m.values.length = n ∧ ∀ i, m.values[i]? = m.get i := by
  have hKeys : m.entries.map Prod.fst = List.range n :=
    List.eq_of_perm_of_sorted h m.sorted (List.sorted_lt_range n)
  have hLen : m.entries.length = n := by simpa using congrArg List.length hKeys
  refine ⟨by simp [values, hLen], fun i => ?_⟩
  rw [List.range_eq_range', ← hLen] at hKeys
  simpa only [Nat.zero_add] using getElem?_map_snd_of_keys hKeys i

theorem values_extend_empty {kvs : List (Nat × V)} {n : Nat}
    (hPerm : (kvs.map Prod.fst).Perm (List.range n)) :
    (empty.extend kvs).values.length = n ∧ ∀ i, (empty.extend kvs).values[i]? = kvs.lookup i := by
  have hNodup : (kvs.map Prod.fst).Nodup := hPerm.nodup_iff.mpr (List.nodup_range n)
  have hKeys : ((empty.extend kvs).entries.map Prod.fst).Perm (List.range n) := by
    refine (List.perm_ext_iff_of_nodup (nodup_keys _) (List.nodup_range n)).mpr fun k => ?_
    rw [mem_keys_iff_get_ne_none, get_extend_empty hNodup, ← hPerm.mem_iff, Ne,
      IndexMap.lookup_eq_none_iff_not_mem, not_not]
  obtain ⟨hLen, hGet⟩ := values_of_keys_perm_range hKeys
  exact ⟨hLen, fun i => (hGet i).trans (get_extend_empty hNodup i)⟩

end BTreeMap

end AquaticTracker
