import AquaticTracker.Common.Primitives
import Mathlib.Data.Multiset.Basic

/-! # Insertion-ordered maps

`indexmap::IndexMap` as an association list in insertion order with distinct keys; `remove` is
`swap_remove`, and hashing and capacity are not modelled.
-/

namespace AquaticTracker

set_option autoImplicit false

/-- An `IndexMap`: its entries in iteration order, each key at most once. -/
structure IndexMap (K V : Type) where
  entries : List (K × V)
  nodup_keys : (entries.map Prod.fst).Nodup

namespace IndexMap

variable {K V : Type} [DecidableEq K]

omit [DecidableEq K] in
@[ext] theorem ext {m m' : IndexMap K V} (h : m.entries = m'.entries) : m = m' := by
  cases m
  cases m'
  cases h
  rfl

/-- `IndexMap::default()` -/
def empty : IndexMap K V := ⟨[], List.nodup_nil⟩

/-- `IndexMap::get` -/
def get (m : IndexMap K V) (k : K) : Option V := m.entries.lookup k

/-- `IndexMap::is_empty` -/
def isEmpty (m : IndexMap K V) : Bool := m.entries.isEmpty

/-- `IndexMap::len` -/
def len (m : IndexMap K V) : Nat := m.entries.length

/-- The values, forgetting their order. -/
def values (m : IndexMap K V) : Multiset V := (m.entries.map Prod.snd : Multiset V)

theorem lookup_cons_of_ne {l : List (K × V)} {k k' : K} (w : V) (h : k ≠ k') :
    ((k', w) :: l).lookup k = l.lookup k := by
  rw [List.lookup_cons, beq_false_of_ne h]

theorem lookup_eq_none_iff_not_mem {l : List (K × V)} {k : K} :
    l.lookup k = none ↔ k ∉ l.map Prod.fst := by
  simp only [List.lookup_eq_none_iff, bne_iff_ne, ne_eq, List.mem_map]
  constructor
  · rintro h ⟨p, hp, rfl⟩
    exact h p hp rfl
  · intro h p hp hEq
    exact h ⟨p, hp, hEq.symm⟩

theorem lookup_eq_some_iff_mem {l : List (K × V)} (hl : (l.map Prod.fst).Nodup) {k : K} {v : V} :
    l.lookup k = some v ↔ (k, v) ∈ l := by
  induction l with
  | nil => simp
  | cons e l ih =>
    obtain ⟨k', w⟩ := e
    rw [List.map_cons, List.nodup_cons] at hl
    by_cases hk : k = k'
    · subst hk
      have hNot : (k, v) ∉ l := fun hMem => hl.1 (List.mem_map.mpr ⟨_, hMem, rfl⟩)
      simp [hNot, eq_comm]
    · rw [lookup_cons_of_ne w hk, ih hl.2, List.mem_cons]
      simp [hk]

theorem get_eq_some_iff (m : IndexMap K V) {k : K} {v : V} :
    m.get k = some v ↔ (k, v) ∈ m.entries :=
  lookup_eq_some_iff_mem m.nodup_keys

theorem get_eq_none_iff (m : IndexMap K V) {k : K} :
    m.get k = none ↔ k ∉ m.entries.map Prod.fst :=
  lookup_eq_none_iff_not_mem

theorem mem_values_of_get {m : IndexMap K V} {k : K} {v : V} (h : m.get k = some v) :
    v ∈ m.values :=
  Multiset.mem_coe.mpr (List.mem_map.mpr ⟨_, (get_eq_some_iff m).mp h, rfl⟩)

@[simp] theorem get_empty (k : K) : (empty : IndexMap K V).get k = none := rfl

omit [DecidableEq K] in
@[simp] theorem values_empty : (empty : IndexMap K V).values = 0 := rfl

/-! ## insert -/

/-- The entries with the value under `k` replaced by `v`. -/
def setValue (k : K) (v : V) (l : List (K × V)) : List (K × V) :=
  l.map fun e => if e.1 = k then (k, v) else e

theorem map_fst_setValue (k : K) (v : V) (l : List (K × V)) :
    (setValue k v l).map Prod.fst = l.map Prod.fst := by
  induction l with
  | nil => rfl
  | cons e l ih => by_cases h : e.1 = k <;> simp_all [setValue]

theorem nodup_append_of_get_none {m : IndexMap K V} {k : K} (h : m.get k = none) (v : V) :
    ((m.entries ++ [(k, v)]).map Prod.fst).Nodup := by
  rw [List.map_append, List.nodup_append]
  exact ⟨m.nodup_keys, List.nodup_singleton k,
    List.disjoint_singleton.mpr ((get_eq_none_iff m).mp h)⟩

/-- `IndexMap::insert`: the updated map and the value it displaced. -/
def insert (m : IndexMap K V) (k : K) (v : V) : IndexMap K V × Option V :=
  match h : m.get k with
  | some old => (⟨setValue k v m.entries, (map_fst_setValue k v _).symm ▸ m.nodup_keys⟩, some old)
  | none => (⟨m.entries ++ [(k, v)], nodup_append_of_get_none h v⟩, none)

@[simp] theorem insert_snd (m : IndexMap K V) (k : K) (v : V) : (m.insert k v).2 = m.get k := by
  unfold insert
  split <;> simp_all

theorem insert_entries_of_get_none {m : IndexMap K V} {k : K} (v : V) (h : m.get k = none) :
    (m.insert k v).1.entries = m.entries ++ [(k, v)] := by
  unfold insert
  split <;> simp_all

theorem insert_entries_of_get_some {m : IndexMap K V} {k : K} {old : V} (v : V)
    (h : m.get k = some old) : (m.insert k v).1.entries = setValue k v m.entries := by
  unfold insert
  split <;> simp_all

theorem setValue_of_not_mem {l : List (K × V)} {k : K} (v : V) (h : k ∉ l.map Prod.fst) :
    setValue k v l = l := by
  induction l with
  | nil => rfl
  | cons e l ih =>
    simp only [List.map_cons, List.mem_cons, not_or] at h
    simp only [setValue, List.map_cons] at ih ⊢
    rw [if_neg (Ne.symm h.1), ih h.2]

theorem split_of_get_some {m : IndexMap K V} {k : K} {old : V} (h : m.get k = some old) :
    ∃ l₁ l₂, m.entries = l₁ ++ (k, old) :: l₂ ∧ k ∉ l₁.map Prod.fst ∧ k ∉ l₂.map Prod.fst := by
  obtain ⟨l₁, l₂, hl, hPre⟩ := List.lookup_eq_some_iff.mp h
  have hNodup := m.nodup_keys
  rw [hl, List.map_append, List.map_cons, List.nodup_append, List.nodup_cons] at hNodup
  refine ⟨l₁, l₂, hl, ?_, hNodup.2.1.1⟩
  intro hMem
  obtain ⟨p, hp, rfl⟩ := List.mem_map.mp hMem
  simpa using hPre p hp

theorem setValue_split {l₁ l₂ : List (K × V)} {k : K} {old : V} (v : V)
    (h₁ : k ∉ l₁.map Prod.fst) (h₂ : k ∉ l₂.map Prod.fst) :
    setValue k v (l₁ ++ (k, old) :: l₂) = l₁ ++ (k, v) :: l₂ := by
  have hAppend : setValue k v (l₁ ++ (k, old) :: l₂) =
      setValue k v l₁ ++ setValue k v ((k, old) :: l₂) := List.map_append _ _ _
  rw [hAppend, setValue_of_not_mem v h₁]
  simp only [setValue, List.map_cons, if_pos]
  exact congrArg _ (congrArg _ (setValue_of_not_mem v h₂))

theorem get_insert (m : IndexMap K V) (k : K) (v : V) (k' : K) :
    (m.insert k v).1.get k' = if k' = k then some v else m.get k' := by
  cases h : m.get k with
  | none =>
    simp only [get, insert_entries_of_get_none v h, List.lookup_append]
    by_cases hk : k' = k
    · subst hk
      rw [show m.entries.lookup k' = none from h]
      simp
    · rw [lookup_cons_of_ne v hk, if_neg hk]
      simp
  | some old =>
    obtain ⟨l₁, l₂, hl, h₁, h₂⟩ := split_of_get_some h
    simp only [get, insert_entries_of_get_some v h, hl, setValue_split v h₁ h₂, List.lookup_append]
    by_cases hk : k' = k
    · subst hk
      simp [lookup_eq_none_iff_not_mem.mpr h₁]
    · simp [lookup_cons_of_ne _ hk, hk]

theorem insert_entries_perm_of_get_some {m : IndexMap K V} {k : K} {old : V} (v : V)
    (h : m.get k = some old) :
    ((k, old) :: (m.insert k v).1.entries).Perm ((k, v) :: m.entries) := by
  obtain ⟨l₁, l₂, hl, h₁, h₂⟩ := split_of_get_some h
  rw [insert_entries_of_get_some v h, hl, setValue_split v h₁ h₂]
  exact (List.perm_middle.cons _).trans ((List.Perm.swap _ _ _).trans (List.perm_middle.cons _).symm)

theorem values_insert_of_get_none {m : IndexMap K V} {k : K} (v : V) (h : m.get k = none) :
    (m.insert k v).1.values = v ::ₘ m.values := by
  simp only [values, insert_entries_of_get_none v h, List.map_append, List.map_cons, List.map_nil,
    Multiset.cons_coe]
  exact Multiset.coe_eq_coe.mpr (List.perm_append_singleton _ _)

theorem values_insert_of_get_some {m : IndexMap K V} {k : K} {old : V} (v : V)
    (h : m.get k = some old) : old ::ₘ (m.insert k v).1.values = v ::ₘ m.values := by
  simp only [values, Multiset.cons_coe]
  exact Multiset.coe_eq_coe.mpr ((insert_entries_perm_of_get_some v h).map Prod.snd)

theorem mem_values_insert {m : IndexMap K V} {k : K} {v x : V} (h : x ∈ (m.insert k v).1.values) :
    x = v ∨ x ∈ m.values := by
  cases hGet : m.get k with
  | none => simpa [values_insert_of_get_none v hGet] using h
  | some old =>
    have hMem : x ∈ old ::ₘ (m.insert k v).1.values := Multiset.mem_cons_of_mem h
    rwa [values_insert_of_get_some v hGet, Multiset.mem_cons] at hMem

/-- The entries before the first one with key `k`, its value, and the entries after it. -/
def splitAtKey (k : K) : List (K × V) → Option (List (K × V) × V × List (K × V))
  | [] => none
  | e :: l => if e.1 = k then some ([], e.2, l) else (splitAtKey k l).map fun s => (e :: s.1, s.2)

theorem splitAtKey_eq_some {k : K} {l pre post : List (K × V)} {v : V}
    (h : splitAtKey k l = some (pre, v, post)) : l = pre ++ (k, v) :: post := by
  induction l generalizing pre with
  | nil => cases h
  | cons e l ih =>
    obtain ⟨k', w⟩ := e
    unfold splitAtKey at h
    by_cases hk : k' = k
    · rw [if_pos hk] at h
      cases h
      subst hk
      rfl
    · rw [if_neg hk] at h
      obtain ⟨⟨pre', v', post'⟩, hs, hEq⟩ := Option.map_eq_some'.mp h
      simp only [Prod.mk.injEq] at hEq
      obtain ⟨rfl, rfl, rfl⟩ := hEq
      rw [ih hs]
      rfl

theorem splitAtKey_eq_none {k : K} {l : List (K × V)} (h : splitAtKey k l = none) :
    k ∉ l.map Prod.fst := by
  induction l with
  | nil => simp
  | cons e l ih =>
    obtain ⟨k', w⟩ := e
    unfold splitAtKey at h
    by_cases hk : k' = k
    · rw [if_pos hk] at h
      cases h
    · rw [if_neg hk, Option.map_eq_none'] at h
      simp only [List.map_cons, List.mem_cons, not_or]
      exact ⟨Ne.symm hk, ih h⟩

omit [DecidableEq K] in
theorem perm_rotateRight (l : List (K × V)) : l.rotateRight.Perm l := by
  unfold List.rotateRight
  dsimp only
  split
  · exact List.Perm.refl l
  · exact List.perm_append_comm.trans (by rw [List.take_append_drop])

omit [DecidableEq K] in
theorem nodup_swapRemove {l pre post : List (K × V)} {k : K} {v : V}
    (hl : (l.map Prod.fst).Nodup) (h : l = pre ++ (k, v) :: post) :
    ((pre ++ post.rotateRight).map Prod.fst).Nodup := by
  have hSub : ((pre ++ post).map Prod.fst).Sublist (l.map Prod.fst) := by
    rw [h]
    exact ((List.Sublist.refl pre).append (List.sublist_cons_self _ post)).map _
  exact (((List.Perm.refl pre).append (perm_rotateRight post)).map Prod.fst).nodup_iff.mpr
    (hl.sublist hSub)

/-- `IndexMap::remove`, which is `swap_remove`: the last entry takes the place of the removed
one. Returns the updated map and the removed value. -/
def remove (m : IndexMap K V) (k : K) : IndexMap K V × Option V :=
  match h : splitAtKey k m.entries with
  | none => (m, none)
  | some (pre, v, post) =>
    (⟨pre ++ post.rotateRight, nodup_swapRemove m.nodup_keys (splitAtKey_eq_some h)⟩, some v)

theorem remove_of_get_none {m : IndexMap K V} {k : K} (h : m.get k = none) :
    m.remove k = (m, none) := by
  unfold remove
  split
  · rfl
  · rename_i heq
    have hMem : (k, _) ∈ m.entries :=
      splitAtKey_eq_some heq ▸ List.mem_append_right _ (List.mem_cons_self _ _)
    simp_all [(get_eq_some_iff m).mpr hMem]

theorem remove_entries_perm {m : IndexMap K V} {k : K} {old : V} (h : m.get k = some old) :
    ((k, old) :: (m.remove k).1.entries).Perm m.entries ∧ (m.remove k).2 = some old := by
  unfold remove
  split
  · rename_i hs
    exact absurd (List.mem_map.mpr ⟨_, (get_eq_some_iff m).mp h, rfl⟩) (splitAtKey_eq_none hs)
  · rename_i pre v post hs
    have hl := splitAtKey_eq_some hs
    have hv : m.get k = some v :=
      (get_eq_some_iff m).mpr (hl ▸ List.mem_append_right _ (List.mem_cons_self _ _))
    obtain rfl : v = old := Option.some.inj (hv.symm.trans h)
    refine ⟨?_, rfl⟩
    show ((k, v) :: (pre ++ post.rotateRight)).Perm m.entries
    rw [hl]
    exact (((List.Perm.refl pre).append (perm_rotateRight post)).cons _).trans List.perm_middle.symm

@[simp] theorem remove_snd (m : IndexMap K V) (k : K) : (m.remove k).2 = m.get k := by
  cases h : m.get k with
  | none => rw [remove_of_get_none h]
  | some old => exact (remove_entries_perm h).2

theorem get_remove (m : IndexMap K V) (k k' : K) :
    (m.remove k).1.get k' = if k' = k then none else m.get k' := by
  cases h : m.get k with
  | none =>
    rw [remove_of_get_none h]
    by_cases hk : k' = k
    · subst hk
      simp [h]
    · simp [hk]
  | some old =>
    have hp := (remove_entries_perm h).1
    have hNodup := (hp.map Prod.fst).nodup_iff.mpr m.nodup_keys
    rw [List.map_cons, List.nodup_cons] at hNodup
    by_cases hk : k' = k
    · subst hk
      simpa [get_eq_none_iff] using hNodup.1
    · rw [if_neg hk]
      apply Option.ext
      intro w
      simp only [Option.mem_def, get_eq_some_iff, ← hp.mem_iff, List.mem_cons, Prod.mk.injEq]
      simp [hk]

theorem values_remove {m : IndexMap K V} {k : K} {old : V} (h : m.get k = some old) :
    old ::ₘ (m.remove k).1.values = m.values := by
  simp only [values, Multiset.cons_coe]
  exact Multiset.coe_eq_coe.mpr ((remove_entries_perm h).1.map Prod.snd)

theorem mem_values_remove {m : IndexMap K V} {k : K} {x : V} (h : x ∈ (m.remove k).1.values) :
    x ∈ m.values := by
  cases hGet : m.get k with
  | none => rwa [remove_of_get_none hGet] at h
  | some old =>
    rw [← values_remove hGet]
    exact Multiset.mem_cons_of_mem h

/-! ## filter and mapValues

Not methods of `indexmap`: they state what a `retain` computes. -/

/-- The entries whose key and value satisfy `p`, in their order. -/
def filter (p : K → V → Bool) (m : IndexMap K V) : IndexMap K V :=
  ⟨m.entries.filter fun e => p e.1 e.2, m.nodup_keys.sublist ((List.filter_sublist _).map _)⟩

/-- Every value mapped by `g`, the keys and their order unchanged. -/
def mapValues (g : V → V) (m : IndexMap K V) : IndexMap K V :=
  ⟨m.entries.map fun e => (e.1, g e.2), by simpa [Function.comp_def] using m.nodup_keys⟩

theorem get_filter_eq_some_iff (p : K → V → Bool) (m : IndexMap K V) {k : K} {v : V} :
    (m.filter p).get k = some v ↔ m.get k = some v ∧ p k v = true := by
  rw [get_eq_some_iff, get_eq_some_iff]
  exact List.mem_filter

theorem lookup_map_snd (g : V → V) (k : K) :
    ∀ l : List (K × V), (l.map fun e => (e.1, g e.2)).lookup k = (l.lookup k).map g
  | [] => rfl
  | (k', v) :: l => by
    by_cases hk : k = k'
    · subst hk
      simp [List.lookup_cons]
    · simp only [List.map_cons, lookup_cons_of_ne _ hk, lookup_map_snd g k l]

@[simp] theorem get_mapValues (g : V → V) (m : IndexMap K V) (k : K) :
    (m.mapValues g).get k = (m.get k).map g :=
  lookup_map_snd g k m.entries

/-! ## retain -/

section Retain

variable {σ : Type}

/-- `retain` over the entries, threading the state `σ` that the closure captures mutably.
The closure returns its new state, the possibly mutated value and whether to keep the entry,
or `none` where it panics. -/
def retainEntries (f : σ → K → V → Option (σ × V × Bool)) :
    σ → List (K × V) → Option (σ × List (K × V))
  | s, [] => some (s, [])
  | s, (k, v) :: l =>
    match f s k v with
    | none => none
    | some (s, v, keep) =>
      match retainEntries f s l with
      | none => none
      | some (s, l) => some (s, if keep then (k, v) :: l else l)

omit [DecidableEq K] in
theorem retainEntries_sublist {f : σ → K → V → Option (σ × V × Bool)} {s s' : σ}
    {l l' : List (K × V)} (h : retainEntries f s l = some (s', l')) :
    (l'.map Prod.fst).Sublist (l.map Prod.fst) := by
  induction l generalizing s l' with
  | nil =>
    cases h
    exact List.Sublist.slnil
  | cons e l ih =>
    obtain ⟨k, v⟩ := e
    unfold retainEntries at h
    split at h
    · cases h
    · split at h
      · cases h
      · rename_i keep _ _ _ _ hRest
        cases h
        split
        · exact (ih hRest).cons₂ k
        · exact (ih hRest).cons k

/-- `IndexMap::retain` with a closure over the state `σ`; `none` where the closure panics. -/
def retain (f : σ → K → V → Option (σ × V × Bool)) (s : σ) (m : IndexMap K V) :
    Option (σ × IndexMap K V) :=
  match h : retainEntries f s m.entries with
  | none => none
  | some (s', l) => some (s', ⟨l, m.nodup_keys.sublist (retainEntries_sublist h)⟩)

omit [DecidableEq K] in
theorem retain_eq_some_iff {f : σ → K → V → Option (σ × V × Bool)} {s s' : σ}
    {m m' : IndexMap K V} :
    m.retain f s = some (s', m') ↔ retainEntries f s m.entries = some (s', m'.entries) := by
  unfold retain
  split
  · simp_all
  · rename_i heq
    simp only [heq, Option.some.injEq, Prod.mk.injEq]
    constructor
    · rintro ⟨rfl, rfl⟩
      exact ⟨rfl, rfl⟩
    · rintro ⟨rfl, hl⟩
      exact ⟨rfl, IndexMap.ext hl⟩

omit [DecidableEq K] in
theorem retain_eq_none_iff {f : σ → K → V → Option (σ × V × Bool)} {s : σ} {m : IndexMap K V} :
    m.retain f s = none ↔ retainEntries f s m.entries = none := by
  unfold retain
  split <;> simp_all

omit [DecidableEq K] in
theorem retainEntries_sublist_of_keeps {f : σ → K → V → Option (σ × V × Bool)}
    (hf : ∀ s k v s' v' keep, f s k v = some (s', v', keep) → v' = v) {s s' : σ}
    {l l' : List (K × V)} (h : retainEntries f s l = some (s', l')) : l'.Sublist l := by
  induction l generalizing s l' with
  | nil =>
    cases h
    exact List.Sublist.slnil
  | cons e l ih =>
    obtain ⟨k, v⟩ := e
    unfold retainEntries at h
    split at h
    · cases h
    · rename_i s₁ v₁ keep hf₁
      split at h
      · cases h
      · rename_i hRest
        cases h
        obtain rfl := hf _ _ _ _ _ _ hf₁
        split
        · exact (ih hRest).cons₂ _
        · exact (ih hRest).cons _

theorem get_of_retain_of_keeps {f : σ → K → V → Option (σ × V × Bool)}
    (hf : ∀ s k v s' v' keep, f s k v = some (s', v', keep) → v' = v) {s s' : σ}
    {m m' : IndexMap K V} (h : m.retain f s = some (s', m')) {k : K} {v : V}
    (hGet : m'.get k = some v) : m.get k = some v :=
  (get_eq_some_iff m).mpr ((retainEntries_sublist_of_keeps hf (retain_eq_some_iff.mp h)).subset
    ((get_eq_some_iff m').mp hGet))

omit [DecidableEq K] in
theorem retainEntries_of_forall {f : σ → K → V → Option (σ × V × Bool)} (P : V → Prop)
    (hf : ∀ s k v, P v → ∃ s' v' keep, f s k v = some (s', v', keep) ∧ P v') :
    ∀ (l : List (K × V)) (s : σ), (∀ e ∈ l, P e.2) →
      ∃ s' l', retainEntries f s l = some (s', l') ∧ ∀ e ∈ l', P e.2
  | [], s, _ => ⟨s, [], rfl, by simp⟩
  | (k, v) :: l, s, hl => by
    obtain ⟨s₁, v', keep, hf₁, hP⟩ := hf s k v (hl _ (List.mem_cons_self _ _))
    obtain ⟨s', l', hRest, hl'⟩ :=
      retainEntries_of_forall P hf l s₁ fun e he => hl e (List.mem_cons_of_mem _ he)
    refine ⟨s', if keep then (k, v') :: l' else l', by simp [retainEntries, hf₁, hRest], ?_⟩
    split
    · exact List.forall_mem_cons.mpr ⟨hP, hl'⟩
    · exact hl'

omit [DecidableEq K] in
theorem retain_of_forall {f : σ → K → V → Option (σ × V × Bool)} (P : V → Prop)
    (hf : ∀ s k v, P v → ∃ s' v' keep, f s k v = some (s', v', keep) ∧ P v') (s : σ)
    {m : IndexMap K V} (hm : ∀ v ∈ m.values, P v) :
    ∃ s' m', m.retain f s = some (s', m') ∧ ∀ v ∈ m'.values, P v := by
  have hEntries : ∀ e ∈ m.entries, P e.2 := fun e he =>
    hm e.2 (Multiset.mem_coe.mpr (List.mem_map_of_mem _ he))
  obtain ⟨s', l', hRet, hl'⟩ := retainEntries_of_forall P hf m.entries s hEntries
  refine ⟨s', ⟨l', m.nodup_keys.sublist (retainEntries_sublist hRet)⟩,
    retain_eq_some_iff.mpr hRet, fun v hv => ?_⟩
  obtain ⟨e, he, rfl⟩ := List.mem_map.mp (Multiset.mem_coe.mp hv)
  exact hl' e he

omit [DecidableEq K] in
theorem retainEntries_of_pure {f : σ → K → V → Option (σ × V × Bool)} {s : σ}
    (p : K → V → Bool) (g : V → V) :
    ∀ l : List (K × V), (∀ e ∈ l, ∃ v', f s e.1 e.2 = some (s, v', p e.1 e.2) ∧
      (p e.1 e.2 = true → v' = g e.2)) →
      retainEntries f s l = some (s, (l.filter fun e => p e.1 e.2).map fun e => (e.1, g e.2))
  | [], _ => rfl
  | (k, v) :: l, hl => by
    obtain ⟨v', hf, hv'⟩ : ∃ v', f s k v = some (s, v', p k v) ∧ (p k v = true → v' = g v) :=
      hl _ (List.mem_cons_self _ _)
    have hRest := retainEntries_of_pure p g l fun e he => hl e (List.mem_cons_of_mem _ he)
    cases hp : p k v
    · simp [retainEntries, hf, hRest, hp]
    · simp [retainEntries, hf, hRest, hp, hv' hp]

omit [DecidableEq K] in
theorem retain_of_pure {f : σ → K → V → Option (σ × V × Bool)} {s : σ}
    (p : K → V → Bool) (g : V → V) {m : IndexMap K V}
    (hm : ∀ e ∈ m.entries, ∃ v', f s e.1 e.2 = some (s, v', p e.1 e.2) ∧
      (p e.1 e.2 = true → v' = g e.2)) :
    m.retain f s = some (s, (m.filter p).mapValues g) :=
  retain_eq_some_iff.mpr (retainEntries_of_pure p g m.entries hm)

end Retain

end IndexMap

end AquaticTracker
