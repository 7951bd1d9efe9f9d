import Mathlib.Data.Finmap
import Mathlib.Data.Finset.Card
import Mathlib.Order.Bounds.Basic
import Mathlib.Data.List.Perm.Basic
import Mathlib.Data.List.Range
import Mathlib.Order.Interval.Finset.Nat

/-!
# Maps of slots

A map from integer ids to nullable references, read through an operator that inserts a null
reference for a missing key: reading changes the key set, never the references. A reference that
is present and not null is live. New references are registered by a search for a null slot among
the indices below the size, and every live reference is visited by a walk over these indices.

## Main definitions

* `SlotMap.get`, `SlotMap.touch`: the reference read at a key, and the map reading it leaves
* `SlotMap.register m b`: the search for a null slot, and the map with `b` stored there
* `SlotMap.walk act m s`: the walk over the indices below the size
* `SlotMap.visited m`: the references a walk visits, in order

## Main results

* `register_isLeast`: registration returns the least id with no live reference
* `get_register`: registration stores at this id and changes no other
* `get_walk`, `walk_snd`: a walk acts once on each visited reference, and keeps every reference
* `IsRoster.visited_perm_iff`: a walk visits every live reference exactly when every live id is
  below the size
* `IsFilled.register`, `IsFilled.walk_eq`: a map without holes stays so under registrations, and a
  walk visits all of its references
-/

/-- A map from integer ids to nullable references. -/
abbrev SlotMap (β : Type*) := Finmap fun _ : ℤ => Option β

namespace SlotMap

variable {β : Type*}

/-- The reference read at a key: null for a missing key. -/
def get (m : SlotMap β) (k : ℤ) : Option β := (m.lookup k).join

/-- The map after a read at a key: a missing key is inserted with a null reference. -/
def touch (m : SlotMap β) (k : ℤ) : SlotMap β := if k ∈ m then m else m.insert k none

/-- Store a reference at a key. -/
def assign (m : SlotMap β) (k : ℤ) (b : β) : SlotMap β := m.insert k (some b)

/-- The number of keys, those with a null reference included. -/
def size (m : SlotMap β) : ℕ := m.keys.card

@[simp] theorem get_empty (k : ℤ) : get (∅ : SlotMap β) k = none := by
  simp [get]

@[simp] theorem get_touch (m : SlotMap β) (j k : ℤ) : (m.touch j).get k = m.get k := by
  unfold touch
  split
  · rfl
  · rename_i hj
    by_cases hk : k = j
    · subst hk
      simp [get, Finmap.lookup_eq_none.mpr hj]
    · simp [get, Finmap.lookup_insert_of_ne _ hk]

@[simp] theorem get_assign_self (m : SlotMap β) (k : ℤ) (b : β) :
    (m.assign k b).get k = some b := by
  simp [get, assign]

theorem get_assign_of_ne (m : SlotMap β) {j k : ℤ} (b : β) (h : k ≠ j) :
    (m.assign j b).get k = m.get k := by
  simp [get, assign, Finmap.lookup_insert_of_ne _ h]

@[simp] theorem get_erase_self (m : SlotMap β) (k : ℤ) : get (m.erase k) k = none := by
  simp [get]

theorem get_erase_of_ne (m : SlotMap β) {j k : ℤ} (h : k ≠ j) : get (m.erase j) k = m.get k := by
  simp [get, Finmap.lookup_erase_ne h]

theorem mem_of_get_eq_some {m : SlotMap β} {k : ℤ} {b : β} (h : m.get k = some b) : k ∈ m := by
  by_contra hk
  rw [get, Finmap.lookup_eq_none.mpr hk] at h
  cases h

/-! ## Registration -/

/-- The search for a null slot from index `i`, over `n` indices: the id taken, and the map with
the reads and the store done. -/
def search (b : β) : ℕ → ℕ → SlotMap β → Option ℤ × SlotMap β
  | _, 0, m => (none, m)
  | i, n + 1, m =>
    if (m.touch i).get i = none then (some i, (m.touch i).assign i b)
    else search b (i + 1) n (m.touch i)

/-- Register a reference: at the first null slot below the size, otherwise at the size. -/
def register (m : SlotMap β) (b : β) : ℤ × SlotMap β :=
  match search b 0 m.size m with
  | (some k, m') => (k, m')
  | (none, m') => (m.size, m'.assign m.size b)

theorem get_assign (m : SlotMap β) (k : ℤ) (b : β) :
    (m.assign k b).get = Function.update m.get k (some b) := by
  funext j
  by_cases hj : j = k
  · subst hj
    simp
  · rw [get_assign_of_ne m b hj, Function.update_of_ne hj]

/-- What the search finds: the first null slot of its range, or that there is none. -/
theorem search_spec (b : β) (i n : ℕ) (m : SlotMap β) :
    ((search b i n m).1 = none ∧ (search b i n m).2.get = m.get ∧
      ∀ l, i ≤ l → l < i + n → m.get l ≠ none) ∨
    ∃ j : ℕ, (search b i n m).1 = some (j : ℤ) ∧ m.get j = none ∧
      (∀ l, i ≤ l → l < j → m.get l ≠ none) ∧
      (search b i n m).2.get = Function.update m.get j (some b) := by
  induction n generalizing i m with
  | zero => exact .inl ⟨rfl, rfl, fun l hl hl' => by omega⟩
  | succ n ih =>
    have hget : (m.touch i).get = m.get := funext (get_touch m i)
    by_cases hi : m.get i = none
    · -- the slot read is null and is taken
      refine .inr ⟨i, ?_, hi, fun l hl hl' => by omega, ?_⟩
      · simp [search, hi]
      · simp [search, hi, get_assign, hget]
    · -- the slot is live, and the search goes on in the map the read leaves
      have hstep : search b i (n + 1) m = search b (i + 1) n (m.touch i) := by
        simp [search, hi]
      have hlive : ∀ l, i ≤ l → ¬ i + 1 ≤ l → m.get l ≠ none := by
        intro l hl hl'
        obtain rfl : l = i := by omega
        exact hi
      rw [hstep]
      rcases ih (i + 1) (m.touch i) with ⟨h1, h2, h3⟩ | ⟨j, h1, h2, h3, h4⟩
      · refine .inl ⟨h1, h2.trans hget, fun l hl hl' => ?_⟩
        by_cases hle : i + 1 ≤ l
        · exact hget ▸ h3 l hle (by omega)
        · exact hlive l hl hle
      · refine .inr ⟨j, h1, hget ▸ h2, fun l hl hl' => ?_, hget ▸ h4⟩
        by_cases hle : i + 1 ≤ l
        · exact hget ▸ h3 l hle hl'
        · exact hlive l hl hle

/-- Where every index below the size is live there is no other key. -/
theorem keys_eq_of_live {m : SlotMap β} (h : ∀ l : ℕ, l < m.size → m.get l ≠ none) :
    m.keys = (Finset.range m.size).image fun l : ℕ => (l : ℤ) := by
  have hsub : (Finset.range m.size).image (fun l : ℕ => (l : ℤ)) ⊆ m.keys := by
    intro k hk
    obtain ⟨l, hl, rfl⟩ := Finset.mem_image.mp hk
    obtain ⟨b, hb⟩ := Option.ne_none_iff_exists'.mp (h l (Finset.mem_range.mp hl))
    exact Finmap.mem_keys.mpr (mem_of_get_eq_some hb)
  have hcard : ((Finset.range m.size).image (fun l : ℕ => (l : ℤ))).card = m.size := by
    have hinj : Function.Injective fun l : ℕ => (l : ℤ) := fun a b hab => Int.ofNat.inj hab
    rw [Finset.card_image_of_injective _ hinj, Finset.card_range]
  -- as many indices as keys, so that the indices are all the keys
  exact (Finset.eq_of_subset_of_card_le hsub hcard.ge).symm

theorem size_not_mem_of_live {m : SlotMap β} (h : ∀ l : ℕ, l < m.size → m.get l ≠ none) :
    (m.size : ℤ) ∉ m := by
  intro hmem
  rw [← Finmap.mem_keys, keys_eq_of_live h] at hmem
  obtain ⟨l, hl, hl'⟩ := Finset.mem_image.mp hmem
  have := Finset.mem_range.mp hl
  omega

/-- Where every index below the size is live the size is free. -/
theorem get_size_of_live {m : SlotMap β} (h : ∀ l : ℕ, l < m.size → m.get l ≠ none) :
    m.get m.size = none := by
  rw [get, Finmap.lookup_eq_none.mpr (size_not_mem_of_live h)]
  rfl

theorem register_of_search_eq_none {m : SlotMap β} {b : β}
    (h : (search b 0 m.size m).1 = none) :
    m.register b = ((m.size : ℤ), (search b 0 m.size m).2.assign m.size b) := by
  unfold register
  split
  · rename_i heq
    rw [heq] at h
    cases h
  · rename_i heq
    rw [heq]

theorem register_of_search_eq_some {m : SlotMap β} {b : β} {k : ℤ}
    (h : (search b 0 m.size m).1 = some k) : m.register b = (k, (search b 0 m.size m).2) := by
  unfold register
  split
  · rename_i heq
    rw [heq] at h ⊢
    cases h
    rfl
  · rename_i heq
    rw [heq] at h
    cases h

theorem register_spec (m : SlotMap β) (b : β) :
    ∃ j : ℕ, (m.register b).1 = j ∧ m.get j = none ∧ (∀ l < j, m.get l ≠ none) ∧
      (m.register b).2.get = Function.update m.get j (some b) := by
  rcases search_spec b 0 m.size m with ⟨h1, h2, h3⟩ | ⟨j, h1, h2, h3, h4⟩
  · have hlive : ∀ l < m.size, m.get l ≠ none := fun l hl => h3 l (Nat.zero_le l) (by omega)
    rw [register_of_search_eq_none h1]
    exact ⟨m.size, rfl, get_size_of_live hlive, hlive, by rw [get_assign, h2]⟩
  · rw [register_of_search_eq_some h1]
    exact ⟨j, rfl, h2, fun l hl => h3 l (Nat.zero_le l) hl, h4⟩

/-- **Registration takes the least free id**, in every map. -/
theorem register_isLeast (m : SlotMap β) (b : β) :
    IsLeast {k : ℤ | 0 ≤ k ∧ m.get k = none} (m.register b).1 := by
  obtain ⟨j, h1, h2, h3, -⟩ := register_spec m b
  rw [h1]
  refine ⟨⟨by omega, h2⟩, ?_⟩
  rintro k ⟨hk, hnone⟩
  lift k to ℕ using hk
  by_contra hlt
  exact h3 k (by omega) hnone

/-- Registration stores at the id it returns, and changes no other reference. -/
theorem get_register (m : SlotMap β) (b : β) :
    (m.register b).2.get = Function.update m.get (m.register b).1 (some b) := by
  obtain ⟨j, h1, -, -, h4⟩ := register_spec m b
  rw [h4, h1]

/-! ## Walks -/

variable {σ : Type*}

/-- One round of a walk: read the reference at an index, and act on it if it is not null. -/
def visit (act : σ → β → σ) (p : SlotMap β × σ) (i : ℕ) : SlotMap β × σ :=
  match (p.1.touch i).get i with
  | some b => (p.1.touch i, act p.2 b)
  | none => (p.1.touch i, p.2)

/-- The walk over the indices below the size the map has at its start. -/
def walk (act : σ → β → σ) (m : SlotMap β) (s : σ) : SlotMap β × σ :=
  (List.range m.size).foldl (visit act) (m, s)

/-- The references a walk visits, with their ids, in order. -/
def visitedIds (m : SlotMap β) : List (ℤ × β) :=
  (List.range m.size).filterMap fun i : ℕ => (m.get i).map fun b => ((i : ℤ), b)

/-- The references a walk visits, in order. -/
def visited (m : SlotMap β) : List β := (List.range m.size).filterMap fun i : ℕ => m.get i

theorem visited_eq (m : SlotMap β) : m.visited = m.visitedIds.map Prod.snd := by
  rw [visited, visitedIds, List.map_filterMap]
  congr 1
  funext i
  cases m.get i <;> rfl

theorem foldl_visit (act : σ → β → σ) (is : List ℕ) (m : SlotMap β) (s : σ) :
    (is.foldl (visit act) (m, s)).1.get = m.get ∧
      (is.foldl (visit act) (m, s)).2 = (is.filterMap fun i : ℕ => m.get i).foldl act s := by
  induction is generalizing m s with
  | nil => exact ⟨rfl, rfl⟩
  | cons i is ih =>
    have hget : (m.touch i).get = m.get := funext (get_touch m i)
    rw [List.foldl_cons, List.filterMap_cons]
    cases hi : m.get i with
    | none =>
      have hv : visit act (m, s) i = (m.touch i, s) := by simp [visit, hi]
      obtain ⟨h1, h2⟩ := ih (m.touch i) s
      rw [hv]
      exact ⟨h1.trans hget, by rw [h2, hget]⟩
    | some b =>
      have hv : visit act (m, s) i = (m.touch i, act s b) := by simp [visit, hi]
      obtain ⟨h1, h2⟩ := ih (m.touch i) (act s b)
      rw [hv]
      exact ⟨h1.trans hget, by rw [h2, hget, List.foldl_cons]⟩

/-- Walks whose actions correspond take corresponding states. -/
theorem walk_map {τ : Type*} {act : σ → β → σ} {act' : τ → β → τ} {f : σ → τ}
    (hact : ∀ s b, f (act s b) = act' (f s) b) (m : SlotMap β) (s : σ) :
    m.walk act' (f s) = ((m.walk act s).1, f (m.walk act s).2) := by
  have hvisit (p : SlotMap β × σ) (i : ℕ) :
      visit act' (p.1, f p.2) i = ((visit act p i).1, f (visit act p i).2) := by
    rw [visit, visit]
    cases (p.1.touch i).get i with
    | none => rfl
    | some b => exact congrArg _ (hact p.2 b).symm
  have hfold (is : List ℕ) (p : SlotMap β × σ) : is.foldl (visit act') (p.1, f p.2) =
      ((is.foldl (visit act) p).1, f (is.foldl (visit act) p).2) := by
    induction is generalizing p with
    | nil => rfl
    | cons i is ih => rw [List.foldl_cons, List.foldl_cons, hvisit, ih]
  exact hfold _ (m, s)

/-- A walk keeps every reference, though it may insert keys. -/
theorem get_walk (act : σ → β → σ) (m : SlotMap β) (s : σ) : (m.walk act s).1.get = m.get :=
  (foldl_visit act _ m s).1

/-- A walk acts once on each visited reference, in order. -/
theorem walk_snd (act : σ → β → σ) (m : SlotMap β) (s : σ) :
    (m.walk act s).2 = m.visited.foldl act s := (foldl_visit act _ m s).2

theorem mem_visitedIds {m : SlotMap β} {k : ℤ} {b : β} :
    (k, b) ∈ m.visitedIds ↔ 0 ≤ k ∧ k < m.size ∧ m.get k = some b := by
  simp only [visitedIds, List.mem_filterMap, List.mem_range, Option.map_eq_some_iff,
    Prod.mk.injEq]
  constructor
  · rintro ⟨i, hi, b', hb, rfl, rfl⟩
    exact ⟨by omega, by omega, hb⟩
  · rintro ⟨hk, hlt, hb⟩
    lift k to ℕ using hk
    exact ⟨k, by omega, b, hb, rfl, rfl⟩

theorem nodup_visitedIds (m : SlotMap β) : m.visitedIds.Nodup := by
  refine List.Nodup.filterMap ?_ List.nodup_range
  rintro i j r hi hj
  obtain ⟨b, -, rfl⟩ := Option.map_eq_some_iff.mp hi
  obtain ⟨c, -, hc⟩ := Option.map_eq_some_iff.mp hj
  have := (Prod.mk.inj hc).1
  omega

/-! ## Rosters -/

/-- A list of ids and references that names the live references of a map, each once. -/
structure IsRoster (m : SlotMap β) (rs : List (ℤ × β)) : Prop where
  nodup : (rs.map Prod.fst).Nodup
  nonneg : ∀ r ∈ rs, 0 ≤ r.1
  mem_iff : ∀ k b, (k, b) ∈ rs ↔ m.get k = some b

namespace IsRoster

variable {m : SlotMap β} {rs : List (ℤ × β)}

theorem empty : IsRoster (∅ : SlotMap β) [] := ⟨List.nodup_nil, by simp, by simp⟩

/-- Maps with the same references have the same rosters. -/
theorem congr {m' : SlotMap β} (h : IsRoster m rs) (hget : m'.get = m.get) : IsRoster m' rs :=
  ⟨h.nodup, h.nonneg, fun k b => by rw [hget]; exact h.mem_iff k b⟩

/-- Registration adds its id and reference to the roster. -/
theorem register (h : IsRoster m rs) (b : β) :
    IsRoster (m.register b).2 (rs ++ [((m.register b).1, b)]) := by
  obtain ⟨⟨hnn, hfree⟩, -⟩ := register_isLeast m b
  -- the id was free, so that no pair of the roster has it
  have hfresh : ∀ c, ((m.register b).1, c) ∉ rs := fun c hc => by
    rw [(h.mem_iff _ c).mp hc] at hfree
    cases hfree
  refine ⟨?_, ?_, fun k c => ?_⟩
  · rw [List.map_append, List.map_singleton]
    refine List.nodup_append.mpr ⟨h.nodup, List.nodup_singleton _, ?_⟩
    rintro k hk j hj rfl
    obtain ⟨⟨i, c⟩, hr, rfl⟩ := List.mem_map.mp hk
    obtain rfl := List.mem_singleton.mp hj
    exact hfresh c hr
  · intro r hr
    rcases List.mem_append.mp hr with hr | hr
    · exact h.nonneg r hr
    · obtain rfl := List.mem_singleton.mp hr
      exact hnn
  · rw [get_register, List.mem_append, List.mem_singleton, h.mem_iff]
    by_cases hk : k = (m.register b).1
    · subst hk
      simp only [Function.update_self, hfree, Prod.mk.injEq, true_and, reduceCtorEq, false_or,
        Option.some.injEq]
      exact eq_comm
    · simp [hk]

/-- Erasing an id takes it off the roster. -/
theorem erase (h : IsRoster m rs) (k : ℤ) :
    IsRoster (m.erase k) (rs.filter fun r => r.1 ≠ k) := by
  refine ⟨h.nodup.sublist (List.filter_sublist.map _), fun r hr => ?_, fun j b => ?_⟩
  · exact h.nonneg r (List.mem_of_mem_filter hr)
  · rw [List.mem_filter, h.mem_iff]
    by_cases hj : j = k
    · simp [hj]
    · simp [hj, get_erase_of_ne m hj]

/-- A walk visits the part of the roster whose ids are below the size. -/
theorem visitedIds_perm (h : IsRoster m rs) :
    m.visitedIds.Perm (rs.filter fun r => r.1 < (m.size : ℤ)) := by
  refine (List.perm_ext_iff_of_nodup (nodup_visitedIds m) ?_).mpr ?_
  · exact (List.Nodup.of_map _ h.nodup).filter _
  · rintro ⟨k, b⟩
    rw [mem_visitedIds, List.mem_filter, h.mem_iff]
    constructor
    · rintro ⟨-, hlt, hb⟩
      exact ⟨hb, by simpa using hlt⟩
    · rintro ⟨hb, hlt⟩
      exact ⟨h.nonneg _ ((h.mem_iff k b).mpr hb), by simpa using hlt, hb⟩

theorem mem_of_mem_visited (h : IsRoster m rs) {b : β} (hb : b ∈ m.visited) :
    b ∈ rs.map Prod.snd := by
  rw [visited_eq] at hb
  obtain ⟨r, hr, rfl⟩ := List.mem_map.mp hb
  exact List.mem_map_of_mem (List.mem_of_mem_filter (h.visitedIds_perm.mem_iff.mp hr))

/-- **A walk visits every live reference exactly when every live id is below the size.** -/
theorem visited_perm_iff (h : IsRoster m rs) :
    m.visited.Perm (rs.map Prod.snd) ↔ ∀ r ∈ rs, r.1 < m.size := by
  have hv : m.visited.Perm ((rs.filter fun r => r.1 < (m.size : ℤ)).map Prod.snd) := by
    rw [visited_eq]
    exact h.visitedIds_perm.map _
  constructor
  · intro hp r hr
    -- a list as long as its filtered part is all of it
    have hlen := (hv.symm.trans hp).length_eq
    rw [List.length_map, List.length_map, List.length_filter_eq_length_iff] at hlen
    simpa using hlen r hr
  · intro hall
    rwa [List.filter_eq_self.mpr fun r hr => by simpa using hall r hr] at hv

/-- A walk visits a live reference once exactly when one of its ids is below the size. -/
theorem count_visited_eq_one_iff [DecidableEq β] (h : IsRoster m rs) (b : β) :
    m.visited.count b = 1 ↔ ∃! k, (k, b) ∈ rs ∧ k < m.size := by
  have hcount : m.visited.count b = (m.visitedIds.filter fun r => r.2 = b).length := by
    rw [visited_eq, List.count_eq_countP, List.countP_map, List.countP_eq_length_filter]
    rfl
  have hmem : ∀ k c, (k, c) ∈ m.visitedIds.filter (fun r => r.2 = b) ↔
      (k, c) ∈ rs ∧ k < m.size ∧ c = b := by
    intro k c
    simp [h.visitedIds_perm.mem_iff, and_assoc]
  have hnd : (m.visitedIds.filter fun r => r.2 = b).Nodup := (nodup_visitedIds m).filter _
  -- the ids of the reference are counted, and the visits are those of the ids below the size
  rw [hcount, List.length_eq_one_iff]
  constructor
  · rintro ⟨⟨k, c⟩, hkc⟩
    obtain ⟨hk, hlt, rfl⟩ := (hmem k c).mp (by rw [hkc]; exact List.mem_singleton_self _)
    refine ⟨k, ⟨hk, hlt⟩, fun j hj => ?_⟩
    have := (hmem j c).mpr ⟨hj.1, hj.2, rfl⟩
    rw [hkc, List.mem_singleton] at this
    exact (Prod.mk.inj this).1
  · rintro ⟨k, ⟨hk, hlt⟩, huniq⟩
    refine ⟨(k, b), List.perm_singleton.mp ?_⟩
    refine (List.perm_ext_iff_of_nodup hnd (List.nodup_singleton _)).mpr ?_
    rintro ⟨j, c⟩
    rw [hmem, List.mem_singleton, Prod.mk.injEq]
    constructor
    · rintro ⟨hj, hjlt, rfl⟩
      exact ⟨huniq j ⟨hj, hjlt⟩, rfl⟩
    · rintro ⟨rfl, rfl⟩
      exact ⟨hk, hlt, rfl⟩

end IsRoster

/-! ## Filled maps -/

theorem touch_of_mem {m : SlotMap β} {k : ℤ} (h : k ∈ m) : m.touch k = m := if_pos h

theorem size_assign {m : SlotMap β} {k : ℤ} (h : k ∉ m) (b : β) :
    (m.assign k b).size = m.size + 1 := by
  have hkeys : (m.assign k b).keys = insert k m.keys := by
    ext j
    rw [Finmap.mem_keys, assign, Finmap.mem_insert, Finset.mem_insert, Finmap.mem_keys]
  rw [size, hkeys, Finset.card_insert_of_notMem (mt Finmap.mem_keys.mp h), size]

/-- A search over live slots finds none, and inserts no key. -/
theorem search_of_live (b : β) {i n : ℕ} {m : SlotMap β}
    (h : ∀ l, i ≤ l → l < i + n → m.get l ≠ none) : search b i n m = (none, m) := by
  induction n generalizing i with
  | zero => rfl
  | succ n ih =>
    have hi : m.get i ≠ none := h i le_rfl (by omega)
    obtain ⟨c, hc⟩ := Option.ne_none_iff_exists'.mp hi
    rw [search, touch_of_mem (mem_of_get_eq_some hc), if_neg hi]
    exact ih fun l hl hl' => h l (by omega) (by omega)

/-- A map whose keys are the indices of a list of references, each with its reference. -/
structure IsFilled (m : SlotMap β) (bs : List β) : Prop where
  size_eq : m.size = bs.length
  get_eq : ∀ i : ℕ, i < bs.length → m.get i = bs[i]?

namespace IsFilled

variable {m : SlotMap β} {bs : List β}

theorem empty : IsFilled (∅ : SlotMap β) [] := ⟨rfl, fun _ hi => absurd hi (by simp)⟩

theorem live (h : IsFilled m bs) (l : ℕ) (hl : l < m.size) : m.get l ≠ none := by
  rw [h.size_eq] at hl
  rw [h.get_eq l hl, List.getElem?_eq_getElem hl]
  exact Option.some_ne_none _

theorem keys_eq (h : IsFilled m bs) :
    m.keys = (Finset.range bs.length).image fun i : ℕ => (i : ℤ) := by
  rw [keys_eq_of_live h.live, h.size_eq]

/-- The reference at an index is not null. -/
theorem lookup_eq (h : IsFilled m bs) {i : ℕ} {b : β} (hb : bs[i]? = some b) :
    m.lookup (i : ℤ) = some (some b) := by
  obtain ⟨hi, -⟩ := List.getElem?_eq_some_iff.mp hb
  have hget : (m.lookup (i : ℤ)).join = some b := (h.get_eq i hi).trans hb
  exact Option.join_eq_some_iff.mp hget

/-- Registration fills the map further. -/
theorem register (h : IsFilled m bs) (b : β) : IsFilled (m.register b).2 (bs ++ [b]) := by
  have hsearch : search b 0 m.size m = (none, m) :=
    search_of_live b fun l _ hl => h.live l (by omega)
  have hreg : m.register b = ((m.size : ℤ), m.assign m.size b) := by
    rw [register_of_search_eq_none (congrArg Prod.fst hsearch), hsearch]
  rw [hreg]
  constructor
  · rw [size_assign (size_not_mem_of_live h.live), h.size_eq, List.length_append]
    rfl
  · intro i hi
    rw [List.length_append, List.length_singleton] at hi
    rw [h.size_eq]
    by_cases hlast : i = bs.length
    · subst hlast
      rw [get_assign_self]
      simp
    · have hlt : i < bs.length := by omega
      rw [get_assign_of_ne m b (by omega), h.get_eq i hlt, List.getElem?_append_left hlt]

theorem visited_eq (h : IsFilled m bs) : m.visited = bs := by
  have hget : m.visited = (List.range bs.length).filterMap fun i => bs[i]? := by
    rw [visited, h.size_eq]
    apply List.filterMap_congr
    intro i hi
    exact h.get_eq i (List.mem_range.mp hi)
  rw [hget]
  clear h hget
  -- the last index gives the last reference
  induction bs using List.reverseRecOn with
  | nil => rfl
  | append_singleton bs b ih =>
    have hinit : (List.range bs.length).filterMap (fun i => (bs ++ [b])[i]?) = bs := by
      rw [List.filterMap_congr fun i hi => List.getElem?_append_left (List.mem_range.mp hi), ih]
    rw [List.length_append, List.length_singleton, List.range_succ, List.filterMap_append, hinit]
    simp

/-- A walk over a filled map visits the references in their order, and inserts no key. -/
theorem walk_eq (h : IsFilled m bs) (act : σ → β → σ) (s : σ) :
    m.walk act s = (m, bs.foldl act s) := by
  have hkeep : ∀ (is : List ℕ) (s : σ), (∀ i ∈ is, i < m.size) →
      (is.foldl (visit act) (m, s)).1 = m := by
    intro is
    induction is with
    | nil => exact fun _ _ => rfl
    | cons i is ih =>
      intro s hlt
      obtain ⟨b, hb⟩ := Option.ne_none_iff_exists'.mp (h.live i (hlt i List.mem_cons_self))
      have hvisit : visit act (m, s) i = (m, act s b) := by
        rw [visit, touch_of_mem (mem_of_get_eq_some hb), hb]
      rw [List.foldl_cons, hvisit]
      exact ih (act s b) fun j hj => hlt j (List.mem_cons_of_mem i hj)
  refine Prod.ext ?_ ?_
  · exact hkeep _ s fun i hi => List.mem_range.mp hi
  · rw [walk_snd, h.visited_eq]

end IsFilled

end SlotMap
