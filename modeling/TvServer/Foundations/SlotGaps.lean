import TvServer.Foundations.SlotMap
import Mathlib.Data.Finset.Lattice.Fold
import Mathlib.Order.Lattice.Nat

/-!
# Gaps of slot maps

The ids of a slot map that are no keys, though a greater id is one, are its gaps. A live reference
is out of the reach of a walk only if there is a gap below the size, and a walk inserts the keys of
these gaps: so a walk that misses a reference closes a gap. Registration opens no gap, and an
erasure at most one.

## Main definitions

* `gaps m`: the number of gaps

## Main results

* `gaps_walk_le`, `gaps_walk_lt`: a walk opens no gap, and closes one where a key is not below the
  size
* `gaps_register_le`: registration opens no gap
* `gaps_erase_le`: an erasure opens one gap at most
* `register_bounds`: registration takes an id below the size that it leaves
-/

namespace SlotMap

variable {β σ : Type*} {m : SlotMap β}

/-- The ids that are no keys, though a greater id is one. -/
def gapSet (m : SlotMap β) : Finset ℕ :=
  (Finset.range (m.keys.sup Int.toNat)).filter fun i => (i : ℤ) ∉ m

/-- The number of gaps. -/
def gaps (m : SlotMap β) : ℕ := m.gapSet.card

/-- All keys are ids. -/
def IsIndexed (m : SlotMap β) : Prop := ∀ k ∈ m, 0 ≤ k

theorem mem_gapSet (h : m.IsIndexed) {i : ℕ} :
    i ∈ m.gapSet ↔ (i : ℤ) ∉ m ∧ ∃ k ∈ m, (i : ℤ) < k := by
  rw [gapSet, Finset.mem_filter, Finset.mem_range, Finset.lt_sup_iff, and_comm]
  refine and_congr_right fun _ => ?_
  constructor
  · rintro ⟨k, hk, hlt⟩
    exact ⟨k, Finmap.mem_keys.mp hk, by omega⟩
  · rintro ⟨k, hk, hlt⟩
    have := h k hk
    exact ⟨k, Finmap.mem_keys.mpr hk, by omega⟩

theorem isIndexed_empty : (∅ : SlotMap β).IsIndexed := fun _ hk => absurd hk Finmap.notMem_empty

@[simp] theorem gaps_empty : gaps (∅ : SlotMap β) = 0 := rfl

/-! ## Keys -/

theorem mem_touch {j k : ℤ} : k ∈ m.touch j ↔ k = j ∨ k ∈ m := by
  unfold touch
  split
  · rename_i hj
    refine ⟨.inr, ?_⟩
    rintro (rfl | hk)
    · exact hj
    · exact hk
  · exact Finmap.mem_insert

theorem mem_assign {j k : ℤ} {b : β} : k ∈ m.assign j b ↔ k = j ∨ k ∈ m := Finmap.mem_insert

/-- Where an index below the size is no key there is a greater key. -/
theorem exists_greater_of_not_mem (h : m.IsIndexed) {i : ℕ} (hi : i < m.size) (hnot : (i : ℤ) ∉ m) :
    ∃ k ∈ m, (i : ℤ) < k := by
  by_contra hnone
  -- otherwise all keys are among the ids below the index, which are too few
  have hsub : m.keys ⊆ (Finset.range i).image fun l : ℕ => (l : ℤ) := by
    intro k hk
    have hmem := Finmap.mem_keys.mp hk
    have hnn := h k hmem
    have hle : k ≤ i := by
      by_contra hlt
      exact hnone ⟨k, hmem, by omega⟩
    have hne : k ≠ i := fun heq => hnot (heq ▸ hmem)
    exact Finset.mem_image.mpr ⟨k.toNat, Finset.mem_range.mpr (by omega), by omega⟩
  have hcard := (Finset.card_le_card hsub).trans Finset.card_image_le
  rw [Finset.card_range] at hcard
  exact absurd hi (not_lt.mpr hcard)

/-- Where a key is not below the size some index below it is no key. -/
theorem exists_not_mem_of_size_le {k : ℤ} (hk : k ∈ m) (hle : m.size ≤ k) :
    ∃ i : ℕ, i < m.size ∧ (i : ℤ) ∉ m := by
  by_contra hnone
  push Not at hnone
  -- otherwise there are more keys than the size
  have hsub : insert k ((Finset.range m.size).image fun l : ℕ => (l : ℤ)) ⊆ m.keys := by
    intro j hj
    rcases Finset.mem_insert.mp hj with rfl | hj
    · exact Finmap.mem_keys.mpr hk
    · obtain ⟨l, hl, rfl⟩ := Finset.mem_image.mp hj
      exact Finmap.mem_keys.mpr (hnone l (Finset.mem_range.mp hl))
  have hnew : k ∉ (Finset.range m.size).image fun l : ℕ => (l : ℤ) := by
    intro hmem
    obtain ⟨l, hl, rfl⟩ := Finset.mem_image.mp hmem
    have := Finset.mem_range.mp hl
    omega
  have hinj : Function.Injective fun l : ℕ => (l : ℤ) := fun a b hab => Int.ofNat.inj hab
  have hcard := Finset.card_le_card hsub
  rw [Finset.card_insert_of_notMem hnew, Finset.card_image_of_injective _ hinj,
    Finset.card_range] at hcard
  exact absurd hcard (Nat.not_succ_le_self _)

/-! ## New keys -/

section Insert

variable {m' : SlotMap β} {i : ℕ}

/-- A map with one more key, which is an id. -/
theorem isIndexed_of_insert (h : m.IsIndexed) (hkeys : ∀ k, k ∈ m' ↔ k = (i : ℤ) ∨ k ∈ m) :
    m'.IsIndexed := by
  intro k hk
  rcases (hkeys k).mp hk with rfl | hk
  · exact Int.natCast_nonneg i
  · exact h k hk

/-- A new key with a greater one behind it closes a gap. -/
theorem gapSet_of_insert (h : m.IsIndexed) (hkeys : ∀ k, k ∈ m' ↔ k = (i : ℤ) ∨ k ∈ m)
    (hgreater : ∃ k ∈ m, (i : ℤ) < k) : m'.gapSet = m.gapSet.erase i := by
  ext j
  rw [Finset.mem_erase, mem_gapSet h, mem_gapSet (isIndexed_of_insert h hkeys)]
  obtain ⟨g, hg, hlt⟩ := hgreater
  constructor
  · rintro ⟨hnot, k, hk, hjk⟩
    have hne : j ≠ i := fun heq => hnot ((hkeys _).mpr (.inl (by rw [heq])))
    refine ⟨hne, fun hj => hnot ((hkeys _).mpr (.inr hj)), ?_⟩
    rcases (hkeys k).mp hk with rfl | hk
    · exact ⟨g, hg, hjk.trans hlt⟩
    · exact ⟨k, hk, hjk⟩
  · rintro ⟨hne, hnot, k, hk, hjk⟩
    refine ⟨fun hj => ?_, k, (hkeys k).mpr (.inr hk), hjk⟩
    rcases (hkeys _).mp hj with heq | hj
    · exact hne (Int.ofNat.inj heq)
    · exact hnot hj

end Insert

theorem isIndexed_touch (h : m.IsIndexed) (i : ℕ) : (m.touch i).IsIndexed :=
  isIndexed_of_insert h fun _ => mem_touch

theorem isIndexed_assign (h : m.IsIndexed) (i : ℕ) (b : β) : (m.assign i b).IsIndexed :=
  isIndexed_of_insert h fun _ => mem_assign

/-- A read below the size opens no gap, and closes one where there is no key. -/
theorem gapSet_touch (h : m.IsIndexed) {i : ℕ} (hi : i < m.size) :
    (m.touch i).gapSet = m.gapSet.erase i := by
  by_cases hmem : (i : ℤ) ∈ m
  · have hnot : i ∉ m.gapSet := fun hg => ((mem_gapSet h).mp hg).1 hmem
    rw [touch_of_mem hmem, Finset.erase_eq_of_notMem hnot]
  · exact gapSet_of_insert h (fun _ => mem_touch) (exists_greater_of_not_mem h hi hmem)

theorem size_le_touch (m : SlotMap β) (k : ℤ) : m.size ≤ (m.touch k).size := by
  refine Finset.card_le_card fun j hj => ?_
  exact Finmap.mem_keys.mpr (mem_touch.mpr (.inr (Finmap.mem_keys.mp hj)))

/-! ## Walks -/

theorem visit_fst (act : σ → β → σ) (p : SlotMap β × σ) (i : ℕ) :
    (visit act p i).1 = p.1.touch i := by
  rw [visit]
  split <;> rfl

/-- The reads of a walk close the gaps at their indices. -/
theorem gapSet_foldl_visit (act : σ → β → σ) (is : List ℕ) {p : SlotMap β × σ}
    (h : p.1.IsIndexed) (his : ∀ i ∈ is, i < p.1.size) :
    (is.foldl (visit act) p).1.IsIndexed ∧
      (is.foldl (visit act) p).1.gapSet = p.1.gapSet \ is.toFinset := by
  induction is generalizing p with
  | nil => exact ⟨h, by simp⟩
  | cons i is ih =>
    have hi : i < p.1.size := his i List.mem_cons_self
    have hread : (visit act p i).1.IsIndexed := by
      rw [visit_fst]
      exact isIndexed_touch h i
    have hrest : ∀ j ∈ is, j < (visit act p i).1.size := by
      intro j hj
      rw [visit_fst]
      exact (his j (List.mem_cons_of_mem i hj)).trans_le (size_le_touch p.1 i)
    obtain ⟨hindexed, hgaps⟩ := ih hread hrest
    refine ⟨hindexed, ?_⟩
    rw [List.foldl_cons, hgaps, visit_fst, gapSet_touch h hi, List.toFinset_cons,
      Finset.sdiff_insert, Finset.erase_sdiff_comm]

theorem gapSet_walk (h : m.IsIndexed) (act : σ → β → σ) (s : σ) :
    (m.walk act s).1.IsIndexed ∧
      (m.walk act s).1.gapSet = m.gapSet \ Finset.range m.size := by
  obtain ⟨hindexed, hgaps⟩ := gapSet_foldl_visit act (List.range m.size)
    (p := (m, s)) h fun i hi => List.mem_range.mp hi
  rw [List.toFinset_range] at hgaps
  exact ⟨hindexed, hgaps⟩

/-- A walk opens no gap. -/
theorem gaps_walk_le (h : m.IsIndexed) (act : σ → β → σ) (s : σ) :
    (m.walk act s).1.gaps ≤ m.gaps := by
  rw [gaps, (gapSet_walk h act s).2]
  exact Finset.card_le_card Finset.sdiff_subset

/-- **A walk closes a gap** where a key is not below the size, so that the walk does not reach
it. -/
theorem gaps_walk_lt (h : m.IsIndexed) (act : σ → β → σ) (s : σ) {k : ℤ} (hk : k ∈ m)
    (hle : m.size ≤ k) : (m.walk act s).1.gaps < m.gaps := by
  obtain ⟨i, hi, hnot⟩ := exists_not_mem_of_size_le hk hle
  have hgap : i ∈ m.gapSet := (mem_gapSet h).mpr ⟨hnot, k, hk, by omega⟩
  rw [gaps, (gapSet_walk h act s).2]
  refine Finset.card_lt_card ((Finset.ssubset_iff_of_subset Finset.sdiff_subset).mpr ?_)
  exact ⟨i, hgap, fun hmem => (Finset.mem_sdiff.mp hmem).2 (Finset.mem_range.mpr hi)⟩

/-! ## Registration -/

/-- A search below the size opens no gap. -/
theorem gapSet_search_subset (b : β) {i n : ℕ} (h : m.IsIndexed) (hle : i + n ≤ m.size) :
    (search b i n m).2.IsIndexed ∧ (search b i n m).2.gapSet ⊆ m.gapSet := by
  induction n generalizing i m with
  | zero => exact ⟨h, Finset.Subset.refl _⟩
  | succ n ih =>
    have hread : (m.touch i).IsIndexed := isIndexed_touch h i
    have hgaps : (m.touch i).gapSet ⊆ m.gapSet := by
      rw [gapSet_touch h (by omega)]
      exact Finset.erase_subset _ _
    rw [search]
    split
    · -- the key was inserted by the read, so that the store changes no key
      have hkeys : ((m.touch i).assign i b).keys = (m.touch i).keys := by
        ext k
        rw [Finmap.mem_keys, Finmap.mem_keys, mem_assign, mem_touch]
        tauto
      refine ⟨isIndexed_assign hread i b, ?_⟩
      have hsame : ((m.touch i).assign i b).gapSet = (m.touch i).gapSet := by
        simp only [gapSet, ← Finmap.mem_keys, hkeys]
      rw [hsame]
      exact hgaps
    · have hsize := size_le_touch m i
      obtain ⟨hindexed, hsub⟩ := ih (i := i + 1) hread (by omega)
      exact ⟨hindexed, hsub.trans hgaps⟩

/-- Where every index below the size is live there is no gap, also with one more reference. -/
theorem gapSet_assign_size (hlive : ∀ l : ℕ, l < m.size → m.get l ≠ none) (b : β) :
    (m.assign m.size b).IsIndexed ∧ (m.assign m.size b).gapSet = ∅ := by
  have hmem (k : ℤ) : k ∈ m.assign m.size b ↔ ∃ l : ℕ, l ≤ m.size ∧ (l : ℤ) = k := by
    rw [mem_assign, ← Finmap.mem_keys, keys_eq_of_live hlive, Finset.mem_image]
    constructor
    · rintro (rfl | ⟨l, hl, rfl⟩)
      · exact ⟨m.size, Nat.le_refl _, rfl⟩
      · exact ⟨l, Nat.le_of_lt (Finset.mem_range.mp hl), rfl⟩
    · rintro ⟨l, hl, rfl⟩
      rcases Nat.lt_or_eq_of_le hl with hl | rfl
      · exact .inr ⟨l, Finset.mem_range.mpr hl, rfl⟩
      · exact .inl rfl
  have hindexed : (m.assign m.size b).IsIndexed := by
    intro k hk
    obtain ⟨l, -, rfl⟩ := (hmem k).mp hk
    exact Int.natCast_nonneg l
  refine ⟨hindexed, Finset.eq_empty_of_forall_notMem fun i hi => ?_⟩
  obtain ⟨hnot, k, hk, hlt⟩ := (mem_gapSet hindexed).mp hi
  obtain ⟨l, hl, rfl⟩ := (hmem k).mp hk
  exact hnot ((hmem i).mpr ⟨i, by omega, rfl⟩)

theorem gapSet_register_subset (h : m.IsIndexed) (b : β) :
    (m.register b).2.IsIndexed ∧ (m.register b).2.gapSet ⊆ m.gapSet := by
  obtain ⟨hindexed, hsub⟩ := gapSet_search_subset b (i := 0) (n := m.size) h (by omega)
  rcases search_spec b 0 m.size m with ⟨hnone, -, hlive⟩ | ⟨j, hsome, -⟩
  · have hall : ∀ l : ℕ, l < m.size → m.get l ≠ none := fun l hl => hlive l (by omega) (by omega)
    rw [register_of_search_eq_none hnone, search_of_live b fun l hl hl' => hlive l hl hl']
    obtain ⟨hindexed, hgaps⟩ := gapSet_assign_size hall b
    exact ⟨hindexed, hgaps ▸ Finset.empty_subset _⟩
  · rw [register_of_search_eq_some hsome]
    exact ⟨hindexed, hsub⟩

/-- **Registration opens no gap.** -/
theorem gaps_register_le (h : m.IsIndexed) (b : β) : (m.register b).2.gaps ≤ m.gaps :=
  Finset.card_le_card (gapSet_register_subset h b).2

/-! ## Sizes -/

theorem size_le_assign (m : SlotMap β) (k : ℤ) (b : β) : m.size ≤ (m.assign k b).size := by
  refine Finset.card_le_card fun j hj => ?_
  exact Finmap.mem_keys.mpr (mem_assign.mpr (.inr (Finmap.mem_keys.mp hj)))

theorem size_le_walk (act : σ → β → σ) (m : SlotMap β) (s : σ) :
    m.size ≤ (m.walk act s).1.size := by
  have hfold (is : List ℕ) (p : SlotMap β × σ) :
      p.1.size ≤ (is.foldl (visit act) p).1.size := by
    induction is generalizing p with
    | nil => exact Nat.le_refl _
    | cons i is ih =>
      refine Nat.le_trans ?_ (ih (visit act p i))
      rw [visit_fst]
      exact size_le_touch p.1 i
  exact hfold _ (m, s)

/-- A search takes an id of its range, and erases no key. -/
theorem search_bounds (b : β) (i n : ℕ) (m : SlotMap β) :
    m.size ≤ (search b i n m).2.size ∧ ∀ k ∈ (search b i n m).1, k < (i + n : ℕ) := by
  induction n generalizing i m with
  | zero => exact ⟨Nat.le_refl _, fun k hk => absurd hk (by simp [search])⟩
  | succ n ih =>
    have hread : m.size ≤ (m.touch i).size := size_le_touch m i
    rw [search]
    split
    · refine ⟨hread.trans (size_le_assign _ _ b), fun k hk => ?_⟩
      obtain rfl : (i : ℤ) = k := by simpa using hk
      omega
    · obtain ⟨hsize, hlt⟩ := ih (i + 1) (m.touch i)
      refine ⟨hread.trans hsize, fun k hk => ?_⟩
      have hk := hlt k hk
      omega

/-- Registration takes an id below the size that it leaves, and erases no key. -/
theorem register_bounds (m : SlotMap β) (b : β) :
    m.size ≤ (m.register b).2.size ∧ (m.register b).1 < (m.register b).2.size := by
  obtain ⟨hsize, hlt⟩ := search_bounds b 0 m.size m
  rcases search_spec b 0 m.size m with ⟨hnone, -, hlive⟩ | ⟨j, hsome, -⟩
  · have hall : ∀ l : ℕ, l < m.size → m.get l ≠ none := fun l hl => hlive l (by omega) (by omega)
    rw [register_of_search_eq_none hnone, search_of_live b fun l hl hl' => hlive l hl hl',
      size_assign (size_not_mem_of_live hall)]
    exact ⟨Nat.le_succ _, by push_cast; omega⟩
  · rw [register_of_search_eq_some hsome]
    have hj : (j : ℤ) < m.size := by simpa using hlt j hsome
    exact ⟨hsize, hj.trans_le (Int.ofNat_le.mpr hsize)⟩

/-! ## Erasure -/

theorem isIndexed_erase (h : m.IsIndexed) (k : ℤ) : IsIndexed (m.erase k) :=
  fun j hj => h j (Finmap.mem_erase.mp hj).2

/-- **An erasure opens one gap at most**: that of the id erased. -/
theorem gaps_erase_le (h : m.IsIndexed) (k : ℤ) : gaps (m.erase k) ≤ m.gaps + 1 := by
  have hsub : gapSet (m.erase k) ⊆ insert k.toNat m.gapSet := by
    intro i hi
    obtain ⟨hnot, j, hj, hlt⟩ := (mem_gapSet (isIndexed_erase h k)).mp hi
    obtain ⟨-, hj⟩ := Finmap.mem_erase.mp hj
    rw [Finset.mem_insert, mem_gapSet h]
    by_cases hik : (i : ℤ) = k
    · exact .inl (by omega)
    · exact .inr ⟨fun hmem => hnot (Finmap.mem_erase.mpr ⟨hik, hmem⟩), j, hj, hlt⟩
  exact (Finset.card_le_card hsub).trans (Finset.card_insert_le _ _)

end SlotMap
