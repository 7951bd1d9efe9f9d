import Mathlib.Logic.Function.Basic

/-!
# Sectioned lists

A list of section headers, entries and remarks, read as a map: an entry belongs to the last
header before it, the first section of a name counts, and in it the first entry of a key.

## Main definitions

* `Item`: a header, an entry or a remark
* `lookup s k items`: the value of a key in a section
* `set s k v items`: the list with a value set, in place or as a new entry

## Main results

* `lookup_set`: setting a value updates the map at its section and key, and nowhere else
* `lookup_eq_some_iff`: where the value of a key stands
* `lookup_congr`: remarks do not count
-/

namespace Sections

/-- An item of a sectioned list. -/
inductive Item (σ κ ν : Type*) where
  | header (name : σ)
  | entry (key : κ) (value : ν)
  | remark
deriving DecidableEq

variable {σ κ ν : Type*}

/-- Whether an item is a header or an entry. -/
def Item.counts : Item σ κ ν → Bool
  | .header _ => true
  | .entry _ _ => true
  | .remark => false

variable [DecidableEq σ] [DecidableEq κ]

/-- The value of a key among the entries before the next header. -/
def entryIn (k : κ) : List (Item σ κ ν) → Option ν
  | [] => none
  | .header _ :: _ => none
  | .entry k' v :: is => if k' = k then some v else entryIn k is
  | .remark :: is => entryIn k is

/-- The items after the first header of a name. -/
def afterSection (s : σ) : List (Item σ κ ν) → Option (List (Item σ κ ν))
  | [] => none
  | .header s' :: is => if s' = s then some is else afterSection s is
  | .entry _ _ :: is => afterSection s is
  | .remark :: is => afterSection s is

/-- The value of a key in the first section of a name. -/
def lookup (s : σ) (k : κ) (items : List (Item σ κ ν)) : Option ν :=
  (afterSection s items).bind (entryIn k)

/-- Overwrite the first entry of a key before the next header. -/
def overwrite (k : κ) (v : ν) : List (Item σ κ ν) → Option (List (Item σ κ ν))
  | [] => none
  | .header _ :: _ => none
  | .entry k' v' :: is =>
    if k' = k then some (.entry k v :: is) else (overwrite k v is).map (.entry k' v' :: ·)
  | .remark :: is => (overwrite k v is).map (.remark :: ·)

/-- Set a key right after the header of its section: in place, or as a new first entry. -/
def setEntry (k : κ) (v : ν) (items : List (Item σ κ ν)) : List (Item σ κ ν) :=
  (overwrite k v items).getD (.entry k v :: items)

/-- Set a key in the first section of a name. -/
def setIn (s : σ) (k : κ) (v : ν) : List (Item σ κ ν) → Option (List (Item σ κ ν))
  | [] => none
  | .header s' :: is =>
    if s' = s then some (.header s' :: setEntry k v is)
    else (setIn s k v is).map (.header s' :: ·)
  | .entry k' v' :: is => (setIn s k v is).map (.entry k' v' :: ·)
  | .remark :: is => (setIn s k v is).map (.remark :: ·)

/-- Set a key in a section; a section that is missing is put in front. -/
def set (s : σ) (k : κ) (v : ν) (items : List (Item σ κ ν)) : List (Item σ κ ν) :=
  (setIn s k v items).getD (.header s :: .entry k v :: items)

/-! ## Remarks -/

omit [DecidableEq σ] in
theorem entryIn_filter (k : κ) (items : List (Item σ κ ν)) :
    entryIn k (items.filter Item.counts) = entryIn k items := by
  induction items with
  | nil => rfl
  | cons i is ih => cases i <;> simp [entryIn, List.filter_cons, Item.counts, ih]

omit [DecidableEq κ] in
theorem afterSection_filter (s : σ) (items : List (Item σ κ ν)) :
    afterSection s (items.filter Item.counts) =
      (afterSection s items).map (List.filter Item.counts) := by
  induction items with
  | nil => rfl
  | cons i is ih =>
    cases i with
    | header s' => by_cases h : s' = s <;> simp [afterSection, List.filter_cons, Item.counts, h, ih]
    | entry k v => simp [afterSection, List.filter_cons, Item.counts, ih]
    | remark => simp [afterSection, Item.counts, ih]

theorem lookup_filter (s : σ) (k : κ) (items : List (Item σ κ ν)) :
    lookup s k (items.filter Item.counts) = lookup s k items := by
  rw [lookup, afterSection_filter, lookup]
  cases afterSection s items with
  | none => rfl
  | some is => exact entryIn_filter k is

/-- Lists that differ in remarks only are the same map. -/
theorem lookup_congr {items items' : List (Item σ κ ν)}
    (h : items.filter Item.counts = items'.filter Item.counts) (s : σ) (k : κ) :
    lookup s k items = lookup s k items' := by
  rw [← lookup_filter, h, lookup_filter]

/-! ## Positions -/

omit [DecidableEq κ] in
theorem afterSection_of_not_mem {s : σ} {items : List (Item σ κ ν)} (h : .header s ∉ items) :
    afterSection s items = none := by
  induction items with
  | nil => rfl
  | cons i is ih =>
    rw [List.mem_cons, not_or] at h
    cases i with
    | header s' =>
      have hne : s' ≠ s := fun he => h.1 (he ▸ rfl)
      rw [afterSection, if_neg hne, ih h.2]
    | entry k v => exact ih h.2
    | remark => exact ih h.2

omit [DecidableEq κ] in
theorem afterSection_append {s : σ} {pre : List (Item σ κ ν)} (h : .header s ∉ pre)
    (post : List (Item σ κ ν)) : afterSection s (pre ++ .header s :: post) = some post := by
  induction pre with
  | nil => simp [afterSection]
  | cons i is ih =>
    rw [List.mem_cons, not_or] at h
    cases i with
    | header s' =>
      have hne : s' ≠ s := fun he => h.1 (he ▸ rfl)
      rw [List.cons_append, afterSection, if_neg hne, ih h.2]
    | entry k v => exact ih h.2
    | remark => exact ih h.2

theorem setIn_append {s : σ} {pre : List (Item σ κ ν)} (h : .header s ∉ pre) (k : κ) (v : ν)
    (post : List (Item σ κ ν)) :
    setIn s k v (pre ++ .header s :: post) = some (pre ++ .header s :: setEntry k v post) := by
  induction pre with
  | nil => simp [setIn]
  | cons i is ih =>
    rw [List.mem_cons, not_or] at h
    cases i with
    | header s' =>
      have hne : s' ≠ s := fun he => h.1 (he ▸ rfl)
      rw [List.cons_append, setIn, if_neg hne, ih h.2, Option.map_some, List.cons_append]
    | entry k' v' => rw [List.cons_append, setIn, ih h.2, Option.map_some, List.cons_append]
    | remark => rw [List.cons_append, setIn, ih h.2, Option.map_some, List.cons_append]

/-- Whether an item leaves the search for a key going. -/
def Item.passes (k : κ) : Item σ κ ν → Bool
  | .header _ => false
  | .entry k' _ => k' ≠ k
  | .remark => true

omit [DecidableEq κ] in
theorem afterSection_eq_some_iff {s : σ} {items post : List (Item σ κ ν)} :
    afterSection s items = some post ↔
      ∃ pre, items = pre ++ .header s :: post ∧ .header s ∉ pre := by
  constructor
  · intro h
    induction items with
    | nil => cases h
    | cons i is ih =>
      -- an item that is passed over is one more in front
      have hlater : afterSection s is = some post → i ≠ .header s →
          ∃ pre, i :: is = pre ++ .header s :: post ∧ .header s ∉ pre := by
        intro his hi
        obtain ⟨pre, rfl, hpre⟩ := ih his
        exact ⟨i :: pre, rfl, List.not_mem_cons_of_ne_of_not_mem hi.symm hpre⟩
      cases i with
      | header s' =>
        rw [afterSection] at h
        by_cases hs : s' = s
        · rw [if_pos hs] at h
          obtain rfl := Option.some.inj h
          exact ⟨[], hs ▸ rfl, List.not_mem_nil⟩
        · rw [if_neg hs] at h
          exact hlater h fun he => hs (Item.header.inj he)
      | entry k v => exact hlater h (by simp)
      | remark => exact hlater h (by simp)
  · rintro ⟨pre, rfl, hpre⟩
    exact afterSection_append hpre post

omit [DecidableEq σ] in
theorem entryIn_eq_some_iff {k : κ} {v : ν} {items : List (Item σ κ ν)} :
    entryIn k items = some v ↔
      ∃ mid post, items = mid ++ .entry k v :: post ∧ ∀ i ∈ mid, i.passes k := by
  constructor
  · intro h
    induction items with
    | nil => cases h
    | cons i is ih =>
      -- an item that is passed over is one more in front
      have hlater : entryIn k is = some v → i.passes k →
          ∃ mid post, i :: is = mid ++ .entry k v :: post ∧ ∀ i ∈ mid, i.passes k := by
        intro his hi
        obtain ⟨mid, post, rfl, hmid⟩ := ih his
        exact ⟨i :: mid, post, rfl, List.forall_mem_cons.mpr ⟨hi, hmid⟩⟩
      cases i with
      | header s => cases h
      | entry k' w =>
        rw [entryIn] at h
        by_cases hk : k' = k
        · rw [if_pos hk] at h
          obtain rfl := Option.some.inj h
          exact ⟨[], is, hk ▸ rfl, List.forall_mem_nil _⟩
        · rw [if_neg hk] at h
          exact hlater h (decide_eq_true hk)
      | remark => exact hlater h rfl
  · rintro ⟨mid, post, rfl, hmid⟩
    induction mid with
    | nil => exact if_pos rfl
    | cons i mid ih =>
      rw [List.forall_mem_cons] at hmid
      cases i with
      | header s => exact absurd hmid.1 Bool.false_ne_true
      | entry k' w => exact (if_neg (of_decide_eq_true hmid.1)).trans (ih hmid.2)
      | remark => exact ih hmid.2

/-- **Where a value stands**: in the first entry of its key, in the first section of its name. -/
theorem lookup_eq_some_iff {s : σ} {k : κ} {v : ν} {items : List (Item σ κ ν)} :
    lookup s k items = some v ↔
      ∃ pre mid post, items = pre ++ .header s :: (mid ++ .entry k v :: post) ∧
        .header s ∉ pre ∧ ∀ i ∈ mid, i.passes k := by
  rw [lookup, Option.bind_eq_some_iff]
  constructor
  · rintro ⟨is, hafter, hentry⟩
    obtain ⟨pre, rfl, hpre⟩ := afterSection_eq_some_iff.mp hafter
    obtain ⟨mid, post, rfl, hmid⟩ := entryIn_eq_some_iff.mp hentry
    exact ⟨pre, mid, post, rfl, hpre, hmid⟩
  · rintro ⟨pre, mid, post, rfl, hpre, hmid⟩
    exact ⟨_, afterSection_append hpre _, entryIn_eq_some_iff.mpr ⟨mid, post, rfl, hmid⟩⟩

omit [DecidableEq σ] in
theorem overwrite_append {k : κ} {pre : List (Item σ κ ν)} (h : ∀ i ∈ pre, i.passes k) (v w : ν)
    (post : List (Item σ κ ν)) :
    overwrite k v (pre ++ .entry k w :: post) = some (pre ++ .entry k v :: post) := by
  induction pre with
  | nil => simp [overwrite]
  | cons i is ih =>
    rw [List.forall_mem_cons] at h
    cases i with
    | header s => exact absurd h.1 Bool.false_ne_true
    | entry k' v' =>
      have hne : k' ≠ k := of_decide_eq_true h.1
      rw [List.cons_append, overwrite, if_neg hne, ih h.2, Option.map_some, List.cons_append]
    | remark => rw [List.cons_append, overwrite, ih h.2, Option.map_some, List.cons_append]

/-! ## Setting a value -/

omit [DecidableEq σ] in
theorem overwrite_eq_none_iff {k : κ} {v : ν} {items : List (Item σ κ ν)} :
    overwrite k v items = none ↔ entryIn k items = none := by
  induction items with
  | nil => simp [overwrite, entryIn]
  | cons i is ih =>
    cases i with
    | header s => simp [overwrite, entryIn]
    | entry k' v' => by_cases h : k' = k <;> simp [overwrite, entryIn, h, ih]
    | remark => simp [overwrite, entryIn, ih]

omit [DecidableEq σ] in
theorem entryIn_of_overwrite {k k' : κ} {v : ν} {items items' : List (Item σ κ ν)}
    (h : overwrite k v items = some items') :
    entryIn k' items' = if k' = k then some v else entryIn k' items := by
  induction items generalizing items' with
  | nil => cases h
  | cons i is ih =>
    cases i with
    | header s => cases h
    | entry j w =>
      by_cases hj : j = k
      · subst hj
        obtain rfl : .entry j v :: is = items' := by simpa [overwrite] using h
        by_cases hk : k' = j <;> simp [entryIn, hk, eq_comm]
      · simp only [overwrite, if_neg hj, Option.map_eq_some_iff] at h
        obtain ⟨is', his, rfl⟩ := h
        have := ih his
        by_cases hk : j = k'
        · subst hk
          simp [entryIn, hj]
        · simp [entryIn, hk, this]
    | remark =>
      obtain ⟨is', his, rfl⟩ := Option.map_eq_some_iff.mp h
      simp only [entryIn, ih his]

omit [DecidableEq σ] in
theorem entryIn_setEntry (k k' : κ) (v : ν) (items : List (Item σ κ ν)) :
    entryIn k' (setEntry k v items) = if k' = k then some v else entryIn k' items := by
  rw [setEntry]
  cases h : overwrite k v items with
  | none => by_cases hk : k = k' <;> simp [entryIn, hk, eq_comm]
  | some items' => exact entryIn_of_overwrite h

theorem afterSection_overwrite {s : σ} {k : κ} {v : ν} {items items' : List (Item σ κ ν)}
    (h : overwrite k v items = some items') : afterSection s items' = afterSection s items := by
  induction items generalizing items' with
  | nil => cases h
  | cons i is ih =>
    cases i with
    | header s => cases h
    | entry j w =>
      by_cases hj : j = k
      · obtain rfl : .entry k v :: is = items' := by simpa [overwrite, hj] using h
        rfl
      · simp only [overwrite, if_neg hj, Option.map_eq_some_iff] at h
        obtain ⟨is', his, rfl⟩ := h
        simp only [afterSection, ih his]
    | remark =>
      obtain ⟨is', his, rfl⟩ := Option.map_eq_some_iff.mp h
      simp only [afterSection, ih his]

theorem afterSection_setEntry (s : σ) (k : κ) (v : ν) (items : List (Item σ κ ν)) :
    afterSection s (setEntry k v items) = afterSection s items := by
  rw [setEntry]
  cases h : overwrite k v items with
  | none => rfl
  | some items' => exact afterSection_overwrite h

theorem setIn_eq_none_iff {s : σ} {k : κ} {v : ν} {items : List (Item σ κ ν)} :
    setIn s k v items = none ↔ afterSection s items = none := by
  induction items with
  | nil => simp [setIn, afterSection]
  | cons i is ih =>
    cases i with
    | header s' => by_cases h : s' = s <;> simp [setIn, afterSection, h, ih]
    | entry k' v' => simp [setIn, afterSection, ih]
    | remark => simp [setIn, afterSection, ih]

/-- The entries before the first header are kept. -/
theorem entryIn_of_setIn {s : σ} {k k' : κ} {v : ν} {items items' : List (Item σ κ ν)}
    (h : setIn s k v items = some items') : entryIn k' items' = entryIn k' items := by
  induction items generalizing items' with
  | nil => cases h
  | cons i is ih =>
    cases i with
    | header t =>
      by_cases ht : t = s
      · obtain rfl : .header t :: setEntry k v is = items' := by simpa [setIn, ht] using h
        rfl
      · simp only [setIn, if_neg ht, Option.map_eq_some_iff] at h
        obtain ⟨is', -, rfl⟩ := h
        rfl
    | entry j w =>
      obtain ⟨is', his, rfl⟩ := Option.map_eq_some_iff.mp h
      simp [entryIn, ih his]
    | remark =>
      obtain ⟨is', his, rfl⟩ := Option.map_eq_some_iff.mp h
      simp only [entryIn, ih his]

theorem lookup_of_setIn {s s' : σ} {k k' : κ} {v : ν} {items items' : List (Item σ κ ν)}
    (h : setIn s k v items = some items') :
    lookup s' k' items' = if s' = s ∧ k' = k then some v else lookup s' k' items := by
  induction items generalizing items' with
  | nil => cases h
  | cons i is ih =>
    cases i with
    | header t =>
      -- the entry is set behind the header of its section, and any other header is passed by
      by_cases ht : t = s
      · subst ht
        obtain rfl : .header t :: setEntry k v is = items' := by simpa [setIn] using h
        by_cases hs : t = s'
        · subst hs
          simp [lookup, afterSection, entryIn_setEntry]
        · simp [lookup, afterSection, hs, Ne.symm hs, afterSection_setEntry]
      · simp only [setIn, if_neg ht, Option.map_eq_some_iff] at h
        obtain ⟨is', his, rfl⟩ := h
        by_cases hs : t = s'
        · subst hs
          simp [lookup, afterSection, ht, entryIn_of_setIn his]
        · simpa [lookup, afterSection, hs] using ih his
    | entry j w =>
      obtain ⟨is', his, rfl⟩ := Option.map_eq_some_iff.mp h
      simpa only [lookup, afterSection] using ih his
    | remark =>
      obtain ⟨is', his, rfl⟩ := Option.map_eq_some_iff.mp h
      simpa only [lookup, afterSection] using ih his

theorem set_of_not_mem {s : σ} {items : List (Item σ κ ν)} (h : .header s ∉ items) (k : κ)
    (v : ν) : set s k v items = .header s :: .entry k v :: items := by
  rw [set, setIn_eq_none_iff.mpr (afterSection_of_not_mem h), Option.getD_none]

theorem set_append {s : σ} {pre : List (Item σ κ ν)} (h : .header s ∉ pre) (k : κ) (v : ν)
    (post : List (Item σ κ ν)) :
    set s k v (pre ++ .header s :: post) = pre ++ .header s :: setEntry k v post := by
  rw [set, setIn_append h, Option.getD_some]

omit [DecidableEq σ] in
theorem setEntry_of_entryIn_eq_none {k : κ} {items : List (Item σ κ ν)}
    (h : entryIn k items = none) (v : ν) : setEntry k v items = .entry k v :: items := by
  rw [setEntry, overwrite_eq_none_iff.mpr h, Option.getD_none]

omit [DecidableEq σ] in
theorem setEntry_append {k : κ} {pre : List (Item σ κ ν)} (h : ∀ i ∈ pre, i.passes k) (v w : ν)
    (post : List (Item σ κ ν)) :
    setEntry k v (pre ++ .entry k w :: post) = pre ++ .entry k v :: post := by
  rw [setEntry, overwrite_append h, Option.getD_some]

/-- No entry stands before the first header. -/
def NoOrphans (items : List (Item σ κ ν)) : Prop := ∀ k, entryIn k items = none

/-- **Setting a value updates the map** at its section and key, and nowhere else. -/
theorem lookup_set {items : List (Item σ κ ν)} (ho : NoOrphans items) (s s' : σ) (k k' : κ)
    (v : ν) :
    lookup s' k' (set s k v items) =
      if s' = s ∧ k' = k then some v else lookup s' k' items := by
  rw [set]
  cases h : setIn s k v items with
  | some items' => exact lookup_of_setIn h
  | none =>
    have hs := setIn_eq_none_iff.mp h
    by_cases hs' : s = s'
    · subst hs'
      by_cases hk : k = k' <;> simp [lookup, afterSection, entryIn, hs, ho k', hk, eq_comm]
    · simp [lookup, afterSection, hs', Ne.symm hs']

theorem noOrphans_set {items : List (Item σ κ ν)} (ho : NoOrphans items) (s : σ) (k : κ)
    (v : ν) : NoOrphans (set s k v items) := by
  intro k'
  rw [set]
  cases h : setIn s k v items with
  | some items' => exact (entryIn_of_setIn h).trans (ho k')
  | none => rfl

end Sections
