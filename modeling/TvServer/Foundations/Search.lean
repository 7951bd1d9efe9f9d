import Mathlib.Data.List.Forall2
import Mathlib.Data.Option.Basic

/-!
# Searches in sectioned lists

A list is divided into sections by the elements that open one. A search has two stages: it looks
for the first opening element with some name, and then for the first element that is wanted, up
to the next opening element. Elements that neither open a section nor are wanted do not count.

## Main definitions

* `Query`: what a search goes by
* `Query.behind`, `Query.inSection`: the two stages
* `Query.find`: the element found

## Main results

* `find_eq_some_iff`: where a search stops
* `find_concat_eq_some_iff`: when one more element is found
* `find_map`: a search in the images is a search by the preimages of the predicates
* `find_filter`: elements that do not count
-/

namespace Search

/-- What a search goes by: the elements that open a section, those of them that have the name,
and the elements that are wanted. -/
structure Query (α : Type*) where
  opens : α → Bool
  named : α → Bool
  wanted : α → Bool

namespace Query

variable {α β : Type*} (q : Query α)

/-- The elements behind the first one that opens a section of the name. -/
def behind : List α → Option (List α)
  | [] => none
  | a :: l => if q.opens a && q.named a then some l else behind l

/-- The first wanted element before a section is opened. -/
def inSection : List α → Option α
  | [] => none
  | a :: l => if q.opens a then none else if q.wanted a then some a else inSection l

/-- The first wanted element in the first section of the name. -/
def find (l : List α) : Option α := (q.behind l).bind q.inSection

/-- The search for a name passes by an element. -/
def Misses (a : α) : Prop := q.opens a = true → q.named a = false

/-- The search for a wanted element passes by an element. -/
def Passes (a : α) : Prop := q.opens a = false ∧ q.wanted a = false

/-- The search comes to the end of a list in a section of the name. -/
def Leads (l : List α) : Prop := ∃ post, q.behind l = some post ∧ ∀ a ∈ post, q.Passes a

variable {q}

/-! ## The first stage -/

theorem behind_cons_of_misses {a : α} (h : q.Misses a) (l : List α) :
    q.behind (a :: l) = q.behind l := by
  have hmiss : ¬ (q.opens a && q.named a) = true := by
    rw [Bool.and_eq_true]
    rintro ⟨ho, hn⟩
    exact Bool.false_ne_true ((h ho).symm.trans hn)
  rw [behind, if_neg hmiss]

theorem behind_append {pre : List α} (h : ∀ a ∈ pre, q.Misses a) (l : List α) :
    q.behind (pre ++ l) = q.behind l := by
  induction pre with
  | nil => rfl
  | cons a pre ih =>
    rw [List.forall_mem_cons] at h
    rw [List.cons_append, behind_cons_of_misses h.1, ih h.2]

theorem behind_cons {a : α} (ho : q.opens a = true) (hn : q.named a = true) (l : List α) :
    q.behind (a :: l) = some l := by
  rw [behind, ho, hn]
  rfl

theorem behind_eq_none {l : List α} (h : ∀ a ∈ l, q.Misses a) : q.behind l = none := by
  have hl := behind_append h []
  rwa [List.append_nil] at hl

theorem behind_append_of_eq_some {l post : List α} (h : q.behind l = some post) (more : List α) :
    q.behind (l ++ more) = some (post ++ more) := by
  induction l with
  | nil => cases h
  | cons a l ih =>
    rw [behind] at h
    rw [List.cons_append, behind]
    split at h
    · rename_i hhit
      rw [if_pos hhit, Option.some.inj h]
    · rename_i hmiss
      rw [if_neg hmiss]
      exact ih h

/-- Where the first stage stops. -/
theorem behind_cases (l : List α) :
    (q.behind l = none ∧ ∀ a ∈ l, q.Misses a) ∨
    ∃ pre hdr post, l = pre ++ hdr :: post ∧ (∀ a ∈ pre, q.Misses a) ∧
      q.opens hdr = true ∧ q.named hdr = true ∧ q.behind l = some post := by
  induction l with
  | nil => exact .inl ⟨rfl, fun a ha => absurd ha List.not_mem_nil⟩
  | cons a l ih =>
    by_cases hhit : (q.opens a && q.named a) = true
    · have hopen := Bool.and_eq_true _ _ ▸ hhit
      exact .inr ⟨[], a, l, rfl, by simp, hopen.1, hopen.2, behind_cons hopen.1 hopen.2 l⟩
    · have hmiss : q.Misses a := fun ho => by simpa [ho] using hhit
      rw [behind, if_neg hhit]
      rcases ih with ⟨hnone, hall⟩ | ⟨pre, hdr, post, rfl, hpre, ho, hn, hsome⟩
      · exact .inl ⟨hnone, List.forall_mem_cons.mpr ⟨hmiss, hall⟩⟩
      · exact .inr ⟨a :: pre, hdr, post, rfl, List.forall_mem_cons.mpr ⟨hmiss, hpre⟩, ho, hn,
          hsome⟩

/-! ## The second stage -/

/-- A wanted element or one that opens a section stops the search, no other one. -/
theorem inSection_cons_of_passes {a : α} (h : q.Passes a) (l : List α) :
    q.inSection (a :: l) = q.inSection l := by
  rw [inSection, h.1, h.2]
  rfl

theorem inSection_append {pre : List α} (h : ∀ a ∈ pre, q.Passes a) (l : List α) :
    q.inSection (pre ++ l) = q.inSection l := by
  induction pre with
  | nil => rfl
  | cons a pre ih =>
    rw [List.forall_mem_cons] at h
    rw [List.cons_append, inSection_cons_of_passes h.1, ih h.2]

theorem inSection_cons {a : α} (ho : q.opens a = false) (hw : q.wanted a = true) (l : List α) :
    q.inSection (a :: l) = some a := by
  rw [inSection, ho, hw]
  rfl

theorem inSection_cons_of_opens {a : α} (ho : q.opens a = true) (l : List α) :
    q.inSection (a :: l) = none := by
  rw [inSection, ho]
  rfl

theorem inSection_append_of_not_opens {pre : List α} (h : ∀ a ∈ pre, q.opens a = false)
    (l : List α) : q.inSection (pre ++ l) = (q.inSection pre).or (q.inSection l) := by
  induction pre with
  | nil => rfl
  | cons a pre ih =>
    rw [List.forall_mem_cons] at h
    rw [List.cons_append, inSection, inSection, h.1, ih h.2, if_neg Bool.false_ne_true,
      if_neg Bool.false_ne_true]
    split <;> rfl

/-- Where the second stage stops: at a wanted element, or at the end of the section. -/
theorem inSection_cases (l : List α) :
    (∃ pre a post, l = pre ++ a :: post ∧ (∀ b ∈ pre, q.Passes b) ∧ q.opens a = false ∧
      q.wanted a = true ∧ q.inSection l = some a) ∨
    q.inSection l = none ∧ ∃ pre post, l = pre ++ post ∧ (∀ b ∈ pre, q.Passes b) ∧
      ∀ a ∈ post.head?, q.opens a = true := by
  induction l with
  | nil => exact .inr ⟨rfl, [], [], rfl, by simp, by simp⟩
  | cons a l ih =>
    cases ho : q.opens a with
    | true =>
      exact .inr ⟨inSection_cons_of_opens ho l, [], a :: l, rfl, by simp, by simp [ho]⟩
    | false =>
      cases hw : q.wanted a with
      | true => exact .inl ⟨[], a, l, rfl, by simp, ho, hw, inSection_cons ho hw l⟩
      | false =>
        have hpass : q.Passes a := ⟨ho, hw⟩
        rw [inSection_cons_of_passes hpass]
        rcases ih with ⟨pre, b, post, rfl, hpre, hb⟩ | ⟨hnone, pre, post, rfl, hpre, hpost⟩
        · exact .inl ⟨a :: pre, b, post, rfl, List.forall_mem_cons.mpr ⟨hpass, hpre⟩, hb⟩
        · exact .inr ⟨hnone, a :: pre, post, rfl, List.forall_mem_cons.mpr ⟨hpass, hpre⟩, hpost⟩

/-! ## Both stages -/

theorem find_append {pre : List α} (h : ∀ a ∈ pre, q.Misses a) (l : List α) :
    q.find (pre ++ l) = q.find l := by
  rw [find, behind_append h, find]

theorem find_cons {a : α} (ho : q.opens a = true) (hn : q.named a = true) (l : List α) :
    q.find (a :: l) = q.inSection l := by
  rw [find, behind_cons ho hn]
  rfl

/-- An element that opens no section of the name does not count in front. -/
theorem find_cons_of_misses {a : α} (h : q.Misses a) (l : List α) :
    q.find (a :: l) = q.find l := by
  rw [find, behind_cons_of_misses h, find]

/-- **Where a search stops.** -/
theorem find_eq_some_iff {l : List α} {a : α} :
    q.find l = some a ↔ ∃ pre hdr mid post, l = pre ++ hdr :: (mid ++ a :: post) ∧
      (∀ b ∈ pre, q.Misses b) ∧ q.opens hdr = true ∧ q.named hdr = true ∧
      (∀ b ∈ mid, q.Passes b) ∧ q.opens a = false ∧ q.wanted a = true := by
  constructor
  · intro h
    rcases q.behind_cases l with ⟨hnone, -⟩ | ⟨pre, hdr, post, rfl, hpre, ho, hn, hsome⟩
    · rw [find, hnone] at h
      cases h
    · rw [find, hsome] at h
      rcases q.inSection_cases post with ⟨mid, b, post, rfl, hmid, hb, hw, hfound⟩ | ⟨hnone, -⟩
      · obtain rfl := Option.some.inj (hfound.symm.trans h)
        exact ⟨pre, hdr, mid, post, rfl, hpre, ho, hn, hmid, hb, hw⟩
      · exact absurd (hnone.symm.trans h) (by simp)
  · rintro ⟨pre, hdr, mid, post, rfl, hpre, ho, hn, hmid, hb, hw⟩
    rw [find_append hpre, find_cons ho hn, inSection_append hmid, inSection_cons hb hw]

/-- What is found is found also where more follows. -/
theorem find_append_of_eq_some {l : List α} {a : α} (h : q.find l = some a) (more : List α) :
    q.find (l ++ more) = some a := by
  obtain ⟨pre, hdr, mid, post, rfl, hpre, ho, hn, hmid, ha⟩ := find_eq_some_iff.mp h
  exact find_eq_some_iff.mpr ⟨pre, hdr, mid, post ++ more, by simp, hpre, ho, hn, hmid, ha⟩

theorem find_append_of_leads {l : List α} (h : q.Leads l) (more : List α) :
    q.find (l ++ more) = q.inSection more := by
  obtain ⟨post, hbehind, hpass⟩ := h
  rw [find, behind_append_of_eq_some hbehind, Option.bind_some, inSection_append hpass]

theorem find_eq_none_of_leads {l : List α} (h : q.Leads l) : q.find l = none := by
  have hnil := find_append_of_leads h []
  rwa [List.append_nil] at hnil

/-- **One more element is found** exactly if it is wanted and the search leads to it. -/
theorem find_concat_eq_some_iff {l : List α} (h : q.find l = none) {a b : α} :
    q.find (l ++ [a]) = some b ↔
      q.Leads l ∧ q.opens a = false ∧ q.wanted a = true ∧ a = b := by
  constructor
  · intro hfound
    rcases q.behind_cases l with ⟨-, hmiss⟩ | ⟨pre, hdr, post, rfl, hpre, ho, hn, hsome⟩
    · -- the last element may open the section, but nothing is behind it
      rw [find_append hmiss, find, behind] at hfound
      split at hfound <;> cases hfound
    · rw [find_append hpre, find_cons ho hn] at h
      rw [List.append_assoc, List.cons_append, find_append hpre, find_cons ho hn] at hfound
      rcases q.inSection_cases post with
        ⟨mid, c, rest, -, -, -, -, hc⟩ | ⟨-, mid, rest, rfl, hmid, hr⟩
      · cases h.symm.trans hc
      · rw [List.append_assoc, inSection_append hmid] at hfound
        cases rest with
        | nil =>
          rw [List.append_nil] at hsome
          rw [List.nil_append, inSection] at hfound
          refine ⟨⟨mid, by rw [List.append_nil]; exact hsome, hmid⟩, ?_⟩
          split at hfound
          · cases hfound
          · rename_i hopen
            split at hfound
            · rename_i hwanted
              exact ⟨Bool.eq_false_iff.mpr hopen, hwanted, Option.some.inj hfound⟩
            · cases hfound
        | cons c rest =>
          rw [List.cons_append, inSection_cons_of_opens (hr c rfl)] at hfound
          cases hfound
  · rintro ⟨hleads, ho, hw, rfl⟩
    rw [find_append_of_leads hleads, inSection_cons ho hw]

/-- The first elements of a section do not count in a search that does not lead to it. -/
theorem find_congr_section {pre x y post : List α} {hdr : α}
    (ho : q.opens hdr = true) (hx : ∀ a ∈ x, q.opens a = false) (hy : ∀ a ∈ y, q.opens a = false)
    (h : (∀ a ∈ pre, q.Misses a) → q.named hdr = false) :
    q.find (pre ++ hdr :: (x ++ post)) = q.find (pre ++ hdr :: (y ++ post)) := by
  have hskip : ∀ z : List α, (∀ a ∈ z, q.opens a = false) → ∀ a ∈ z, q.Misses a :=
    fun z hz a ha hopen => absurd ((hz a ha).symm.trans hopen) Bool.false_ne_true
  have hstop : ∀ l tail tail' : List α, q.inSection (l ++ hdr :: tail) =
      q.inSection (l ++ hdr :: tail') := by
    intro l tail tail'
    induction l with
    | nil => exact (inSection_cons_of_opens ho _).trans (inSection_cons_of_opens ho _).symm
    | cons a l ih => rw [List.cons_append, List.cons_append, inSection, inSection, ih]
  rcases q.behind_cases pre with ⟨-, hpre⟩ | ⟨before, sec, after, rfl, hbefore, hsec, hn, -⟩
  · have hhdr : q.Misses hdr := fun _ => h hpre
    rw [find_append hpre, find_append hpre, find_cons_of_misses hhdr, find_cons_of_misses hhdr,
      find_append (hskip x hx), find_append (hskip y hy)]
  · -- an earlier section has the name, and ends in front of `hdr` at the latest
    simp only [List.append_assoc, List.cons_append]
    rw [find_append hbefore, find_append hbefore, find_cons hsec hn, find_cons hsec hn]
    exact hstop after _ _

/-! ## Images and elements that do not count -/

/-- The search by the preimages of the predicates. -/
def comap (q : Query β) (f : α → β) : Query α := ⟨q.opens ∘ f, q.named ∘ f, q.wanted ∘ f⟩

theorem inSection_map (q : Query β) (f : α → β) (l : List α) :
    q.inSection (l.map f) = ((q.comap f).inSection l).map f := by
  induction l with
  | nil => rfl
  | cons a l ih =>
    rw [List.map_cons, inSection, inSection, ih]
    show _ = ((if q.opens (f a) = true then none
      else if q.wanted (f a) = true then some a else (q.comap f).inSection l).map f)
    split
    · rfl
    · split <;> rfl

theorem behind_map (q : Query β) (f : α → β) (l : List α) :
    q.behind (l.map f) = ((q.comap f).behind l).map (List.map f) := by
  induction l with
  | nil => rfl
  | cons a l ih =>
    rw [List.map_cons, behind, behind, ih]
    show _ = ((if (q.opens (f a) && q.named (f a)) = true then some l
      else (q.comap f).behind l).map (List.map f))
    split <;> rfl

/-- **A search in the images** is a search by the preimages of the predicates. -/
theorem find_map (q : Query β) (f : α → β) (l : List α) :
    q.find (l.map f) = ((q.comap f).find l).map f := by
  rw [find, behind_map, find]
  cases (q.comap f).behind l with
  | none => rfl
  | some l => exact inSection_map q f l

/-- Searches in lists of related elements that the predicates do not tell apart. -/
theorem find_forall₂ {q' : Query β} {R : α → β → Prop}
    (ho : ∀ a b, R a b → q.opens a = q'.opens b)
    (hn : ∀ a b, R a b → q'.opens b = true → q.named a = q'.named b)
    (hw : ∀ a b, R a b → q'.opens b = false → q.wanted a = q'.wanted b)
    {l : List α} {l' : List β} (h : List.Forall₂ R l l') :
    Option.Rel R (q.find l) (q'.find l') := by
  have hsection : ∀ {l l'}, List.Forall₂ R l l' →
      Option.Rel R (q.inSection l) (q'.inSection l') := by
    intro l l' h
    induction h with
    | nil => exact .none
    | @cons a b l l' hab hl ih =>
      cases hopen : q'.opens b with
      | true =>
        rw [inSection_cons_of_opens hopen, inSection_cons_of_opens ((ho a b hab).trans hopen)]
        exact .none
      | false =>
        rw [inSection, inSection, ho a b hab, hw a b hab hopen, hopen, if_neg Bool.false_ne_true,
          if_neg Bool.false_ne_true]
        split
        · exact .some hab
        · exact ih
  induction h with
  | nil => exact .none
  | @cons a b l l' hab hl ih =>
    by_cases hhit : (q'.opens b && q'.named b) = true
    · have hopen := Bool.and_eq_true _ _ ▸ hhit
      rw [find_cons ((ho a b hab).trans hopen.1) ((hn a b hab hopen.1).trans hopen.2),
        find_cons hopen.1 hopen.2]
      exact hsection hl
    · have hmiss' : q'.Misses b := fun hb => by simpa [hb] using hhit
      have hmiss : q.Misses a := fun ha =>
        have hb := (ho a b hab).symm.trans ha
        (hn a b hab hb).trans (hmiss' hb)
      rw [find_cons_of_misses hmiss, find_cons_of_misses hmiss']
      exact ih

theorem inSection_congr {q' : Query α} {l : List α}
    (h : ∀ a ∈ l, q.opens a = q'.opens a ∧ q.wanted a = q'.wanted a) :
    q.inSection l = q'.inSection l := by
  induction l with
  | nil => rfl
  | cons a l ih =>
    rw [List.forall_mem_cons] at h
    rw [inSection, inSection, h.1.1, h.1.2, ih h.2]

theorem behind_congr {q' : Query α} {l : List α}
    (h : ∀ a ∈ l, q.opens a = q'.opens a ∧ q.named a = q'.named a) :
    q.behind l = q'.behind l := by
  induction l with
  | nil => rfl
  | cons a l ih =>
    rw [List.forall_mem_cons] at h
    rw [behind, behind, h.1.1, h.1.2, ih h.2]

/-- Elements that do not count may be left out. -/
theorem find_filter {p : α → Bool} (h : ∀ a, p a = false → q.Passes a) (l : List α) :
    q.find (l.filter p) = q.find l := by
  have hsection : ∀ l : List α, q.inSection (l.filter p) = q.inSection l := by
    intro l
    induction l with
    | nil => rfl
    | cons a l ih =>
      cases hp : p a with
      | true => rw [List.filter_cons_of_pos hp, inSection, inSection, ih]
      | false =>
        rw [List.filter_cons_of_neg (by simp [hp]), ih]
        exact (inSection_cons_of_passes (h a hp) l).symm
  induction l with
  | nil => rfl
  | cons a l ih =>
    cases hp : p a with
    | false =>
      have hmiss : q.Misses a := fun ho => absurd ((h a hp).1.symm.trans ho) (by simp)
      rw [List.filter_cons_of_neg (by simp [hp]), ih, find_cons_of_misses hmiss]
    | true =>
      rw [List.filter_cons_of_pos hp]
      by_cases hhit : (q.opens a && q.named a) = true
      · have hopen := Bool.and_eq_true _ _ ▸ hhit
        rw [find_cons hopen.1 hopen.2, find_cons hopen.1 hopen.2, hsection]
      · have hmiss : q.Misses a := fun ho => by simpa [ho] using hhit
        rw [find_cons_of_misses hmiss, find_cons_of_misses hmiss, ih]

/-- Lists that differ in elements that do not count give the same search. -/
theorem find_congr_filter {p : α → Bool} (h : ∀ a, p a = false → q.Passes a) {l l' : List α}
    (hl : l.filter p = l'.filter p) : q.find l = q.find l' := by
  rw [← find_filter h, hl, find_filter h]

end Query

end Search
