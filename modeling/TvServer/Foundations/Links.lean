import Mathlib.Data.List.Nodup
import Mathlib.Logic.Function.Basic

/-!
# Linked lists in a heap

A singly linked list is a number of nodes in a heap, each with its data and a pointer to the next
node. The list at a pointer is what one meets by following the pointers up to the null pointer; a
part of a list ends at some other pointer. An edit changes a few nodes, and the parts of the list
without these nodes stay what they are.

## Main definitions

* `Node`, `Heap`: nodes with a next pointer, by their addresses
* `Seg h p nodes q`: following the pointers from `p` to `q` one meets the nodes given
* `IsList h p nodes`: the list at `p`, up to the null pointer
* `walk`: the nodes of a list, by a loop that follows the pointers
* `free`, `setNext`, `setData`: deleting a list, and setting a field of a node
* `linkLast`: a node is linked behind the last one, which a pointer is kept to

## Main results

* `IsList.unique`, `IsList.nodup`: the nodes of a list are determined, and different
* `IsList.walk_eq`: the loop meets the nodes of the list
* `IsList.insertFirst`, `IsList.insertAfter`, `IsList.linkLast`: a node is linked into a list
* `IsList.setData`: the data of a node of a list is changed
-/

namespace Links

structure Node (ι α : Type*) where
  data : α
  next : Option ι

/-- The nodes by their addresses; there is none at an address that is not allocated. -/
abbrev Heap (ι α : Type*) := ι → Option (Node ι α)

variable {ι α : Type*}

/-- Following the pointers from one pointer to another, one meets the nodes given. -/
def Seg (h : Heap ι α) : Option ι → List (ι × α) → Option ι → Prop
  | p, [], q => p = q
  | p, (a, d) :: nodes, q => p = some a ∧ ∃ r, h a = some ⟨d, r⟩ ∧ Seg h r nodes q

/-- The nodes of the list at a pointer. -/
def IsList (h : Heap ι α) (p : Option ι) (nodes : List (ι × α)) : Prop := Seg h p nodes none

/-- A loop that follows the pointers, for a number of rounds at most. -/
def walk (h : Heap ι α) : ℕ → Option ι → List (ι × α)
  | 0, _ => []
  | _ + 1, none => []
  | n + 1, some a =>
    match h a with
    | none => []
    | some node => (a, node.data) :: walk h n node.next

section Edits

variable [DecidableEq ι]

/-- A new node at an address. -/
def alloc (h : Heap ι α) (a : ι) (data : α) : Heap ι α := Function.update h a (some ⟨data, none⟩)

/-- Set the pointer of a node; there is no result where there is no node. -/
def setNext (h : Heap ι α) (a : ι) (next : Option ι) : Option (Heap ι α) :=
  (h a).map fun node => Function.update h a (some { node with next := next })

/-- Change the data of a node. -/
def setData (h : Heap ι α) (a : ι) (f : α → α) : Option (Heap ι α) :=
  (h a).map fun node => Function.update h a (some { node with data := f node.data })

/-- Link a node behind the last one of a list, or make it the first one: the heap, and the pointer
to the list. -/
def linkLast (h : Heap ι α) (first last : Option ι) (a : ι) : Option (Heap ι α × Option ι) :=
  match first with
  | none => some (h, some a)
  | some _ => last.bind fun b => (setNext h b (some a)).map fun h => (h, first)

/-- Delete the nodes of a list, the next one being read before its node is deleted. -/
def free (h : Heap ι α) : ℕ → Option ι → Heap ι α
  | 0, _ => h
  | _ + 1, none => h
  | n + 1, some a =>
    match h a with
    | none => h
    | some node => free (Function.update h a none) n node.next

end Edits

variable {h h' : Heap ι α} {p q : Option ι}

/-! ## Following the pointers -/

@[simp] theorem seg_nil : Seg h p [] q ↔ p = q := Iff.rfl

@[simp] theorem seg_cons {a : ι} {d : α} {nodes : List (ι × α)} :
    Seg h p ((a, d) :: nodes) q ↔ p = some a ∧ ∃ r, h a = some ⟨d, r⟩ ∧ Seg h r nodes q := Iff.rfl

/-- A part of a list is cut in two at the pointer in between. -/
theorem seg_append {xs ys : List (ι × α)} :
    Seg h p (xs ++ ys) q ↔ ∃ r, Seg h p xs r ∧ Seg h r ys q := by
  induction xs generalizing p with
  | nil => simp
  | cons x xs ih =>
    obtain ⟨a, d⟩ := x
    constructor
    · rintro ⟨rfl, s, hs, hrest⟩
      obtain ⟨r, hxs, hys⟩ := ih.mp hrest
      exact ⟨r, ⟨rfl, s, hs, hxs⟩, hys⟩
    · rintro ⟨r, ⟨rfl, s, hs, hxs⟩, hys⟩
      exact ⟨rfl, s, hs, ih.mpr ⟨r, hxs, hys⟩⟩

/-- **Frame.** A part of a list is where it was when its nodes are. -/
theorem Seg.congr {nodes : List (ι × α)} (hseg : Seg h p nodes q)
    (heq : ∀ a ∈ nodes.map Prod.fst, h' a = h a) : Seg h' p nodes q := by
  induction nodes generalizing p with
  | nil => exact hseg
  | cons x nodes ih =>
    obtain ⟨a, d⟩ := x
    obtain ⟨rfl, r, hr, hrest⟩ := hseg
    rw [List.map_cons, List.forall_mem_cons] at heq
    exact ⟨rfl, r, heq.1.trans hr, ih hrest heq.2⟩

theorem Seg.node_of_mem {nodes : List (ι × α)} (hseg : Seg h p nodes q) {a : ι} {d : α}
    (hmem : (a, d) ∈ nodes) : ∃ r, h a = some ⟨d, r⟩ := by
  obtain ⟨pre, post, rfl⟩ := List.append_of_mem hmem
  obtain ⟨s, -, -, r, hr, -⟩ := seg_append.mp hseg
  exact ⟨r, hr⟩

/-- A node of a list, and the list behind it. -/
theorem IsList.split {pre post : List (ι × α)} {a : ι} {d : α}
    (hl : IsList h p (pre ++ (a, d) :: post)) :
    Seg h p pre (some a) ∧ ∃ r, h a = some ⟨d, r⟩ ∧ IsList h r post := by
  obtain ⟨s, hpre, rfl, hr⟩ := seg_append.mp hl
  exact ⟨hpre, hr⟩

/-- **The nodes of a list are determined** by the pointer to it. -/
theorem IsList.unique {xs ys : List (ι × α)} (hx : IsList h p xs) (hy : IsList h p ys) :
    xs = ys := by
  induction xs generalizing p ys with
  | nil =>
    obtain rfl : p = none := hx
    cases ys with
    | nil => rfl
    | cons y ys => exact absurd hy.1 (by simp)
  | cons x xs ih =>
    obtain ⟨a, d⟩ := x
    obtain ⟨rfl, r, hr, hxs⟩ := hx
    rcases ys with _ | ⟨⟨b, e⟩, ys⟩
    · exact absurd hy (by simp [IsList])
    · obtain ⟨hab, s, hs, hys⟩ := hy
      obtain rfl := Option.some.inj hab
      obtain ⟨rfl, rfl⟩ : d = e ∧ r = s := by simpa using hr.symm.trans hs
      exact congrArg _ (ih hxs hys)

/-- **The nodes of a list are different**: one that is met again would be met forever. -/
theorem IsList.nodup {nodes : List (ι × α)} (hl : IsList h p nodes) :
    (nodes.map Prod.fst).Nodup := by
  induction nodes generalizing p with
  | nil => exact List.nodup_nil
  | cons x nodes ih =>
    obtain ⟨a, d⟩ := x
    obtain ⟨rfl, r, hr, hrest⟩ := hl
    refine List.nodup_cons.mpr ⟨fun hmem => ?_, ih hrest⟩
    obtain ⟨⟨b, e⟩, hb, rfl⟩ := List.mem_map.mp hmem
    obtain ⟨pre, post, rfl⟩ := List.append_of_mem hb
    -- the list at the first meeting is the list at the second one, which is shorter
    obtain ⟨-, hagain⟩ := IsList.split hrest
    have hfirst : IsList h (some b) ((b, d) :: (pre ++ (b, e) :: post)) := ⟨rfl, r, hr, hrest⟩
    have hsecond : IsList h (some b) ((b, e) :: post) := ⟨rfl, hagain⟩
    have hlen := congrArg List.length (hfirst.unique hsecond)
    simp only [List.length_cons, List.length_append] at hlen
    omega

/-- The nodes in front of one and behind it are other ones. -/
theorem IsList.ne_of_split {pre post : List (ι × α)} {a : ι} {d : α}
    (hl : IsList h p (pre ++ (a, d) :: post)) :
    (∀ b ∈ pre.map Prod.fst, b ≠ a) ∧ ∀ b ∈ post.map Prod.fst, b ≠ a := by
  have hnd := hl.nodup
  rw [List.map_append, List.map_cons, List.nodup_append, List.nodup_cons] at hnd
  obtain ⟨-, ⟨hpost, -⟩, hpre⟩ := hnd
  exact ⟨fun b hb => hpre b hb a List.mem_cons_self, fun b hb he => hpost (he ▸ hb)⟩

/-- **The loop meets the nodes of the list**, when it has rounds enough. -/
theorem IsList.walk_eq {nodes : List (ι × α)} (hl : IsList h p nodes) {n : ℕ}
    (hn : nodes.length ≤ n) : walk h n p = nodes := by
  induction nodes generalizing p n with
  | nil =>
    obtain rfl : p = none := hl
    cases n <;> rfl
  | cons x nodes ih =>
    obtain ⟨a, d⟩ := x
    obtain ⟨rfl, r, hr, hrest⟩ := hl
    obtain ⟨n, rfl⟩ := Nat.exists_eq_succ_of_ne_zero (Nat.ne_of_gt (Nat.zero_lt_of_lt hn))
    have hwalk := ih hrest (Nat.le_of_succ_le_succ hn)
    simp only [walk, hr, hwalk]

/-! ## Edits -/

variable [DecidableEq ι]

/-- A part of a list in which a node is written that is not one of its own. -/
theorem Seg.update {nodes : List (ι × α)} (hseg : Seg h p nodes q) {a : ι}
    (ha : ∀ b ∈ nodes.map Prod.fst, b ≠ a) (node : Option (Node ι α)) :
    Seg (Function.update h a node) p nodes q :=
  hseg.congr fun b hb => Function.update_of_ne (ha b hb) node h

/-- A new node does not disturb a list. -/
theorem IsList.alloc {nodes : List (ι × α)} (hl : IsList h p nodes) {a : ι}
    (ha : ∀ b ∈ nodes.map Prod.fst, b ≠ a) (d : α) : IsList (alloc h a d) p nodes :=
  Seg.update hl ha _

theorem alloc_self (h : Heap ι α) (a : ι) (d : α) : Links.alloc h a d a = some ⟨d, none⟩ :=
  Function.update_self a _ h

/-- A node is linked in front of a list. -/
theorem IsList.insertFirst {nodes : List (ι × α)} (hl : IsList h p nodes) {a : ι} {d : α}
    {r : Option ι} (hnode : h a = some ⟨d, r⟩) (ha : ∀ b ∈ nodes.map Prod.fst, b ≠ a) :
    ∃ h', setNext h a p = some h' ∧ IsList h' (some a) ((a, d) :: nodes) := by
  refine ⟨_, by rw [setNext, hnode, Option.map_some], rfl, p, Function.update_self a _ h, ?_⟩
  exact Seg.update hl ha _

/-- **A node is linked behind another one**: the pointer of this one is set to it, and its own to
where that one pointed. -/
theorem IsList.insertAfter {pre post : List (ι × α)} {a b : ι} {d e : α} {r : Option ι}
    (hl : IsList h p (pre ++ (a, d) :: post)) (hnode : h b = some ⟨e, r⟩)
    (hb : ∀ c ∈ (pre ++ (a, d) :: post).map Prod.fst, c ≠ b) :
    ∃ s h₁ h₂, h a = some ⟨d, s⟩ ∧ setNext h a (some b) = some h₁ ∧ setNext h₁ b s = some h₂ ∧
      IsList h₂ p (pre ++ (a, d) :: (b, e) :: post) := by
  obtain ⟨hpre, s, hs, hpost⟩ := hl.split
  obtain ⟨hnepre, hnepost⟩ := hl.ne_of_split
  rw [List.map_append, List.map_cons] at hb
  have hbpre : ∀ c ∈ pre.map Prod.fst, c ≠ b := fun c hc => hb c (List.mem_append_left _ hc)
  have hbpost : ∀ c ∈ post.map Prod.fst, c ≠ b := fun c hc =>
    hb c (List.mem_append_right _ (List.mem_cons_of_mem _ hc))
  have hab : a ≠ b := hb a (List.mem_append_right _ List.mem_cons_self)
  let h₁ := Function.update h a (some ⟨d, some b⟩)
  let h₂ := Function.update h₁ b (some ⟨e, s⟩)
  have hnode₁ : h₁ b = some ⟨e, r⟩ := (Function.update_of_ne hab.symm _ h).trans hnode
  have hnode₂ : h₂ a = some ⟨d, some b⟩ :=
    (Function.update_of_ne hab _ h₁).trans (Function.update_self a _ h)
  refine ⟨s, h₁, h₂, hs, by rw [setNext, hs]; rfl, by rw [setNext, hnode₁]; rfl, ?_⟩
  exact seg_append.mpr ⟨some a, (hpre.update hnepre _).update hbpre _, rfl, some b, hnode₂, rfl, s,
    Function.update_self b _ h₁, (Seg.update hpost hnepost _).update hbpost _⟩

/-- **A node is linked behind the last one**, given the pointer to that one. -/
theorem IsList.linkLast {nodes : List (ι × α)} {b : ι} {e : α} (hl : IsList h p nodes)
    (hnode : h b = some ⟨e, none⟩) (hb : ∀ c ∈ nodes.map Prod.fst, c ≠ b) :
    ∃ h' p', linkLast h p (nodes.getLast?.map Prod.fst) b = some (h', p') ∧
      IsList h' p' (nodes ++ [(b, e)]) := by
  rcases List.eq_nil_or_concat nodes with rfl | ⟨pre, ⟨a, d⟩, rfl⟩
  · obtain rfl : p = none := hl
    exact ⟨h, some b, rfl, rfl, none, hnode, rfl⟩
  · rw [List.concat_eq_append] at hl hb ⊢
    obtain ⟨hpre, s, hs, -⟩ := hl.split
    have hab : a ≠ b := hb a (by simp)
    -- the list is not empty, so that its first pointer is not null
    obtain ⟨c, rfl⟩ : ∃ c, p = some c := by
      rcases pre with _ | ⟨x, pre⟩
      · exact ⟨a, hpre⟩
      · exact ⟨x.1, hpre.1⟩
    refine ⟨Function.update h a (some ⟨d, some b⟩), some c, ?_, ?_⟩
    · simp [Links.linkLast, setNext, hs]
    · rw [List.append_assoc]
      refine seg_append.mpr ⟨some a, hpre.update hl.ne_of_split.1 _, rfl, some b, ?_, rfl, none, ?_,
        rfl⟩
      · exact Function.update_self a _ h
      · exact (Function.update_of_ne hab.symm _ h).trans hnode

/-- **A new node** is linked behind the last one. -/
theorem IsList.allocLast {nodes : List (ι × α)} {b : ι} (hl : IsList h p nodes) (e : α)
    (hb : ∀ c ∈ nodes.map Prod.fst, c ≠ b) :
    ∃ h' p', Links.linkLast (Links.alloc h b e) p (nodes.getLast?.map Prod.fst) b =
        some (h', p') ∧
      IsList h' p' (nodes ++ [(b, e)]) :=
  (hl.alloc hb e).linkLast (alloc_self h b e) hb

/-- **The data of a node is changed**, and the list stays linked. -/
theorem IsList.setData {pre post : List (ι × α)} {a : ι} {d : α}
    (hl : IsList h p (pre ++ (a, d) :: post)) (f : α → α) :
    ∃ h', setData h a f = some h' ∧ IsList h' p (pre ++ (a, f d) :: post) := by
  obtain ⟨hpre, s, hs, hpost⟩ := hl.split
  obtain ⟨hnepre, hnepost⟩ := hl.ne_of_split
  refine ⟨_, by rw [Links.setData, hs, Option.map_some],
    seg_append.mpr ⟨some a, ?_, rfl, s, ?_, ?_⟩⟩
  · exact hpre.update hnepre _
  · exact Function.update_self a _ h
  · exact Seg.update hpost hnepost _

end Links
