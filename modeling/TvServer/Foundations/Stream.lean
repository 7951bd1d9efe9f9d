import Mathlib.Data.List.Infix

/-!
# Streams through a channel

A trace is the list of the actions of a channel, some of which take in elements and some of which
hand elements on. The channel relays if at every moment what was handed on is a prefix of what was
taken in. It does so if each action asks to hand on all that is pending, and hands on a part of that
from its start. A stream that is written to a file from its start replaces what the file had there,
and leaves what is behind.

## Main definitions

* `Relays inp out trace`: at every moment what is out is a prefix of what is in
* `AsksFrom inp out req pending trace`: each action asks for what is in and not out yet
* `writeAt content pos bytes`: a write to a file at a position
* `writeAll content pos pieces`: writes one behind the other
* `overwrite old new`: a file with something else at its start

## Main results

* `asksFrom_cons`, `asksFrom_append`: how traces are put together
* `AsksFrom.relays`: a channel in which each action asks for all relays
* `writeAll_eq`: the pieces of a stream are written as the stream
* `overwrite_eq_iff`: what the old content has to be for a target
* `sublists_prefix_iff`: when every part of a list is the start of another one
-/

namespace Stream

variable {A B : Type*} (inp out req : A → List B)

/-- At every moment what was handed on is a prefix of what was taken in. -/
def Relays (trace : List A) : Prop :=
  ∀ pre, pre <+: trace → pre.flatMap out <+: pre.flatMap inp

/-- Each action asks for what is pending: what was taken in by then, behind what was pending before,
is what was handed on with what the action asks for. -/
def AsksFrom (pending : List B) (trace : List A) : Prop :=
  ∀ pre a, pre ++ [a] <+: trace → pending ++ pre.flatMap inp = pre.flatMap out ++ req a

variable {inp out req}

theorem asksFrom_nil (pending : List B) : AsksFrom inp out req pending [] := by
  intro pre a hpre
  exact absurd (List.prefix_nil.mp hpre) (List.append_ne_nil_of_right_ne_nil pre (by simp))

/-- **One action asks** for all that is pending, and the others for what it leaves. -/
theorem asksFrom_cons {pending pending' : List B} {a : A} {t : List A} (hreq : req a = pending)
    (hleft : pending ++ inp a = out a ++ pending') (h : AsksFrom inp out req pending' t) :
    AsksFrom inp out req pending (a :: t) := by
  intro pre b hpre
  rcases pre with _ | ⟨c, q⟩
  · -- the first action
    obtain ⟨rfl, -⟩ := List.cons_prefix_cons.mp hpre
    exact (List.append_nil pending).trans hreq.symm
  · -- a later one: what the first one leaves is pending for it
    obtain ⟨rfl, hq⟩ := List.cons_prefix_cons.mp hpre
    rw [List.flatMap_cons, List.flatMap_cons, ← List.append_assoc, hleft, List.append_assoc,
      h q b hq, List.append_assoc]

/-- **A trace that handed on everything** goes on with another one. -/
theorem asksFrom_append {pending : List B} {t₁ t₂ : List A} (h₁ : AsksFrom inp out req pending t₁)
    (hall : t₁.flatMap out = pending ++ t₁.flatMap inp) (h₂ : AsksFrom inp out req [] t₂) :
    AsksFrom inp out req pending (t₁ ++ t₂) := by
  intro pre a hpre
  rcases List.prefix_or_prefix_of_prefix hpre (List.prefix_append t₁ t₂) with hin | hout
  · -- an action of the first trace
    exact h₁ pre a hin
  rcases List.prefix_concat_iff.mp hout with rfl | ⟨q, rfl⟩
  · -- the last one of it
    exact h₁ pre a List.prefix_rfl
  · -- an action of the second trace: nothing is pending at its start
    rw [List.append_assoc] at hpre
    have hq : q.flatMap inp = q.flatMap out ++ req a :=
      h₂ q a ((List.prefix_append_right_inj t₁).mp hpre)
    rw [List.flatMap_append, List.flatMap_append, hall, hq]
    simp only [List.append_assoc]

/-- **A channel relays** if what an action hands on is a part of what it asks for. -/
theorem AsksFrom.relays {trace : List A} (h : AsksFrom inp out req [] trace)
    (hpart : ∀ a ∈ trace, out a <+: req a) : Relays inp out trace := by
  intro pre hpre
  rcases List.eq_nil_or_concat pre with rfl | ⟨q, a, rfl⟩
  · exact List.prefix_rfl
  · rw [List.concat_eq_append] at hpre ⊢
    have ha : out a <+: req a := hpart a (hpre.subset (List.mem_append_right q (by simp)))
    have hq : q.flatMap inp = q.flatMap out ++ req a := h q a hpre
    -- what the last action asks for is all that is left of what was taken in
    rw [List.flatMap_append, List.flatMap_append, hq, List.append_assoc]
    apply (List.prefix_append_right_inj _).mpr
    simpa using ha.trans (List.prefix_append (req a) (inp a))

/-! ## Writing to a file -/

/-- A write to a file at a position that is not behind its end. -/
def writeAt (content : List B) (pos : ℕ) (bytes : List B) : List B :=
  content.take pos ++ (bytes ++ content.drop (pos + bytes.length))

/-- Writes one behind the other, from a position on. -/
def writeAll : List B → ℕ → List (List B) → List B
  | content, _, [] => content
  | content, pos, bytes :: pieces =>
    writeAll (writeAt content pos bytes) (pos + bytes.length) pieces

/-- A file with something else at its start. -/
def overwrite (old new : List B) : List B := new ++ old.drop new.length

/-- The pieces of a stream are written one behind the other. -/
theorem writeAll_append (done : List B) (pieces : List (List B)) (old : List B) :
    writeAll (done ++ old) done.length pieces = done ++ overwrite old pieces.flatten := by
  induction pieces generalizing done old with
  | nil => rfl
  | cons bytes pieces ih =>
    have hwrite : writeAt (done ++ old) done.length bytes =
        (done ++ bytes) ++ old.drop bytes.length := by
      rw [writeAt, List.take_left' rfl, ← List.drop_drop, List.drop_left' rfl, List.append_assoc]
    rw [writeAll, hwrite, ← List.length_append, ih, overwrite, overwrite, List.flatten_cons,
      List.drop_drop, List.length_append, List.append_assoc, List.append_assoc]

/-- **The pieces of a stream** are written to a file as the stream. -/
theorem writeAll_eq (pieces : List (List B)) (old : List B) :
    writeAll old 0 pieces = overwrite old pieces.flatten := writeAll_append [] pieces old

/-- **A target comes of the new content** if that is its start, and the old content has the rest
behind. -/
theorem overwrite_eq_iff (old new target : List B) : overwrite old new = target ↔
    new <+: target ∧ old.drop new.length = target.drop new.length := by
  constructor
  · rintro rfl
    exact ⟨List.prefix_append _ _, (List.drop_left' rfl).symm⟩
  · rintro ⟨⟨rest, rfl⟩, hrest⟩
    rw [overwrite, hrest, List.drop_left' rfl]

/-- **Every part of a list** is the start of another one exactly if the list itself is, and its
elements are all the same. -/
theorem sublists_prefix_iff (xs target : List B) : (∀ ys, ys.Sublist xs → ys <+: target) ↔
    (∀ x ∈ xs, ∀ y ∈ xs, x = y) ∧ xs <+: target := by
  constructor
  · intro h
    refine ⟨fun x hx y hy => ?_, h xs (List.Sublist.refl xs)⟩
    -- each of the elements alone is the start
    obtain ⟨tx, rfl⟩ := h [x] (List.singleton_sublist.mpr hx)
    obtain ⟨ty, hty⟩ := h [y] (List.singleton_sublist.mpr hy)
    exact (List.cons.inj hty).1.symm
  · rintro ⟨hall, hpfx⟩ ys hys
    rcases xs with _ | ⟨b, bs⟩
    · rw [List.sublist_nil.mp hys]
      exact List.nil_prefix
    · have hxs : b :: bs = List.replicate (b :: bs).length b :=
        List.eq_replicate_of_mem fun x hx => hall x hx b List.mem_cons_self
      rw [hxs] at hys hpfx
      obtain ⟨n, hn, rfl⟩ := List.sublist_replicate_iff.mp hys
      have hshort : List.replicate n b <+: List.replicate (b :: bs).length b :=
        List.prefix_replicate_iff.mpr
          ⟨by rwa [List.length_replicate], by rw [List.length_replicate]⟩
      exact hshort.trans hpfx

end Stream
