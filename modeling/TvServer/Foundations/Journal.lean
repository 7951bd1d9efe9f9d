import Mathlib.Data.List.Induction
import TvServer.Foundations.Machine

/-!
# Journals

A system that acts on its surroundings keeps a journal: the list of its actions, the latest one
at the end. What such a system last did to one of its surroundings is read off the journal, by a
function that gives the value an action leaves there, if it leaves any. Whether the system kept
to an order of its actions is read off the journal as well: every action of a disciplined journal
is allowed after the ones before it. A property that some actions bring about, and others end, holds
exactly if one of the first kind was done and none of the second kind since. A switch is thrown by
the actions that leave a truth value there, and its journal alternates where each of these throws it
over.

## Main definitions

* `lastOf f journal`: the value left by the last action that leaves one
* `Disciplined Allows journal`: every action is allowed after the ones before it
* `Since P Q journal`: an action of one kind was done, and none of another kind since
* `Alternates f journal`: every action that throws the switch throws it over

## Main results

* `lastOf_append`: the last value of a longer journal
* `lastOf_snoc`: the last value after one more action
* `exists_mem_of_lastOf`, `exists_split_of_lastOf`: an action that left the last value
* `disciplined_snoc`: discipline after one more action
* `since_snoc`, `run_iff_since`: properties that are brought about and ended
* `Alternates.count_eq`: between two actions that switch on, there is one more that switches off
  than there are others that switch on
-/

namespace Journal

variable {A V : Type*} (f : A → Option V)

/-- The value left by the last action that leaves one. -/
def lastOf (journal : List A) : Option V := (journal.filterMap f).getLast?

@[simp] theorem lastOf_nil : lastOf f [] = none := rfl

theorem lastOf_append (xs ys : List A) :
    lastOf f (xs ++ ys) = (lastOf f ys).or (lastOf f xs) := by
  rw [lastOf, lastOf, lastOf, List.filterMap_append, List.getLast?_append]

theorem lastOf_snoc (xs : List A) (a : A) : lastOf f (xs ++ [a]) = (f a).or (lastOf f xs) := by
  rw [lastOf_append]
  cases h : f a <;> simp [lastOf, h]

variable {f}

theorem exists_mem_of_lastOf {journal : List A} {v : V} (h : lastOf f journal = some v) :
    ∃ a ∈ journal, f a = some v := List.mem_filterMap.mp (List.mem_of_getLast? h)

/-- The last action that left a value, with none behind it. -/
theorem exists_split_of_lastOf {journal : List A} {v : V} (h : lastOf f journal = some v) :
    ∃ pre a post, journal = pre ++ a :: post ∧ f a = some v ∧ ∀ b ∈ post, f b = none := by
  induction journal using List.reverseRecOn with
  | nil => cases h
  | append_singleton journal b ih =>
    rw [lastOf_snoc] at h
    cases hb : f b with
    | some w =>
      rw [hb] at h
      exact ⟨journal, b, [], rfl, hb.trans h, fun _ hc => absurd hc List.not_mem_nil⟩
    | none =>
      -- the last action leaves no value, so that the value was left before it
      rw [hb] at h
      obtain ⟨pre, a, post, rfl, ha, hpost⟩ := ih h
      refine ⟨pre, a, post ++ [b], by simp, ha, fun c hc => ?_⟩
      rcases List.mem_append.mp hc with hc | hc
      · exact hpost c hc
      · rw [List.mem_singleton.mp hc, hb]

/-- What the actions behind a first part of the journal leave. -/
theorem filterMap_drop_of_prefix {xs ys : List A} {vs : List V} (hpre : xs <+: ys)
    (h : ys.filterMap f = xs.filterMap f ++ vs) : (ys.drop xs.length).filterMap f = vs := by
  obtain ⟨behind, rfl⟩ := hpre
  rw [List.filterMap_append] at h
  rw [List.drop_left]
  exact List.append_cancel_left h

/-! ## Discipline -/

variable {Allows : List A → A → Prop} {xs : List A} {a : A}

/-- Every action of the journal is allowed after the ones before it. -/
def Disciplined (Allows : List A → A → Prop) (journal : List A) : Prop :=
  ∀ pre a, pre ++ [a] <+: journal → Allows pre a

theorem disciplined_nil : Disciplined Allows [] := by
  intro pre a hpre
  exact absurd (List.prefix_nil.mp hpre) (List.append_ne_nil_of_right_ne_nil pre (by simp))

theorem disciplined_snoc :
    Disciplined Allows (xs ++ [a]) ↔ Disciplined Allows xs ∧ Allows xs a := by
  constructor
  · intro h
    refine ⟨fun pre b hpre => h pre b ?_, h xs a (List.prefix_refl _)⟩
    exact hpre.trans (List.prefix_append xs [a])
  · rintro ⟨hxs, ha⟩ pre b hpre
    rcases List.prefix_concat_iff.mp hpre with heq | hpre
    · obtain ⟨rfl, rfl⟩ := List.append_singleton_inj.mp heq
      exact ha
    · exact hxs pre b hpre

theorem disciplined_of_prefix {ys : List A} (h : Disciplined Allows xs) (hys : ys <+: xs) :
    Disciplined Allows ys := fun pre a hpre => h pre a (hpre.trans hys)

/-! ## Properties that come and go -/

section Since

variable {P Q : A → Prop}

/-- An action of the first kind was done, and none of the second kind since. -/
def Since (P Q : A → Prop) (journal : List A) : Prop :=
  ∃ pre a post, journal = pre ++ a :: post ∧ P a ∧ ∀ b ∈ post, ¬ Q b

theorem not_since_nil : ¬ Since P Q [] := by
  rintro ⟨pre, b, post, hnil, -⟩
  exact absurd hnil.symm (List.append_ne_nil_of_right_ne_nil pre (List.cons_ne_nil b post))

theorem since_snoc : Since P Q (xs ++ [a]) ↔ P a ∨ ¬ Q a ∧ Since P Q xs := by
  constructor
  · rintro ⟨pre, b, post, hsplit, hb, hpost⟩
    -- the last action is the one that was done, or one since
    rcases List.eq_nil_or_concat post with rfl | ⟨post, c, rfl⟩
    · obtain ⟨-, rfl⟩ := List.append_singleton_inj.mp hsplit
      exact .inl hb
    · rw [List.concat_eq_append] at hsplit hpost
      rw [← List.cons_append, ← List.append_assoc] at hsplit
      obtain ⟨rfl, rfl⟩ := List.append_singleton_inj.mp hsplit
      obtain ⟨hpost, hlast⟩ := List.forall_mem_append.mp hpost
      exact .inr ⟨hlast a (List.mem_singleton_self a), pre, b, post, rfl, hb, hpost⟩
  · rintro (ha | ⟨ha, pre, b, post, rfl, hb, hpost⟩)
    · exact ⟨xs, a, [], rfl, ha, fun _ hb => absurd hb List.not_mem_nil⟩
    · refine ⟨pre, b, post ++ [a], by simp, hb, List.forall_mem_append.mpr ⟨hpost, ?_⟩⟩
      exact List.forall_mem_singleton.mpr ha

/-- **A property of states** that the steps of one kind bring about, and those of another kind end,
holds behind a run exactly if a step of the first kind was made, and none of the second since. -/
theorem run_iff_since {S : Type*} {step : S → A → S} {R : S → Prop}
    (hstep : ∀ s a, R (step s a) ↔ P a ∨ ¬ Q a ∧ R s) {s : S} (hs : ¬ R s) (xs : List A) :
    R (Machine.run step s xs) ↔ Since P Q xs := by
  induction xs using List.reverseRecOn with
  | nil => exact iff_of_false hs not_since_nil
  | append_singleton xs a ih => rw [Machine.run_snoc, hstep, since_snoc, ih]

end Since

/-! ## Switches -/

section Switches

variable {g : A → Option Bool}

/-- Every action that throws the switch throws it over; the switch is off at first. -/
def Alternates (g : A → Option Bool) (journal : List A) : Prop :=
  Disciplined (fun before a => ∀ v ∈ g a, (lastOf g before).getD false = !v) journal

/-- How often the switch was thrown to a value. -/
def thrown (g : A → Option Bool) (v : Bool) (journal : List A) : ℕ :=
  (journal.filterMap g).count v

@[simp] theorem thrown_nil (v : Bool) : thrown g v [] = 0 := rfl

theorem thrown_snoc (v : Bool) (xs : List A) (a : A) :
    thrown g v (xs ++ [a]) = thrown g v xs + if g a = some v then 1 else 0 := by
  rw [thrown, thrown, List.filterMap_append, List.count_append]
  cases h : g a with
  | none => simp [h]
  | some w => simp [h, List.count_singleton]

/-- Along an alternating journal the switch is on exactly if it was switched on once more than
off, counting from its first position. -/
theorem Alternates.thrown_add {pre mid : List A} (h : Alternates g (pre ++ mid)) :
    thrown g true mid + ((lastOf g pre).getD false).toNat =
      thrown g false mid + ((lastOf g (pre ++ mid)).getD false).toNat := by
  induction mid using List.reverseRecOn with
  | nil => simp
  | append_singleton mid a ih =>
    rw [← List.append_assoc] at h
    obtain ⟨hmid, ha⟩ := disciplined_snoc.mp h
    have hcount := ih hmid
    rw [← List.append_assoc, lastOf_snoc, thrown_snoc, thrown_snoc]
    cases hg : g a with
    | none => simpa using hcount
    | some v =>
      -- the switch was at the other position before
      have hbefore : (lastOf g (pre ++ mid)).getD false = !v := ha v hg
      rw [hbefore] at hcount
      cases v <;> simp at hcount ⊢ <;> omega

/-- **Between two actions that switch on** there is one more that switches off than there are
others that switch on. -/
theorem Alternates.count_eq {pre mid post : List A} {a b : A}
    (h : Alternates g (pre ++ a :: (mid ++ b :: post))) (ha : g a = some true)
    (hb : g b = some true) : thrown g false mid = thrown g true mid + 1 := by
  have hmid : Alternates g (pre ++ [a] ++ mid) :=
    disciplined_of_prefix h ⟨b :: post, by simp⟩
  have hoff : (lastOf g (pre ++ [a] ++ mid)).getD false = false :=
    h (pre ++ [a] ++ mid) b ⟨post, by simp⟩ true hb
  have hcount := hmid.thrown_add
  rw [lastOf_snoc, ha, hoff] at hcount
  exact hcount.symm

end Switches

end Journal
