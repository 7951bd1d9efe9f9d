import TvServer.Foundations.Potential
import TvServer.Foundations.SlotGaps
import TvServer.Service.Callbacks

/-!
# Recovery of the callback registry

A removal may leave a registered callback above the number of keys, where no broadcast reaches it.
But a broadcast that misses a callback inserts null entries at the ids below that are no keys, so
that it reaches more the next time. The events that are missed in a history are therefore paid for
by its removals, and once an event was missed by no callback the next one that is follows a
removal.

## Main definitions

* `Complete`: a broadcast reaches all registered callbacks
* `missed`: whether an operation is an event that misses a registered callback

## Main results

* `perm_onTvEvent_iff`: an event is missed by no callback exactly where the ids are below the size
* `complete_step`: without removals nothing is missed again
* `missed_le_removals`: a history misses no more events than it has removals
-/

namespace TvService

variable {β : Type*}

namespace History

/-- The broadcasts reach all registered callbacks: their ids are below the number of keys. -/
def Complete (h : History β) : Prop := ∀ r ∈ h.registered, r.1 < h.registry.size

/-- What the operations keep: the registrations name the live entries, and all keys are ids. -/
structure Sound (h : History β) : Prop where
  roster : h.IsRoster
  indexed : h.registry.IsIndexed

end History

/-- Whether an operation is a removal. -/
def RegistryOp.isRemove : RegistryOp β → Bool
  | .remove _ => true
  | _ => false

theorem sound_empty : (History.empty : History β).Sound :=
  ⟨isRoster_empty, SlotMap.isIndexed_empty⟩

/-- One operation keeps the map sound, and only a removal opens a gap. -/
theorem sound_step {h : History β} (hs : h.Sound) (op : RegistryOp β) :
    (h.step op).Sound ∧
      (h.step op).registry.gaps ≤ h.registry.gaps + op.isRemove.toNat := by
  have hroster : (h.step op).IsRoster := isRoster_step hs.roster op
  cases op with
  | register callBack =>
    cases callBack with
    | none => exact ⟨⟨hroster, hs.indexed⟩, Nat.le_add_right _ _⟩
    | some b =>
      refine ⟨⟨hroster, (SlotMap.gapSet_register_subset hs.indexed b).1⟩, ?_⟩
      exact Nat.le_add_right_of_le (SlotMap.gaps_register_le hs.indexed b)
  | remove callBackId =>
    -- a negative id is refused
    by_cases hneg : callBackId < 0
    · have hkeep : (h.step (.remove callBackId)).registry = h.registry := if_pos hneg
      refine ⟨⟨hroster, ?_⟩, ?_⟩
      · rw [hkeep]
        exact hs.indexed
      · rw [hkeep]
        exact Nat.le_add_right _ _
    · have herase : (h.step (.remove callBackId)).registry = h.registry.erase callBackId :=
        if_neg hneg
      refine ⟨⟨hroster, ?_⟩, ?_⟩
      · rw [herase]
        exact SlotMap.isIndexed_erase hs.indexed callBackId
      · rw [herase]
        exact SlotMap.gaps_erase_le hs.indexed callBackId
  | event event =>
    have hwalk : (h.step (.event event)).registry =
        (h.registry.walk (transactTo (eventCode event) (eventPayload event)) ([], [])).1 := by
      show (onTvEvent h.registry event).1 = _
      rw [onTvEvent_eq]
      rfl
    refine ⟨⟨hroster, ?_⟩, ?_⟩
    · rw [hwalk]
      exact (SlotMap.gapSet_walk hs.indexed _ _).1
    · rw [hwalk]
      exact Nat.le_add_right_of_le (SlotMap.gaps_walk_le hs.indexed _ _)

/-- An event is missed by no registered callback exactly where the map is complete. -/
theorem perm_onTvEvent_iff {h : History β} (hr : h.IsRoster) (event : CTvEvent) :
    ((onTvEvent h.registry event).2.map Transact.target).Perm (h.registered.map Prod.snd) ↔
      h.Complete := by
  rw [target_onTvEvent]
  exact SlotMap.IsRoster.visited_perm_iff hr

/-- **An event that is missed closes a gap.** -/
theorem gaps_event_lt {h : History β} (hs : h.Sound) (hnot : ¬ h.Complete) (event : CTvEvent) :
    (h.step (.event event)).registry.gaps < h.registry.gaps := by
  unfold History.Complete at hnot
  push Not at hnot
  obtain ⟨r, hr, hle⟩ := hnot
  have hlive : h.registry.get r.1 = some r.2 := (hs.roster.mem_iff r.1 r.2).mp hr
  show (onTvEvent h.registry event).1.gaps < h.registry.gaps
  rw [onTvEvent_eq]
  exact SlotMap.gaps_walk_lt hs.indexed _ _ (SlotMap.mem_of_get_eq_some hlive) hle

/-- A complete map stays complete under the operations that are no removals. -/
theorem complete_step {h : History β} (hc : h.Complete) {op : RegistryOp β}
    (hop : op.isRemove = false) : (h.step op).Complete := by
  cases op with
  | register callBack =>
    cases callBack with
    | none => exact hc
    | some b =>
      obtain ⟨hsize, hid⟩ := SlotMap.register_bounds h.registry b
      intro r hr
      rcases List.mem_append.mp hr with hr | hr
      · exact (hc r hr).trans_le (Int.ofNat_le.mpr hsize)
      · rw [List.mem_singleton.mp hr]
        exact hid
  | remove callBackId => cases hop
  | event event =>
    intro r hr
    have hsize : h.registry.size ≤ (onTvEvent h.registry event).1.size := by
      rw [onTvEvent_eq]
      exact SlotMap.size_le_walk _ _ _
    exact (hc r hr).trans_le (Int.ofNat_le.mpr hsize)

section Missed

variable [DecidableEq β]

/-- One for an event that misses a registered callback, or reaches one twice. -/
def missed (h : History β) : RegistryOp β → ℕ
  | .event event =>
    if ((onTvEvent h.registry event).2.map Transact.target).Perm (h.registered.map Prod.snd) then 0
    else 1
  | _ => 0

/-- What is missed is paid for by the gaps, and these by the removals. -/
theorem missed_add_gaps_le {h : History β} (hs : h.Sound) (op : RegistryOp β) :
    missed h op + (h.step op).registry.gaps ≤
      h.registry.gaps + op.isRemove.toNat := by
  have hgaps := (sound_step hs op).2
  cases op with
  | event event =>
    rw [missed]
    split
    · rw [Nat.zero_add]
      exact hgaps
    · rename_i hperm
      have hnot : ¬ h.Complete := fun hc => hperm ((perm_onTvEvent_iff hs.roster event).mpr hc)
      have hlt := gaps_event_lt hs hnot event
      omega
  | register callBack => exact (Nat.zero_add _).trans_le hgaps
  | remove callBackId => exact (Nat.zero_add _).trans_le hgaps

/-- **The registry recovers.** In every history, no more events are missed by a registered callback
than callbacks were removed. Where an event is missed by none, none is missed by one until the next
removal: every later event transacts once for each registration there is by then. -/
theorem missed_le_removals :
    (∀ ops : List (RegistryOp β),
      Machine.cost History.step missed .empty ops ≤ (ops.filter RegistryOp.isRemove).length) ∧
    ∀ (ops ops' : List (RegistryOp β)) (event event' : CTvEvent),
      let h := Machine.run History.step .empty ops
      let h' := Machine.run History.step h ops'
      missed h (.event event) = 0 → (∀ op ∈ ops', op.isRemove = false) →
        missed h' (.event event') = 0 := by
  constructor
  · exact Machine.cost_le_length_filter History.Sound (fun h => h.registry.gaps)
      RegistryOp.isRemove (fun _ op hs => (sound_step hs op).1)
      (fun _ op hs => missed_add_gaps_le hs op) sound_empty SlotMap.gaps_empty
  · intro ops ops' event event' h h' hmissed hops
    have hs : h.Sound :=
      Machine.run_invariant History.Sound (fun _ op hs => (sound_step hs op).1) sound_empty ops
    have hcomplete : h.Complete := by
      refine (perm_onTvEvent_iff hs.roster event).mp ?_
      by_contra hperm
      rw [missed, if_neg hperm] at hmissed
      cases hmissed
    have hkept : h'.IsRoster ∧ h'.Complete := by
      refine Machine.run_invariant_of_mem (fun h : History β => h.IsRoster ∧ h.Complete)
        (fun h op hop hc => ?_) ⟨hs.roster, hcomplete⟩
      exact ⟨isRoster_step hc.1 op, complete_step hc.2 (hops op hop)⟩
    exact if_pos ((perm_onTvEvent_iff hkept.1 event').mpr hkept.2)

end Missed

/-- Three clients register and the first one is removed: the next event is missed by the third
client, and the ones behind it by none. -/
theorem missed_le_removals_three :
    let ops : List (RegistryOp ℕ) :=
      [.register (some 10), .register (some 11), .register (some 12), .remove 0,
        .event (.sourceConnect ⟨5, 1⟩)]
    Machine.cost History.step missed .empty ops ≤ 1 ∧
      missed (Machine.run History.step (Machine.run History.step .empty ops)
        [.register (some 13)]) (.event (.sourceConnect ⟨5, 0⟩)) = 0 := by
  intro ops
  have hremovals : (ops.filter RegistryOp.isRemove).length = 1 := rfl
  refine ⟨hremovals ▸ missed_le_removals.1 ops, ?_⟩
  exact missed_le_removals.2 ops _ (.sourceConnect ⟨5, 1⟩) (.sourceConnect ⟨5, 0⟩) (by decide)
    (by simp [RegistryOp.isRemove])

end TvService
