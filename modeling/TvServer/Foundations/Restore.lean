import Mathlib.Data.List.DropRight
import TvServer.Foundations.Journal
import TvServer.Foundations.Sensor

/-!
# Values that are saved and restored

A value in force is replaced for a while: a call that enables the replacement saves the value in
force and puts the shown one in its place, and a call that disables it puts the saved value back.
There is one place to save a value, which is unset at first, and a second enabling call saves the
shown value over the one that was in force before.

## Main definitions

* `Cell V`, `Cell.call`: the value in force and the saved one, and what a call does to them
* `Call V`: a call, with the value in force before and after it
* `userValue calls`: the value in force before the first enabling call since the last disabling one
* `Restored unset calls`: every disabling call restores this value, and no call puts the unset
  value in force
* `Keeps shown unset m₀ before enable`: what a call needs for this, after the ones before it
* `flagsOf step flag`, `callsOf step flag cell`: the calls that the steps of a system make

## Main results

* `restores_iff`: the sequences of calls that restore the values
* `callsOf_eq`: the calls of a system are those of its cell
-/

namespace Restore

variable {V : Type*}

/-- The value in force, and the one that was saved. -/
structure Cell (V : Type*) where
  value : V
  saved : V

/-- A call that enables the replacement or disables it. -/
def Cell.call (shown : V) (cell : Cell V) (enable : Bool) : Cell V :=
  if enable then ⟨shown, cell.value⟩ else ⟨cell.saved, cell.saved⟩

/-- A call, with the value in force before and after it. -/
structure Call (V : Type*) where
  enable : Bool
  before : V
  after : V

/-- The call that a flag makes on a cell, and the cell behind it. -/
def Cell.step (shown : V) (cell : Cell V) (enable : Bool) : List (Call V) × Cell V :=
  ([⟨enable, cell.value, (cell.call shown enable).value⟩], cell.call shown enable)

/-- The calls that flags make. -/
abbrev calls (shown : V) (cell : Cell V) (flags : List Bool) : List (Call V) :=
  Sensor.outputs (Cell.step shown) cell flags

/-- What a call makes of the value to restore: the first enabling call gives it. -/
def nextUserValue (value : Option V) (call : Call V) : Option V :=
  if call.enable then value.or (some call.before) else none

/-- The value in force before the first enabling call since the last disabling one, if there is
such a call. -/
def userValue (calls : List (Call V)) : Option V := calls.foldl nextUserValue none

/-- A disabling call restores the value. -/
def Allows (before : List (Call V)) (call : Call V) : Prop :=
  call.enable = false → ∀ v ∈ userValue before, call.after = v

/-- Every disabling call restores the value, and no call puts the unset value in force. -/
structure Restored (unset : V) (calls : List (Call V)) : Prop where
  disciplined : Journal.Disciplined Allows calls
  after_ne : ∀ call ∈ calls, call.after ≠ unset

/-- The enabling calls since the last disabling one. -/
def pending (flags : List Bool) : ℕ := (flags.rtakeWhile id).length

/-- A call that disables needs that a value was saved before, which was not unset, and that the
shown value was not saved over it. -/
def Keeps (shown unset m₀ : V) (before : List Bool) (enable : Bool) : Prop :=
  enable = false → true ∈ before ∧ m₀ ≠ unset ∧ (m₀ = shown ∨ pending before ≤ 1)

theorem pending_snoc_true (flags : List Bool) : pending (flags ++ [true]) = pending flags + 1 := by
  rw [pending, List.rtakeWhile_concat_pos _ _ _ rfl, List.length_append]
  rfl

theorem pending_snoc_false (flags : List Bool) : pending (flags ++ [false]) = 0 := by
  rw [pending, List.rtakeWhile_concat_neg _ _ _ (by decide)]
  rfl

theorem userValue_snoc (calls : List (Call V)) (call : Call V) :
    userValue (calls ++ [call]) = nextUserValue (userValue calls) call := by
  rw [userValue, List.foldl_append]
  rfl

theorem restored_nil {unset : V} : Restored unset [] :=
  ⟨Journal.disciplined_nil, fun _ h => absurd h List.not_mem_nil⟩

theorem restored_snoc {unset : V} {calls : List (Call V)} {call : Call V} :
    Restored unset (calls ++ [call]) ↔
      Restored unset calls ∧ Allows calls call ∧ call.after ≠ unset := by
  constructor
  · rintro ⟨hd, ha⟩
    obtain ⟨hd, hcall⟩ := Journal.disciplined_snoc.mp hd
    exact ⟨⟨hd, fun c hc => ha c (List.mem_append_left _ hc)⟩, hcall,
      ha call (List.mem_append_right _ (List.mem_singleton_self call))⟩
  · rintro ⟨⟨hd, ha⟩, hcall, hafter⟩
    refine ⟨Journal.disciplined_snoc.mpr ⟨hd, hcall⟩, fun c hc => ?_⟩
    rcases List.mem_append.mp hc with hc | hc
    · exact ha c hc
    · rw [List.mem_singleton.mp hc]
      exact hafter

/-! ## Phases -/

/-- Where calls that restored the values have left the cell and the value to restore. -/
inductive Phase (shown unset m₀ : V) : List Bool → Cell V → Option V → Prop
  | unset : Phase shown unset m₀ [] ⟨m₀, unset⟩ none
  | off {flags : List Bool} (hset : true ∈ flags) (hm₀ : m₀ ≠ unset)
      (hpending : pending flags = 0) :
      Phase shown unset m₀ flags ⟨m₀, m₀⟩ none
  | once {flags : List Bool} (hset : true ∈ flags) (hpending : pending flags = 1) :
      Phase shown unset m₀ flags ⟨shown, m₀⟩ (some m₀)
  | again {flags : List Bool} (hset : true ∈ flags) (hpending : 2 ≤ pending flags) :
      Phase shown unset m₀ flags ⟨shown, shown⟩ (some m₀)

variable {shown unset m₀ : V} {flags : List Bool} {cell : Cell V} {value : Option V}

/-- An enabling call starts a phase, or is one more in it. -/
theorem Phase.enable (h : Phase shown unset m₀ flags cell value) :
    Phase shown unset m₀ (flags ++ [true]) (cell.call shown true)
      (value.or (some cell.value)) := by
  have hset : true ∈ flags ++ [true] := List.mem_append_right _ (List.mem_singleton_self true)
  have hpending := pending_snoc_true flags
  cases h with
  | unset => exact .once hset hpending
  | off _ _ h => exact .once hset (by rw [hpending, h])
  | once _ h => exact .again hset (by rw [hpending, h])
  | again _ h => exact .again hset (by omega)

/-- A disabling call restores the value, and another than the unset one, exactly if it meets the
condition. -/
theorem Phase.restores_iff (h : Phase shown unset m₀ flags cell value) (hshown : shown ≠ unset) :
    ((∀ v ∈ value, cell.saved = v) ∧ cell.saved ≠ unset) ↔
      Keeps shown unset m₀ flags false := by
  rw [Keeps, imp_iff_right rfl]
  cases h with
  | unset =>
    -- nothing was saved yet
    exact iff_of_false (fun h => h.2 rfl) fun h => absurd h.1 List.not_mem_nil
  | off hset hm₀ hpending =>
    exact iff_of_true ⟨fun v hv => absurd hv (by simp), hm₀⟩ ⟨hset, hm₀, .inr (by omega)⟩
  | once hset hpending =>
    have hle : pending flags ≤ 1 := hpending.le
    simp [hset, hle]
  | again hset hpending =>
    -- the shown value was saved over the one that was in force
    have hnot : ¬ pending flags ≤ 1 := by omega
    simp only [Option.mem_some_iff, forall_eq', hset, hnot, or_false, true_and]
    constructor
    · rintro ⟨rfl, hne⟩
      exact ⟨hne, rfl⟩
    · rintro ⟨hne, rfl⟩
      exact ⟨rfl, hne⟩

theorem Phase.disable (h : Phase shown unset m₀ flags cell value)
    (hkeeps : Keeps shown unset m₀ flags false) :
    Phase shown unset m₀ (flags ++ [false]) (cell.call shown false) none := by
  obtain ⟨hset, hm₀, hpending⟩ := hkeeps rfl
  have hset' : true ∈ flags ++ [false] := List.mem_append_left _ hset
  have hoff : Phase shown unset m₀ (flags ++ [false]) ⟨m₀, m₀⟩ none :=
    .off hset' hm₀ (pending_snoc_false flags)
  cases h with
  | unset => exact absurd hset List.not_mem_nil
  | off => exact hoff
  | once => exact hoff
  | again _ hagain =>
    obtain rfl : m₀ = shown := hpending.resolve_right (by omega)
    exact hoff

/-! ## Sequences of calls -/

theorem calls_snoc (cell : Cell V) (flags : List Bool) (enable : Bool) :
    calls shown cell (flags ++ [enable]) = calls shown cell flags ++
      ((Machine.run (Cell.call shown) cell flags).step shown enable).1 :=
  Sensor.outputs_snoc (Cell.step shown) cell flags enable

/-- Calls that restored the values have left a phase. -/
theorem restored_calls_iff (hshown : shown ≠ unset) (flags : List Bool) :
    (Restored unset (calls shown ⟨m₀, unset⟩ flags) ↔
        Journal.Disciplined (Keeps shown unset m₀) flags) ∧
      (Journal.Disciplined (Keeps shown unset m₀) flags →
        Phase shown unset m₀ flags (Machine.run (Cell.call shown) ⟨m₀, unset⟩ flags)
          (userValue (calls shown ⟨m₀, unset⟩ flags))) := by
  induction flags using List.reverseRecOn with
  | nil => exact ⟨iff_of_true restored_nil Journal.disciplined_nil, fun _ => .unset⟩
  | append_singleton flags enable ih =>
    obtain ⟨hiff, hphase⟩ := ih
    rw [calls_snoc, Cell.step, restored_snoc, hiff, Journal.disciplined_snoc, Machine.run_snoc,
      userValue_snoc]
    cases enable with
    | true =>
      refine ⟨and_congr_right fun _ => iff_of_true ?_ ?_, fun h => (hphase h.1).enable⟩
      · exact ⟨fun h => Bool.noConfusion h, hshown⟩
      · exact fun h => Bool.noConfusion h
    | false =>
      refine ⟨and_congr_right fun hd => ?_, fun h => (hphase h.1).disable h.2⟩
      rw [← (hphase hd).restores_iff hshown, Allows, imp_iff_right rfl]
      rfl

/-- **The sequences of calls that restore the values** are those all of whose calls that disable
come behind one that enables, with another value at first than the unset one, and with no two in
a row that enable right before, unless the value at first is the one that is shown. -/
theorem restores_iff (hshown : shown ≠ unset) (m₀ : V) (flags : List Bool) :
    Restored unset (calls shown ⟨m₀, unset⟩ flags) ↔
      Journal.Disciplined (Keeps shown unset m₀) flags := (restored_calls_iff hshown flags).1

/-! ## Systems with a cell -/

section Systems

variable {S I : Type*} (step : S → I → S) (flag : S → I → Option Bool)

/-- The flags of the calls that the steps of a system make. -/
abbrev flagsOf (s : S) (xs : List I) : List Bool :=
  Sensor.outputs (fun s x => ((flag s x).toList, step s x)) s xs

/-- The calls that the steps of a system make, with what they find in its cell and leave there. -/
abbrev callsOf (cell : S → Cell V) (s : S) (xs : List I) : List (Call V) :=
  Sensor.outputs (fun s x => ((flag s x).toList.map fun enable =>
    ⟨enable, (cell s).value, (cell (step s x)).value⟩, step s x)) s xs

variable {step flag}

theorem callsOf_cons (cell : S → Cell V) (s : S) (x : I) (xs : List I) :
    callsOf step flag cell s (x :: xs) =
      ((flag s x).toList.map fun enable => ⟨enable, (cell s).value, (cell (step s x)).value⟩) ++
        callsOf step flag cell (step s x) xs := rfl

/-- The calls of a system are those of its cell, where its steps do no more to the cell than their
call. -/
theorem callsOf_eq {cell : S → Cell V}
    (hcell : ∀ s x, cell (step s x) = (flag s x).elim (cell s) ((cell s).call shown)) (s : S)
    (xs : List I) :
    callsOf step flag cell s xs = calls shown (cell s) (flagsOf step flag s xs) := by
  induction xs generalizing s with
  | nil => rfl
  | cons x xs ih =>
    have hx := hcell s x
    rw [callsOf_cons, flagsOf, Sensor.outputs]
    cases hflag : flag s x with
    | none =>
      -- no call, and the cell stays
      rw [hflag, Option.elim_none] at hx
      rw [← hx]
      exact ih (step s x)
    | some enable =>
      rw [hflag, Option.elim_some] at hx
      have htail := ih (step s x)
      rw [hx] at htail ⊢
      exact congrArg _ htail

end Systems

end Restore
