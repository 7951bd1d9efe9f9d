import Mathlib.Tactic.IntervalCases
import TvServer.Client.Process
import TvServer.Foundations.Journal

/-!
# The start of a client

While a wrapper is obtained for the first time, the main thread publishes one pointer after the
other: the callback at the service, the instance of the client, its observer, and the callback
function of the wrapper; the application sets its own callback at some time. The service may send
events from the first step on. They wait for the mutex, which the constructor of the client holds,
but for no step behind it.

## Main definitions

* `MainStep`, `mainSteps`: the steps of the main thread, in their order
* `Startup`, `Startup.step`: the main thread and the application, interleaved with events
* `InGap`: the times between two steps at which a pointer is missing

## Main results

* `process_run_main`: the steps of the main thread are those of `getInstance`
* `safe_step_iff`: an event is dispatched through a bad pointer exactly in a gap
* `safe_iff_outside_gaps`: the interleavings in which no event is
-/

/-- A step of the main thread while it obtains the first wrapper. -/
inductive MainStep where
  | constructClient
  | unlockMutex
  | assignInstance
  | constructWrapper
  | registerCallback
deriving DecidableEq

/-- The steps of the main thread, in their order. -/
def mainSteps : List MainStep :=
  [.constructClient, .unlockMutex, .assignInstance, .constructWrapper, .registerCallback]

/-- The start of a client: the process, the steps that the main thread has taken, whether the
mutex is held, and the pointer at which the dispatch of an event failed. -/
structure Startup where
  process : ClientProcess
  steps : ℕ
  tvclientMutex : Bool
  fault : Option BadPointer

namespace Startup

/-- What happens next: a step of the main thread, a call of the application, or the delivery of an
event. -/
inductive Action where
  | main
  | setTvEventCallback (callback : Option Unit)
  | event (event : CTvEvent)
deriving DecidableEq

variable (s : Startup)

/-- The start in the constructor of the client, which holds the mutex. -/
def start (ops : List (TvService.RegistryOp ℕ)) : Startup := ⟨.start ops, 0, true, none⟩

/-- One step of the main thread. -/
def perform : MainStep → Startup
  | .constructClient => { s with process := s.process.constructClient }
  | .unlockMutex => { s with tvclientMutex := false }
  | .assignInstance => { s with process := s.process.assignInstance }
  | .constructWrapper =>
    match s.process.mInstance with
    | some client => { s with process := s.process.constructWrapper client }
    | none => s
  | .registerCallback => { s with process := s.process.registerCallback 0 }

/-- Whether an event can be delivered: the client is registered, and the mutex is free. -/
def deliverable : Bool := s.process.isRegistered 0 && !s.tvclientMutex

/-- What happens next, where nothing failed before. -/
def next : Action → Startup
  | .main =>
    match mainSteps[s.steps]? with
    | some m => { s.perform m with steps := s.steps + 1 }
    | none => s
  | .setTvEventCallback callback =>
    { s with process := s.process.setTvEventCallback callback }
  | .event event =>
    -- an event that cannot be delivered waits
    if s.deliverable then
      match s.process.onTransact event with
      | .ok process => { s with process := process }
      | .error pointer => { s with fault := some pointer }
    else s

/-- What happens next; a process that failed takes no more steps. -/
def step (action : Action) : Startup := if s.fault = none then s.next action else s

/-- No event was dispatched through a bad pointer. -/
def Safe : Prop := s.fault = none

/-! ## Gaps -/

/-- The steps that the main thread has taken. -/
def performed (before : List Action) : List MainStep := mainSteps.take (before.count .main)

/-- The times at which a pointer is missing: behind the release of the mutex, but before the
instance is assigned; and behind the registration of the observer, but before its callback function
and the callback of the application are both set. -/
def InGap (before : List Action) : Prop :=
  (.unlockMutex ∈ performed before ∧ .assignInstance ∉ performed before) ∨
    (.constructWrapper ∈ performed before ∧
      (.registerCallback ∉ performed before ∨ .setTvEventCallback (some ()) ∉ before))

/-- What may happen next: anything but an event in a gap. -/
def Allows (before : List Action) (action : Action) : Prop :=
  ∀ event, action = .event event → ¬ InGap before

/-! ## States without a failure -/

/-- The state after some steps of the main thread. -/
def stage (ops : List (TvService.RegistryOp ℕ)) (ms : List MainStep) : Startup :=
  ms.foldl perform (start ops)

/-- A state, at which the application and the events did their part. -/
def override (steps : ℕ) (mEventCallback : Bool) (called : List EventCallback) : Startup :=
  { s with
    process := { s.process with mEventCallback := mEventCallback, called := called }
    steps := steps }

/-- The state that is reached without a failure. -/
def after (ops : List (TvService.RegistryOp ℕ)) (before : List Action)
    (called : List EventCallback) : Startup :=
  (stage ops (performed before)).override (performed before).length
    (.setTvEventCallback (some ()) ∈ before) called

variable {s} {ops : List (TvService.RegistryOp ℕ)} {before : List Action}
  {called : List EventCallback}

/-- The steps of the main thread and the others do not depend on each other. -/
theorem perform_override (s : Startup) (steps : ℕ) (mEventCallback : Bool)
    (called : List EventCallback) (m : MainStep) :
    (s.override steps mEventCallback called).perform m =
      (s.perform m).override steps mEventCallback called := by
  cases m with
  | constructWrapper =>
    rw [perform, perform]
    change (match s.process.mInstance with | some client => _ | none => _ : Startup) = _
    cases s.process.mInstance <;> rfl
  | _ => rfl

/-- The performed steps are the first ones. -/
theorem exists_performed_eq (before : List Action) :
    ∃ n ≤ 5, performed before = mainSteps.take n := by
  rcases Nat.le_total (before.count .main) 5 with hle | hge
  · exact ⟨_, hle, rfl⟩
  · exact ⟨5, Nat.le_refl 5, List.take_of_length_le hge⟩

theorem performed_snoc_main : performed (before ++ [.main]) =
    performed before ++ mainSteps[(performed before).length]?.toList := by
  have hcount : (before ++ [Action.main]).count .main = before.count .main + 1 := by simp
  rw [performed, hcount, List.take_add_one, performed, List.length_take]
  rcases Nat.le_total (before.count .main) mainSteps.length with hle | hge
  · rw [Nat.min_eq_left hle]
  · rw [Nat.min_eq_right hge, List.getElem?_eq_none hge, List.getElem?_eq_none (Nat.le_refl _)]

theorem performed_snoc_of_ne {action : Action} (h : action ≠ .main) :
    performed (before ++ [action]) = performed before := by
  rw [performed, performed, List.count_append, List.count_singleton, beq_eq_false_iff_ne.mpr h]
  rfl

theorem fault_perform (s : Startup) (m : MainStep) : (s.perform m).fault = s.fault := by
  cases m with
  | constructWrapper =>
    rw [perform]
    cases s.process.mInstance <;> rfl
  | _ => rfl

theorem safe_after : (after ops before called).fault = none := by
  have hstage (ms : List MainStep) (s : Startup) : (ms.foldl perform s).fault = s.fault := by
    induction ms generalizing s with
    | nil => rfl
    | cons m ms ih => exact (ih _).trans (fault_perform s m)
  exact hstage _ _

/-- A step of the main thread. -/
theorem step_after_main :
    (after ops before called).step .main = after ops (before ++ [.main]) called := by
  have hset : (.setTvEventCallback (some ()) ∈ before ++ [Action.main]) ↔
      .setTvEventCallback (some ()) ∈ before := by simp
  rw [step, if_pos safe_after, next, after, after, performed_snoc_main, stage, stage]
  simp only [hset]
  change (match mainSteps[(performed before).length]? with | some m => _ | none => _) = _
  cases mainSteps[(performed before).length]? with
  | none =>
    -- the main thread is through
    simp
  | some m =>
    dsimp only
    rw [perform_override, Option.toList_some, List.foldl_append, List.length_append]
    rfl

/-- A call of the application. -/
theorem step_after_setTvEventCallback (callback : Option Unit) :
    (after ops before called).step (.setTvEventCallback callback) =
      after ops (before ++ [.setTvEventCallback callback]) called := by
  have hset : (.setTvEventCallback (some ()) ∈ before ++ [.setTvEventCallback callback]) ↔
      .setTvEventCallback (some ()) ∈ before ∨ callback = some () := by simp [eq_comm]
  have hperformed : performed (before ++ [.setTvEventCallback callback]) = performed before :=
    performed_snoc_of_ne nofun
  rw [step, if_pos safe_after, next, after, after, hperformed]
  simp only [hset]
  cases callback with
  | none => simp [ClientProcess.setTvEventCallback, override]
  | some callback => simp [ClientProcess.setTvEventCallback, override]

/-! ## Events -/

/-- An event can be delivered from the release of the mutex on. -/
theorem deliverable_after :
    (after ops before called).deliverable = true ↔ .unlockMutex ∈ performed before := by
  obtain ⟨n, hn, hperformed⟩ := exists_performed_eq before
  have hregistered : (ClientProcess.start ops).constructClient.isRegistered 0 = true :=
    ClientProcess.isRegistered_constructClient
  rw [after, hperformed]
  interval_cases n
  · -- the client is not registered
    exact iff_of_false nofun (by decide)
  · -- the constructor holds the mutex
    refine iff_of_false (fun hdeliverable => ?_) (by decide)
    exact absurd (Bool.and_eq_true_iff.mp hdeliverable).2 nofun
  -- no later step takes the mutex or removes the client
  all_goals exact iff_of_true ((Bool.and_true _).trans hregistered) (by decide)

/-- **The dispatch of an event**, as far as the pointers go. -/
theorem onTransact_after (event : CTvEvent) :
    (after ops before called).process.onTransact event =
      if .assignInstance ∉ performed before then .error .mInstance
      else if .constructWrapper ∉ performed before then .ok (after ops before called).process
      else if .registerCallback ∉ performed before then .error .mEventCallbackFunc
      else if .setTvEventCallback (some ()) ∉ before then .error .mEventCallback
      else .ok (after ops before
        (called ++ [TvClientWrapper.onTvClientEvent event])).process := by
  obtain ⟨n, hn, hperformed⟩ := exists_performed_eq before
  have hempty : (∅ : SlotMap ℕ).IsFilled [] := SlotMap.IsFilled.empty
  -- the client, before and after its observer is registered
  let cell (observers : SlotMap ℕ) : TvClientCell :=
    ⟨true, ((ClientProcess.start ops).service.registry.register 0).1, observers⟩
  rw [after, after, hperformed]
  interval_cases n
  -- before the third step there is no instance
  · exact (if_pos (by decide)).symm
  · exact (if_pos (by decide)).symm
  · exact (if_pos (by decide)).symm
  · -- the client has no observer that the event could be handed to
    rw [if_neg (by decide), if_pos (by decide)]
    exact (ClientProcess.onTransact_of_isFilled (cell ∅) rfl rfl rfl hempty event).trans rfl
  · rw [if_neg (by decide), if_neg (by decide), if_pos (by decide)]
    exact (ClientProcess.onTransact_of_isFilled (cell _) rfl rfl rfl
      (hempty.register 0) event).trans rfl
  · rw [if_neg (by decide), if_neg (by decide), if_neg (by decide)]
    refine (ClientProcess.onTransact_of_isFilled (cell _) rfl rfl rfl
      (hempty.register 0) event).trans ?_
    by_cases hset : .setTvEventCallback (some ()) ∈ before
    · rw [if_neg (not_not_intro hset)]
      simp only [hset]
      rfl
    · rw [if_pos hset]
      simp only [hset]
      rfl

/-- The steps are performed in their order. -/
theorem performed_order (before : List Action) :
    (.constructWrapper ∈ performed before → .assignInstance ∈ performed before) ∧
      (.assignInstance ∈ performed before → .unlockMutex ∈ performed before) := by
  obtain ⟨n, hn, hperformed⟩ := exists_performed_eq before
  rw [hperformed]
  interval_cases n <;> decide

theorem after_snoc_event (event : CTvEvent) :
    after ops (before ++ [.event event]) called = after ops before called := by
  have hperformed : performed (before ++ [.event event]) = performed before :=
    performed_snoc_of_ne nofun
  have hset : (.setTvEventCallback (some ()) ∈ before ++ [Action.event event]) ↔
      .setTvEventCallback (some ()) ∈ before := by simp
  rw [after, after, hperformed]
  simp only [hset]

/-- **What comes of an event**: it fails in a gap, and otherwise waits, is dropped, or reaches the
callback of the application. -/
theorem step_after_event (event : CTvEvent) :
    (InGap before ∧ ¬ ((after ops before called).step (.event event)).Safe) ∨
      (¬ InGap before ∧ ∃ called', (after ops before called).step (.event event) =
        after ops (before ++ [.event event]) called') := by
  obtain ⟨hassigned, hunlocked⟩ := performed_order before
  simp only [after_snoc_event]
  rw [step, if_pos safe_after, next, onTransact_after, InGap]
  by_cases hunlock : .unlockMutex ∈ performed before
  case neg =>
    -- the event waits for the mutex
    have hwrapper : .constructWrapper ∉ performed before :=
      fun hwrapper => hunlock (hunlocked (hassigned hwrapper))
    rw [if_neg (deliverable_after.not.mpr hunlock)]
    exact .inr ⟨by simp [hunlock, hwrapper], called, rfl⟩
  rw [if_pos (deliverable_after.mpr hunlock)]
  by_cases hassign : .assignInstance ∈ performed before
  case neg =>
    rw [if_pos hassign]
    exact .inl ⟨.inl ⟨hunlock, hassign⟩, nofun⟩
  rw [if_neg (not_not_intro hassign)]
  by_cases hwrapper : .constructWrapper ∈ performed before
  case neg =>
    -- there is no observer yet, and the event is dropped
    rw [if_pos hwrapper]
    exact .inr ⟨by simp [hassign, hwrapper], called, rfl⟩
  rw [if_neg (not_not_intro hwrapper)]
  by_cases hregister : .registerCallback ∈ performed before
  case neg =>
    rw [if_pos hregister]
    exact .inl ⟨.inr ⟨hwrapper, .inl hregister⟩, nofun⟩
  rw [if_neg (not_not_intro hregister)]
  by_cases hset : .setTvEventCallback (some ()) ∈ before
  case neg =>
    rw [if_pos hset]
    exact .inl ⟨.inr ⟨hwrapper, .inr hset⟩, nofun⟩
  rw [if_neg (not_not_intro hset)]
  exact .inr ⟨by simp [hassign, hregister, hset], _, rfl⟩

/-- **Steps without a failure**: exactly the events in the gaps fail. -/
theorem safe_step_iff (action : Action) :
    ((after ops before called).step action).Safe ↔ Allows before action := by
  cases action with
  | main =>
    rw [step_after_main]
    exact iff_of_true safe_after nofun
  | setTvEventCallback callback =>
    rw [step_after_setTvEventCallback]
    exact iff_of_true safe_after nofun
  | event event =>
    rcases step_after_event event with ⟨hgap, hfails⟩ | ⟨hgap, called', hstep⟩
    · exact iff_of_false hfails fun h => h event rfl hgap
    · rw [hstep]
      exact iff_of_true safe_after fun _ _ => hgap

/-! ## Runs -/

/-- The state that a run without an event in a gap reaches. -/
theorem run_eq_after {xs : List Action} (h : Journal.Disciplined Allows xs) :
    ∃ called, Machine.run step (start ops) xs = after ops xs called := by
  induction xs using List.reverseRecOn with
  | nil => exact ⟨[], rfl⟩
  | append_singleton xs x ih =>
    obtain ⟨hxs, hx⟩ := Journal.disciplined_snoc.mp h
    obtain ⟨called, hrun⟩ := ih hxs
    rw [Machine.run_snoc, hrun]
    cases x with
    | main => exact ⟨called, step_after_main⟩
    | setTvEventCallback callback => exact ⟨called, step_after_setTvEventCallback callback⟩
    | event event =>
      rcases step_after_event event with ⟨hgap, -⟩ | ⟨-, hstep⟩
      · exact absurd hgap (hx event rfl)
      · exact hstep

/-- **Interleavings without a failure**: no event is dispatched through a bad pointer exactly if
no event is delivered in a gap. -/
theorem safe_iff_outside_gaps (ops : List (TvService.RegistryOp ℕ)) (xs : List Action) :
    Machine.Throughout step Safe (start ops) xs ↔ Journal.Disciplined Allows xs := by
  induction xs using List.reverseRecOn with
  | nil => exact iff_of_true (Machine.throughout_nil.mpr rfl) Journal.disciplined_nil
  | append_singleton xs x ih =>
    rw [Machine.throughout_snoc, Journal.disciplined_snoc, ih]
    -- as nothing failed before, the state before the last action is known up to the calls
    refine and_congr_right fun hxs => ?_
    obtain ⟨called, hrun⟩ := run_eq_after hxs
    rw [Machine.run_snoc, hrun]
    exact safe_step_iff x

/-- An event arrives between the release of the mutex and the assignment of the instance. -/
theorem not_forall_safe : ¬ ∀ (ops : List (TvService.RegistryOp ℕ)) (xs : List Action),
    Machine.Throughout step Safe (start ops) xs := by
  intro hall
  have hrun : Machine.run step (start []) [.main, .main] = after [] [.main, .main] [] := by
    have hstart : start [] = after [] [] [] := rfl
    rw [hstart, Machine.run_cons, step_after_main, Machine.run_cons, step_after_main]
    rfl
  have hsafe := hall [] ([.main, .main] ++ [.event (.sourceConnect ⟨5, 1⟩)]) _ List.prefix_rfl
  rw [Machine.run_snoc, hrun] at hsafe
  have hgap : InGap [.main, .main] := .inl ⟨by decide, by decide⟩
  exact (safe_step_iff _).mp hsafe _ rfl hgap

/-- The steps of the main thread are those of `getInstance`. -/
theorem process_run_main (ops : List (TvService.RegistryOp ℕ)) :
    (Machine.run step (start ops) (List.replicate 5 .main)).process =
      (ClientProcess.start ops).getInstance := by
  rfl

end Startup
