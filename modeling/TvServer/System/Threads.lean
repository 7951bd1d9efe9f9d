import TvServer.Foundations.LockOrder
import TvServer.Service.Interleaving
import TvServer.Tv.Events

/-!
# Threads of the service and of its clients

The threads of the service handle the transactions of the clients, and one thread passes on the
events of the devices. A transaction is synchronous, so that it is handled as a part of the thread
that sends it: a client registers and unregisters while it holds the mutex of its process, and it
holds this mutex while it hands an event to the callbacks of its user, which may call the client
again. The television object passes on no event while it performs a command, so that no thread
waits for a client while it holds the mutex of the service.

The service takes no mutex for its registry, so that registrations, removals and broadcasts may
overlap: each access to the registry is a step of its own. The commands hold the mutex, and do not
overlap with one another. An event that is handled while a command is performed is left out: the
handling of an event is one step, as it is in the model of the television object.

## Main definitions

* `Call`: what a user calls a client for, and `Call.IsMethod`: neither construction nor destruction
* `Activity`, `Activity.code`: what a thread does
* `threaded`, `unlocked`: with the mutexes and the static pointer of `strtok`, or without

## Main results

* `alone_setTvServiceCallBack`: a registration is that of the registry if none overlaps with it
* `refines_unlocked`: every interleaving is one of commands that are performed in one step each
* `exists_completion`: where callbacks call methods only, every run can be completed
* `not_returns_of_callback`: a callback that constructs or destroys its client never returns
-/

namespace TvService.Interleaved

open Threads (Code Config)

/-! ## What threads do -/

/-- What a user calls a client for. -/
inductive Call where
  | command (ans : Answers) (commandData : List Char)
  | dataCommand (ans : EdidPortAnswers) (commandBuf : List Char)
    (dataBuf : Vector UInt8 dataBufSize)
  | constructClient
  | destroyClient

/-- A call of a method, which takes the client as it is. -/
def Call.IsMethod : Call → Prop
  | command _ _ => True
  | dataCommand _ _ _ => True
  | constructClient => False
  | destroyClient => False

/-- An event of the devices. -/
inductive DeviceEvent where
  | sourceConnect (source connectStatus : Int32)
  | vdinSignalChange (ans : Answers)

/-- What the handler of an event does with the television object. -/
def DeviceEvent.step (mpTv : CTv) : DeviceEvent → CTv
  | sourceConnect source connectStatus => mpTv.onSourceConnect source connectStatus
  | vdinSignalChange ans => mpTv.onVdinSignalChange ans

/-- What a thread does: a call of a user, or passing on an event. -/
inductive Activity where
  | user (process : ℕ) (call : Call)
  | detect (event : DeviceEvent)

/-- What the activities are made of: steps on the parties, what is done while a mutex is held, and
the handling of the commands. -/
structure Handling (m : Type → Type) where
  act : {ρ : Type} → (Parties → Parties × Except Crash ρ) → m ρ
  locked : {ρ : Type} → Mutex → m ρ → m ρ
  parserTvCommand : Answers → List Char → m Int32
  parserTvDataCommand : EdidPortAnswers → List Char → Vector UInt8 dataBufSize →
    m (Int32 × Vector UInt8 dataBufSize × List EdidPortAction)

/-- The handling by threads. -/
def threaded : Handling ServiceCode where
  act := act
  locked := locked
  parserTvCommand := parserTvCommand
  parserTvDataCommand := parserTvDataCommand

/-- The handling without locks, where a command is one step. -/
def unlocked : Handling AtomicCode where
  act := atomic
  locked _ m := m
  parserTvCommand ans commandData := atomic (commandOp ans commandData)
  parserTvDataCommand ans commandBuf dataBuf := atomic (dataCommandOp ans commandBuf dataBuf)

/-! ### Steps on the parties -/

/-- The callback of a process is stored at an index. -/
def storeOp (process i : ℕ) (parties : Parties) : Parties × Except Crash Unit :=
  ({ parties with mTvServiceCallBack := parties.mTvServiceCallBack.assign i process }, .ok ())

/-- The callback with an id is removed. -/
def removeOp (callBackId : ℤ) (parties : Parties) : Parties × Except Crash Unit :=
  ({ parties with
      mTvServiceCallBack := removeTvServiceCallBack parties.mTvServiceCallBack callBackId },
    .ok ())

/-- A process keeps the id that it was given. -/
def keepOp (process : ℕ) (id : ℤ) (parties : Parties) : Parties × Except Crash Unit :=
  ({ parties with
      tvServicebinderId := Function.update parties.tvServicebinderId process id }, .ok ())

/-- The id that a process keeps. -/
def idOp (process : ℕ) (parties : Parties) : Parties × Except Crash ℤ :=
  (parties, .ok (parties.tvServicebinderId process))

/-- The television object handles an event: the events that it passes on. -/
def eventOp (event : DeviceEvent) (parties : Parties) : Parties × Except Crash (List CTvEvent) :=
  let mpTv := event.step parties.mpTv
  ({ parties with mpTv := mpTv },
    .ok (mpTv.view.events.drop parties.mpTv.view.events.length))

/-- The number of keys, over which a registration and a broadcast walk. -/
def sizeOp (parties : Parties) : Parties × Except Crash ℕ :=
  (parties, .ok parties.mTvServiceCallBack.size)

/-- Whether there is a callback at an index; a read inserts a missing key. -/
def isFilledOp (i : ℕ) (parties : Parties) : Parties × Except Crash Bool :=
  ({ parties with mTvServiceCallBack := parties.mTvServiceCallBack.touch i },
    .ok (parties.mTvServiceCallBack.get i).isSome)

/-- The callback at an index, which is called: it is read once more. -/
def callBackOp (i : ℕ) (parties : Parties) : Parties × Except Crash ℕ :=
  ({ parties with mTvServiceCallBack := parties.mTvServiceCallBack.touch i },
    match parties.mTvServiceCallBack.get i with
    | some process => .ok process
    | none => .error .nullCallBack)

/-! ### Codes -/

section Codes

variable {m : Type → Type} [Monad m] (handling : Handling m)
  (callback : ℕ → CTvEvent → List Call)

/-- The walk of a registration over indices: the first one without a callback gets that of the
process, or else the number of keys does, and is the id. -/
def registerAt (process clientSize : ℕ) : List ℕ → m ℤ
  | [] => do
    handling.act (storeOp process clientSize)
    return clientSize
  | i :: is => do
    let isFilled ← handling.act (isFilledOp i)
    if isFilled then registerAt process clientSize is
    else
      handling.act (storeOp process i)
      return i

/-- The registration of a callback, which takes no mutex: each access to the registry is a step. -/
def setTvServiceCallBack (process : ℕ) : m ℤ := do
  let clientSize ← handling.act sizeOp
  registerAt handling process clientSize (List.range clientSize)

/-- A call of a user of the process. -/
def Call.code (process : ℕ) : Call → m Reply
  | .command ans commandData => do
    let ret ← handling.parserTvCommand ans commandData
    return .command ret
  | .dataCommand ans commandBuf dataBuf => do
    let ret ← handling.parserTvDataCommand ans commandBuf dataBuf
    return .dataCommand ret
  | .constructClient => handling.locked (.tvclientMutex process) do
    let tvServicebinderId ← setTvServiceCallBack handling process
    handling.act (keepOp process tvServicebinderId)
    return .done
  | .destroyClient => handling.locked (.tvclientMutex process) do
    let tvServicebinderId ← handling.act (idOp process)
    handling.act (removeOp tvServicebinderId)
    return .done

/-- A client hands an event to the callbacks of its user, with all that they call the client for. -/
def onTransact (process : ℕ) (event : CTvEvent) : m PUnit :=
  handling.locked (.tvclientMutex process) <|
    (callback process event).forM fun call => do
      let _ ← call.code handling process
      return ⟨⟩

/-- The round of a broadcast at an index. -/
def transactTo (event : CTvEvent) (i : ℕ) : m PUnit := do
  let isFilled ← handling.act (isFilledOp i)
  if isFilled then
    let process ← handling.act (callBackOp i)
    onTransact handling callback process event
  else return ⟨⟩

/-- The broadcast of an event. -/
def onTvEvent (event : CTvEvent) : m PUnit := do
  let clientSize ← handling.act sizeOp
  (List.range clientSize).forM (transactTo handling callback event)

/-- What a thread does. -/
def Activity.code : Activity → m Reply
  | .user process call => call.code handling process
  | .detect event => do
    let events ← handling.act (eventOp event)
    events.forM (onTvEvent handling callback)
    return .done

end Codes

/-! ## Registrations -/

/-- The rounds over the indices from `i` on, each in the registry that the reads before leave. -/
theorem alone_registerAt (process clientSize i n : ℕ) (parties : Parties) :
    Code.alone (registerAt unlocked process clientSize (List.range' i n) : AtomicCode ℤ) parties =
      match SlotMap.search process i n parties.mTvServiceCallBack with
      | (some id, registry) => (.ok id, { parties with mTvServiceCallBack := registry })
      | (none, registry) =>
        (.ok clientSize,
          { parties with mTvServiceCallBack := registry.assign clientSize process }) := by
  induction n generalizing i parties with
  | zero => rfl
  | succ n ih =>
    have hround : Code.alone (registerAt unlocked process clientSize (List.range' i (n + 1)) :
        AtomicCode ℤ) parties =
        Code.alone (if (parties.mTvServiceCallBack.get i).isSome then
            registerAt unlocked process clientSize (List.range' (i + 1) n)
          else do
            unlocked.act (storeOp process i)
            return (i : ℤ) : AtomicCode ℤ) (isFilledOp i parties).1 := rfl
    rw [hround, SlotMap.search, SlotMap.get_touch]
    cases hfilled : parties.mTvServiceCallBack.get i with
    | none =>
      -- the free id is found
      rw [if_neg (by simp), if_pos rfl]
      rfl
    | some b =>
      rw [if_pos Option.isSome_some, if_neg (by simp)]
      exact ih (i + 1) _

/-- **A registration alone**, with no other thread beside it, is that of the registry. -/
theorem alone_setTvServiceCallBack (process : ℕ) (parties : Parties) :
    Code.alone (setTvServiceCallBack unlocked process : AtomicCode ℤ) parties =
      (.ok (TvService.setTvServiceCallBack parties.mTvServiceCallBack (some process)).1,
        { parties with
          mTvServiceCallBack :=
            (TvService.setTvServiceCallBack parties.mTvServiceCallBack (some process)).2 }) := by
  have hstart : Code.alone (setTvServiceCallBack unlocked process : AtomicCode ℤ) parties =
      Code.alone (registerAt unlocked process parties.mTvServiceCallBack.size
        (List.range parties.mTvServiceCallBack.size) : AtomicCode ℤ) parties := rfl
  rw [hstart, List.range_eq_range', alone_registerAt, TvService.setTvServiceCallBack,
    SlotMap.register]
  cases hsearch : SlotMap.search process 0 parties.mTvServiceCallBack.size
    parties.mTvServiceCallBack with
  | mk found registry => cases found <;> rfl

/-! ## Refinement -/

section Refinement

variable (callback : ℕ → CTvEvent → List Call) {held : Set Mutex}

theorem actsAs_registerAt (process clientSize : ℕ) (is : List ℕ) :
    ActsAs held (registerAt threaded process clientSize is)
      (registerAt unlocked process clientSize is) := by
  induction is with
  | nil => exact actsAs_bind (actsAs_act _) fun _ => actsAs_return _
  | cons i is ih =>
    refine actsAs_bind (actsAs_act _) fun isFilled => ?_
    cases isFilled with
    | false => exact actsAs_bind (actsAs_act _) fun _ => actsAs_return _
    | true => exact ih

theorem actsAs_setTvServiceCallBack (process : ℕ) :
    ActsAs held (setTvServiceCallBack threaded process)
      (setTvServiceCallBack unlocked process) :=
  actsAs_bind (actsAs_act _) fun clientSize => actsAs_registerAt process clientSize _

theorem actsAs_call (process : ℕ) (call : Call) :
    ActsAs held (call.code threaded process) (call.code unlocked process) := by
  cases call with
  | command ans commandData =>
    exact actsAs_bind (actsAs_parserTvCommand ans commandData) fun _ => actsAs_return _
  | dataCommand ans commandBuf dataBuf =>
    exact actsAs_bind (actsAs_parserTvDataCommand ans commandBuf dataBuf) fun _ => actsAs_return _
  | constructClient =>
    refine actsAs_locked (actsAs_bind (actsAs_setTvServiceCallBack process) fun id => ?_)
    exact actsAs_bind (actsAs_act _) fun _ => actsAs_return _
  | destroyClient =>
    refine actsAs_locked (actsAs_bind (actsAs_act _) fun id => ?_)
    exact actsAs_bind (actsAs_act _) fun _ => actsAs_return _

theorem actsAs_onTransact (process : ℕ) (event : CTvEvent) :
    ActsAs held (onTransact threaded callback process event)
      (onTransact unlocked callback process event) := by
  refine actsAs_locked (actsAs_forM (fun call => ?_) _)
  exact actsAs_bind (actsAs_call process call) fun _ => actsAs_return _

theorem actsAs_onTvEvent (event : CTvEvent) :
    ActsAs held (onTvEvent threaded callback event) (onTvEvent unlocked callback event) := by
  refine actsAs_bind (actsAs_act _) fun clientSize => actsAs_forM (fun i => ?_) _
  refine actsAs_bind (actsAs_act _) fun isFilled => ?_
  cases isFilled with
  | false => exact actsAs_return _
  | true => exact actsAs_bind (actsAs_act _) fun process => actsAs_onTransact callback process event

theorem actsAs_activity (activity : Activity) :
    ActsAs held (activity.code threaded callback) (activity.code unlocked callback) := by
  cases activity with
  | user process call => exact actsAs_call process call
  | detect event =>
    refine actsAs_bind (actsAs_act _) fun events => ?_
    exact actsAs_bind (actsAs_forM (actsAs_onTvEvent callback) events) fun _ => actsAs_return _

/-- A thread acts as another one up to its end. -/
theorem refines_of_actsAs {m : ServiceCode Reply} {spec : AtomicCode Reply}
    (h : ActsAs held m spec) (shared : Shared) :
    Code.Refines protects Shared.parties held m spec shared := by
  have hpure (r : Reply) (shared : Shared) : Code.Refines protects Shared.parties held
      (return r : ServiceCode Reply) (return r : AtomicCode Reply) shared := rfl
  have hend := h hpure shared
  rw [bind_pure, bind_pure] at hend
  exact hend

end Refinement

/-! ## Locks -/

section Locks

variable {callback : ℕ → CTvEvent → List Call} {acquire : Set Mutex → Mutex → Prop}
  {held : Set Mutex}

theorem keeps_registerAt (process clientSize : ℕ) (is : List ℕ) :
    Keeps acquire held (registerAt threaded process clientSize is) := by
  induction is with
  | nil => exact keeps_bind (keeps_act _) fun _ => keeps_return _
  | cons i is ih =>
    refine keeps_bind (keeps_act _) fun isFilled => ?_
    cases isFilled with
    | false => exact keeps_bind (keeps_act _) fun _ => keeps_return _
    | true => exact ih

theorem keeps_setTvServiceCallBack (process : ℕ) :
    Keeps acquire held (setTvServiceCallBack threaded process) :=
  keeps_bind (keeps_act _) fun clientSize => keeps_registerAt process clientSize _

theorem keeps_call {process : ℕ} {call : Call}
    (hservice : acquire held .tvserviceMutex)
    (hclient : ¬ call.IsMethod → acquire held (.tvclientMutex process)) :
    Keeps acquire held (call.code threaded process) := by
  cases call with
  | command ans commandData =>
    exact keeps_bind (keeps_parserTvCommand hservice ans commandData) fun _ => keeps_return _
  | dataCommand ans commandBuf dataBuf =>
    exact keeps_bind (keeps_parserTvDataCommand hservice ans commandBuf dataBuf)
      fun _ => keeps_return _
  | constructClient =>
    refine keeps_locked (hclient id) (keeps_bind (keeps_setTvServiceCallBack process) fun id => ?_)
    exact keeps_bind (keeps_act _) fun _ => keeps_return _
  | destroyClient =>
    refine keeps_locked (hclient id) (keeps_bind (keeps_act _) fun id => ?_)
    exact keeps_bind (keeps_act _) fun _ => keeps_return _

theorem keeps_onTransact {process : ℕ} {event : CTvEvent}
    (hclient : acquire held (.tvclientMutex process))
    (hcalls : ∀ call ∈ callback process event,
      Keeps acquire (insert (.tvclientMutex process) held) (call.code threaded process)) :
    Keeps acquire held (onTransact threaded callback process event) := by
  refine keeps_locked hclient (keeps_forM fun call hcall => ?_)
  exact keeps_bind (hcalls call hcall) fun _ => keeps_return _

theorem keeps_onTvEvent {event : CTvEvent}
    (hdeliver : ∀ process, Keeps acquire held (onTransact threaded callback process event)) :
    Keeps acquire held (onTvEvent threaded callback event) := by
  refine keeps_bind (keeps_act _) fun clientSize => keeps_forM fun i _ => ?_
  refine keeps_bind (keeps_act _) fun isFilled => ?_
  cases isFilled with
  | false => exact keeps_return _
  | true => exact keeps_bind (keeps_act _) fun process => hdeliver process

theorem keeps_activity (hacquire : ∀ mutex, acquire ∅ mutex)
    (hcalls : ∀ process event, ∀ call ∈ callback process event,
      Keeps acquire {.tvclientMutex process} (call.code threaded process)) (activity : Activity) :
    Keeps acquire ∅ (activity.code threaded callback) := by
  cases activity with
  | user process call => exact keeps_call (hacquire _) fun _ => hacquire _
  | detect event =>
    refine keeps_bind (keeps_act _) fun events => keeps_bind (keeps_forM fun event _ => ?_)
      fun _ => keeps_return _
    refine keeps_onTvEvent fun process => keeps_onTransact (hacquire _) fun call hcall => ?_
    rw [insert_empty_eq]
    exact hcalls process event call hcall

/-- A thread keeps to the rules up to its end. -/
theorem obeys_of_keeps {m : ServiceCode Reply} {returns : Set Mutex → Except Crash Reply → Prop}
    (h : Keeps acquire held m) (hcrash : ∀ held crash, returns held (.error crash))
    (hok : ∀ reply, returns held (.ok reply)) :
    Code.Obeys (rules acquire) returns held m := by
  have hend := h (k := pure) hcrash hok
  rw [bind_pure] at hend
  exact hend

end Locks

/-! ## Interleavings -/

section Interleavings

variable {T : Type} [DecidableEq T] (callback : ℕ → CTvEvent → List Call)
  (activity : T → Activity) (shared : Shared)

/-- The threads at their beginning. -/
def start : Config Shared Mutex T (Except Crash Reply) :=
  Config.start shared fun t => (activity t).code threaded callback

/-- Registrations at a time may search the registry before either stores its callback: two clients
are given one id. -/
example (callback : ℕ → CTvEvent → List Call) (tv : CTv) :
    let construct : Fin 2 → Activity := fun process => .user process .constructClient
    let c := Machine.run Config.step (start callback construct ⟨none, ⟨tv, ∅, fun _ => -1⟩⟩)
      [0, 1, 0, 1, 0, 1, 0, 1]
    c.shared.parties.tvServicebinderId 0 = 0 ∧ c.shared.parties.tvServicebinderId 1 = 0 :=
  ⟨rfl, rfl⟩

/-- The threads without locks, at their beginning. -/
def startUnlocked (parties : Parties) : Config Parties Empty T (Except Crash Reply) :=
  Config.start parties fun t => (activity t).code unlocked callback

/-- What any schedule makes of the parties, and what the threads return, is what threads make of
them and return that take no locks, and that perform every command in one step as its own text
says. -/
theorem refines_unlocked (ts : List T) :
    ∃ order, order.Sublist ts ∧
      (Machine.run Config.step (start callback activity shared) ts).shared.parties =
        (Machine.run Config.step
          (startUnlocked callback activity shared.parties) order).shared ∧
      ∀ t r, (Machine.run Config.step (start callback activity shared) ts).code t = .ret r →
        (Machine.run Config.step
          (startUnlocked callback activity shared.parties) order).code t = .ret r := by
  have hstart : (start callback activity shared).Refines protects Shared.parties
      (startUnlocked callback activity shared.parties) := by
    refine ⟨?_, rfl, fun t => ?_⟩
    · refine Config.obeys_start (fun t => ?_) shared
      have hkeeps : Keeps (fun _ _ => True) ∅ ((activity t).code threaded callback) :=
        keeps_activity (fun _ => trivial)
          (fun process event call _ => keeps_call trivial fun _ => trivial) (activity t)
      exact obeys_of_keeps hkeeps (fun _ _ => trivial) fun _ => trivial
    · exact refines_of_actsAs (actsAs_activity callback (activity t)) shared
  obtain ⟨order, hsub, hrun⟩ := Config.refines_run hstart ts
  refine ⟨order, hsub, hrun.state, fun t r hret => ?_⟩
  have hcode := hrun.code t
  rw [hret] at hcode
  exact hcode

/-! ## Completion -/

/-- The mutex of a client comes before that of the service. -/
def rank : Mutex → ℕ
  | .tvclientMutex _ => 0
  | .tvserviceMutex => 1

theorem rank_le (mutex : Mutex) : rank mutex ≤ 1 := by
  cases mutex with
  | tvclientMutex process => exact Nat.zero_le 1
  | tvserviceMutex => exact le_rfl

omit [DecidableEq T] in
/-- Callbacks that call methods only acquire the mutex of the service above that of their client. -/
theorem obeys_start (hmethods : ∀ process event, ∀ call ∈ callback process event, call.IsMethod) :
    (start callback activity shared).Obeys (Threads.order rank)
      fun _ held r => (∃ crash, r = .error crash) ∨ held = ∅ := by
  refine Config.obeys_start (fun t => ?_) shared
  have hkeeps : Keeps (Threads.order (G := Shared) rank).acquire ∅
      ((activity t).code threaded callback) := by
    refine keeps_activity (fun _ _ hm => absurd hm (Set.notMem_empty _))
      (fun process event call hcall => keeps_call ?_ fun hnot => ?_) (activity t)
    · intro mutex hmutex
      rw [Set.mem_singleton_iff.mp hmutex]
      exact Nat.zero_lt_one
    · exact absurd (hmethods process event call hcall) hnot
  have hobeys : Code.Obeys (rules (Threads.order (G := Shared) rank).acquire)
      (fun held r => (∃ crash, r = Except.error crash) ∨ held = ∅) ∅
      ((activity t).code threaded callback : ServiceCode Reply) :=
    obeys_of_keeps hkeeps (fun _ crash => .inl ⟨crash, rfl⟩) fun _ => .inr rfl
  refine Code.Obeys.mono ?_ ?_ ?_ hobeys
  · exact fun _ _ _ => trivial
  · exact fun _ _ h => h
  · exact fun _ _ h => h

/-- **No deadlock**: where the callbacks call nothing but methods, the mutexes are acquired in their
order, and any finite number of threads gets, from wherever a schedule has taken them, to where all
have returned, unless one crashes. -/
theorem exists_completion [Finite T]
    (hmethods : ∀ process event, ∀ call ∈ callback process event, call.IsMethod) (ts : List T) :
    let c := Machine.run Config.step (start callback activity shared) ts
    (∀ t mutex next, c.code t = .acquire mutex next → ∀ m ∈ c.held t, rank m < rank mutex) ∧
      ∃ us,
        (∀ t, (Machine.run Config.step (start callback activity shared) (ts ++ us)).Finished t) ∨
        ∃ t crash, (Machine.run Config.step (start callback activity shared) (ts ++ us)).code t =
          .ret (.error crash) := by
  intro c
  have hrun : c.Obeys (Threads.order rank) _ :=
    Config.obeys_run (obeys_start callback activity shared hmethods) ts
  refine ⟨fun t mutex next hcode => ?_, ?_⟩
  · have hobeys := hrun t
    rw [hcode] at hobeys
    exact hobeys.1
  obtain ⟨us, hus⟩ := Config.exists_returned rank_le hrun
  refine ⟨us, ?_⟩
  rw [Machine.run_append]
  rcases hus with hfinished | ⟨t, r, hret, crash, rfl⟩
  · exact .inl hfinished
  · exact .inr ⟨t, crash, hret⟩

/-- A callback that asks for the status of the first HDMI source, while its client comes and
goes. -/
theorem exists_completion_query :
    let ans := Answers.granting 0 CTv.noSignalInfo
    let tv := (CTv.allocate ⟨fun _ => none, none, true, true, sourceHdmi1⟩).setTvObserver
    let c := start (fun _ _ => [.command ans "control.10.5".toList])
      (fun t : Fin 3 => [.detect (.sourceConnect sourceHdmi1 1), .user 0 .constructClient,
        .user 0 .destroyClient].get t)
      ⟨none, ⟨tv, ∅, fun _ => -1⟩⟩
    ∃ us, (∀ t, (Machine.run Config.step c ([1, 0, 1] ++ us)).Finished t) ∨
      ∃ t crash, (Machine.run Config.step c ([1, 0, 1] ++ us)).code t = .ret (.error crash) := by
  intro ans tv c
  refine (exists_completion _ _ _ (fun process event call hcall => ?_) [1, 0, 1]).2
  rw [List.mem_singleton.mp hcall]
  trivial

end Interleavings

/-! ## Callbacks that take the mutex of their client -/

section Jams

variable {ρ ρ' : Type} {held : Set Mutex}

/-- A code never gets to its end, whatever comes behind: it crashes, or acquires a mutex that it
holds. -/
def Jams (held : Set Mutex) (m : ServiceCode ρ) : Prop :=
  ∀ ⦃returns : Set Mutex → Except Crash Reply → Prop⦄ (k : ρ → ServiceCode Reply),
    (∀ held crash, returns held (.error crash)) →
    Code.Obeys (rules fun _ _ => True) returns held (m >>= k : ServiceCode Reply)

theorem Jams.bind {m : ServiceCode ρ} (h : Jams held m) (k : ρ → ServiceCode ρ') :
    Jams held (m >>= k) := by
  intro returns j hcrash
  rw [bind_assoc]
  exact h _ hcrash

theorem jams_locked_of_mem {mutex : Mutex} (h : mutex ∈ held) (m : ServiceCode ρ) :
    Jams held (locked mutex m) := fun _ _ _ => ⟨trivial, fun hnot => absurd h hnot⟩

theorem jams_locked {mutex : Mutex} {m : ServiceCode ρ} (h : Jams (insert mutex held) m) :
    Jams held (locked mutex m) := by
  intro returns k hcrash
  refine ⟨trivial, fun _ => ?_⟩
  exact h.bind (fun r => Code.release mutex (.ret (.ok r))) k hcrash

theorem jams_forM {α : Type} {m : α → ServiceCode PUnit} {as : List α}
    (h : ∀ a ∈ as, Keeps (fun _ _ => True) held (m a)) (hjams : ∃ a ∈ as, Jams held (m a)) :
    Jams held (as.forM m) := by
  induction as with
  | nil =>
    obtain ⟨a, ha, -⟩ := hjams
    exact absurd ha List.not_mem_nil
  | cons a as ih =>
    obtain ⟨ha, has⟩ := List.forall_mem_cons.mp h
    obtain ⟨b, hb, hjam⟩ := hjams
    rcases List.mem_cons.mp hb with rfl | hb
    · exact hjam.bind _
    · -- what comes first is done, and the rest jams
      intro returns k hcrash
      show Code.Obeys _ returns held ((m a >>= fun _ => as.forM m) >>= k : ServiceCode Reply)
      rw [bind_assoc]
      exact ha hcrash fun _ => ih has ⟨b, hb, hjam⟩ k hcrash

/-- A call that takes the mutex of its client jams where the mutex is held. -/
theorem jams_call {process : ℕ} {call : Call} (hclient : .tvclientMutex process ∈ held)
    (hcall : ¬ call.IsMethod) : Jams held (call.code threaded process) := by
  cases call with
  | command ans commandData => exact absurd trivial hcall
  | dataCommand ans commandBuf dataBuf => exact absurd trivial hcall
  | constructClient => exact jams_locked_of_mem hclient _
  | destroyClient => exact jams_locked_of_mem hclient _

theorem jams_onTransact {callback : ℕ → CTvEvent → List Call} {process : ℕ} {event : CTvEvent}
    (hcall : ∃ call ∈ callback process event, ¬ call.IsMethod) :
    Jams held (onTransact threaded callback process event) := by
  obtain ⟨call, hmem, hnot⟩ := hcall
  refine jams_locked (jams_forM (fun call _ => ?_) ⟨call, hmem, ?_⟩)
  · exact keeps_bind (keeps_call trivial fun _ => trivial) fun _ => keeps_return _
  · exact (jams_call (Set.mem_insert _ held) hnot).bind _

end Jams

section

variable {T : Type} [DecidableEq T] {callback : ℕ → CTvEvent → List Call}
  {activity : T → Activity} {shared : Shared} {process : ℕ} {event : CTvEvent}

/-- **A callback that constructs or destroys its client never returns**: a thread that is about to
hand the event to it does not get to its end by any schedule, unless it crashes. -/
theorem not_returns_of_callback (hcall : ∃ call ∈ callback process event, ¬ call.IsMethod)
    {ts : List T} {t : T} {k : PUnit → ServiceCode Reply}
    (ht : (Machine.run Config.step (start callback activity shared) ts).code t =
      (onTransact threaded callback process event >>= k : ServiceCode Reply))
    (us : List T) (reply : Reply) :
    (Machine.run Config.step (start callback activity shared) (ts ++ us)).code t ≠
      .ret (.ok reply) := by
  have hstart : (start callback activity shared).Obeys (rules fun _ _ => True)
      fun _ _ _ => True := by
    refine Config.obeys_start (fun t => ?_) shared
    have hkeeps : Keeps (fun _ _ => True) ∅ ((activity t).code threaded callback) :=
      keeps_activity (fun _ => trivial)
        (fun process event call _ => keeps_call trivial fun _ => trivial) (activity t)
    exact obeys_of_keeps hkeeps (fun _ _ => trivial) fun _ => trivial
  have hrun := Config.obeys_run hstart ts
  -- from here on, the thread only ever returns a crash
  have hjams : (Machine.run Config.step (start callback activity shared) ts).Obeys
      (rules fun _ _ => True) fun t' _ r => t' = t → ∃ crash, r = .error crash := by
    intro t'
    rcases eq_or_ne t' t with rfl | hne
    · rw [ht]
      exact jams_onTransact hcall k fun _ crash _ => ⟨crash, rfl⟩
    · exact (hrun t').mono (fun _ _ h => h) (fun _ _ h => h) fun _ _ _ heq => absurd heq hne
  intro hret
  rw [Machine.run_append] at hret
  obtain ⟨crash, hcrash⟩ := Config.returned_of_obeys hjams hret rfl
  cases hcrash

/-- A step on the parties goes on with what the operation returns. -/
theorem step_act {c : Config Shared Mutex T (Except Crash Reply)} {t : T} {ρ : Type}
    {op : Parties → Parties × Except Crash ρ} {k : ρ → ServiceCode Reply} {r : ρ}
    (hcode : c.code t = (act op >>= k : ServiceCode Reply))
    (hop : (op c.shared.parties).2 = .ok r) :
    (c.step t).code t = k r ∧ (c.step t).shared.parties = (op c.shared.parties).1 := by
  have hstep : c.step t = { c with
      shared := { c.shared with parties := (op c.shared.parties).1 }
      code := Function.update c.code t
        (Code.bind (.ret (op c.shared.parties).2) (ExceptT.bindCont k)) } := by
    rw [Config.step, hcode]
    rfl
  rw [hstep]
  refine ⟨?_, rfl⟩
  dsimp only
  rw [Function.update_self, hop]
  rfl

/-- A source that is plugged in or out is passed on to an observer. -/
theorem eventOp_sourceConnect {parties : Parties} (h : parties.mpTv.mpObserver = true)
    (source connectStatus : Int32) (ans : Answers) :
    (eventOp (.sourceConnect source connectStatus) parties).2 =
      .ok [.sourceConnect ⟨source, connectStatus⟩] := by
  have hnotices : (parties.mpTv.step (.sourceConnect source connectStatus, ans)).notices = _ :=
    CTv.notices_step (.sourceConnect source connectStatus, ans)
  have hobserved : parties.mpTv.view.observed = true := h
  have hevents : (parties.mpTv.onSourceConnect source connectStatus).view.events =
      parties.mpTv.view.events ++ [.sourceConnect ⟨source, connectStatus⟩] := by
    refine (congrArg Prod.snd hnotices).trans ?_
    rw [ReportView.send, if_pos hobserved]
    rfl
  show Except.ok (((parties.mpTv.onSourceConnect source connectStatus).view.events).drop _) = _
  rw [hevents, List.drop_left]

/-- A callback that destroys its client when a source is plugged in. -/
theorem not_returns_of_callback_destroy :
    let tv := (CTv.allocate ⟨fun _ => none, none, true, true, sourceHdmi1⟩).setTvObserver
    let destroys : ℕ → CTvEvent → List Call := fun _ _ => [.destroyClient]
    let plug : Unit → Activity := fun _ => .detect (.sourceConnect sourceHdmi1 1)
    let shared : Shared := ⟨none, ⟨tv, SlotMap.assign ∅ 0 0, fun _ => 0⟩⟩
    (Machine.run Config.step (start destroys plug shared)
      ([(), (), (), ()] ++ List.replicate 9 ())).code () ≠ .ret (.ok .done) := by
  intro tv destroys plug shared
  have hobserver : shared.parties.mpTv.mpObserver = true := rfl
  have hevents := eventOp_sourceConnect hobserver sourceHdmi1 1
    (Answers.granting 0 CTv.noSignalInfo)
  -- the event, the number of callbacks, and the first callback, read twice
  obtain ⟨hcode₁, hparties₁⟩ := step_act (c := start destroys plug shared) (t := ()) rfl hevents
  rw [List.forM, onTvEvent, bind_assoc, bind_assoc] at hcode₁
  obtain ⟨hcode₂, hparties₂⟩ := step_act (r := 1) hcode₁ (by rw [hparties₁]; rfl)
  have hrange : List.range 1 = [0] := rfl
  rw [hrange, List.forM, List.forM] at hcode₂
  unfold transactTo at hcode₂
  rw [bind_assoc, bind_assoc] at hcode₂
  obtain ⟨hcode₃, hparties₃⟩ := step_act (r := true) hcode₂ (by rw [hparties₂, hparties₁]; rfl)
  rw [if_pos rfl, bind_assoc] at hcode₃
  obtain ⟨hcode₄, -⟩ := step_act (r := 0) hcode₃ (by rw [hparties₃, hparties₂, hparties₁]; rfl)
  have hmem : ∃ call ∈ destroys 0 (.sourceConnect ⟨sourceHdmi1, 1⟩), ¬ call.IsMethod :=
    ⟨.destroyClient, List.mem_singleton_self _, id⟩
  have hrun : (Machine.run Config.step (start destroys plug shared) [(), (), (), ()]).code () =
    (_ : ServiceCode Reply) := hcode₄
  exact not_returns_of_callback hmem hrun (List.replicate 9 ()) .done

end

end TvService.Interleaved
