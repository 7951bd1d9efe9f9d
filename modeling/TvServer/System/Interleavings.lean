import TvServer.System.Threads
import TvServer.Tv.DecoderProtocol

/-!
# The television object in interleavings

Whatever the clients do at a time, the television object takes the steps of the commands that
their texts say, and of the events of the devices, one after the other. What holds after all of its
runs holds in every interleaving of threads, as long as no event is handled while a command is
performed: its decoder is started and stopped by turns.

## Main definitions

* `Request.commands`: the commands of the television object that a request is made of
* `Issues`: the commands that the threads may issue

## Main results

* `events_perform`: a request passes on no event
* `exists_issued`: in every interleaving the television object takes steps that the threads issue
* `decoder_interleaved`: the ioctls of the decoder alternate in every interleaving of clients
-/

namespace TvService

/-! ## Requests -/

/-- The commands of the television object that a request is made of. -/
def Request.commands : Request → List CTv.Command
  | startTv startSource => [.startTv startSource]
  | stopTv stopSource => [.stopTv stopSource]
  | setVdinWorkMode mode => [.setVdinWorkMode mode]
  | frontendField _ => [.getFrontendInfo .zero]
  | getSourceConnectStatus _ => []
  | setEdidVersion setSource setVersion => [.setEdidVersion setSource setVersion]
  | getEdidVersion _ => []
  | getColorFormat => []
  | getColorRange => [.getFrontendInfo .zero, .getColorRangeMode]
  | getColorDepth => []
  | getAspectRatio => []
  | invalid => []

/-- The steps of a request. -/
def Request.steps (ans : Answers) (request : Request) : List (CTv.Command × Answers) :=
  request.commands.map (·, ans)

/-- A request is performed by its steps. -/
theorem Request.perform_eq_steps {ans : Answers} {mpTv mpTv' : CTv} {ret : Int32}
    {request : Request} (h : request.perform ans mpTv = .ok (ret, mpTv')) :
    mpTv' = Machine.run CTv.step mpTv (request.steps ans) := by
  have hok {p : Int32 × CTv} (hp : (Except.ok p : Except Fault (Int32 × CTv)) = .ok (ret, mpTv')) :
      mpTv' = p.2 := by
    cases hp
    rfl
  cases request with
  | getSourceConnectStatus source =>
    -- the query reads files, and leaves the object as it is where it returns
    rw [perform, Checked.getSourceConnectStatus] at h
    cases hstatus : mpTv.getSourceConnectStatus ans source with
    | none =>
      rw [hstatus] at h
      cases h
    | some status =>
      rw [hstatus] at h
      exact hok h
  | _ => exact hok h

theorem Request.sentEvents_eq {request : Request} {command : CTv.Command}
    (h : command ∈ request.commands) (tv : CTv) (ans : Answers) :
    tv.sentEvents (command, ans) = [] := by
  cases request with
  | getColorRange =>
    rcases List.mem_pair.mp h with rfl | rfl
    · rfl
    · rfl
  | _ =>
    first
    | exact absurd h List.not_mem_nil
    | rw [List.mem_singleton.mp h]
      rfl

/-- **A request passes on no event**: a client that waits for the result of a command is not called
by the service meanwhile. -/
theorem events_perform {ans : Answers} {mpTv mpTv' : CTv} {ret : Int32} {request : Request}
    (h : request.perform ans mpTv = .ok (ret, mpTv')) :
    mpTv'.view.events = mpTv.view.events := by
  rw [Request.perform_eq_steps h]
  refine Machine.run_invariant_of_mem (fun tv : CTv => tv.view.events = mpTv.view.events)
    (fun tv x hx htv => ?_) rfl
  obtain ⟨command, hcommand, rfl⟩ := List.mem_map.mp hx
  have hnotices : (tv.step (command, ans)).view.events =
      tv.view.send (tv.sentEvents (command, ans)) :=
    congrArg Prod.snd (CTv.notices_step (command, ans))
  rw [hnotices, Request.sentEvents_eq hcommand, ReportView.send_nil]
  exact htv

/-! ## Issued commands -/

namespace Interleaved

open Threads (Code Config)

/-- The steps that a call issues: those of the request that its text is decoded to. -/
def Call.Issues (call : Call) (x : CTv.Command × Answers) : Prop :=
  ∃ ans commandData request, call = .command ans commandData ∧
    Checked.copyCommand commandData >>= Checked.request = .ok request ∧ x ∈ request.steps ans

/-- The step of an event. -/
def DeviceEvent.command (event : DeviceEvent) (x : CTv.Command × Answers) : Prop :=
  match event with
  | .sourceConnect source connectStatus => ∃ ans, x = (.sourceConnect source connectStatus, ans)
  | .vdinSignalChange ans => x = (.vdinSignalChange, ans)

/-- The steps that threads issue: those of their own calls, of the events they pass on, and of the
calls that callbacks make. -/
def Issues {T : Type} (callback : ℕ → CTvEvent → List Call) (activity : T → Activity)
    (x : CTv.Command × Answers) : Prop :=
  (∃ t process call, activity t = .user process call ∧ call.Issues x) ∨
    (∃ t event, activity t = .detect event ∧ event.command x) ∨
    ∃ process event, ∃ call ∈ callback process event, call.Issues x

/-- The television object takes steps of a kind. -/
def Advances (P : CTv.Command × Answers → Prop) (parties parties' : Parties) : Prop :=
  ∃ xs, (∀ x ∈ xs, P x) ∧ parties'.mpTv = Machine.run CTv.step parties.mpTv xs

theorem Advances.of_eq {P : CTv.Command × Answers → Prop} {parties parties' : Parties}
    (h : parties'.mpTv = parties.mpTv) : Advances P parties parties' :=
  ⟨[], fun _ hx => absurd hx List.not_mem_nil, h⟩

theorem Advances.trans {P : CTv.Command × Answers → Prop} {parties parties' parties'' : Parties}
    (h : Advances P parties parties') (h' : Advances P parties' parties'') :
    Advances P parties parties'' := by
  obtain ⟨xs, hxs, hrun⟩ := h
  obtain ⟨ys, hys, hrun'⟩ := h'
  refine ⟨xs ++ ys, fun x hx => ?_, ?_⟩
  · rcases List.mem_append.mp hx with hx | hx
    · exact hxs x hx
    · exact hys x hx
  · rw [Machine.run_append, ← hrun]
    exact hrun'

/-! ### Codes without locks -/

/-- Every step of a code advances the television object, whatever comes behind. -/
def advancing (P : CTv.Command × Answers → Prop) : Threads.Rules Parties Empty where
  access _ f := ∀ parties, Advances P parties (f parties)
  acquire _ _ := True

def AdvancesBy {ρ : Type} (P : CTv.Command × Answers → Prop) (m : AtomicCode ρ) : Prop :=
  ∀ ⦃k : ρ → AtomicCode Reply⦄,
    (∀ r, Code.Obeys (advancing P) (fun _ _ => True) ∅ (k r)) →
    Code.Obeys (advancing P) (fun _ _ => True) ∅ (m >>= k : AtomicCode Reply)

section

variable {P : CTv.Command × Answers → Prop} {ρ ρ' : Type}

theorem advancesBy_return (r : ρ) : AdvancesBy P (return r) := fun _ hk => hk r

theorem advancesBy_bind {m : AtomicCode ρ} {k : ρ → AtomicCode ρ'} (hm : AdvancesBy P m)
    (hk : ∀ r, AdvancesBy P (k r)) : AdvancesBy P (m >>= k) := by
  intro j hj
  rw [bind_assoc]
  exact hm fun r => hk r hj

theorem advancesBy_forM {α : Type} {m : α → AtomicCode PUnit} {as : List α}
    (h : ∀ a ∈ as, AdvancesBy P (m a)) : AdvancesBy P (as.forM m) := by
  induction as with
  | nil => exact advancesBy_return ()
  | cons a as ih =>
    obtain ⟨ha, has⟩ := List.forall_mem_cons.mp h
    exact advancesBy_bind ha fun _ => ih has

theorem advancesBy_atomic {op : Parties → Parties × Except Crash ρ}
    (h : ∀ parties, Advances P parties (op parties).1) : AdvancesBy P (atomic op) := by
  intro k hk
  refine ⟨h, fun parties => ?_⟩
  dsimp only
  cases (op parties).2 with
  | ok r => exact hk r
  | error crash => trivial

/-- A step that leaves the television object. -/
theorem advancesBy_atomic_of_eq {op : Parties → Parties × Except Crash ρ}
    (h : ∀ parties, (op parties).1.mpTv = parties.mpTv) : AdvancesBy P (atomic op) :=
  advancesBy_atomic fun parties => .of_eq (h parties)

end

/-- A command advances the television object by the steps that it issues. -/
theorem advances_commandOp (ans : Answers) (commandData : List Char) (parties : Parties) :
    Advances (Call.command ans commandData).Issues parties
      (commandOp ans commandData parties).1 := by
  rw [commandOp_eq]
  cases hrequest : Checked.copyCommand commandData >>= Checked.request with
  | error fault => exact .of_eq rfl
  | ok request =>
    dsimp only
    rw [performOp]
    cases hperform : request.perform ans parties.mpTv with
    | error fault => exact .of_eq rfl
    | ok p =>
      exact ⟨request.steps ans, fun x hx => ⟨ans, commandData, request, rfl, hrequest, hx⟩,
        Request.perform_eq_steps hperform⟩

section Issued

variable {T : Type} [DecidableEq T] (callback : ℕ → CTvEvent → List Call)
  (activity : T → Activity) {P : CTv.Command × Answers → Prop}

theorem advancesBy_registerAt (process clientSize : ℕ) (is : List ℕ) :
    AdvancesBy P (registerAt unlocked process clientSize is) := by
  induction is with
  | nil => exact advancesBy_bind (advancesBy_atomic_of_eq fun _ => rfl) fun _ => advancesBy_return _
  | cons i is ih =>
    refine advancesBy_bind (advancesBy_atomic_of_eq fun _ => rfl) fun isFilled => ?_
    cases isFilled with
    | false =>
      exact advancesBy_bind (advancesBy_atomic_of_eq fun _ => rfl) fun _ => advancesBy_return _
    | true => exact ih

theorem advancesBy_call (process : ℕ) {call : Call} (h : ∀ x, call.Issues x → P x) :
    AdvancesBy P (call.code unlocked process) := by
  cases call with
  | command ans commandData =>
    refine advancesBy_bind (advancesBy_atomic fun parties => ?_) fun _ => advancesBy_return _
    obtain ⟨xs, hxs, hrun⟩ := advances_commandOp ans commandData parties
    exact ⟨xs, fun x hx => h x (hxs x hx), hrun⟩
  | dataCommand ans commandBuf dataBuf =>
    exact advancesBy_bind (advancesBy_atomic_of_eq fun _ => rfl) fun _ => advancesBy_return _
  | constructClient =>
    have hid : AdvancesBy P (setTvServiceCallBack unlocked process) :=
      advancesBy_bind (advancesBy_atomic_of_eq fun _ => rfl) fun clientSize =>
        advancesBy_registerAt process clientSize _
    refine advancesBy_bind hid fun id => ?_
    exact advancesBy_bind (advancesBy_atomic_of_eq fun _ => rfl) fun _ => advancesBy_return _
  | destroyClient =>
    refine advancesBy_bind (advancesBy_atomic_of_eq fun _ => rfl) fun id => ?_
    exact advancesBy_bind (advancesBy_atomic_of_eq fun _ => rfl) fun _ => advancesBy_return _

variable {callback}

theorem advancesBy_onTvEvent
    (hcalls : ∀ process event, ∀ call ∈ callback process event, ∀ x, call.Issues x → P x)
    (event : CTvEvent) : AdvancesBy P (onTvEvent unlocked callback event) := by
  refine advancesBy_bind (advancesBy_atomic_of_eq fun _ => rfl) fun clientSize =>
    advancesBy_forM fun i _ => ?_
  refine advancesBy_bind (advancesBy_atomic_of_eq fun _ => rfl) fun isFilled => ?_
  cases isFilled with
  | false => exact advancesBy_return _
  | true =>
    refine advancesBy_bind (advancesBy_atomic_of_eq fun _ => rfl) fun process =>
      advancesBy_forM fun call hcall => ?_
    exact advancesBy_bind (advancesBy_call process (hcalls process event call hcall)) fun _ =>
      advancesBy_return _

theorem advancesBy_activity
    (hcalls : ∀ process event, ∀ call ∈ callback process event, ∀ x, call.Issues x → P x)
    {activity : Activity}
    (huser : ∀ process call, activity = .user process call → ∀ x, call.Issues x → P x)
    (hdetect : ∀ event, activity = .detect event → ∀ x, event.command x → P x) :
    AdvancesBy P (activity.code unlocked callback) := by
  cases activity with
  | user process call => exact advancesBy_call process (huser process call rfl)
  | detect event =>
    refine advancesBy_bind (advancesBy_atomic fun parties => ?_) fun events =>
      advancesBy_bind (advancesBy_forM fun event _ => advancesBy_onTvEvent hcalls event)
        fun _ => advancesBy_return _
    cases event with
    | sourceConnect source connectStatus =>
      have hx := hdetect _ rfl (.sourceConnect source connectStatus, .granting 0 CTv.noSignalInfo)
        ⟨_, rfl⟩
      exact ⟨[_], List.forall_mem_singleton.mpr hx, rfl⟩
    | vdinSignalChange ans =>
      have hx := hdetect _ rfl (.vdinSignalChange, ans) rfl
      exact ⟨[_], List.forall_mem_singleton.mpr hx, rfl⟩

variable (callback)

/-- In every interleaving the television object takes steps that the threads issue. -/
theorem exists_issued (parties : Parties) (order : List T) :
    ∃ xs : List (CTv.Command × Answers), (∀ x ∈ xs, Issues callback activity x) ∧
      (Machine.run Config.step (startUnlocked callback activity parties) order).shared.mpTv =
        Machine.run CTv.step parties.mpTv xs := by
  have hstart : (startUnlocked callback activity parties).Obeys
      (advancing (Issues callback activity)) fun _ _ _ => True := by
    refine Config.obeys_start (fun t => ?_) parties
    have hsteps : AdvancesBy (Issues callback activity) ((activity t).code unlocked callback) :=
      advancesBy_activity
        (fun process event call hcall x hx => .inr (.inr ⟨process, event, call, hcall, hx⟩))
        (fun process call hcall x hx => .inl ⟨t, process, call, hcall, hx⟩)
        (fun event hevent x hx => .inr (.inl ⟨t, event, hevent, hx⟩))
    have hend := hsteps (k := pure) fun _ => trivial
    rw [bind_pure] at hend
    exact hend
  exact Config.shared_run (R := Advances (Issues callback activity)) (fun _ => .of_eq rfl)
    (fun _ _ _ => .trans) (fun _ _ h => h) hstart order

/-- **Interleavings of commands**: what any schedule makes of the parties, and what the threads
return, is what threads make of them and return that take no locks, and that perform every command
in one step; and the television object has taken the steps of the commands that the texts say, and
of the events of the devices, one after the other, and no other steps. -/
theorem interleavings_refine (shared : Shared) (ts : List T) :
    ∃ order, order.Sublist ts ∧
      (Machine.run Config.step (start callback activity shared) ts).shared.parties =
        (Machine.run Config.step
          (startUnlocked callback activity shared.parties) order).shared ∧
      (∀ t r, (Machine.run Config.step (start callback activity shared) ts).code t = .ret r →
        (Machine.run Config.step
          (startUnlocked callback activity shared.parties) order).code t = .ret r) ∧
      ∃ xs : List (CTv.Command × Answers), (∀ x ∈ xs, Issues callback activity x) ∧
        (Machine.run Config.step (start callback activity shared) ts).shared.parties.mpTv =
          Machine.run CTv.step shared.parties.mpTv xs := by
  obtain ⟨order, hsub, hparties, hreturns⟩ := refines_unlocked callback activity shared ts
  obtain ⟨xs, hxs, hrun⟩ := exists_issued callback activity shared.parties order
  exact ⟨order, hsub, hparties, hreturns, xs, hxs, by rw [hparties, hrun]⟩

end Issued

end Interleaved

end TvService
