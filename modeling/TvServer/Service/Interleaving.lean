import TvServer.Foundations.Threads
import TvServer.Service.Callbacks
import TvServer.Service.DataCommands
import TvServer.Service.TableAccess

/-!
# Interleavings in the service

The transactions of the clients are handled by a pool of threads. A command is taken apart with
`strtok`, which keeps the place where it goes on in a static pointer: any other thread that takes a
command apart meanwhile would move the pointer to its own text. The commands and the data commands
are therefore handled while a mutex is held.

An operation of the television object is one step here, as it is in the model of the object. The
commands hold the mutex while they are performed, so that their operations do not overlap; the
thread that passes on the events of the devices takes no mutex, and an event that is handled while a
command is performed is left out.

## Main definitions

* `Mutex`, `Shared`: the locks, and what the threads share
* `strtok`: the next token, by the static pointer
* `parserTvCommand`, `parserTvDataCommand`: the handling of a command and of a data command
* `ActsAs`: a code acts as one without locks, whatever other threads do
* `Keeps`: a code keeps to the rules of the locks

## Main results

* `actsAs_parserTvCommand`, `actsAs_parserTvDataCommand`: whatever other threads do, a command is
  handled as its text alone says, in one step
* `keeps_parserTvCommand`, `keeps_parserTvDataCommand`: the pointer is moved with the mutex only
* `toOption_dataRequest`: a data command, with a look at faults and without
-/

namespace TvService

open CText (TextBuffer)
open Threads (Code)

/-! ## The shared state -/

/-- The locks: the mutex of the service, and that of each client process. -/
inductive Mutex where
  | tvserviceMutex
  | tvclientMutex (process : ℕ)
deriving DecidableEq

/-- The television object, the registry, whose callbacks are numbers of processes, and the ids that
the processes were given. -/
structure Parties where
  mpTv : CTv
  mTvServiceCallBack : SlotMap ℕ
  tvServicebinderId : ℕ → ℤ

/-- What the threads share: the parties, and the static pointer of `strtok`. -/
structure Shared where
  strtokRest : Option TextBuffer
  parties : Parties

/-- What a thread returns: nothing, the result of a command, or that of a data command. -/
inductive Reply where
  | done
  | command (ret : Int32)
  | dataCommand (ret : Int32 × Vector UInt8 dataBufSize × List EdidPortAction)

/-- What ends a thread: a fault of the parser, or a callback that is null where it is called. -/
inductive Crash where
  | fault (fault : Fault)
  | nullCallBack

/-- The code of a thread, which a crash ends while it holds its locks. -/
abbrev ServiceCode := ExceptT Crash (Code Shared Mutex)

/-- A code on the parties alone, that takes no locks. -/
abbrev AtomicCode := ExceptT Crash (Code Parties Empty)

/-! ## Data requests -/

/-- What the parser makes of a data command. -/
inductive DataRequest where
  | set (setSource : SourceInput)
  | get
  | invalid

/-- Perform a data command: its result, the data buffer behind it, and what was asked of the HDMI
receiver. -/
def DataRequest.perform (ans : EdidPortAnswers) (mpTv : CTv)
    (dataBuf : Vector UInt8 dataBufSize) :
    DataRequest → Int32 × Vector UInt8 dataBufSize × List EdidPortAction
  | set setSource =>
    let ret := mpTv.setEdidData ans setSource (tempData dataBuf)
    (ret.1, dataBuf, ret.2)
  | get =>
    let ret := CTv.getEdidData
    let dataBuf := Vector.ofFn fun i : Fin dataBufSize =>
      if h : i.val < CTv.realEdidDataSize then (ret.2.get ⟨i.val, h⟩).toUInt8 else dataBuf.get i
    (ret.1, dataBuf, [])
  | invalid => (0, dataBuf, [])

namespace Checked

/-- The copy of a data command, which takes as much of the memory as the buffer has room. -/
def copyDataCommand (commandBuf : List Char) : TextBuffer :=
  ⟨Lines.cstr (commandBuf.take dataBufSize), '\x00' ∈ commandBuf.take dataBufSize⟩

/-- The request of the data command in the buffer. -/
def dataRequest (cmdbuff : TextBuffer) : Except Fault DataRequest := do
  let (cmdID, cmdbuff) ← nextInt cmdbuff
  if cmdID = hdmiEdidDataSet then
    let (setSource, _) ← nextInt cmdbuff
    return .set setSource
  else if cmdID = hdmiEdidDataGet then
    let (_, _) ← nextInt cmdbuff
    return .get
  else return .invalid

end Checked

namespace Interleaved

/-! ## Tokens -/

/-- The next token of a text, and where the pointer is moved to; the pointer is null until a first
text was given. -/
def token : Option TextBuffer → Except Fault (List Char) × Option TextBuffer
  | some cmdbuff =>
    match Checked.nextToken cmdbuff with
    | .ok (temp, cmdbuff) => (.ok temp, some cmdbuff)
    | .error fault => (.error fault, some cmdbuff)
  | none => (.error .absentToken, none)

/-- `strtok` for a text, or behind the last token: the pointer is read, and written back behind the
next token, which `strcmp` or `atoi` reads. -/
def strtok (s : Option TextBuffer) : ServiceCode (List Char) :=
  .access id fun shared =>
    let next := token (s <|> shared.strtokRest)
    .access (fun shared => { shared with strtokRest := next.2 })
      fun _ => .ret (next.1.mapError .fault)

def nextInt : ServiceCode Int32 := do
  let temp ← strtok none
  return CText.atoi temp

/-! ## Commands -/

/-- The commands that start with `control`. -/
def controlRequest : ServiceCode Request := do
  let moudleID ← nextInt
  if moudleID = tvControlStartTv then
    let startSource ← nextInt
    return .startTv startSource
  else if moudleID = tvControlStopTv then
    let stopSource ← nextInt
    return .stopTv stopSource
  else if moudleID = tvControlVdinWorkModeSet then
    let setVdinWorkMode ← nextInt
    return .setVdinWorkMode setVdinWorkMode.toUInt32
  else if moudleID = tvControlGetFrameHeight then return .frontendField (·.height)
  else if moudleID = tvControlGetFrameWidth then return .frontendField (·.width)
  else if moudleID = tvControlGetFrameRate then return .frontendField (·.fps)
  else if moudleID = tvControlGetColorDepth then return .frontendField (·.colordepth)
  else if moudleID = tvControlGetLineScanMode then return .frontendField (·.scanMode)
  else if moudleID = tvControlGetConnectStatus then
    let source ← nextInt
    return .getSourceConnectStatus source
  else return .invalid

/-- The commands that start with `edid`. -/
def edidRequest : ServiceCode Request := do
  let temp ← strtok none
  if temp = "set".toList then
    let moudleID ← nextInt
    let setSource ← nextInt
    if moudleID = hdmiEdidVerSet then
      let setVersion ← nextInt
      return .setEdidVersion setSource setVersion.toUInt32
    else return .invalid
  else if temp = "get".toList then
    let moudleID ← nextInt
    let getSource ← nextInt
    if moudleID = hdmiEdidVerGet then return .getEdidVersion getSource
    else return .invalid
  else return .invalid

/-- The commands that start with `hdmi`. -/
def hdmiRequest : ServiceCode Request := do
  let moudleID ← nextInt
  if moudleID = hdmiGetColorFormat then return .getColorFormat
  else if moudleID = hdmiGetColorRange then return .getColorRange
  else if moudleID = hdmiGetColorDepth then return .getColorDepth
  else if moudleID = hdmiGetAspectRatio then return .getAspectRatio
  else return .invalid

/-- The request of the command in the buffer. -/
def request (cmdbuff : TextBuffer) : ServiceCode Request := do
  let temp ← strtok (some cmdbuff)
  if temp = "control".toList then controlRequest
  else if temp = "edid".toList then edidRequest
  else if temp = "hdmi".toList then hdmiRequest
  else return .invalid

/-- The request of the data command in the buffer. -/
def dataRequest (cmdbuff : TextBuffer) : ServiceCode DataRequest := do
  let temp ← strtok (some cmdbuff)
  if CText.atoi temp = hdmiEdidDataSet then
    let setSource ← nextInt
    return .set setSource
  else if CText.atoi temp = hdmiEdidDataGet then
    let _ ← nextInt
    return .get
  else return .invalid

/-! ## Handling -/

/-- What is done while a mutex is held. -/
def locked {ρ : Type} (mutex : Mutex) (m : ServiceCode ρ) : ServiceCode ρ := do
  Code.acquire mutex (.ret (.ok ()))
  let r ← m
  Code.release mutex (.ret (.ok r))

/-- One step that acts on the parties. -/
def act {ρ : Type} (op : Parties → Parties × Except Crash ρ) : ServiceCode ρ :=
  .access (fun shared => { shared with parties := (op shared.parties).1 })
    fun shared => .ret (op shared.parties).2

def copyCommand (commandData : List Char) : ServiceCode TextBuffer :=
  .access id fun _ => .ret ((Checked.copyCommand commandData).mapError .fault)

/-- Perform a request on the television object, where an operation of the object is one step. -/
def performOp (ans : Answers) (request : Request) (parties : Parties) :
    Parties × Except Crash Int32 :=
  match request.perform ans parties.mpTv with
  | .ok (ret, mpTv) => ({ parties with mpTv := mpTv }, .ok ret)
  | .error fault => (parties, .error (.fault fault))

/-- Handle a command. -/
def parserTvCommand (ans : Answers) (commandData : List Char) : ServiceCode Int32 :=
  locked .tvserviceMutex do
    let cmdbuff ← copyCommand commandData
    let request ← request cmdbuff
    act (performOp ans request)

/-- Perform a data command, which reads the map of the ports. -/
def performDataOp (ans : EdidPortAnswers) (dataBuf : Vector UInt8 dataBufSize)
    (request : DataRequest) (parties : Parties) :
    Parties × Except Crash (Int32 × Vector UInt8 dataBufSize × List EdidPortAction) :=
  (parties, .ok (request.perform ans parties.mpTv dataBuf))

/-- Handle a data command. -/
def parserTvDataCommand (ans : EdidPortAnswers) (commandBuf : List Char)
    (dataBuf : Vector UInt8 dataBufSize) :
    ServiceCode (Int32 × Vector UInt8 dataBufSize × List EdidPortAction) :=
  locked .tvserviceMutex do
    let request ← dataRequest (Checked.copyDataCommand commandBuf)
    act (performDataOp ans dataBuf request)

/-! ## What the mutex protects -/

/-- The static pointer of `strtok` is protected by the mutex of the service; the mutexes of the
clients protect nothing that is shared in the service. -/
def protects : Mutex → Shared → Option TextBuffer
  | .tvserviceMutex, shared => shared.strtokRest
  | .tvclientMutex _, _ => none

/-- One step of a code on the parties alone. -/
def atomic {ρ : Type} (op : Parties → Parties × Except Crash ρ) : AtomicCode ρ :=
  .access (fun parties => (op parties).1) fun parties => .ret (op parties).2

/-- **A code acts as another one on the parties**, whatever other threads do, and whatever comes
behind: it begins and returns with a set of locks. -/
def ActsAs {ρ : Type} (held : Set Mutex) (m : ServiceCode ρ) (spec : AtomicCode ρ) : Prop :=
  ∀ ⦃k : ρ → ServiceCode Reply⦄ ⦃k' : ρ → AtomicCode Reply⦄,
    (∀ r shared, Code.Refines protects Shared.parties held (k r) (k' r) shared) →
    ∀ shared, Code.Refines protects Shared.parties held (m >>= k : ServiceCode Reply)
      (spec >>= k' : AtomicCode Reply) shared

section

variable {ρ ρ' : Type} {held : Set Mutex}

theorem actsAs_return (r : ρ) : ActsAs held (return r) (return r) := fun _ _ hk => hk r

theorem actsAs_bind {m : ServiceCode ρ} {spec : AtomicCode ρ} {k : ρ → ServiceCode ρ'}
    {k' : ρ → AtomicCode ρ'} (hm : ActsAs held m spec) (hk : ∀ r, ActsAs held (k r) (k' r)) :
    ActsAs held (m >>= k) (spec >>= k') := by
  intro j j' hj shared
  rw [bind_assoc, bind_assoc]
  exact hm (fun r => hk r hj) shared

theorem actsAs_forM {α : Type} {m : α → ServiceCode PUnit} {spec : α → AtomicCode PUnit}
    (h : ∀ a, ActsAs held (m a) (spec a)) (as : List α) :
    ActsAs held (as.forM m) (as.forM spec) := by
  induction as with
  | nil => exact actsAs_return ()
  | cons a as ih => exact actsAs_bind (h a) fun _ => ih

/-- A step on the parties is one step, with the locks that are held. -/
theorem actsAs_act (op : Parties → Parties × Except Crash ρ) :
    ActsAs held (act op) (atomic op) := by
  intro k k' hk shared shared' hagree
  refine .inr ⟨_, _, rfl, rfl, ?_⟩
  dsimp only
  cases (op shared'.parties).2 with
  | ok r => exact hk r _
  | error crash => rfl

/-- What is done while a mutex is held, is done by a code that takes no locks as it is done with the
mutex; a mutex that is held already is never got. -/
theorem actsAs_locked {mutex : Mutex} {m : ServiceCode ρ} {spec : AtomicCode ρ}
    (h : ActsAs (insert mutex held) m spec) : ActsAs held (locked mutex m) spec := by
  intro k k' hk shared hnot shared' hagree
  show Code.Refines protects Shared.parties (insert mutex held)
    ((m >>= fun r => Code.release mutex (.ret (.ok r))) >>= k : ServiceCode Reply)
    (spec >>= k' : AtomicCode Reply) shared'
  rw [bind_assoc]
  refine h (fun r shared₁ => ?_) shared'
  intro shared₂ hagree₂
  rw [Set.insert_sdiff_self_of_notMem hnot]
  exact hk r shared₂

end

/-- The code acts on the parties as an operation that it has yet to perform. -/
def Implements {ρ : Type} (held : Set Mutex) (op : Parties → Parties × Except Crash ρ)
    (k' : ρ → AtomicCode Reply) (code : ServiceCode Reply) (shared : Shared) : Prop :=
  Code.Refines protects Shared.parties held code (atomic op >>= k' : AtomicCode Reply) shared

section

variable {ρ : Type} {held : Set Mutex} {op : Parties → Parties × Except Crash ρ}
  {k' : ρ → AtomicCode Reply} {shared : Shared}

/-- The access in which a code crashes is the operation, where the operation crashes. -/
theorem implements_crash {crash : Crash} (hop : ∀ parties, op parties = (parties, .error crash))
    {f : Shared → Shared} (hf : ∀ shared, (f shared).parties = shared.parties)
    {next : Shared → ServiceCode Reply} (hnext : ∀ shared, next shared = .ret (.error crash))
    (shared : Shared) : Implements held op k' (.access f next) shared := by
  intro shared' hagree
  have hop := hop shared'.parties
  refine .inr ⟨_, _, rfl, (hf shared').trans (congrArg Prod.fst hop).symm, ?_⟩
  rw [hnext]
  show Code.bind (.ret (op shared'.parties).2) (ExceptT.bindCont k') = .ret (.error crash)
  rw [hop]
  rfl

/-- A token is taken from the text where the pointer is, since no other thread moves it. -/
theorem implements_strtok (hheld : .tvserviceMutex ∈ held) {s : Option TextBuffer}
    {cmdbuff : TextBuffer} {k : List Char → ServiceCode Reply}
    (hs : (s <|> shared.strtokRest) = some cmdbuff)
    (hfault : ∀ fault, Checked.nextToken cmdbuff = .error fault →
      ∀ parties, op parties = (parties, .error (.fault fault)))
    (hk : ∀ temp behind, Checked.nextToken cmdbuff = .ok (temp, behind) →
      ∀ shared', shared'.strtokRest = some behind → Implements held op k' (k temp) shared') :
    Implements held op k' (strtok s >>= k) shared := by
  intro shared₁ hagree₁
  have hrest₁ : shared₁.strtokRest = shared.strtokRest := hagree₁ .tvserviceMutex hheld
  have htoken : token (s <|> shared₁.strtokRest) = token (some cmdbuff) := by rw [hrest₁, hs]
  refine .inl ⟨rfl, ?_⟩
  dsimp only
  rw [htoken, token]
  cases hnext : Checked.nextToken cmdbuff with
  | ok p => exact fun shared₂ hagree₂ => .inl ⟨rfl, hk p.1 p.2 hnext _ rfl⟩
  | error fault =>
    exact implements_crash (hfault fault hnext) (fun _ => rfl) (fun _ => rfl) shared₁

end

/-! ## Decoding -/

/-- **A code decodes a text**: with the pointer at the text, it goes on as what is read there alone
says, whatever other threads do, and whatever comes behind. -/
def Decodes {ρ : Type} (m : ServiceCode ρ) (cmdbuff : TextBuffer) (e : Except Fault ρ) : Prop :=
  ∀ ⦃held : Set Mutex⦄ ⦃ρ' : Type⦄ ⦃op : Parties → Parties × Except Crash ρ'⦄
    ⦃k' : ρ' → AtomicCode Reply⦄ ⦃k : ρ → ServiceCode Reply⦄ ⦃shared : Shared⦄,
    .tvserviceMutex ∈ held → shared.strtokRest = some cmdbuff →
    (∀ fault, e = .error fault → ∀ parties, op parties = (parties, .error (.fault fault))) →
    (∀ r, e = .ok r → ∀ shared', Implements held op k' (k r) shared') →
    Implements held op k' (m >>= k) shared

section Decoding

variable {ρ ρ' : Type} {cmdbuff : TextBuffer} {held : Set Mutex}
  {op : Parties → Parties × Except Crash ρ'} {k' : ρ' → AtomicCode Reply} {shared : Shared}

theorem decodes_return (r : ρ) (cmdbuff : TextBuffer) : Decodes (return r) cmdbuff (return r) :=
  fun _ _ _ _ _ _ _ _ _ hk => hk r rfl _

theorem decodes_ite {c : Prop} [Decidable c] {m m' : ServiceCode ρ} {e e' : Except Fault ρ}
    (h : Decodes m cmdbuff e) (h' : Decodes m' cmdbuff e') :
    Decodes (if c then m else m') cmdbuff (if c then e else e') := by
  split_ifs
  · exact h
  · exact h'

/-- What follows a token decodes the text behind it. -/
theorem implements_strtok_bind (hheld : .tvserviceMutex ∈ held) {s : Option TextBuffer}
    {m : List Char → ServiceCode ρ} {e : List Char × TextBuffer → Except Fault ρ}
    (h : ∀ temp behind, Decodes (m temp) behind (e (temp, behind))) {k : ρ → ServiceCode Reply}
    (hs : (s <|> shared.strtokRest) = some cmdbuff)
    (hfault : ∀ fault, Checked.nextToken cmdbuff >>= e = .error fault →
      ∀ parties, op parties = (parties, .error (.fault fault)))
    (hk : ∀ r, Checked.nextToken cmdbuff >>= e = .ok r →
      ∀ shared', Implements held op k' (k r) shared') :
    Implements held op k' (strtok s >>= m >>= k) shared := by
  rw [bind_assoc]
  refine implements_strtok hheld hs (fun fault hnone => hfault fault ?_) ?_
  · rw [hnone]
    rfl
  · intro temp behind htoken shared' hrest
    refine h temp behind hheld hrest (fun fault he => hfault fault ?_) (fun r he => hk r ?_)
    · rw [htoken]
      exact he
    · rw [htoken]
      exact he

theorem decodes_strtok {m : List Char → ServiceCode ρ}
    {e : List Char × TextBuffer → Except Fault ρ}
    (h : ∀ temp behind, Decodes (m temp) behind (e (temp, behind))) (cmdbuff : TextBuffer) :
    Decodes (strtok none >>= m) cmdbuff (Checked.nextToken cmdbuff >>= e) :=
  fun _ _ _ _ _ _ hheld hrest hfault hk => implements_strtok_bind hheld h hrest hfault hk

theorem decodes_nextInt {m : Int32 → ServiceCode ρ} {e : Int32 × TextBuffer → Except Fault ρ}
    (h : ∀ i behind, Decodes (m i) behind (e (i, behind))) (cmdbuff : TextBuffer) :
    Decodes (nextInt >>= m) cmdbuff (Checked.nextInt cmdbuff >>= e) := by
  rw [nextInt, Checked.nextInt, bind_assoc, bind_assoc]
  exact decodes_strtok (fun temp behind => h (CText.atoi temp) behind) cmdbuff

theorem decodes_nextInt_return (make : Int32 → ρ) (cmdbuff : TextBuffer) :
    Decodes (do let i ← nextInt; return make i) cmdbuff
      (do let (i, _) ← Checked.nextInt cmdbuff; return make i) :=
  decodes_nextInt (fun i behind => decodes_return (make i) behind) cmdbuff

end Decoding

theorem decodes_controlRequest (cmdbuff : TextBuffer) :
    Decodes controlRequest cmdbuff (Checked.controlRequest cmdbuff) := by
  refine decodes_nextInt (fun moudleID behind => ?_) cmdbuff
  dsimp only
  refine decodes_ite (decodes_nextInt_return Request.startTv behind) ?_
  refine decodes_ite (decodes_nextInt_return Request.stopTv behind) ?_
  refine decodes_ite
    (decodes_nextInt_return (fun i => Request.setVdinWorkMode i.toUInt32) behind) ?_
  refine decodes_ite (decodes_return _ behind) ?_
  refine decodes_ite (decodes_return _ behind) ?_
  refine decodes_ite (decodes_return _ behind) ?_
  refine decodes_ite (decodes_return _ behind) ?_
  refine decodes_ite (decodes_return _ behind) ?_
  exact decodes_ite (decodes_nextInt_return Request.getSourceConnectStatus behind)
    (decodes_return _ behind)

theorem decodes_edidRequest (cmdbuff : TextBuffer) :
    Decodes edidRequest cmdbuff (Checked.edidRequest cmdbuff) := by
  refine decodes_strtok (fun temp behind => ?_) cmdbuff
  dsimp only
  refine decodes_ite ?_ (decodes_ite ?_ (decodes_return _ behind))
  · refine decodes_nextInt (fun moudleID behind => ?_) behind
    refine decodes_nextInt (fun setSource behind => ?_) behind
    exact decodes_ite
      (decodes_nextInt_return (fun i => Request.setEdidVersion setSource i.toUInt32) behind)
      (decodes_return _ behind)
  · refine decodes_nextInt (fun moudleID behind => ?_) behind
    refine decodes_nextInt (fun getSource behind => ?_) behind
    exact decodes_ite (decodes_return _ behind) (decodes_return _ behind)

theorem decodes_hdmiRequest (cmdbuff : TextBuffer) :
    Decodes hdmiRequest cmdbuff (Checked.hdmiRequest cmdbuff) := by
  refine decodes_nextInt (fun moudleID behind => ?_) cmdbuff
  dsimp only
  refine decodes_ite (decodes_return _ behind) ?_
  refine decodes_ite (decodes_return _ behind) ?_
  refine decodes_ite (decodes_return _ behind) ?_
  exact decodes_ite (decodes_return _ behind) (decodes_return _ behind)

/-- What follows the first token of a command. -/
theorem decodes_family (temp : List Char) (behind : TextBuffer) :
    Decodes
      (if temp = "control".toList then controlRequest
        else if temp = "edid".toList then edidRequest
        else if temp = "hdmi".toList then hdmiRequest
        else return .invalid) behind
      (if temp = "control".toList then Checked.controlRequest behind
        else if temp = "edid".toList then Checked.edidRequest behind
        else if temp = "hdmi".toList then Checked.hdmiRequest behind
        else return .invalid) := by
  refine decodes_ite (decodes_controlRequest behind) ?_
  refine decodes_ite (decodes_edidRequest behind) ?_
  exact decodes_ite (decodes_hdmiRequest behind) (decodes_return _ behind)

/-- What follows the first token of a data command. -/
theorem decodes_dataFamily (temp : List Char) (behind : TextBuffer) :
    Decodes
      (if CText.atoi temp = hdmiEdidDataSet then do
          let setSource ← nextInt
          return .set setSource
        else if CText.atoi temp = hdmiEdidDataGet then do
          let _ ← nextInt
          return .get
        else return .invalid) behind
      (if CText.atoi temp = hdmiEdidDataSet then do
          let (setSource, _) ← Checked.nextInt behind
          return .set setSource
        else if CText.atoi temp = hdmiEdidDataGet then do
          let (_, _) ← Checked.nextInt behind
          return .get
        else return DataRequest.invalid) := by
  refine decodes_ite (decodes_nextInt_return DataRequest.set behind) ?_
  exact decodes_ite (decodes_nextInt_return (fun _ => DataRequest.get) behind)
    (decodes_return _ behind)

section Requests

variable {ρ : Type} {held : Set Mutex} {op : Parties → Parties × Except Crash ρ}
  {k' : ρ → AtomicCode Reply} {shared : Shared} {cmdbuff : TextBuffer}

/-- A command is decoded as its text alone says. -/
theorem implements_request (hheld : .tvserviceMutex ∈ held) {k : Request → ServiceCode Reply}
    (hfault : ∀ fault, Checked.request cmdbuff = .error fault →
      ∀ parties, op parties = (parties, .error (.fault fault)))
    (hk : ∀ r, Checked.request cmdbuff = .ok r → ∀ shared', Implements held op k' (k r) shared') :
    Implements held op k' (request cmdbuff >>= k) shared :=
  implements_strtok_bind hheld decodes_family rfl hfault hk

/-- A data command is decoded as its text alone says. -/
theorem implements_dataRequest (hheld : .tvserviceMutex ∈ held)
    {k : DataRequest → ServiceCode Reply}
    (hfault : ∀ fault, Checked.dataRequest cmdbuff = .error fault →
      ∀ parties, op parties = (parties, .error (.fault fault)))
    (hk : ∀ r, Checked.dataRequest cmdbuff = .ok r →
      ∀ shared', Implements held op k' (k r) shared') :
    Implements held op k' (dataRequest cmdbuff >>= k) shared := by
  rw [Checked.dataRequest, Checked.nextInt, bind_assoc] at hfault hk
  exact implements_strtok_bind hheld decodes_dataFamily rfl hfault hk

end Requests

/-! ## Commands as operations -/

/-- A command as one operation. -/
def commandOp (ans : Answers) (commandData : List Char) (parties : Parties) :
    Parties × Except Crash Int32 :=
  match Checked.parserTvCommand ans ⟨false, parties.mpTv⟩ commandData with
  | .ok (ret, service) => ({ parties with mpTv := service.mpTv }, .ok ret)
  | .error fault => (parties, .error (.fault fault))

/-- A data command as one operation. -/
def dataCommandOp (ans : EdidPortAnswers) (commandBuf : List Char)
    (dataBuf : Vector UInt8 dataBufSize) (parties : Parties) :
    Parties × Except Crash (Int32 × Vector UInt8 dataBufSize × List EdidPortAction) :=
  (parties, ((Checked.dataRequest (Checked.copyDataCommand commandBuf)).map
    (·.perform ans parties.mpTv dataBuf)).mapError .fault)

variable {ans : Answers} {commandData : List Char} {held : Set Mutex}

theorem commandOp_eq (parties : Parties) : commandOp ans commandData parties =
    match Checked.copyCommand commandData >>= Checked.request with
    | .ok request => performOp ans request parties
    | .error fault => (parties, .error (.fault fault)) := by
  rw [commandOp, parserTvCommand_eq_request]
  cases Checked.copyCommand commandData >>= Checked.request with
  | error fault => rfl
  | ok request =>
    have hperform : (Except.ok request >>= (·.perform ans parties.mpTv)) =
        request.perform ans parties.mpTv := rfl
    rw [hperform]
    dsimp only
    rw [performOp]
    cases request.perform ans parties.mpTv <;> rfl

/-- A step on the parties performs the operation that it is. -/
theorem implements_act {ρ : Type} {op step : Parties → Parties × Except Crash ρ}
    (hop : ∀ parties, op parties = step parties) {k : ρ → ServiceCode Reply}
    {k' : ρ → AtomicCode Reply}
    (hk : ∀ r shared, Code.Refines protects Shared.parties held (k r) (k' r) shared)
    (shared : Shared) : Implements held op k' (act step >>= k) shared := by
  obtain rfl : op = step := funext hop
  exact actsAs_act op hk shared

/-- **A command acts as one operation**, whatever other threads do: the mutex keeps its tokens. -/
theorem actsAs_parserTvCommand (ans : Answers) (commandData : List Char) :
    ActsAs held (parserTvCommand ans commandData) (atomic (commandOp ans commandData)) := by
  refine actsAs_locked ?_
  intro k k' hk shared
  have hin : Mutex.tvserviceMutex ∈ insert .tvserviceMutex held := Set.mem_insert _ _
  cases hcopy : Checked.copyCommand commandData with
  | error fault =>
    have hop : ∀ parties, commandOp ans commandData parties =
        (parties, .error (.fault fault)) := by
      intro parties
      rw [commandOp_eq, hcopy]
      rfl
    refine implements_crash hop (fun _ => rfl) (fun _ => ?_) shared
    rw [hcopy]
    rfl
  | ok cmdbuff =>
    have hrequest : Checked.copyCommand commandData >>= Checked.request =
        Checked.request cmdbuff := by
      rw [hcopy]
      rfl
    intro shared₁ hagree₁
    refine .inl ⟨rfl, ?_⟩
    rw [hcopy]
    show Implements _ (commandOp ans commandData) k'
      ((request cmdbuff >>= fun request => act (performOp ans request)) >>= k) shared₁
    rw [bind_assoc]
    refine implements_request hin (fun fault hfault parties => ?_) fun request hok => ?_
    · rw [commandOp_eq, hrequest.trans hfault]
    · refine implements_act (fun parties => ?_) hk
      rw [commandOp_eq, hrequest.trans hok]

/-- **A data command acts as one operation**, whatever other threads do. -/
theorem actsAs_parserTvDataCommand (ans : EdidPortAnswers) (commandBuf : List Char)
    (dataBuf : Vector UInt8 dataBufSize) :
    ActsAs held (parserTvDataCommand ans commandBuf dataBuf)
      (atomic (dataCommandOp ans commandBuf dataBuf)) := by
  refine actsAs_locked ?_
  intro k k' hk shared
  have hin : Mutex.tvserviceMutex ∈ insert .tvserviceMutex held := Set.mem_insert _ _
  rw [bind_assoc]
  refine implements_dataRequest hin (fun fault hfault parties => ?_) fun request hok => ?_
  · rw [dataCommandOp, hfault]
    rfl
  · refine implements_act (fun parties => ?_) hk
    rw [dataCommandOp, hok]
    rfl

/-! ## Locks -/

/-- The rules of the threads: the pointer of `strtok` is moved with the mutex of the service only,
and the mutexes are acquired as given. -/
def rules (acquire : Set Mutex → Mutex → Prop) : Threads.Rules Shared Mutex where
  access := (Code.protection protects).access
  acquire := acquire

/-- A code keeps to the rules, whatever comes behind; it begins and returns with a set of locks. -/
def Keeps {ρ : Type} (acquire : Set Mutex → Mutex → Prop) (held : Set Mutex)
    (m : ServiceCode ρ) : Prop :=
  ∀ ⦃returns : Set Mutex → Except Crash Reply → Prop⦄ ⦃k : ρ → ServiceCode Reply⦄,
    (∀ held crash, returns held (.error crash)) →
    (∀ r, Code.Obeys (rules acquire) returns held (k r)) →
    Code.Obeys (rules acquire) returns held (m >>= k : ServiceCode Reply)

section

variable {ρ ρ' : Type} {acquire : Set Mutex → Mutex → Prop} {held : Set Mutex}

theorem keeps_return (r : ρ) : Keeps acquire held (return r) := fun _ _ _ hk => hk r

theorem keeps_bind {m : ServiceCode ρ} {k : ρ → ServiceCode ρ'} (hm : Keeps acquire held m)
    (hk : ∀ r, Keeps acquire held (k r)) : Keeps acquire held (m >>= k) := by
  intro returns j hcrash hj
  rw [bind_assoc]
  exact hm hcrash fun r => hk r hcrash hj

theorem keeps_ite {c : Prop} [Decidable c] {m m' : ServiceCode ρ} (h : Keeps acquire held m)
    (h' : Keeps acquire held m') : Keeps acquire held (if c then m else m') := by
  split_ifs
  · exact h
  · exact h'

theorem keeps_forM {α : Type} {m : α → ServiceCode PUnit} {as : List α}
    (h : ∀ a ∈ as, Keeps acquire held (m a)) : Keeps acquire held (as.forM m) := by
  induction as with
  | nil => exact keeps_return ()
  | cons a as ih =>
    obtain ⟨ha, has⟩ := List.forall_mem_cons.mp h
    exact keeps_bind ha fun _ => ih has

theorem keeps_access {f : Shared → Shared} {result : Shared → Except Crash ρ}
    (hf : .tvserviceMutex ∉ held → ∀ shared, (f shared).strtokRest = shared.strtokRest) :
    Keeps acquire held (.access f fun shared => .ret (result shared)) := by
  intro returns k hcrash hk
  refine ⟨fun l hl shared => ?_, fun shared => ?_⟩
  · cases l with
    | tvserviceMutex => exact hf hl shared
    | tvclientMutex process => rfl
  · show Code.Obeys (rules acquire) returns held (Code.bind (.ret (result shared)) _)
    cases result shared with
    | ok r => exact hk r
    | error crash => exact hcrash held crash

theorem keeps_act (op : Parties → Parties × Except Crash ρ) : Keeps acquire held (act op) :=
  keeps_access fun _ _ => rfl

theorem keeps_locked {mutex : Mutex} {m : ServiceCode ρ} (hacquire : acquire held mutex)
    (h : Keeps acquire (insert mutex held) m) : Keeps acquire held (locked mutex m) := by
  intro returns k hcrash hk
  refine ⟨hacquire, fun hnot => ?_⟩
  show Code.Obeys (rules acquire) returns (insert mutex held)
    ((m >>= fun r => Code.release mutex (.ret (.ok r))) >>= k : ServiceCode Reply)
  rw [bind_assoc]
  refine h hcrash fun r => ⟨Set.mem_insert mutex held, ?_⟩
  rw [Set.insert_sdiff_self_of_notMem hnot]
  exact hk r

/-! ### Commands -/

section

variable (hheld : .tvserviceMutex ∈ held)
include hheld

theorem keeps_strtok (s : Option TextBuffer) : Keeps acquire held (strtok s) := by
  intro returns k hcrash hk
  refine ⟨fun _ _ _ => rfl, fun shared => ?_⟩
  exact keeps_access (fun hnot => absurd hheld hnot) hcrash hk

theorem keeps_nextInt : Keeps acquire held nextInt :=
  keeps_bind (keeps_strtok hheld none) fun _ => keeps_return _

theorem keeps_nextInt_bind {k : Int32 → ServiceCode ρ} (hk : ∀ i, Keeps acquire held (k i)) :
    Keeps acquire held (nextInt >>= k) := keeps_bind (keeps_nextInt hheld) hk

theorem keeps_nextInt_return (make : Int32 → ρ) :
    Keeps acquire held (do let i ← nextInt; return make i) :=
  keeps_nextInt_bind hheld fun i => keeps_return (make i)

theorem keeps_controlRequest : Keeps acquire held controlRequest := by
  refine keeps_nextInt_bind hheld fun moudleID => ?_
  refine keeps_ite (keeps_nextInt_return hheld Request.startTv) ?_
  refine keeps_ite (keeps_nextInt_return hheld Request.stopTv) ?_
  refine keeps_ite (keeps_nextInt_return hheld fun i => Request.setVdinWorkMode i.toUInt32) ?_
  refine keeps_ite (keeps_return _) ?_
  refine keeps_ite (keeps_return _) ?_
  refine keeps_ite (keeps_return _) ?_
  refine keeps_ite (keeps_return _) ?_
  refine keeps_ite (keeps_return _) ?_
  exact keeps_ite (keeps_nextInt_return hheld Request.getSourceConnectStatus) (keeps_return _)

theorem keeps_edidRequest : Keeps acquire held edidRequest := by
  refine keeps_bind (keeps_strtok hheld none) fun temp => ?_
  refine keeps_ite ?_ (keeps_ite ?_ (keeps_return _))
  · refine keeps_nextInt_bind hheld fun moudleID => ?_
    refine keeps_nextInt_bind hheld fun setSource => ?_
    exact keeps_ite
      (keeps_nextInt_return hheld fun i => Request.setEdidVersion setSource i.toUInt32)
      (keeps_return _)
  · refine keeps_nextInt_bind hheld fun moudleID => ?_
    refine keeps_nextInt_bind hheld fun getSource => ?_
    exact keeps_ite (keeps_return _) (keeps_return _)

theorem keeps_hdmiRequest : Keeps acquire held hdmiRequest := by
  refine keeps_nextInt_bind hheld fun moudleID => ?_
  refine keeps_ite (keeps_return _) ?_
  refine keeps_ite (keeps_return _) ?_
  refine keeps_ite (keeps_return _) ?_
  exact keeps_ite (keeps_return _) (keeps_return _)

theorem keeps_request (cmdbuff : TextBuffer) : Keeps acquire held (request cmdbuff) := by
  refine keeps_bind (keeps_strtok hheld (some cmdbuff)) fun temp => ?_
  refine keeps_ite (keeps_controlRequest hheld) ?_
  refine keeps_ite (keeps_edidRequest hheld) ?_
  exact keeps_ite (keeps_hdmiRequest hheld) (keeps_return _)

theorem keeps_dataRequest (cmdbuff : TextBuffer) : Keeps acquire held (dataRequest cmdbuff) := by
  refine keeps_bind (keeps_strtok hheld (some cmdbuff)) fun temp => ?_
  refine keeps_ite (keeps_nextInt_return hheld DataRequest.set) ?_
  exact keeps_ite (keeps_nextInt_return hheld fun _ => DataRequest.get) (keeps_return _)

end

theorem keeps_parserTvCommand (hacquire : acquire held .tvserviceMutex) (ans : Answers)
    (commandData : List Char) : Keeps acquire held (parserTvCommand ans commandData) := by
  refine keeps_locked hacquire (keeps_bind (keeps_access fun _ _ => rfl) fun cmdbuff => ?_)
  exact keeps_bind (keeps_request (Set.mem_insert _ _) cmdbuff) fun _ => keeps_act _

theorem keeps_parserTvDataCommand (hacquire : acquire held .tvserviceMutex)
    (ans : EdidPortAnswers) (commandBuf : List Char) (dataBuf : Vector UInt8 dataBufSize) :
    Keeps acquire held (parserTvDataCommand ans commandBuf dataBuf) :=
  keeps_locked hacquire (keeps_bind (keeps_dataRequest (Set.mem_insert _ _) _)
    fun _ => keeps_act _)

end

end Interleaved

/-! ## Data commands without faults -/

/-- Where the memory that is copied has a terminator, a data command is what it is without a look
at faults. -/
theorem toOption_dataRequest {commandBuf : List Char}
    (hnull : '\x00' ∈ commandBuf.take dataBufSize) (ans : EdidPortAnswers) (mpTv : CTv)
    (dataBuf : Vector UInt8 dataBufSize) :
    ((Checked.dataRequest (Checked.copyDataCommand commandBuf)).map
        (·.perform ans mpTv dataBuf)).toOption =
      parserTvDataCommand ans mpTv commandBuf dataBuf := by
  have hcopy : Checked.copyDataCommand commandBuf =
      ⟨Lines.cstr (commandBuf.take dataBufSize), true⟩ := by
    rw [Checked.copyDataCommand, decide_eq_true hnull]
  have hmap {α β : Type} (f : α → β) (e : Except Fault α) :
      (e.map f).toOption = e.toOption.map f := by
    cases e <;> rfl
  rw [hmap, hcopy, Checked.dataRequest, toOption_nextInt_bind, parserTvDataCommand, if_pos hnull]
  cases strtokInt (Lines.cstr (commandBuf.take dataBufSize)) with
  | none => rfl
  | some p =>
    simp only [Option.bind_eq_bind, Option.bind_some]
    split_ifs with hset hget
    · rw [toOption_nextInt_bind]
      cases strtokInt p.2 <;> rfl
    · rw [toOption_nextInt_bind]
      cases strtokInt p.2 <;> rfl
    · rfl

end TvService
