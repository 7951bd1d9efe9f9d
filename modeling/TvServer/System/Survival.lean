import TvServer.Service.DataBounds
import TvServer.System.Interleavings

/-!
# Transactions that the service survives

Any process may send the service a transaction, with any code and any parcel. A transaction whose
text is missing or has too few tokens, or which leaves a buffer or a table, ends the service for all
of its clients. Which transactions these are does not depend on the state of the service, so that it
survives the runs of sound transactions, and no others; behind each the mutex is free.

## Main definitions

* `Transaction`: what the reads of a transaction deliver, with the answers to its requests
* `Server.onTransact`: a transaction, with what may end the service
* `Transaction.Sound`: the transactions that the service survives
* `Server.run`: transactions, one after the other

## Main results

* `succeeds_dataRequest_iff`: the data commands that have their tokens
* `succeeds_onTransact_iff`: the service survives a sound transaction
* `survives_iff`: the runs that the service survives
-/

namespace TvService

open CText (TextBuffer)

def cmdTvAction : UInt32 := firstCallTransaction + 1

def cmdSetTvCb : UInt32 := firstCallTransaction + 2

def cmdClrTvCb : UInt32 := firstCallTransaction + 3

def dataSetAction : UInt32 := firstCallTransaction + 6

def dataGetAction : UInt32 := firstCallTransaction + 7

/-- A string in a parcel, with the memory behind its terminator. -/
structure CString where
  text : List Char
  behind : List Char
  null_not_mem : '\x00' ∉ text

def CString.memory (s : CString) : List Char := s.text ++ '\x00' :: s.behind

/-- What the reads of a transaction deliver: a string, which may be null, then words, or a callback,
which may be null; and the answers to the requests of its command. -/
structure Transaction (β : Type) where
  code : UInt32
  command : Option CString
  data : Parcel
  callBack : Option β
  ans : Answers
  edidAns : EdidPortAnswers

/-- What ends the service: a fault of the parser, a string that is null, or a data buffer that is
left. -/
inductive Ending where
  | parser (fault : Fault)
  | nullCommand
  | outsideDataBuf

/-- The service: its mutex with the television object, and the registry. -/
structure Server (β : Type) where
  guarded : Guarded
  mTvServiceCallBack : SlotMap β

/-- What a transaction leads to: the service behind it, its reply, and what was asked of the HDMI
receiver. -/
structure Outcome (β : Type) where
  server : Server β
  reply : Parcel
  actions : List EdidPortAction

namespace Server

variable {β : Type} (s : Server β) (t : Transaction β)

def readCString : Except Ending CString :=
  match t.command with
  | some command => .ok command
  | none => .error .nullCommand

/-- The transaction `CMD_TV_ACTION`. -/
def onTvAction : Except Ending (Outcome β) := do
  let command ← readCString t
  let (ret, guarded) ←
    (Checked.parserTvCommand t.ans s.guarded command.text).mapError .parser
  return ⟨{ s with guarded }, Parcel.writeInt32 [] ret, []⟩

/-- Perform a data command while the mutex is held: its result, the data buffer behind it, and what
was asked of the HDMI receiver. -/
def parserTvDataCommand (dataBuf : Vector UInt8 dataBufSize) :
    Except Ending ((Int32 × Vector UInt8 dataBufSize × List EdidPortAction) × Server β) := do
  let guarded := s.guarded.lock
  let command ← readCString t
  let request ←
    (Checked.dataRequest (Checked.copyDataCommand command.memory)).mapError .parser
  return (request.perform t.edidAns guarded.mpTv dataBuf, { s with guarded := guarded.unlock })

/-- The transaction `DATA_SET_ACTION`. -/
def onDataSetAction : Except Ending (Outcome β) := do
  let (setDataSize, data) := t.data.readInt32
  match readDataFrom setDataSize.toInt.toNat 0 (Vector.replicate dataBufSize 0) data with
  | some (dataBuf, _) =>
    let ((ret, _, actions), s) ← parserTvDataCommand s t dataBuf
    return ⟨s, Parcel.writeInt32 [] ret, actions⟩
  | none => .error .outsideDataBuf

/-- The transaction `DATA_GET_ACTION`: the whole buffer is sent back, between its size and the
result. -/
def onDataGetAction : Except Ending (Outcome β) := do
  let ((ret, dataBuf, actions), s) ← parserTvDataCommand s t (Vector.replicate dataBufSize 0)
  let words := dataBuf.toList.map fun b => Int32.ofNat b.toNat
  let reply := words.foldl Parcel.writeInt32 (Parcel.writeInt32 [] (Int32.ofNat dataBufSize))
  return ⟨s, reply.writeInt32 ret, actions⟩

/-- The switch over the code. What `BBinder` makes of other codes does not concern the service. -/
def onTransact : Except Ending (Outcome β) :=
  if t.code = cmdTvAction then s.onTvAction t
  else if t.code = dataSetAction then s.onDataSetAction t
  else if t.code = dataGetAction then s.onDataGetAction t
  else if t.code = cmdSetTvCb then
    let (cookie, mTvServiceCallBack) := setTvServiceCallBack s.mTvServiceCallBack t.callBack
    .ok ⟨{ s with mTvServiceCallBack }, Parcel.writeInt32 [] (Int32.ofInt cookie), []⟩
  else if t.code = cmdClrTvCb then
    let callBackId := t.data.readInt32.1.toInt
    .ok ⟨{ s with
      mTvServiceCallBack := removeTvServiceCallBack s.mTvServiceCallBack callBackId }, [], []⟩
  else .ok ⟨s, [], []⟩

/-- Transactions, one after the other. -/
def run (s : Server β) (ts : List (Transaction β)) : Except Ending (Server β) :=
  ts.foldlM (fun s t => (s.onTransact t).map Outcome.server) s

end Server

/-! ## Sound transactions -/

/-- The tokens of a data command: an id, and a source behind the ids that set and get. -/
def DataTokens (tokens : List (List Char)) : Prop :=
  ∃ cmdID args, tokens = cmdID :: args ∧
    (CText.atoi cmdID = hdmiEdidDataSet ∨ CText.atoi cmdID = hdmiEdidDataGet → args ≠ [])

namespace Transaction

variable {β : Type} (t : Transaction β)

/-- The string is there, fits the buffer, and has the tokens of a command. -/
def SoundCommand : Prop :=
  ∃ command, t.command = some command ∧ command.text.length ≤ Checked.cmdbuffSize ∧
    Checked.EnoughTokens (commandTokens command.text)

/-- The string is there, and the memory that is copied has the tokens of a data command. -/
def SoundDataCommand : Prop :=
  ∃ command, t.command = some command ∧
    DataTokens ((Checked.copyDataCommand command.memory).tokens '.')

/-- The transactions that the service survives: those that carry a command are sound, and no more
words are announced than the data buffer takes. -/
def Sound : Prop :=
  (t.code = cmdTvAction → t.SoundCommand) ∧
    (t.code = dataSetAction → t.data.readInt32.1.toInt ≤ dataBufSize ∧ t.SoundDataCommand) ∧
    (t.code = dataGetAction → t.SoundDataCommand)

end Transaction

/-- A data command is taken apart without a fault exactly if it has the tokens it takes. -/
theorem succeeds_dataRequest_iff (cmdbuff : TextBuffer) :
    Checked.Succeeds (Checked.dataRequest cmdbuff) ↔ DataTokens (cmdbuff.tokens '.') := by
  refine Checked.succeeds_nextInt_bind (P := fun cmdID args =>
    cmdID = hdmiEdidDataSet ∨ cmdID = hdmiEdidDataGet → args ≠ [])
    (fun cmdID cmdbuff => ?_) cmdbuff
  dsimp only
  split_ifs with hset hget
  · rw [Checked.succeeds_nextInt_return, imp_iff_right (.inl hset)]
  · rw [Checked.succeeds_nextInt_return, imp_iff_right (.inr hget)]
  · exact iff_of_true (Checked.succeeds_ok _) fun h => absurd h (not_or.mpr ⟨hset, hget⟩)

namespace Server

variable {β : Type}

/-! ## Survival of a transaction -/

/-- The service survives. -/
def Survives {α : Type} (e : Except Ending α) : Prop := ∃ a, e = .ok a

section

variable {α α' : Type}

theorem survives_ok (a : α) : Survives (.ok a) := ⟨a, rfl⟩

theorem not_survives_error (ending : Ending) : ¬ Survives (.error ending : Except Ending α) := by
  rintro ⟨a, ⟨⟩⟩

theorem eq_ok_of_bind {ε : Type} {e : Except ε α} {f : α → Except ε α'} {b : α'}
    (h : e >>= f = .ok b) : ∃ a, e = .ok a ∧ f a = .ok b := by
  cases e with
  | error ending => cases h
  | ok a => exact ⟨a, rfl, h⟩

theorem eq_ok_of_map {ε : Type} {e : Except ε α} {f : α → α'} {b : α'}
    (h : e.map f = .ok b) : ∃ a, e = .ok a ∧ f a = b := by
  cases e with
  | error ending => cases h
  | ok a => exact ⟨a, rfl, Except.ok.inj h⟩

theorem eq_ok_of_mapError {e : Except Fault α} {a : α} (h : e.mapError Ending.parser = .ok a) :
    e = .ok a := by
  cases e with
  | error fault => cases h
  | ok a' =>
    cases h
    rfl

theorem survives_bind_iff {e : Except Ending α} {f : α → Except Ending α'} :
    Survives (e >>= f) ↔ ∃ a, e = .ok a ∧ Survives (f a) := by
  constructor
  · rintro ⟨b, hb⟩
    obtain ⟨a, rfl, hfa⟩ := eq_ok_of_bind hb
    exact ⟨a, rfl, b, hfa⟩
  · rintro ⟨a, rfl, h⟩
    exact h

/-- What is behind the parser survives with it. -/
theorem survives_bind_of_survives {e : Except Ending α} {f : α → Except Ending α'}
    (hf : ∀ a, Survives (f a)) : Survives (e >>= f) ↔ Survives e :=
  survives_bind_iff.trans (exists_congr fun a => and_iff_left (hf a))

theorem survives_mapError_iff {e : Except Fault α} :
    Survives (e.mapError .parser) ↔ Checked.Succeeds e := by
  cases e with
  | error fault => exact iff_of_false (not_survives_error _) (Checked.not_succeeds_error fault)
  | ok a => exact iff_of_true (survives_ok a) (Checked.succeeds_ok a)

end

variable (s : Server β) (t : Transaction β)

/-- Where a string is read, it has to be there. -/
theorem survives_readCString_bind {α : Type} {f : CString → Except Ending α} :
    Survives (readCString t >>= f) ↔
      ∃ command, t.command = some command ∧ Survives (f command) := by
  rw [survives_bind_iff, readCString]
  cases t.command with
  | none => exact exists_congr fun command => by simp
  | some command => exact exists_congr fun command => by simp

theorem succeeds_parserTvCommand_iff (ans : Answers) (guarded : Guarded)
    (commandData : List Char) :
    Checked.Succeeds (Checked.parserTvCommand ans guarded commandData) ↔
      commandData.length ≤ Checked.cmdbuffSize ∧
        Checked.EnoughTokens (commandTokens commandData) := by
  have hmap {e : Except Fault (Int32 × CTv)} (f : Int32 × CTv → Int32 × Guarded) :
      Checked.Succeeds (e.map f) ↔ Checked.Succeeds e := by
    cases e with
    | error fault =>
      exact iff_of_false (Checked.not_succeeds_error _) (Checked.not_succeeds_error fault)
    | ok p => exact iff_of_true (Checked.succeeds_ok _) (Checked.succeeds_ok p)
  rw [checked_parserTvCommand_eq, hmap, Checked.copyCommand]
  split
  · rename_i hlen
    rw [and_iff_right hlen]
    exact Checked.succeeds_dispatch_iff _
  · rename_i hlen
    exact iff_of_false (Checked.not_succeeds_error _) fun h => hlen h.1

theorem survives_onTvAction_iff : Survives (s.onTvAction t) ↔ t.SoundCommand := by
  rw [onTvAction, survives_readCString_bind]
  refine exists_congr fun command => and_congr_right fun _ => ?_
  refine (survives_bind_of_survives fun p => survives_ok _).trans ?_
  rw [survives_mapError_iff, succeeds_parserTvCommand_iff]

theorem survives_parserTvDataCommand_iff (dataBuf : Vector UInt8 dataBufSize) :
    Survives (s.parserTvDataCommand t dataBuf) ↔ t.SoundDataCommand := by
  rw [parserTvDataCommand, survives_readCString_bind]
  refine exists_congr fun command => and_congr_right fun _ => ?_
  refine (survives_bind_of_survives fun p => survives_ok _).trans ?_
  rw [survives_mapError_iff, succeeds_dataRequest_iff]

theorem survives_onDataSetAction_iff : Survives (s.onDataSetAction t) ↔
    t.data.readInt32.1.toInt ≤ dataBufSize ∧ t.SoundDataCommand := by
  have hloop : (readDataFrom t.data.readInt32.1.toInt.toNat 0 (Vector.replicate dataBufSize 0)
      t.data.readInt32.2).isSome ↔ t.data.readInt32.1.toInt ≤ dataBufSize := by
    rw [isSome_readDataFrom_iff, storeIndices_lt_iff, Int.toNat_le]
  rw [← hloop, onDataSetAction]
  dsimp only
  split
  · rename_i hread
    rw [hread]
    refine (survives_bind_of_survives fun p => survives_ok _).trans ?_
    rw [survives_parserTvDataCommand_iff]
    exact (and_iff_right rfl).symm
  · rename_i hread
    rw [hread]
    exact iff_of_false (not_survives_error _) (by simp)

theorem survives_onDataGetAction_iff : Survives (s.onDataGetAction t) ↔ t.SoundDataCommand := by
  refine (survives_bind_of_survives fun p => survives_ok _).trans ?_
  exact survives_parserTvDataCommand_iff s t _

/-- **The service survives a sound transaction**, in any state. -/
theorem survives_onTransact_iff : Survives (s.onTransact t) ↔ t.Sound := by
  have hcodes : cmdTvAction ≠ dataSetAction ∧ cmdTvAction ≠ dataGetAction ∧
      dataSetAction ≠ dataGetAction := by decide
  obtain ⟨haction, hget, hset⟩ := hcodes
  rw [onTransact, Transaction.Sound]
  split_ifs with h₁ h₂ h₃ h₄ h₅
  · rw [survives_onTvAction_iff, imp_iff_right h₁, h₁]
    exact (and_iff_left ⟨fun h => absurd h haction, fun h => absurd h hget⟩).symm
  · rw [survives_onDataSetAction_iff, imp_iff_right h₂, h₂]
    refine ((and_iff_right fun h => absurd h haction.symm).trans ?_).symm
    exact and_iff_left fun h => absurd h hset
  · rw [survives_onDataGetAction_iff, imp_iff_right h₃]
    refine ((and_iff_right fun h => absurd h h₁).trans ?_).symm
    exact and_iff_right fun h => absurd h h₂
  all_goals
    refine iff_of_true (survives_ok _) ?_
    exact ⟨fun h => absurd h h₁, fun h => absurd h h₂, fun h => absurd h h₃⟩

/-! ## What a transaction does -/

end Server

namespace Transaction

variable {β : Type} (t : Transaction β)

/-- The commands of the television object that a transaction carries, with their answers. -/
def steps : List (CTv.Command × Answers) :=
  match t.command with
  | some command =>
    if t.code = cmdTvAction then
      match Checked.copyCommand command.text >>= Checked.request with
      | .ok request => request.steps t.ans
      | .error _ => []
    else []
  | none => []

/-- What a transaction does to the registry. -/
def registryOps : List (RegistryOp β) :=
  if t.code = cmdSetTvCb then [.register t.callBack]
  else if t.code = cmdClrTvCb then [.remove t.data.readInt32.1.toInt]
  else []

end Transaction

namespace Server

variable {β : Type} {s s' : Server β} {t : Transaction β}

/-- Behind transactions the mutex is free, the television object has taken steps, and the registry
has gone through operations. -/
structure Does (steps : List (CTv.Command × Answers)) (ops : List (RegistryOp β))
    (s s' : Server β) : Prop where
  mutex : s.guarded.tvserviceMutex = false → s'.guarded.tvserviceMutex = false
  mpTv : s'.guarded.mpTv = Machine.run CTv.step s.guarded.mpTv steps
  registry : ∀ registered, s'.mTvServiceCallBack =
    (Machine.run History.step ⟨s.mTvServiceCallBack, registered⟩ ops).registry

theorem Does.refl (s : Server β) : Does [] [] s s := ⟨id, rfl, fun _ => rfl⟩

theorem Does.trans {s'' : Server β} {steps steps' : List (CTv.Command × Answers)}
    {ops ops' : List (RegistryOp β)} (h : Does steps ops s s') (h' : Does steps' ops' s' s'') :
    Does (steps ++ steps') (ops ++ ops') s s'' := by
  refine ⟨h'.mutex ∘ h.mutex, ?_, fun registered => ?_⟩
  · rw [h'.mpTv, h.mpTv, Machine.run_append]
  · rw [h'.registry, h.registry registered, Machine.run_append]

theorem command_of_readCString {command : CString} (h : readCString t = .ok command) :
    t.command = some command := by
  rw [readCString] at h
  split at h
  · cases h
    assumption
  · cases h

/-- A command advances the television object by its steps. -/
theorem does_onTvAction {o : Outcome β} (hcode : t.code = cmdTvAction)
    (h : s.onTvAction t = .ok o) : Does t.steps [] s o.server := by
  obtain ⟨command, hcommand, h⟩ := eq_ok_of_bind h
  obtain ⟨⟨ret, guarded⟩, hparser, h⟩ := eq_ok_of_bind h
  cases h
  have hcopy := eq_ok_of_mapError hparser
  rw [parserTvCommand_eq_request] at hcopy
  obtain ⟨⟨ret', mpTv⟩, hrequest, hmap⟩ := eq_ok_of_map hcopy
  obtain ⟨request, hdecode, hperform⟩ := eq_ok_of_bind hrequest
  cases hmap
  have hsteps : t.steps = request.steps t.ans := by
    rw [Transaction.steps, command_of_readCString hcommand]
    dsimp only
    rw [if_pos hcode, hdecode]
  refine ⟨fun _ => rfl, ?_, fun _ => rfl⟩
  rw [hsteps]
  exact Request.perform_eq_steps hperform

/-- A data command leaves the television object and the registry. -/
theorem does_parserTvDataCommand {dataBuf : Vector UInt8 dataBufSize}
    {ret : (Int32 × Vector UInt8 dataBufSize × List EdidPortAction) × Server β}
    (h : s.parserTvDataCommand t dataBuf = .ok ret) : Does [] [] s ret.2 := by
  obtain ⟨command, -, h⟩ := eq_ok_of_bind h
  obtain ⟨request, -, h⟩ := eq_ok_of_bind h
  cases h
  exact ⟨fun _ => rfl, rfl, fun _ => rfl⟩

theorem does_onDataSetAction {o : Outcome β} (h : s.onDataSetAction t = .ok o) :
    Does [] [] s o.server := by
  rw [onDataSetAction] at h
  dsimp only at h
  split at h
  · obtain ⟨ret, hparser, h⟩ := eq_ok_of_bind h
    cases h
    exact does_parserTvDataCommand hparser
  · cases h

theorem does_onDataGetAction {o : Outcome β} (h : s.onDataGetAction t = .ok o) :
    Does [] [] s o.server := by
  obtain ⟨ret, hparser, h⟩ := eq_ok_of_bind h
  cases h
  exact does_parserTvDataCommand hparser

/-- **What a transaction does** that the service survives. -/
theorem does_onTransact {o : Outcome β} (h : s.onTransact t = .ok o) :
    Does t.steps t.registryOps s o.server := by
  have hsteps (hcode : t.code ≠ cmdTvAction) : t.steps = [] := by
    rw [Transaction.steps]
    split
    · exact if_neg hcode
    · rfl
  have hops (hset : t.code ≠ cmdSetTvCb) (hclr : t.code ≠ cmdClrTvCb) : t.registryOps = [] := by
    rw [Transaction.registryOps, if_neg hset, if_neg hclr]
  rw [onTransact] at h
  split_ifs at h with h₁ h₂ h₃ h₄ h₅
  · rw [hops (by rw [h₁]; decide) (by rw [h₁]; decide)]
    exact does_onTvAction h₁ h
  · rw [hsteps h₁, hops (by rw [h₂]; decide) (by rw [h₂]; decide)]
    exact does_onDataSetAction h
  · rw [hsteps h₁, hops (by rw [h₃]; decide) (by rw [h₃]; decide)]
    exact does_onDataGetAction h
  · cases h
    rw [hsteps h₁, Transaction.registryOps, if_pos h₄]
    refine ⟨id, rfl, fun registered => ?_⟩
    cases t.callBack <;> rfl
  · cases h
    rw [hsteps h₁, Transaction.registryOps, if_neg h₄, if_pos h₅]
    exact ⟨id, rfl, fun _ => rfl⟩
  · cases h
    rw [hsteps h₁, hops h₄ h₅]
    exact Does.refl s

/-! ## Runs -/

theorem survives_run_iff (s : Server β) (ts : List (Transaction β)) :
    Survives (s.run ts) ↔ ∀ t ∈ ts, t.Sound := by
  induction ts generalizing s with
  | nil => exact iff_of_true (survives_ok s) (List.forall_mem_nil _)
  | cons t ts ih =>
    rw [run, List.foldlM_cons, survives_bind_iff, List.forall_mem_cons,
      ← survives_onTransact_iff s]
    constructor
    · rintro ⟨s', hs', hrun⟩
      obtain ⟨o, ho, -⟩ := eq_ok_of_map hs'
      exact ⟨⟨o, ho⟩, (ih s').mp hrun⟩
    · rintro ⟨⟨o, ho⟩, hts⟩
      exact ⟨o.server, by rw [ho]; rfl, (ih o.server).mpr hts⟩

theorem does_run {ts : List (Transaction β)} (h : s.run ts = .ok s') :
    Does (ts.flatMap Transaction.steps) (ts.flatMap Transaction.registryOps) s s' := by
  induction ts generalizing s with
  | nil =>
    cases h
    exact Does.refl _
  | cons t ts ih =>
    rw [run, List.foldlM_cons] at h
    obtain ⟨s₁, hs₁, hrun⟩ := eq_ok_of_bind h
    obtain ⟨o, ho, rfl⟩ := eq_ok_of_map hs₁
    exact (does_onTransact ho).trans (ih hrun)

/-- The service when it starts, around a television object. -/
def start (mpTv : CTv) : Server β := ⟨⟨false, mpTv⟩, ∅⟩

/-- **Transactions that the service survives.** From its start the service survives the runs of
sound transactions, whoever sends them, and no others. Behind such a run the mutex is free, the
television object has taken the steps that the texts decode to and no others, and the registry has
gone through the registrations and removals alone. -/
theorem survives_iff (mpTv : CTv) (ts : List (Transaction β)) :
    ((∃ s', (start mpTv).run ts = .ok s') ↔ ∀ t ∈ ts, t.Sound) ∧
      ∀ s', (start mpTv).run ts = .ok s' → s'.guarded.tvserviceMutex = false ∧
        s'.guarded.mpTv = Machine.run CTv.step mpTv (ts.flatMap Transaction.steps) ∧
        s'.mTvServiceCallBack =
          (Machine.run History.step .empty (ts.flatMap Transaction.registryOps)).registry := by
  refine ⟨survives_run_iff (start mpTv) ts, fun s' h => ?_⟩
  have hdoes := does_run h
  exact ⟨hdoes.mutex rfl, hdoes.mpTv, hdoes.registry []⟩

end Server

end TvService
