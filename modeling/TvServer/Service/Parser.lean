import TvServer.Service.Commands

/-!
# The parser with its faults

The parser copies a command to a buffer of fixed size and reads as many tokens as the command
takes, without a look at the length of the text or at what `strtok` returns. Here is the parser
with what may go wrong: it leaves the buffer, reads a token that is not there, or reads a table
outside its bounds. A command is parsed without a fault exactly if it fits the buffer and has the
tokens it takes.

## Main definitions

* `Fault`: what may go wrong
* `Checked.parserTvCommand`: the parser, with the mutex of the service
* `Robust`: the parser returns without a fault, and the mutex is free
* `EnoughTokens`: a command has the tokens it takes

## Main results

* `toOption_parserTvCommand`: the parser computes what the one without faults computes
* `robust_iff`: the commands that are parsed without a fault
-/

namespace TvService

open CText (TextBuffer)

/-- What may go wrong: the buffer is left, a token that is not there is read, or a table is read
outside its bounds. -/
inductive Fault where
  | outsideBuffer
  | absentToken
  | outsideTable
deriving DecidableEq

/-- What the parser works on: the mutex, which is held or free, and the television object. -/
structure Guarded where
  tvserviceMutex : Bool
  mpTv : CTv

namespace Guarded

def lock (service : Guarded) : Guarded := { service with tvserviceMutex := true }

def unlock (service : Guarded) : Guarded := { service with tvserviceMutex := false }

end Guarded

namespace Checked

variable (ans : Answers) (mpTv : CTv)

/-- The size of `cmdbuff`. -/
def cmdbuffSize : ℕ := 1024

/-- The copy of the text, which is terminated by the zeros in the buffer that are left. -/
def copyCommand (commandData : List Char) : Except Fault TextBuffer :=
  if commandData.length ≤ cmdbuffSize then
    .ok ⟨commandData, commandData.length < cmdbuffSize⟩
  else .error .outsideBuffer

/-- The next token, which `strcmp` or `atoi` reads. -/
def nextToken (cmdbuff : TextBuffer) : Except Fault (List Char × TextBuffer) :=
  match cmdbuff.strtok '.' with
  | some (some temp, cmdbuff) => .ok (temp, cmdbuff)
  | some (none, _) => .error .absentToken
  | none => .error .outsideBuffer

def nextInt (cmdbuff : TextBuffer) : Except Fault (Int32 × TextBuffer) := do
  let (temp, cmdbuff) ← nextToken cmdbuff
  return (CText.atoi temp, cmdbuff)

def getSourceConnectStatus (source : SourceInput) : Except Fault (Int32 × CTv) :=
  match mpTv.getSourceConnectStatus ans source with
  | some ret => .ok (ret, mpTv)
  | none => .error .outsideTable

/-- The commands that start with `control`. -/
def parserControlCommand (cmdbuff : TextBuffer) : Except Fault (Int32 × CTv) := do
  let (moudleID, cmdbuff) ← nextInt cmdbuff
  if moudleID = tvControlStartTv then
    let (startSource, _) ← nextInt cmdbuff
    return mpTv.startTv ans startSource
  else if moudleID = tvControlStopTv then
    let (stopSource, _) ← nextInt cmdbuff
    return mpTv.stopTv ans stopSource
  else if moudleID = tvControlVdinWorkModeSet then
    let (setVdinWorkMode, _) ← nextInt cmdbuff
    return mpTv.setVdinWorkMode setVdinWorkMode.toUInt32
  else if moudleID = tvControlGetFrameHeight then return frontendField ans mpTv (·.height)
  else if moudleID = tvControlGetFrameWidth then return frontendField ans mpTv (·.width)
  else if moudleID = tvControlGetFrameRate then return frontendField ans mpTv (·.fps)
  else if moudleID = tvControlGetColorDepth then return frontendField ans mpTv (·.colordepth)
  else if moudleID = tvControlGetLineScanMode then return frontendField ans mpTv (·.scanMode)
  else if moudleID = tvControlGetConnectStatus then
    let (source, _) ← nextInt cmdbuff
    getSourceConnectStatus ans mpTv source
  else return (0, mpTv)

/-- The commands that start with `edid`, whose source is read before their id is looked at. -/
def parserEdidCommand (cmdbuff : TextBuffer) : Except Fault (Int32 × CTv) := do
  let (temp, cmdbuff) ← nextToken cmdbuff
  if temp = "set".toList then
    let (moudleID, cmdbuff) ← nextInt cmdbuff
    let (setSource, cmdbuff) ← nextInt cmdbuff
    if moudleID = hdmiEdidVerSet then
      let (setVersion, _) ← nextInt cmdbuff
      return mpTv.setEdidVersion ans setSource setVersion.toUInt32
    else return (0, mpTv)
  else if temp = "get".toList then
    let (moudleID, cmdbuff) ← nextInt cmdbuff
    let (getSource, _) ← nextInt cmdbuff
    if moudleID = hdmiEdidVerGet then return ((mpTv.getEdidVersion getSource).toInt32, mpTv)
    else return (0, mpTv)
  else return (0, mpTv)

/-- The commands that start with `hdmi`. -/
def parserHdmiCommand (cmdbuff : TextBuffer) : Except Fault (Int32 × CTv) := do
  let (moudleID, _) ← nextInt cmdbuff
  if moudleID = hdmiGetColorFormat then return (mpTv.getCurrentSourceInfo.cfmt.toInt32, mpTv)
  else if moudleID = hdmiGetColorRange then
    return (mpTv.getFrontendInfo ans .zero).2.getColorRangeMode ans
  else if moudleID = hdmiGetColorDepth then
    return (TvinFrontendInfo.zero.colordepth.toInt32, mpTv)
  else if moudleID = hdmiGetAspectRatio then
    return (mpTv.getCurrentSourceInfo.aspectRatio.toInt32, mpTv)
  else return (0, mpTv)

/-- The command in the buffer, dispatched by its first token. -/
def dispatch (cmdbuff : TextBuffer) : Except Fault (Int32 × CTv) := do
  let (temp, cmdbuff) ← nextToken cmdbuff
  if temp = "control".toList then parserControlCommand ans mpTv cmdbuff
  else if temp = "edid".toList then parserEdidCommand ans mpTv cmdbuff
  else if temp = "hdmi".toList then parserHdmiCommand ans mpTv cmdbuff
  else return (0, mpTv)

/-- Perform a command while the mutex is held. -/
def parserTvCommand (service : Guarded) (commandData : List Char) :
    Except Fault (Int32 × Guarded) := do
  let service := service.lock
  let cmdbuff ← copyCommand commandData
  let (ret, mpTv) ← dispatch ans service.mpTv cmdbuff
  return (ret, { service with mpTv := mpTv }.unlock)

/-! ## Tokens -/

/-- The computation ends without a fault. -/
def Succeeds {α : Type} (e : Except Fault α) : Prop := ∃ a, e = .ok a

theorem succeeds_ok {α : Type} (a : α) : Succeeds (.ok a : Except Fault α) := ⟨a, rfl⟩

theorem not_succeeds_error {α : Type} (fault : Fault) :
    ¬ Succeeds (.error fault : Except Fault α) := by
  rintro ⟨a, h⟩
  exact absurd h (by simp)

/-- A token is there and is read, or none is there and reading it is a fault. -/
theorem nextToken_cases (cmdbuff : TextBuffer) :
    (cmdbuff.tokens '.' = [] ∧ ∃ fault, nextToken cmdbuff = .error fault) ∨
      ∃ temp behind, cmdbuff.tokens '.' = temp :: behind.tokens '.' ∧
        nextToken cmdbuff = .ok (temp, behind) := by
  rw [nextToken]
  rcases @TextBuffer.strtok_spec '.' cmdbuff with ⟨htokens, hnone⟩ | ⟨temp, behind, htokens, htoken⟩
  · refine .inl ⟨htokens, ?_⟩
    split
    · rename_i heq
      exact absurd heq (hnone _ _)
    · exact ⟨.absentToken, rfl⟩
    · exact ⟨.outsideBuffer, rfl⟩
  · rw [htoken]
    exact .inr ⟨temp, behind, htokens, rfl⟩

section

variable {α : Type} {Q : Except Fault α → Prop} (hfault : ∀ fault, ¬ Q (.error fault))
include hfault

/-- **What holds behind a token**, and not behind a fault: there is one, and what follows holds with
the others. -/
theorem nextToken_bind_iff {f : List Char × TextBuffer → Except Fault α}
    {P : List Char → List (List Char) → Prop}
    (hf : ∀ temp cmdbuff, Q (f (temp, cmdbuff)) ↔ P temp (cmdbuff.tokens '.'))
    (cmdbuff : TextBuffer) :
    Q (nextToken cmdbuff >>= f) ↔
      ∃ temp args, cmdbuff.tokens '.' = temp :: args ∧ P temp args := by
  rcases nextToken_cases cmdbuff with ⟨htokens, fault, hnone⟩ | ⟨temp, behind, htokens, htoken⟩
  · rw [hnone, htokens]
    exact iff_of_false (hfault fault) (by simp)
  · rw [htoken, htokens]
    refine (hf temp behind).trans ⟨fun h => ⟨temp, _, rfl, h⟩, ?_⟩
    rintro ⟨temp, args, heq, h⟩
    obtain ⟨rfl, rfl⟩ := List.cons_eq_cons.mp heq
    exact h

theorem nextInt_bind_iff {f : Int32 × TextBuffer → Except Fault α}
    {P : Int32 → List (List Char) → Prop}
    (hf : ∀ i cmdbuff, Q (f (i, cmdbuff)) ↔ P i (cmdbuff.tokens '.')) (cmdbuff : TextBuffer) :
    Q (nextInt cmdbuff >>= f) ↔
      ∃ temp args, cmdbuff.tokens '.' = temp :: args ∧ P (CText.atoi temp) args := by
  rw [nextInt, bind_assoc]
  exact nextToken_bind_iff hfault (P := fun temp args => P (CText.atoi temp) args)
    (fun temp cmdbuff => hf (CText.atoi temp) cmdbuff) cmdbuff

end

/-- **What reading a token takes**: there is one, and what follows succeeds with the others. -/
theorem succeeds_nextToken_bind {α : Type} {f : List Char × TextBuffer → Except Fault α}
    {P : List Char → List (List Char) → Prop}
    (hf : ∀ temp cmdbuff, Succeeds (f (temp, cmdbuff)) ↔ P temp (cmdbuff.tokens '.'))
    (cmdbuff : TextBuffer) :
    Succeeds (nextToken cmdbuff >>= f) ↔
      ∃ temp args, cmdbuff.tokens '.' = temp :: args ∧ P temp args :=
  nextToken_bind_iff not_succeeds_error hf cmdbuff

theorem succeeds_nextInt_bind {α : Type} {f : Int32 × TextBuffer → Except Fault α}
    {P : Int32 → List (List Char) → Prop}
    (hf : ∀ i cmdbuff, Succeeds (f (i, cmdbuff)) ↔ P i (cmdbuff.tokens '.'))
    (cmdbuff : TextBuffer) :
    Succeeds (nextInt cmdbuff >>= f) ↔
      ∃ temp args, cmdbuff.tokens '.' = temp :: args ∧ P (CText.atoi temp) args :=
  nextInt_bind_iff not_succeeds_error hf cmdbuff

/-- The last token of a command only has to be there. -/
theorem succeeds_nextInt_return {α : Type} (f : Int32 × TextBuffer → α) (cmdbuff : TextBuffer) :
    Succeeds (nextInt cmdbuff >>= fun p => return f p) ↔ cmdbuff.tokens '.' ≠ [] := by
  have hrule := succeeds_nextInt_bind (f := fun p => return f p) (P := fun _ _ => True)
    (fun i cmdbuff => iff_of_true (succeeds_ok (f (i, cmdbuff))) trivial) cmdbuff
  rw [hrule]
  cases cmdbuff.tokens '.' with
  | nil => simp
  | cons temp args => exact iff_of_true ⟨temp, args, rfl, trivial⟩ (List.cons_ne_nil temp args)

/-! ## The commands that have their tokens -/

/-- The sources whose name is in the table. -/
def InTable (source : SourceInput) : Prop := sourceInvalid ≤ source ∧ source ≤ 17

/-- The ids of the commands behind `control` that take an argument. -/
def takesArgument : List Int32 :=
  [tvControlStartTv, tvControlStopTv, tvControlVdinWorkModeSet, tvControlGetConnectStatus]

/-- What an id behind `control` takes: an argument or none, and for the connection status a source
that has a name. -/
def ControlArguments (moudleID : Int32) (args : List (List Char)) : Prop :=
  (moudleID ∈ takesArgument → args ≠ []) ∧
    (moudleID = tvControlGetConnectStatus →
      ∀ source ∈ args.head?, InTable (CText.atoi source))

/-- The tokens behind `control`: an id, and what the id takes. -/
def ControlTokens (tokens : List (List Char)) : Prop :=
  ∃ moudleID args, tokens = moudleID :: args ∧ ControlArguments (CText.atoi moudleID) args

/-- The tokens behind `edid`: where something is set or got, an id and a source, and the version
behind the id that sets it. -/
def EdidTokens (tokens : List (List Char)) : Prop :=
  ∃ temp args, tokens = temp :: args ∧
    (temp = "set".toList → 2 ≤ args.length ∧
      (args.head?.map CText.atoi = some hdmiEdidVerSet → 3 ≤ args.length)) ∧
    (temp = "get".toList → 2 ≤ args.length)

/-- The tokens of a command: a family, and what the family takes. -/
def EnoughTokens (tokens : List (List Char)) : Prop :=
  ∃ temp args, tokens = temp :: args ∧
    (temp = "control".toList → ControlTokens args) ∧
    (temp = "edid".toList → EdidTokens args) ∧
    (temp = "hdmi".toList → args ≠ [])

theorem isSome_inputToName_iff (source : SourceInput) :
    (CTv.inputToName source).isSome = true ↔ InTable source := by
  have hmin : sourceInvalid.toInt = -1 := rfl
  have hmax : (17 : Int32).toInt = 17 := rfl
  have hinvalid : source = sourceInvalid ↔ source.toInt = -1 := by
    rw [← hmin]
    exact Int32.toInt_inj.symm
  rw [InTable, Int32.le_iff_toInt_le, Int32.le_iff_toInt_le, hmin, hmax, CTv.inputToName]
  by_cases hs : source = sourceInvalid
  · have hint : source.toInt = -1 := hinvalid.mp hs
    rw [if_pos hs]
    exact iff_of_true rfl (by omega)
  · have hint : source.toInt ≠ -1 := fun h => hs (hinvalid.mpr h)
    rw [if_neg hs]
    by_cases hneg : source < 0
    · have hlt : source.toInt < 0 := Int32.lt_iff_toInt_lt.mp hneg
      rw [if_pos hneg]
      exact iff_of_false (by simp) (by omega)
    · have hle : 0 ≤ source.toInt := Int32.le_iff_toInt_le.mp (Int32.not_lt.mp hneg)
      have hlength : CTv.inputName.length = 18 := rfl
      rw [if_neg hneg, isSome_getElem?]
      omega

variable {ans mpTv}

theorem succeeds_getSourceConnectStatus_iff (source : SourceInput) :
    Succeeds (getSourceConnectStatus ans mpTv source) ↔ InTable source := by
  have hname : (mpTv.getSourceConnectStatus ans source).isSome =
      (CTv.inputToName source).isSome := by
    rw [CTv.getSourceConnectStatus]
    cases CTv.inputToName source with
    | none => rfl
    | some name =>
      simp only [Option.bind_eq_bind, Option.bind_some]
      split_ifs <;> rfl
  rw [← isSome_inputToName_iff, ← hname, getSourceConnectStatus]
  cases mpTv.getSourceConnectStatus ans source with
  | none => exact iff_of_false (not_succeeds_error _) (by simp)
  | some ret => exact iff_of_true (succeeds_ok _) rfl

theorem controlArguments_of_not_mem {moudleID : Int32} (h : moudleID ∉ takesArgument)
    (args : List (List Char)) : ControlArguments moudleID args := by
  refine ⟨fun hmem => absurd hmem h, ?_⟩
  rintro rfl
  exact absurd (by decide) h

theorem controlArguments_iff_of_ne {moudleID : Int32} (h : moudleID ∈ takesArgument)
    (hne : moudleID ≠ tvControlGetConnectStatus) (args : List (List Char)) :
    ControlArguments moudleID args ↔ args ≠ [] :=
  ⟨fun hargs => hargs.1 h, fun hargs => ⟨fun _ => hargs, fun he => absurd he hne⟩⟩

theorem controlArguments_connectStatus (tokens : List (List Char)) :
    ControlArguments tvControlGetConnectStatus tokens ↔
      ∃ source args, tokens = source :: args ∧ InTable (CText.atoi source) := by
  have hmem : tvControlGetConnectStatus ∈ takesArgument := by decide
  constructor
  · rintro ⟨hargs, htable⟩
    obtain ⟨source, args, rfl⟩ := List.exists_cons_of_ne_nil (hargs hmem)
    exact ⟨source, args, rfl, htable rfl source rfl⟩
  · rintro ⟨source, args, rfl, htable⟩
    exact ⟨fun _ => List.cons_ne_nil source args, fun _ s hs => Option.some.inj hs ▸ htable⟩

theorem succeeds_parserControlCommand_iff (cmdbuff : TextBuffer) :
    Succeeds (parserControlCommand ans mpTv cmdbuff) ↔ ControlTokens (cmdbuff.tokens '.') := by
  refine succeeds_nextInt_bind (P := ControlArguments) (fun moudleID cmdbuff => ?_) cmdbuff
  dsimp only
  have hquery (a : Int32 × CTv) (h : moudleID ∉ takesArgument) :
      Succeeds (.ok a : Except Fault (Int32 × CTv)) ↔
        ControlArguments moudleID (cmdbuff.tokens '.') :=
    iff_of_true (succeeds_ok a) (controlArguments_of_not_mem h _)
  split_ifs with hstart hstop hmode hheight hwidth hrate hdepth hscan hconnect
  · refine (succeeds_nextInt_return _ cmdbuff).trans (controlArguments_iff_of_ne ?_ ?_ _).symm <;>
      rw [hstart] <;> decide
  · refine (succeeds_nextInt_return _ cmdbuff).trans (controlArguments_iff_of_ne ?_ ?_ _).symm <;>
      rw [hstop] <;> decide
  · refine (succeeds_nextInt_return _ cmdbuff).trans (controlArguments_iff_of_ne ?_ ?_ _).symm <;>
      rw [hmode] <;> decide
  · exact hquery _ (by rw [hheight]; decide)
  · exact hquery _ (by rw [hwidth]; decide)
  · exact hquery _ (by rw [hrate]; decide)
  · exact hquery _ (by rw [hdepth]; decide)
  · exact hquery _ (by rw [hscan]; decide)
  · rw [hconnect, controlArguments_connectStatus]
    exact succeeds_nextInt_bind (P := fun source _ => InTable source)
      (fun source _ => succeeds_getSourceConnectStatus_iff source) cmdbuff
  · refine hquery _ ?_
    simp [takesArgument, hstart, hstop, hmode, hconnect]

/-- Setting takes an id and a source, and a version behind the id that sets it. -/
theorem succeeds_edidSet_iff (cmdbuff : TextBuffer) :
    Succeeds (do
      let (moudleID, cmdbuff) ← nextInt cmdbuff
      let (setSource, cmdbuff) ← nextInt cmdbuff
      if moudleID = hdmiEdidVerSet then
        let (setVersion, _) ← nextInt cmdbuff
        return mpTv.setEdidVersion ans setSource setVersion.toUInt32
      else return (0, mpTv)) ↔
    2 ≤ (cmdbuff.tokens '.').length ∧
      ((cmdbuff.tokens '.').head?.map CText.atoi = some hdmiEdidVerSet →
        3 ≤ (cmdbuff.tokens '.').length) := by
  refine (succeeds_nextInt_bind (P := fun moudleID args => ∃ source rest, args = source :: rest ∧
    (moudleID = hdmiEdidVerSet → rest ≠ [])) (fun moudleID cmdbuff => ?_) cmdbuff).trans ?_
  · refine succeeds_nextInt_bind (P := fun _ rest => moudleID = hdmiEdidVerSet → rest ≠ [])
      (fun setSource cmdbuff => ?_) cmdbuff
    dsimp only
    split
    · rename_i hid
      rw [imp_iff_right hid]
      exact succeeds_nextInt_return _ cmdbuff
    · rename_i hid
      exact iff_of_true (succeeds_ok _) fun h => absurd h hid
  · rcases cmdbuff.tokens '.' with _ | ⟨moudleID, _ | ⟨source, rest⟩⟩
    · simp
    · simp
    · simp [List.length_pos_iff, Nat.succ_le_iff]

theorem succeeds_edidGet_iff (cmdbuff : TextBuffer) :
    Succeeds (do
      let (moudleID, cmdbuff) ← nextInt cmdbuff
      let (getSource, _) ← nextInt cmdbuff
      if moudleID = hdmiEdidVerGet then return ((mpTv.getEdidVersion getSource).toInt32, mpTv)
      else return (0, mpTv)) ↔ 2 ≤ (cmdbuff.tokens '.').length := by
  refine (succeeds_nextInt_bind (P := fun _ args => ∃ source rest, args = source :: rest ∧ True)
    (fun moudleID cmdbuff => ?_) cmdbuff).trans ?_
  · refine succeeds_nextInt_bind (P := fun _ _ => True) (fun getSource cmdbuff => ?_) cmdbuff
    dsimp only
    split <;> exact iff_of_true (succeeds_ok _) trivial
  · rcases cmdbuff.tokens '.' with _ | ⟨moudleID, _ | ⟨source, rest⟩⟩ <;> simp

theorem succeeds_parserEdidCommand_iff (cmdbuff : TextBuffer) :
    Succeeds (parserEdidCommand ans mpTv cmdbuff) ↔ EdidTokens (cmdbuff.tokens '.') := by
  refine succeeds_nextToken_bind (P := fun temp args => (temp = "set".toList →
    2 ≤ args.length ∧ (args.head?.map CText.atoi = some hdmiEdidVerSet → 3 ≤ args.length)) ∧
    (temp = "get".toList → 2 ≤ args.length)) (fun temp cmdbuff => ?_) cmdbuff
  have hset : "set".toList ≠ "get".toList := by decide
  dsimp only
  split
  · rename_i htemp
    refine (succeeds_edidSet_iff cmdbuff).trans ?_
    rw [imp_iff_right htemp, htemp]
    exact (and_iff_left fun h => absurd h hset).symm
  · rename_i htemp
    refine Iff.trans ?_ (and_iff_right fun h => absurd h htemp).symm
    split
    · rename_i hget
      rw [imp_iff_right hget]
      exact succeeds_edidGet_iff cmdbuff
    · rename_i hget
      exact iff_of_true (succeeds_ok _) fun h => absurd h hget

theorem succeeds_parserHdmiCommand_iff (cmdbuff : TextBuffer) :
    Succeeds (parserHdmiCommand ans mpTv cmdbuff) ↔ cmdbuff.tokens '.' ≠ [] := by
  refine (succeeds_nextInt_bind (P := fun _ _ => True) (fun moudleID cmdbuff => ?_)
    cmdbuff).trans ?_
  · dsimp only
    split_ifs <;> exact iff_of_true (succeeds_ok _) trivial
  · cases cmdbuff.tokens '.' <;> simp

/-- **A command is dispatched without a fault** exactly if it has the tokens it takes. -/
theorem succeeds_dispatch_iff (cmdbuff : TextBuffer) :
    Succeeds (dispatch ans mpTv cmdbuff) ↔ EnoughTokens (cmdbuff.tokens '.') := by
  refine succeeds_nextToken_bind (P := fun temp args =>
    (temp = "control".toList → ControlTokens args) ∧ (temp = "edid".toList → EdidTokens args) ∧
      (temp = "hdmi".toList → args ≠ [])) (fun temp cmdbuff => ?_) cmdbuff
  have hedid : "control".toList ≠ "edid".toList := by decide
  have hhdmi : "control".toList ≠ "hdmi".toList := by decide
  have hother : "edid".toList ≠ "hdmi".toList := by decide
  dsimp only
  -- the families exclude each other, and a text of no family takes nothing
  split_ifs with hc he hh
  · rw [succeeds_parserControlCommand_iff, imp_iff_right hc, hc]
    exact (and_iff_left ⟨fun h => absurd h hedid, fun h => absurd h hhdmi⟩).symm
  · rw [succeeds_parserEdidCommand_iff, imp_iff_right he, he]
    refine ((and_iff_right fun h => absurd h hedid.symm).trans ?_).symm
    exact and_iff_left fun h => absurd h hother
  · rw [succeeds_parserHdmiCommand_iff, imp_iff_right hh]
    refine ((and_iff_right fun h => absurd h hc).trans ?_).symm
    exact and_iff_right fun h => absurd h he
  · exact iff_of_true (succeeds_ok _)
      ⟨fun h => absurd h hc, fun h => absurd h he, fun h => absurd h hh⟩

end Checked

/-! ## The parser without faults -/

section

variable {ans : Answers} {mpTv : CTv}

theorem toOption_nextToken_bind {α : Type} (f : List Char × TextBuffer → Except Fault α)
    (text : List Char) : (Checked.nextToken ⟨text, true⟩ >>= f).toOption =
      CText.strtok '.' text >>= fun p => (f (p.1, ⟨p.2, true⟩)).toOption := by
  rw [Checked.nextToken, TextBuffer.strtok_terminated]
  cases CText.strtok '.' text <;> rfl

theorem toOption_nextInt_bind {α : Type} (f : Int32 × TextBuffer → Except Fault α)
    (text : List Char) : (Checked.nextInt ⟨text, true⟩ >>= f).toOption =
      strtokInt text >>= fun p => (f (p.1, ⟨p.2, true⟩)).toOption := by
  rw [Checked.nextInt, bind_assoc, toOption_nextToken_bind, strtokInt]
  cases CText.strtok '.' text <;> rfl

/-- Both parsers make the same tests. -/
theorem toOption_ite {α : Type} {c : Prop} [Decidable c] {e e' : Except Fault α}
    {o o' : Option α} (he : e.toOption = o) (he' : e'.toOption = o') :
    (if c then e else e').toOption = if c then o else o' := by
  rw [apply_ite Except.toOption, he, he']

theorem toOption_parserControlCommand (text : List Char) :
    (Checked.parserControlCommand ans mpTv ⟨text, true⟩).toOption =
      parserControlCommand ans mpTv text := by
  rw [Checked.parserControlCommand, toOption_nextInt_bind, parserControlCommand]
  refine congrArg (strtokInt text >>= ·) (funext fun p => ?_)
  obtain ⟨moudleID, text⟩ := p
  have hconnect : (Checked.nextInt ⟨text, true⟩ >>= fun p =>
      Checked.getSourceConnectStatus ans mpTv p.1).toOption =
        strtokInt text >>= fun p => (mpTv.getSourceConnectStatus ans p.1).map (·, mpTv) := by
    rw [toOption_nextInt_bind]
    refine congrArg (strtokInt text >>= ·) (funext fun p => ?_)
    dsimp only [Checked.getSourceConnectStatus]
    cases mpTv.getSourceConnectStatus ans p.1 <;> rfl
  apply toOption_ite (toOption_nextInt_bind _ text)
  apply toOption_ite (toOption_nextInt_bind _ text)
  apply toOption_ite (toOption_nextInt_bind _ text)
  -- the queries of the front end take no argument
  apply toOption_ite rfl
  apply toOption_ite rfl
  apply toOption_ite rfl
  apply toOption_ite rfl
  apply toOption_ite rfl
  exact toOption_ite hconnect rfl

theorem toOption_parserEdidCommand (text : List Char) :
    (Checked.parserEdidCommand ans mpTv ⟨text, true⟩).toOption =
      parserEdidCommand ans mpTv text := by
  rw [Checked.parserEdidCommand, toOption_nextToken_bind, parserEdidCommand]
  refine congrArg (CText.strtok '.' text >>= ·) (funext fun p => ?_)
  obtain ⟨temp, text⟩ := p
  -- an id and a source are read behind both words
  refine toOption_ite ?_ (toOption_ite ?_ rfl)
  · rw [toOption_nextInt_bind]
    refine congrArg (strtokInt text >>= ·) (funext fun p => ?_)
    obtain ⟨moudleID, text⟩ := p
    rw [toOption_nextInt_bind]
    refine congrArg (strtokInt text >>= ·) (funext fun p => ?_)
    obtain ⟨setSource, text⟩ := p
    exact toOption_ite (toOption_nextInt_bind _ text) rfl
  · rw [toOption_nextInt_bind]
    refine congrArg (strtokInt text >>= ·) (funext fun p => ?_)
    obtain ⟨moudleID, text⟩ := p
    rw [toOption_nextInt_bind]
    refine congrArg (strtokInt text >>= ·) (funext fun p => ?_)
    exact toOption_ite rfl rfl

theorem toOption_parserHdmiCommand (text : List Char) :
    (Checked.parserHdmiCommand ans mpTv ⟨text, true⟩).toOption =
      parserHdmiCommand ans mpTv text := by
  rw [Checked.parserHdmiCommand, toOption_nextInt_bind, parserHdmiCommand]
  refine congrArg (strtokInt text >>= ·) (funext fun p => ?_)
  obtain ⟨moudleID, text⟩ := p
  apply toOption_ite rfl
  apply toOption_ite rfl
  apply toOption_ite rfl
  exact toOption_ite rfl rfl

end

/-! ## Robust commands -/

section

variable (ans : Answers) (service : Guarded) (commandData : List Char)

theorem checked_parserTvCommand_eq :
    Checked.parserTvCommand ans service commandData =
      (Checked.copyCommand commandData >>= Checked.dispatch ans service.mpTv).map
        fun p => (p.1, ⟨false, p.2⟩) := by
  rw [Checked.parserTvCommand]
  cases Checked.copyCommand commandData with
  | error fault => rfl
  | ok cmdbuff =>
    show (Checked.dispatch ans service.mpTv cmdbuff >>= _) =
      (Checked.dispatch ans service.mpTv cmdbuff).map _
    cases Checked.dispatch ans service.mpTv cmdbuff <;> rfl

/-- **The parser computes what the one without faults computes**, and frees the mutex, unless the
text fills the buffer exactly. -/
theorem toOption_parserTvCommand (hlen : commandData.length ≠ Checked.cmdbuffSize) :
    (Checked.parserTvCommand ans service commandData).toOption =
      (parserTvCommand ans service.mpTv commandData).map fun p => (p.1, ⟨false, p.2⟩) := by
  have hmap {α β : Type} (f : α → β) (e : Except Fault α) :
      (e.map f).toOption = e.toOption.map f := by
    cases e <;> rfl
  rw [checked_parserTvCommand_eq, hmap, parserTvCommand, Checked.copyCommand]
  split
  · rename_i hle
    have hlt : commandData.length < 1024 := Nat.lt_of_le_of_ne hle hlen
    have hterminated : decide (commandData.length < Checked.cmdbuffSize) = true :=
      decide_eq_true hlt
    rw [if_pos hlt, hterminated]
    refine congrArg _ ((toOption_nextToken_bind _ commandData).trans ?_)
    refine congrArg (CText.strtok '.' commandData >>= ·) (funext fun p => ?_)
    obtain ⟨temp, text⟩ := p
    apply toOption_ite (toOption_parserControlCommand text)
    apply toOption_ite (toOption_parserEdidCommand text)
    exact toOption_ite (toOption_parserHdmiCommand text) rfl
  · rename_i hle
    have hge : ¬ commandData.length < 1024 := fun hlt => hle (Nat.le_of_lt hlt)
    rw [if_neg hge]
    rfl

end

/-- The parser returns, having read only tokens that are there and written only to the buffer, and
the mutex is free again. -/
def Robust (ans : Answers) (mpTv : CTv) (commandData : List Char) : Prop :=
  ∃ ret service, Checked.parserTvCommand ans ⟨false, mpTv⟩ commandData = .ok (ret, service) ∧
    service.tvserviceMutex = false

theorem robust_iff_succeeds (ans : Answers) (mpTv : CTv) (commandData : List Char) :
    Robust ans mpTv commandData ↔
      Checked.Succeeds (Checked.copyCommand commandData >>= Checked.dispatch ans mpTv) := by
  rw [Robust, checked_parserTvCommand_eq]
  cases Checked.copyCommand commandData >>= Checked.dispatch ans mpTv with
  | error fault => exact iff_of_false (by simp [Except.map]) (Checked.not_succeeds_error fault)
  | ok p => exact iff_of_true ⟨p.1, _, rfl, rfl⟩ (Checked.succeeds_ok p)

/-- The tokens of a command in the buffer: its pieces between dots that are not empty. A command
of the size of the buffer has no end, so that its last piece is none. -/
def commandTokens (commandData : List Char) : List (List Char) :=
  TextBuffer.tokens '.' ⟨commandData, commandData.length < Checked.cmdbuffSize⟩

/-- **Robust commands** fit the buffer and have the tokens they take. -/
theorem robust_iff (ans : Answers) (mpTv : CTv) (commandData : List Char) :
    Robust ans mpTv commandData ↔
      commandData.length ≤ Checked.cmdbuffSize ∧
        Checked.EnoughTokens (commandTokens commandData) := by
  rw [robust_iff_succeeds, Checked.copyCommand]
  split
  · rename_i hlen
    rw [and_iff_right hlen]
    exact Checked.succeeds_dispatch_iff _
  · rename_i hlen
    exact iff_of_false (Checked.not_succeeds_error _) fun h => hlen h.1

/-- The family alone is no command. -/
theorem not_forall_robust : ¬ ∀ (ans : Answers) (mpTv : CTv) (commandData : List Char),
    '\x00' ∉ commandData → Robust ans mpTv commandData := by
  intro hall
  let ans := Answers.granting 0 CTv.noSignalInfo
  let mpTv := CTv.construct ans ⟨fun _ => none, none, true, true, sourceInvalid⟩
  have hrobust := hall ans mpTv "control".toList (by decide)
  rw [robust_iff_succeeds] at hrobust
  have hdispatch : Checked.Succeeds (Checked.dispatch ans mpTv ⟨"control".toList, true⟩) :=
    hrobust
  obtain ⟨temp, args, htokens, hcontrol, -⟩ := (Checked.succeeds_dispatch_iff _).mp hdispatch
  have hone : TextBuffer.tokens '.' ⟨"control".toList, true⟩ = ["control".toList] := by decide
  obtain ⟨rfl, rfl⟩ := List.cons_eq_cons.mp (hone.symm.trans htokens)
  -- there is no id behind the family
  obtain ⟨moudleID, args, hnil, -⟩ := hcontrol rfl
  exact absurd hnil (by simp)

end TvService
