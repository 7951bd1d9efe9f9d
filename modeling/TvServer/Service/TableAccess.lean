import TvServer.Service.Parser

/-!
# Accesses to the tables

A source that comes with a command is an integer that is cast, and the operations read two tables
with it: the map of the ports, and the names for the log. The port of a source is looked up behind
a check of its range. The name is not: a query for the connection status of a source ends with a
line of the log that has its name, whatever the source is.

## Main definitions

* `Request`: what the parser makes of a command, and `Request.perform`: what comes of it
* `TableAccess`: a read of one of the tables
* `commandAccesses`: the reads that are made while a command is performed

## Main results

* `dispatch_eq`: the parser performs the request that it makes of a command
* `parserTvCommand_eq_outsideTable_iff`: a table is read outside its bounds in the parser with its
  faults exactly if an access is
* `within_iff_namesSource`: the commands whose accesses are in the tables
-/

namespace TvService

open CText (TextBuffer)

/-! ## Requests -/

/-- What the parser makes of a command. -/
inductive Request where
  | startTv (startSource : SourceInput)
  | stopTv (stopSource : SourceInput)
  | setVdinWorkMode (setVdinWorkMode : UInt32)
  | frontendField (field : TvinFrontendInfo → UInt32)
  | getSourceConnectStatus (source : SourceInput)
  | setEdidVersion (setSource : SourceInput) (setVersion : UInt32)
  | getEdidVersion (getSource : SourceInput)
  | getColorFormat
  | getColorRange
  | getColorDepth
  | getAspectRatio
  | invalid

namespace Checked

/-- The commands that start with `control`. -/
def controlRequest (cmdbuff : TextBuffer) : Except Fault Request := do
  let (moudleID, cmdbuff) ← nextInt cmdbuff
  if moudleID = tvControlStartTv then
    let (startSource, _) ← nextInt cmdbuff
    return .startTv startSource
  else if moudleID = tvControlStopTv then
    let (stopSource, _) ← nextInt cmdbuff
    return .stopTv stopSource
  else if moudleID = tvControlVdinWorkModeSet then
    let (setVdinWorkMode, _) ← nextInt cmdbuff
    return .setVdinWorkMode setVdinWorkMode.toUInt32
  else if moudleID = tvControlGetFrameHeight then return .frontendField (·.height)
  else if moudleID = tvControlGetFrameWidth then return .frontendField (·.width)
  else if moudleID = tvControlGetFrameRate then return .frontendField (·.fps)
  else if moudleID = tvControlGetColorDepth then return .frontendField (·.colordepth)
  else if moudleID = tvControlGetLineScanMode then return .frontendField (·.scanMode)
  else if moudleID = tvControlGetConnectStatus then
    let (source, _) ← nextInt cmdbuff
    return .getSourceConnectStatus source
  else return .invalid

/-- The commands that start with `edid`. -/
def edidRequest (cmdbuff : TextBuffer) : Except Fault Request := do
  let (temp, cmdbuff) ← nextToken cmdbuff
  if temp = "set".toList then
    let (moudleID, cmdbuff) ← nextInt cmdbuff
    let (setSource, cmdbuff) ← nextInt cmdbuff
    if moudleID = hdmiEdidVerSet then
      let (setVersion, _) ← nextInt cmdbuff
      return .setEdidVersion setSource setVersion.toUInt32
    else return .invalid
  else if temp = "get".toList then
    let (moudleID, cmdbuff) ← nextInt cmdbuff
    let (getSource, _) ← nextInt cmdbuff
    if moudleID = hdmiEdidVerGet then return .getEdidVersion getSource
    else return .invalid
  else return .invalid

/-- The commands that start with `hdmi`. -/
def hdmiRequest (cmdbuff : TextBuffer) : Except Fault Request := do
  let (moudleID, _) ← nextInt cmdbuff
  if moudleID = hdmiGetColorFormat then return .getColorFormat
  else if moudleID = hdmiGetColorRange then return .getColorRange
  else if moudleID = hdmiGetColorDepth then return .getColorDepth
  else if moudleID = hdmiGetAspectRatio then return .getAspectRatio
  else return .invalid

/-- The request of the command in the buffer. -/
def request (cmdbuff : TextBuffer) : Except Fault Request := do
  let (temp, cmdbuff) ← nextToken cmdbuff
  if temp = "control".toList then controlRequest cmdbuff
  else if temp = "edid".toList then edidRequest cmdbuff
  else if temp = "hdmi".toList then hdmiRequest cmdbuff
  else return .invalid

end Checked

/-- Perform a request. -/
def Request.perform (ans : Answers) (mpTv : CTv) : Request → Except Fault (Int32 × CTv)
  | startTv startSource => return mpTv.startTv ans startSource
  | stopTv stopSource => return mpTv.stopTv ans stopSource
  | setVdinWorkMode mode => return mpTv.setVdinWorkMode mode
  | frontendField field => return TvService.frontendField ans mpTv field
  | getSourceConnectStatus source => Checked.getSourceConnectStatus ans mpTv source
  | setEdidVersion setSource setVersion => return mpTv.setEdidVersion ans setSource setVersion
  | getEdidVersion getSource => return ((mpTv.getEdidVersion getSource).toInt32, mpTv)
  | getColorFormat => return (mpTv.getCurrentSourceInfo.cfmt.toInt32, mpTv)
  | getColorRange => return (mpTv.getFrontendInfo ans .zero).2.getColorRangeMode ans
  | getColorDepth => return (TvinFrontendInfo.zero.colordepth.toInt32, mpTv)
  | getAspectRatio => return (mpTv.getCurrentSourceInfo.aspectRatio.toInt32, mpTv)
  | invalid => return (0, mpTv)

variable {ans : Answers} {mpTv : CTv}

namespace Checked

/-- A request whose last token is an integer. -/
theorem nextInt_perform (make : Int32 → Request) (cmdbuff : TextBuffer) :
    ((nextInt cmdbuff >>= fun p => return make p.1) >>= fun r => r.perform ans mpTv) =
      nextInt cmdbuff >>= fun p => (make p.1).perform ans mpTv := bind_assoc _ _ _

/-- A command is performed as its request by the same tests. -/
theorem ite_eq_bind {α β : Type} {c : Prop} [Decidable c] {x x' : Except Fault β}
    {e e' : Except Fault α} {f : α → Except Fault β} (hx : x = e >>= f) (hx' : x' = e' >>= f) :
    (if c then x else x') = (if c then e else e') >>= f := by
  rw [apply_ite (· >>= f), hx, hx']

theorem parserControlCommand_eq (cmdbuff : TextBuffer) :
    parserControlCommand ans mpTv cmdbuff =
      controlRequest cmdbuff >>= fun r => r.perform ans mpTv := by
  rw [parserControlCommand, controlRequest, bind_assoc]
  refine congrArg (nextInt cmdbuff >>= ·) (funext fun p => ?_)
  obtain ⟨moudleID, cmdbuff⟩ := p
  apply ite_eq_bind (nextInt_perform .startTv cmdbuff).symm
  apply ite_eq_bind (nextInt_perform .stopTv cmdbuff).symm
  apply ite_eq_bind (nextInt_perform (fun mode => .setVdinWorkMode mode.toUInt32) cmdbuff).symm
  -- the queries of the front end take no argument
  refine ite_eq_bind (by rfl) ?_
  refine ite_eq_bind (by rfl) ?_
  refine ite_eq_bind (by rfl) ?_
  refine ite_eq_bind (by rfl) ?_
  refine ite_eq_bind (by rfl) ?_
  exact ite_eq_bind (nextInt_perform .getSourceConnectStatus cmdbuff).symm (by rfl)

theorem parserEdidCommand_eq (cmdbuff : TextBuffer) :
    parserEdidCommand ans mpTv cmdbuff = edidRequest cmdbuff >>= fun r => r.perform ans mpTv := by
  rw [parserEdidCommand, edidRequest, bind_assoc]
  refine congrArg (nextToken cmdbuff >>= ·) (funext fun p => ?_)
  obtain ⟨temp, cmdbuff⟩ := p
  -- an id and a source are read behind both words
  refine ite_eq_bind ?_ (ite_eq_bind ?_ rfl)
  · rw [bind_assoc]
    refine congrArg (nextInt cmdbuff >>= ·) (funext fun p => ?_)
    obtain ⟨moudleID, cmdbuff⟩ := p
    rw [bind_assoc]
    refine congrArg (nextInt cmdbuff >>= ·) (funext fun p => ?_)
    obtain ⟨setSource, cmdbuff⟩ := p
    refine ite_eq_bind (Eq.symm ?_) (by rfl)
    exact nextInt_perform (fun ver => .setEdidVersion setSource ver.toUInt32) cmdbuff
  · rw [bind_assoc]
    refine congrArg (nextInt cmdbuff >>= ·) (funext fun p => ?_)
    obtain ⟨moudleID, cmdbuff⟩ := p
    rw [bind_assoc]
    refine congrArg (nextInt cmdbuff >>= ·) (funext fun p => ?_)
    exact ite_eq_bind (by rfl) rfl

theorem parserHdmiCommand_eq (cmdbuff : TextBuffer) :
    parserHdmiCommand ans mpTv cmdbuff = hdmiRequest cmdbuff >>= fun r => r.perform ans mpTv := by
  rw [parserHdmiCommand, hdmiRequest, bind_assoc]
  refine congrArg (nextInt cmdbuff >>= ·) (funext fun p => ?_)
  refine ite_eq_bind (by rfl) ?_
  refine ite_eq_bind (by rfl) ?_
  refine ite_eq_bind (by rfl) ?_
  exact ite_eq_bind (by rfl) rfl

/-- **The parser performs the request** that it makes of a command. -/
theorem dispatch_eq (cmdbuff : TextBuffer) :
    dispatch ans mpTv cmdbuff = request cmdbuff >>= fun r => r.perform ans mpTv := by
  rw [dispatch, request, bind_assoc]
  refine congrArg (nextToken cmdbuff >>= ·) (funext fun p => ?_)
  obtain ⟨temp, cmdbuff⟩ := p
  apply ite_eq_bind (parserControlCommand_eq cmdbuff)
  apply ite_eq_bind (parserEdidCommand_eq cmdbuff)
  exact ite_eq_bind (parserHdmiCommand_eq cmdbuff) rfl

end Checked

variable {commandData : List Char}

/-- A command is performed as the request that its text is decoded to. -/
theorem parserTvCommand_eq_request (service : Guarded) :
    Checked.parserTvCommand ans service commandData =
      (Checked.copyCommand commandData >>= Checked.request >>=
        (·.perform ans service.mpTv)).map fun p => (p.1, ⟨false, p.2⟩) := by
  have hdispatch : Checked.copyCommand commandData >>= Checked.dispatch ans service.mpTv =
      Checked.copyCommand commandData >>= Checked.request >>= (·.perform ans service.mpTv) := by
    rw [bind_assoc]
    exact congrArg (Checked.copyCommand commandData >>= ·) (funext Checked.dispatch_eq)
  rw [checked_parserTvCommand_eq, hdispatch]

/-! ## Accesses -/

/-- A read of one of the tables, at an index. -/
inductive TableAccess where
  | portMap (index : Int32)
  | inputName (index : Int32)
deriving DecidableEq

/-- The index is one of the table. -/
def TableAccess.Within : TableAccess → Prop
  | portMap index => 0 ≤ index ∧ index < sourceMax
  | inputName index => 0 ≤ index ∧ index ≤ 17

/-- The reads for the port of a source, behind a check of its range. -/
def portAccesses (sourceInput : SourceInput) : List TableAccess :=
  if sourceInput < sourceTv ∨ sourceMax ≤ sourceInput then [] else [.portMap sourceInput]

/-- The reads for the port id of a source. -/
def hdmiPortIdAccesses (sourceInput : SourceInput) : List TableAccess :=
  if sourceHdmi4 < sourceInput ∨ sourceInput < sourceHdmi1 then [] else portAccesses sourceInput

/-- The reads for the name of a source. -/
def nameAccesses (srcInput : SourceInput) : List TableAccess :=
  if srcInput = sourceInvalid then [] else [.inputName srcInput]

/-- The sources that a connection status is read for. -/
def detectSources : List SourceInput :=
  [sourceAv2, sourceAv1, sourceHdmi1, sourceHdmi2, sourceHdmi3, sourceHdmi4]

/-- The reads that are made while a request is performed. -/
def Request.accesses (mpTv : CTv) : Request → List TableAccess
  | startTv source | stopTv source => portAccesses source
  | getSourceConnectStatus source =>
    -- the log names a source without a status, and names every source at the end
    portAccesses source ++ (if source ∈ detectSources then [] else nameAccesses source) ++
      nameAccesses source
  | setEdidVersion setSource setVersion =>
    if mpTv.getEdidVersion setSource ≠ setVersion then
      CTv.hdmiSources.flatMap hdmiPortIdAccesses
    else []
  | _ => []

/-- The reads that are made while a command is performed. -/
def commandAccesses (mpTv : CTv) (commandData : List Char) : List TableAccess :=
  match Checked.copyCommand commandData >>= Checked.request with
  | .ok r => r.accesses mpTv
  | .error _ => []

theorem within_portAccesses (sourceInput : SourceInput) :
    ∀ access ∈ portAccesses sourceInput, access.Within := by
  rw [portAccesses]
  split
  · exact fun access hmem => absurd hmem List.not_mem_nil
  · rename_i hrange
    rw [not_or, Int32.not_lt, Int32.not_le] at hrange
    exact fun access hmem => List.mem_singleton.mp hmem ▸ hrange

theorem within_hdmiPortIdAccesses (sourceInput : SourceInput) :
    ∀ access ∈ hdmiPortIdAccesses sourceInput, access.Within := by
  rw [hdmiPortIdAccesses]
  split
  · exact fun access hmem => absurd hmem List.not_mem_nil
  · exact within_portAccesses sourceInput

theorem within_nameAccesses_iff (srcInput : SourceInput) :
    (∀ access ∈ nameAccesses srcInput, access.Within) ↔ Checked.InTable srcInput := by
  rw [nameAccesses, Checked.InTable]
  split
  · rename_i hinvalid
    rw [hinvalid]
    exact iff_of_true (fun access hmem => absurd hmem List.not_mem_nil) (by decide)
  · rename_i hvalid
    -- a source is not `SOURCE_INVALID`, so that it is not below zero if it is not below that
    have hne : srcInput.toInt ≠ -1 := fun h => hvalid (Int32.toInt_inj.mp h)
    have hmin : sourceInvalid ≤ srcInput ↔ -1 ≤ srcInput.toInt := Int32.le_iff_toInt_le
    have hzero : 0 ≤ srcInput ↔ 0 ≤ srcInput.toInt := Int32.le_iff_toInt_le
    rw [List.forall_mem_singleton, TableAccess.Within, hmin, hzero]
    refine and_congr_left fun _ => ?_
    omega

/-- **A request reads within the tables**, unless it asks for the connection status of a source
that has no name. -/
theorem Request.within_accesses_iff (mpTv : CTv) (r : Request) :
    (∀ access ∈ r.accesses mpTv, access.Within) ↔
      ∀ source, r = .getSourceConnectStatus source → Checked.InTable source := by
  have hother (r : Request) (hr : ∀ source, r ≠ .getSourceConnectStatus source)
      (hwithin : ∀ access ∈ r.accesses mpTv, access.Within) :
      (∀ access ∈ r.accesses mpTv, access.Within) ↔
        ∀ source, r = .getSourceConnectStatus source → Checked.InTable source :=
    iff_of_true hwithin fun source h => absurd h (hr source)
  have hnone : ∀ access ∈ ([] : List TableAccess), access.Within :=
    fun access hmem => absurd hmem List.not_mem_nil
  cases r with
  | getSourceConnectStatus source =>
    have hlog (hname : ∀ access ∈ nameAccesses source, access.Within) :
        ∀ access ∈ (if source ∈ detectSources then [] else nameAccesses source),
          access.Within := by
      split
      · exact hnone
      · exact hname
    -- the line at the end names the source whatever the lines before it do
    rw [accesses, List.forall_mem_append, List.forall_mem_append,
      and_iff_right (within_portAccesses source), and_iff_right_of_imp hlog,
      within_nameAccesses_iff]
    constructor
    · rintro htable s hs
      exact Request.getSourceConnectStatus.inj hs ▸ htable
    · exact fun h => h source rfl
  | startTv source => exact hother _ (by simp) (within_portAccesses source)
  | stopTv source => exact hother _ (by simp) (within_portAccesses source)
  | setEdidVersion setSource setVersion =>
    refine hother _ (by simp) ?_
    rw [accesses]
    split
    · intro access hmem
      obtain ⟨source, -, hsource⟩ := List.mem_flatMap.mp hmem
      exact within_hdmiPortIdAccesses source access hsource
    · exact hnone
  | _ => exact hother _ (by simp) hnone

theorem perform_getSourceConnectStatus (source : SourceInput) :
    Request.perform ans mpTv (.getSourceConnectStatus source) = .error .outsideTable ↔
      ¬ Checked.InTable source := by
  rw [← @Checked.succeeds_getSourceConnectStatus_iff ans mpTv, Request.perform,
    Checked.getSourceConnectStatus]
  cases mpTv.getSourceConnectStatus ans source with
  | none => exact iff_of_true rfl (Checked.not_succeeds_error _)
  | some ret => exact iff_of_false (by simp) (not_not_intro (Checked.succeeds_ok _))

/-- **A table is read outside its bounds** in the parser with its faults exactly if one of the
accesses is. -/
theorem Request.perform_eq_outsideTable_iff (ans : Answers) (mpTv : CTv) (r : Request) :
    r.perform ans mpTv = .error .outsideTable ↔ ¬ ∀ access ∈ r.accesses mpTv, access.Within := by
  rw [within_accesses_iff]
  cases r with
  | getSourceConnectStatus source =>
    rw [perform_getSourceConnectStatus]
    refine not_congr ⟨fun htable s hs => ?_, fun h => h source rfl⟩
    exact Request.getSourceConnectStatus.inj hs ▸ htable
  | _ => exact iff_of_false (by simp [perform, pure, Except.pure]) (by simp)

/-! ## Commands -/

namespace Checked

/-- A result behind a token: there is a token, and what follows has the result with the others. -/
theorem nextToken_bind_eq_ok_iff {α : Type} {f : List Char × TextBuffer → Except Fault α} {a : α}
    {P : List Char → List (List Char) → Prop}
    (hf : ∀ temp cmdbuff, f (temp, cmdbuff) = .ok a ↔ P temp (cmdbuff.tokens '.'))
    (cmdbuff : TextBuffer) :
    (nextToken cmdbuff >>= f) = .ok a ↔
      ∃ temp args, cmdbuff.tokens '.' = temp :: args ∧ P temp args :=
  nextToken_bind_iff (Q := (· = .ok a)) (fun fault h => not_succeeds_error fault ⟨a, h⟩) hf cmdbuff

theorem nextInt_bind_eq_ok_iff {α : Type} {f : Int32 × TextBuffer → Except Fault α} {a : α}
    {P : Int32 → List (List Char) → Prop}
    (hf : ∀ i cmdbuff, f (i, cmdbuff) = .ok a ↔ P i (cmdbuff.tokens '.')) (cmdbuff : TextBuffer) :
    (nextInt cmdbuff >>= f) = .ok a ↔
      ∃ temp args, cmdbuff.tokens '.' = temp :: args ∧ P (CText.atoi temp) args :=
  nextInt_bind_iff (Q := (· = .ok a)) (fun fault h => not_succeeds_error fault ⟨a, h⟩) hf cmdbuff

/-- A request that is made of an integer. -/
theorem nextInt_return_eq_ok_iff (make : Int32 → Request) (r : Request) (cmdbuff : TextBuffer) :
    (nextInt cmdbuff >>= fun p => return make p.1) = .ok r ↔
      ∃ temp args, cmdbuff.tokens '.' = temp :: args ∧ make (CText.atoi temp) = r :=
  nextInt_bind_eq_ok_iff (P := fun i _ => make i = r)
    (fun _ _ => ⟨Except.ok.inj, congrArg Except.ok⟩) cmdbuff

/-- The tokens behind `control` that query the connection status of a source. -/
def QueriesSource (source : SourceInput) (tokens : List (List Char)) : Prop :=
  ∃ moudleID args, tokens = moudleID :: args ∧ CText.atoi moudleID = tvControlGetConnectStatus ∧
    ∃ s rest, args = s :: rest ∧ CText.atoi s = source

theorem controlRequest_eq_iff (source : SourceInput) (cmdbuff : TextBuffer) :
    controlRequest cmdbuff = .ok (.getSourceConnectStatus source) ↔
      QueriesSource source (cmdbuff.tokens '.') := by
  refine nextInt_bind_eq_ok_iff (P := fun moudleID args => moudleID = tvControlGetConnectStatus ∧
    ∃ s rest, args = s :: rest ∧ CText.atoi s = source) (fun moudleID cmdbuff => ?_) cmdbuff
  dsimp only
  -- the other ids make other requests, with an argument or without
  have hargument (make : Int32 → Request) (hmake : ∀ i, make i ≠ .getSourceConnectStatus source)
      (hid : moudleID ≠ tvControlGetConnectStatus) :
      (nextInt cmdbuff >>= fun p => return make p.1) = .ok (.getSourceConnectStatus source) ↔
        moudleID = tvControlGetConnectStatus ∧
          ∃ s rest, cmdbuff.tokens '.' = s :: rest ∧ CText.atoi s = source := by
    rw [nextInt_return_eq_ok_iff]
    refine iff_of_false ?_ fun h => hid h.1
    rintro ⟨temp, args, -, h⟩
    exact hmake _ h
  have hquery (r : Request) (hr : r ≠ .getSourceConnectStatus source)
      (hid : moudleID ≠ tvControlGetConnectStatus) :
      (.ok r : Except Fault Request) = .ok (.getSourceConnectStatus source) ↔
        moudleID = tvControlGetConnectStatus ∧
          ∃ s rest, cmdbuff.tokens '.' = s :: rest ∧ CText.atoi s = source :=
    iff_of_false (fun h => hr (Except.ok.inj h)) fun h => hid h.1
  split_ifs with hstart hstop hmode hheight hwidth hrate hdepth hscan hconnect
  · exact hargument .startTv (by simp) (by rw [hstart]; decide)
  · exact hargument .stopTv (by simp) (by rw [hstop]; decide)
  · exact hargument (fun mode => .setVdinWorkMode mode.toUInt32) (by simp) (by rw [hmode]; decide)
  · exact hquery _ (by simp) (by rw [hheight]; decide)
  · exact hquery _ (by simp) (by rw [hwidth]; decide)
  · exact hquery _ (by simp) (by rw [hrate]; decide)
  · exact hquery _ (by simp) (by rw [hdepth]; decide)
  · exact hquery _ (by simp) (by rw [hscan]; decide)
  · rw [and_iff_right hconnect]
    refine (nextInt_return_eq_ok_iff .getSourceConnectStatus _ cmdbuff).trans ?_
    simp only [Request.getSourceConnectStatus.injEq]
  · exact hquery _ (by simp) hconnect

theorem bind_ne_ok {α β : Type} {e : Except Fault α} {f : α → Except Fault β} {b : β}
    (hf : ∀ a, f a ≠ .ok b) : (e >>= f) ≠ .ok b := by
  cases e with
  | error fault => exact fun h => not_succeeds_error fault ⟨b, h⟩
  | ok a => exact hf a

theorem edidRequest_ne (source : SourceInput) (cmdbuff : TextBuffer) :
    edidRequest cmdbuff ≠ .ok (.getSourceConnectStatus source) := by
  have hne (r : Request) (hr : r ≠ .getSourceConnectStatus source) :
      (.ok r : Except Fault Request) ≠ .ok (.getSourceConnectStatus source) :=
    fun h => hr (Except.ok.inj h)
  refine bind_ne_ok fun p => ?_
  dsimp only
  split_ifs
  · refine bind_ne_ok fun p => bind_ne_ok fun q => ?_
    split_ifs
    · exact bind_ne_ok fun p => hne _ (by simp)
    · exact hne _ (by simp)
  · refine bind_ne_ok fun p => bind_ne_ok fun q => ?_
    split_ifs <;> exact hne _ (by simp)
  · exact hne _ (by simp)

theorem hdmiRequest_ne (source : SourceInput) (cmdbuff : TextBuffer) :
    hdmiRequest cmdbuff ≠ .ok (.getSourceConnectStatus source) := by
  refine bind_ne_ok fun p => ?_
  dsimp only
  split_ifs <;> exact fun h => by simpa using Except.ok.inj h

/-- **Queries for the connection status** are the commands with such tokens behind `control`. -/
theorem request_eq_iff (source : SourceInput) (cmdbuff : TextBuffer) :
    request cmdbuff = .ok (.getSourceConnectStatus source) ↔
      ∃ temp args, cmdbuff.tokens '.' = temp :: args ∧
        temp = "control".toList ∧ QueriesSource source args := by
  refine nextToken_bind_eq_ok_iff (P := fun temp args => temp = "control".toList ∧
    QueriesSource source args) (fun temp cmdbuff => ?_) cmdbuff
  dsimp only
  split_ifs with hcontrol hedid hhdmi
  · rw [and_iff_right hcontrol]
    exact controlRequest_eq_iff source cmdbuff
  · exact iff_of_false (edidRequest_ne source cmdbuff) fun h => hcontrol h.1
  · exact iff_of_false (hdmiRequest_ne source cmdbuff) fun h => hcontrol h.1
  · exact iff_of_false (by simp [pure, Except.pure]) fun h => hcontrol h.1

/-! ### Faults of the tokens -/

theorem nextToken_ne_outsideTable (cmdbuff : TextBuffer) :
    nextToken cmdbuff ≠ .error .outsideTable := by
  rw [nextToken]
  split <;> simp

theorem bind_ne_outsideTable {α β : Type} {e : Except Fault α} {f : α → Except Fault β}
    (he : e ≠ .error .outsideTable) (hf : ∀ a, f a ≠ .error .outsideTable) :
    (e >>= f) ≠ .error .outsideTable := by
  cases e with
  | error fault => exact fun h => he (congrArg Except.error (Except.error.inj h))
  | ok a => exact hf a

theorem return_ne_outsideTable {α : Type} (a : α) :
    (return a : Except Fault α) ≠ .error .outsideTable := by simp [pure, Except.pure]

theorem nextInt_bind_ne_outsideTable {α : Type} {f : Int32 × TextBuffer → Except Fault α}
    (hf : ∀ p, f p ≠ .error .outsideTable) (cmdbuff : TextBuffer) :
    (nextInt cmdbuff >>= f) ≠ .error .outsideTable :=
  bind_ne_outsideTable (bind_ne_outsideTable (nextToken_ne_outsideTable cmdbuff)
    fun _ => return_ne_outsideTable _) hf

/-- A request that is made of one more integer. -/
theorem nextInt_return_ne_outsideTable {make : Int32 × TextBuffer → Request}
    (cmdbuff : TextBuffer) :
    (nextInt cmdbuff >>= fun p => return make p) ≠ .error .outsideTable :=
  nextInt_bind_ne_outsideTable (fun _ => return_ne_outsideTable _) cmdbuff

theorem controlRequest_ne_outsideTable (cmdbuff : TextBuffer) :
    controlRequest cmdbuff ≠ .error .outsideTable := by
  refine nextInt_bind_ne_outsideTable (fun p => ?_) cmdbuff
  dsimp only
  -- the ids with one more integer, and the others
  split_ifs <;> first
    | exact return_ne_outsideTable _
    | exact nextInt_return_ne_outsideTable p.2

theorem edidRequest_ne_outsideTable (cmdbuff : TextBuffer) :
    edidRequest cmdbuff ≠ .error .outsideTable := by
  refine bind_ne_outsideTable (nextToken_ne_outsideTable cmdbuff) fun p => ?_
  dsimp only
  split_ifs
  · -- `set`, of which one id has a third integer
    refine nextInt_bind_ne_outsideTable (fun p => ?_) p.2
    refine nextInt_bind_ne_outsideTable (fun q => ?_) p.2
    split_ifs
    · exact nextInt_return_ne_outsideTable q.2
    · exact return_ne_outsideTable _
  · -- `get`
    refine nextInt_bind_ne_outsideTable (fun p => ?_) p.2
    refine nextInt_bind_ne_outsideTable (fun q => ?_) p.2
    split_ifs <;> exact return_ne_outsideTable _
  · exact return_ne_outsideTable _

theorem hdmiRequest_ne_outsideTable (cmdbuff : TextBuffer) :
    hdmiRequest cmdbuff ≠ .error .outsideTable := by
  refine nextInt_bind_ne_outsideTable (fun p => ?_) cmdbuff
  dsimp only
  split_ifs <;> exact return_ne_outsideTable _

/-- **No table is read** while a command is taken apart. -/
theorem request_ne_outsideTable (cmdbuff : TextBuffer) :
    request cmdbuff ≠ .error .outsideTable := by
  refine bind_ne_outsideTable (nextToken_ne_outsideTable cmdbuff) fun p => ?_
  dsimp only
  split_ifs
  · exact controlRequest_ne_outsideTable p.2
  · exact edidRequest_ne_outsideTable p.2
  · exact hdmiRequest_ne_outsideTable p.2
  · exact return_ne_outsideTable _

end Checked

/-- **The parser reads a table outside its bounds** exactly if one of the accesses is. -/
theorem parserTvCommand_eq_outsideTable_iff (ans : Answers) (service : Guarded)
    (commandData : List Char) :
    Checked.parserTvCommand ans service commandData = .error .outsideTable ↔
      ¬ ∀ access ∈ commandAccesses service.mpTv commandData, access.Within := by
  have hmap {α β : Type} (f : α → β) (e : Except Fault α) :
      e.map f = .error .outsideTable ↔ e = .error .outsideTable := by
    cases e <;> simp [Except.map]
  have hdecode : Checked.copyCommand commandData >>= Checked.request ≠ .error .outsideTable := by
    refine Checked.bind_ne_outsideTable ?_ Checked.request_ne_outsideTable
    rw [Checked.copyCommand]
    split_ifs <;> simp
  rw [parserTvCommand_eq_request, hmap, commandAccesses]
  cases hrequest : Checked.copyCommand commandData >>= Checked.request with
  | error fault =>
    -- the fault is of the text, and there are no accesses
    refine iff_of_false (fun h => hdecode ?_) fun h => h fun access hmem =>
      absurd hmem List.not_mem_nil
    rw [hrequest]
    exact congrArg Except.error (Except.error.inj h)
  | ok r => exact Request.perform_eq_outsideTable_iff ans service.mpTv r

/-- A command that queries the connection status names a source that has a name. -/
def NamesSource (commandData : List Char) : Prop :=
  commandData.length ≤ Checked.cmdbuffSize →
    ∀ moudleID source rest,
      commandTokens commandData = "control".toList :: moudleID :: source :: rest →
        CText.atoi moudleID = tvControlGetConnectStatus → Checked.InTable (CText.atoi source)

theorem forall_commandAccesses_iff (mpTv : CTv) (commandData : List Char) :
    (∀ access ∈ commandAccesses mpTv commandData, access.Within) ↔
      ∀ source, (Checked.copyCommand commandData >>= Checked.request) =
        .ok (.getSourceConnectStatus source) → Checked.InTable source := by
  rw [commandAccesses]
  cases Checked.copyCommand commandData >>= Checked.request with
  | error fault =>
    exact iff_of_true (fun access hmem => absurd hmem List.not_mem_nil)
      fun source h => absurd ⟨_, h⟩ (Checked.not_succeeds_error fault)
  | ok r =>
    rw [Request.within_accesses_iff]
    refine forall_congr' fun source => imp_congr_left ?_
    exact ⟨congrArg Except.ok, Except.ok.inj⟩

/-- The commands whose accesses are in the tables. -/
theorem forall_commandAccesses_iff_namesSource (mpTv : CTv) (commandData : List Char) :
    (∀ access ∈ commandAccesses mpTv commandData, access.Within) ↔ NamesSource commandData := by
  rw [forall_commandAccesses_iff, NamesSource, Checked.copyCommand]
  split_ifs with hlen
  · rw [imp_iff_right hlen]
    constructor
    · intro h moudleID source rest htokens hid
      apply h
      exact (Checked.request_eq_iff _ _).mpr
        ⟨_, _, htokens, rfl, moudleID, source :: rest, rfl, hid, source, rest, rfl, rfl⟩
    · intro h source hrequest
      obtain ⟨_, args, htokens, rfl, moudleID, _, rfl, hid, s, rest, rfl, rfl⟩ :=
        (Checked.request_eq_iff source _).mp hrequest
      exact h moudleID s rest htokens hid
  · exact iff_of_true (fun source h => absurd ⟨_, h⟩ (Checked.not_succeeds_error _))
      fun h => absurd h hlen

/-- **Accesses within the tables**: a command reads within the tables, whatever the source it
comes with, unless it queries the connection status of a source that has no name. So the parser
reads a table outside its bounds for these queries, and for no other command. -/
theorem within_iff_namesSource (mpTv : CTv) (commandData : List Char) :
    ((∀ access ∈ commandAccesses mpTv commandData, access.Within) ↔ NamesSource commandData) ∧
      ∀ ans, Checked.parserTvCommand ans ⟨false, mpTv⟩ commandData = .error .outsideTable ↔
        ¬ NamesSource commandData := by
  have hwithin : (∀ access ∈ commandAccesses mpTv commandData, access.Within) ↔
      NamesSource commandData := forall_commandAccesses_iff_namesSource mpTv commandData
  refine ⟨hwithin, fun ans => ?_⟩
  rw [parserTvCommand_eq_outsideTable_iff, hwithin]

/-- The first integer behind the names. -/
theorem not_forall_within :
    ¬ ∀ (mpTv : CTv) (source : SourceInput),
      ∀ access ∈ commandAccesses mpTv
        (commandText ["control".toList, CText.decText tvControlGetConnectStatus,
          CText.decText source]), access.Within := by
  intro hall
  have hwithin := hall (CTv.allocate ⟨fun _ => none, none, true, true, sourceTv⟩) 18
  rw [forall_commandAccesses_iff_namesSource] at hwithin
  have htable := hwithin (by decide) "10".toList "18".toList [] (by decide) (by decide)
  exact absurd htable.2 (by decide)

end TvService
