import TvServer.Foundations.Ledger
import TvServer.Tv.Footprint
import TvServer.Tv.Signal

/-!
# Audio patches

A start of a source creates an audio patch, and a stop releases it. The audio singleton keeps the
handle of the patch that it created last, does not look whether there is one when it creates the
next, and does not forget the handle when it released it.

## Main definitions

* `CTv.patchEntries`: the patches that a step creates and releases
* `Patched`, `Patched.step`: the television object with the ledger of its patches
* `createsPatch`, `releasesPatch`: whether a patch is created, or released
* `KeepsBalance`: the steps that keep the ledger balanced
* `Fresh`: no handle is acquired twice

## Main results

* `patchEntries_eq`: what the steps create and release
* `balanced_iff_keeps`: the runs whose ledger is balanced throughout
* `journal_start_stop_stop`: a handle that is released twice
-/

open Ledger (Entry)

/-- What an action did to the patches: a create that succeeds leaves a handle. -/
def TvAction.patchEntry (ans : Answers) : TvAction → Option (Entry Int32)
  | .createAudioPatch _ ret => if ret = 0 then some (.acquired ans.createAudioPatch.2) else none
  | .releaseAudioPatch handle ret => some (.released handle (ret = 0))
  | _ => none

namespace CTv

variable {ans : Answers} {tv : CTv}

/-! ## The patches of a step -/

/-- The patches that a step creates and releases, in order. -/
def patchEntries (tv : CTv) (x : Command × Answers) : List (Entry Int32) :=
  ((tv.step x).trace.drop tv.trace.length).filterMap (TvAction.patchEntry x.2)

/-- Whether a start of a source creates a patch: there is none for MPEG, and none without the
audio interface. -/
def createsPatch (tv : CTv) (ans : Answers) (source : SourceInput) : Bool :=
  source ≠ sourceMpeg && (tv.audioInstance ans).iSInit && ans.createAudioPatch.1 = 0

/-- Whether a stop of a source tries to release a patch: there is a handle, and the audio
interface. -/
def releasesPatch (tv : CTv) (ans : Answers) : Bool :=
  (tv.audioInstance ans).patchHandle ≠ 0 && (tv.audioInstance ans).iSInit

/-- The patch that a start creates. -/
def created (tv : CTv) (ans : Answers) (source : SourceInput) : List (Entry Int32) :=
  if tv.createsPatch ans source then [.acquired ans.createAudioPatch.2] else []

/-- The patch that a stop tries to release. -/
def released (tv : CTv) (ans : Answers) : List (Entry Int32) :=
  if tv.releasesPatch ans then
    [.released (tv.audioInstance ans).patchHandle (ans.releaseAudioPatch = 0)]
  else []

/-- The patches of a trace. -/
def patches (ans : Answers) (tv : CTv) : List (Entry Int32) :=
  tv.trace.filterMap (TvAction.patchEntry ans)

theorem patches_dependsOn (ans : Answers) : DependsOn (patches ans) [.audioPatch] := by
  apply filterMap_dependsOn
  intro action haction
  cases action with
  | createAudioPatch deviceType ret => exact absurd (of_decide_eq_true rfl) haction
  | releaseAudioPatch handle ret => exact absurd (of_decide_eq_true rfl) haction
  | _ => rfl

theorem mAudio_dependsOn : DependsOn mAudio [.audio] := by
  intro tv u hu
  cases u with
  | storeEdidVersion source edidVer =>
    exact storeEdidVersion_keeps mAudio tv (fun _ _ _ _ => rfl) source edidVer
  | _ => first | rfl | exact absurd (of_decide_eq_true rfl) hu

theorem audioInstance_of_touches {parts : List Part} {tv' : CTv} (h : Touches parts tv tv')
    (hparts : Footprint.avoids parts [.audio] = true) :
    tv'.audioInstance ans = tv.audioInstance ans := by
  rw [audioInstance, audioInstance, h.frame mAudio_dependsOn hparts]

theorem patches_createAudioPatch (deviceType : AudioDeviceIn) :
    patches ans (tv.createAudioPatch ans deviceType) = patches ans tv ++
      if (tv.audioInstance ans).iSInit && ans.createAudioPatch.1 = 0 then
        [.acquired ans.createAudioPatch.2]
      else [] := by
  rw [createAudioPatch]
  by_cases hinit : (tv.audioInstance ans).iSInit = true
  · rw [if_pos hinit]
    refine List.filterMap_append.trans (congrArg (patches ans tv ++ ·) ?_)
    by_cases hret : ans.createAudioPatch.1 = 0 <;> simp [TvAction.patchEntry, hinit, hret]
  · rw [if_neg hinit]
    simp only [hinit, Bool.false_and, Bool.false_eq_true, if_false, List.append_nil]
    rfl

theorem patches_releaseAudioPatch :
    patches ans (tv.releaseAudioPatch ans) = patches ans tv ++ tv.released ans := by
  rw [releaseAudioPatch, released, releasesPatch]
  split
  · rename_i hreleases
    refine List.filterMap_append.trans (congrArg (patches ans tv ++ ·) ?_)
    simp [TvAction.patchEntry, hreleases]
  · rename_i hreleases
    have hnot : ((tv.audioInstance ans).patchHandle ≠ 0 &&
        (tv.audioInstance ans).iSInit) = false := by
      simpa using hreleases
    rw [hnot]
    exact (List.append_nil _).symm

theorem audioInstance_createAudioPatch (deviceType : AudioDeviceIn)
    (hinit : (tv.audioInstance ans).iSInit = true) :
    (tv.createAudioPatch ans deviceType).audioInstance ans =
      { tv.audioInstance ans with patchHandle := ans.createAudioPatch.2 } := by
  rw [createAudioPatch, if_pos hinit]
  rfl

@[simp] theorem audioInstance_releaseAudioPatch :
    (tv.releaseAudioPatch ans).audioInstance ans = tv.audioInstance ans := by
  rw [releaseAudioPatch]
  split <;> rfl

/-- A start of a source does nothing to the patches until it creates one. -/
theorem startTv_eq_createAudioPatch (ans : Answers) (tv : CTv) (source : SourceInput) :
    ∃ before : CTv, before.audioInstance ans = tv.audioInstance ans ∧
      patches ans before = patches ans tv ∧ (tv.startTv ans source).2 =
        if source = sourceMpeg then before
        else before.createAudioPatch ans (mapSourcetoAudiotupe source) := by
  have hopened := (touches_prepare ans tv source).trans (touches_vdinDeviceIOCtl ans _
    (.openPort (tv.tvinGetSourcePortBySourceInput source)))
  have hsource := hopened.trans (touches_update _ (.setCurrentSource source))
  refine ⟨(tv.opened ans source).2.setCurrentSource source, ?_, ?_, ?_⟩
  · exact audioInstance_of_touches hsource rfl
  · exact hsource.frame (patches_dependsOn ans) rfl
  · rw [startTv_eq_opened]

/-- A stop of a source does nothing to the patches behind the release of one. -/
theorem touches_stopTv_of_released (source : SourceInput) :
    Touches [.amVideo, .vdinFd, .stopDec, .decoder, .closePort, .workMode, .source, .signalInfo]
      (tv.releaseAudioPatch ans) (tv.stopTv ans source).2 := by
  have hlayer := (touches_setVideoLayerStatus ans (tv.releaseAudioPatch ans)
    videoLayerStatusDisable).trans (touches_setVideoGlobalOutputMode ans _
      videoGlobalOutputModeDisable)
  have hclosed := (hlayer.trans (touches_tvinStopDecoder ans _)).trans
    (touches_vdinDeviceIOCtl ans _ .closePort)
  exact (hclosed.trans (touches_stopTv_of_closed ans tv source)).mono rfl

/-- A start of a source creates at most one patch. -/
theorem patches_startTv (source : SourceInput) : patches ans (tv.startTv ans source).2 =
    patches ans tv ++ tv.created ans source := by
  obtain ⟨before, haudio, hpatches, hstart⟩ := startTv_eq_createAudioPatch ans tv source
  rw [hstart, created, createsPatch, ← hpatches, ← haudio]
  split
  · rename_i hmpeg
    simp [hmpeg]
  · rename_i hmpeg
    rw [patches_createAudioPatch]
    simp [hmpeg]

/-- A stop of a source tries to release at most one patch. -/
theorem patches_stopTv (source : SourceInput) : patches ans (tv.stopTv ans source).2 =
    patches ans tv ++ tv.released ans := by
  have hbehind : patches ans (tv.stopTv ans source).2 = patches ans (tv.releaseAudioPatch ans) :=
    (touches_stopTv_of_released source).frame (patches_dependsOn ans) rfl
  exact hbehind.trans patches_releaseAudioPatch

/-- A start keeps the handle of the patch that it creates. -/
theorem audioInstance_startTv {source : SourceInput} (hsource : source ≠ sourceMpeg)
    (hinit : (tv.audioInstance ans).iSInit = true) :
    (tv.startTv ans source).2.audioInstance ans =
      { tv.audioInstance ans with patchHandle := ans.createAudioPatch.2 } := by
  obtain ⟨before, haudio, -, hstart⟩ := startTv_eq_createAudioPatch ans tv source
  rw [hstart, if_neg hsource, ← haudio]
  exact audioInstance_createAudioPatch _ (haudio ▸ hinit)

/-- A stop keeps the handle of the patch that it releases. -/
theorem audioInstance_stopTv (source : SourceInput) :
    (tv.stopTv ans source).2.audioInstance ans = tv.audioInstance ans := by
  have hbehind : (tv.stopTv ans source).2.audioInstance ans =
      (tv.releaseAudioPatch ans).audioInstance ans :=
    audioInstance_of_touches (touches_stopTv_of_released source) rfl
  exact hbehind.trans audioInstance_releaseAudioPatch

/-- **What the steps create and release**: only the commands for the source do. -/
theorem patchEntries_eq (tv : CTv) (x : Command × Answers) : tv.patchEntries x =
    match x with
    | (.startTv source, ans) => tv.created ans source
    | (.stopTv _, ans) => tv.released ans
    | (.switchSource destSource, ans) =>
      if destSource ≠ tv.mCurrentSource then tv.released ans ++ tv.created ans destSource else []
    | _ => [] := by
  -- what is new in the trace is what the step appends to the patches
  have hnew {entries : List (Entry Int32)}
      (h : patches x.2 (tv.step x) = patches x.2 tv ++ entries) : tv.patchEntries x = entries :=
    Journal.filterMap_drop_of_prefix (trace_prefix_of_touches (touches_step tv x)) h
  have hframe (hparts : Footprint.avoids x.1.parts [.audioPatch] = true) :
      tv.patchEntries x = [] := by
    refine hnew (((touches_step tv x).frame (patches_dependsOn x.2) hparts).trans ?_)
    exact (List.append_nil _).symm
  obtain ⟨command, ans⟩ := x
  cases command with
  | startTv source => exact hnew (patches_startTv source)
  | stopTv source => exact hnew (patches_stopTv source)
  | switchSource destSource =>
    apply hnew
    show patches ans (tv.switchSource ans destSource).2 = _
    rw [switchSource]
    dsimp only
    split
    · -- the stop leaves the audio singleton as it was, and so the start creates what it would
      have hcreated : (tv.stopTv ans tv.mCurrentSource).2.created ans destSource =
          tv.created ans destSource := by
        rw [created, created, createsPatch, createsPatch, audioInstance_stopTv]
      rw [patches_startTv, patches_stopTv, hcreated, List.append_assoc]
    · exact (List.append_nil _).symm
  | _ => exact hframe rfl

end CTv

/-! ## Runs with a ledger -/

/-- The television object, with the ledger of its patches. -/
structure Patched where
  tv : CTv
  journal : List (Entry Int32)

namespace Patched

/-- The television object just constructed, which has no patches. -/
def construct (ans : Answers) (boot : CTv.Boot) : Patched := ⟨CTv.construct ans boot, []⟩

/-- One command, whose patches are entered into the ledger. -/
def step (p : Patched) (x : CTv.Command × Answers) : Patched :=
  ⟨p.tv.step x, p.journal ++ p.tv.patchEntries x⟩

/-- No patch is released after it was released, and at most one is held. -/
def Balanced (p : Patched) : Prop := Ledger.Balanced p.journal

/-- The steps that keep the ledger balanced. A start that creates a patch finds none that is held;
a stop that tries to release a handle finds it not released; and a switch of the source, which does
both, releases the patch that is held. -/
def KeepsBalance (p : Patched) : CTv.Command × Answers → Prop
  | (.startTv source, ans) => p.tv.createsPatch ans source = true → Ledger.held p.journal = []
  | (.stopTv _, ans) =>
    p.tv.releasesPatch ans = true → (p.tv.audioInstance ans).patchHandle ∉ Ledger.done p.journal
  | (.switchSource destSource, ans) =>
    destSource ≠ p.tv.mCurrentSource →
      (p.tv.releasesPatch ans = true →
        (p.tv.audioInstance ans).patchHandle ∉ Ledger.done p.journal) ∧
      (p.tv.createsPatch ans destSource = true → ∀ handle ∈ Ledger.held p.journal,
        p.tv.releasesPatch ans = true ∧ ans.releaseAudioPatch = 0 ∧
          handle = (p.tv.audioInstance ans).patchHandle)
  | _ => True

variable {p : Patched} {ans : Answers}

theorem balanced_created (journal : List (Entry Int32)) (tv : CTv) (source : SourceInput) :
    Ledger.Balanced (journal ++ tv.created ans source) ↔ Ledger.Balanced journal ∧
      (tv.createsPatch ans source = true → Ledger.held journal = []) := by
  rw [CTv.created]
  split
  · rename_i hcreates
    rw [imp_iff_right hcreates]
    exact Ledger.balanced_snoc
  · rename_i hcreates
    rw [List.append_nil]
    exact (and_iff_left fun h => absurd h hcreates).symm

theorem balanced_released (journal : List (Entry Int32)) (tv : CTv) :
    Ledger.Balanced (journal ++ tv.released ans) ↔ Ledger.Balanced journal ∧
      (tv.releasesPatch ans = true → (tv.audioInstance ans).patchHandle ∉ Ledger.done journal) := by
  rw [CTv.released]
  split
  · rename_i hreleases
    rw [imp_iff_right hreleases]
    exact Ledger.balanced_snoc
  · rename_i hreleases
    rw [List.append_nil]
    exact (and_iff_left fun h => absurd h hreleases).symm

/-- Nothing is held behind a stop but what it did not release. -/
theorem held_released_eq_nil_iff (journal : List (Entry Int32)) (tv : CTv) :
    Ledger.held (journal ++ tv.released ans) = [] ↔ ∀ handle ∈ Ledger.held journal,
      tv.releasesPatch ans = true ∧ ans.releaseAudioPatch = 0 ∧
        handle = (tv.audioInstance ans).patchHandle := by
  rw [CTv.released]
  split
  · rename_i hreleases
    have hsnoc : Ledger.held (journal ++ [.released (tv.audioInstance ans).patchHandle
        (decide (ans.releaseAudioPatch = 0))]) = [] ↔ _ := Ledger.held_released_eq_nil_iff
    rw [hsnoc]
    simp [hreleases]
  · rename_i hreleases
    rw [List.append_nil, List.eq_nil_iff_forall_not_mem]
    exact forall₂_congr fun handle _ => iff_of_false id fun h => hreleases h.1

/-- **Steps of a balanced ledger**: exactly the steps that meet the condition keep it balanced. -/
theorem balanced_step_iff (hs : p.Balanced) (x : CTv.Command × Answers) :
    (p.step x).Balanced ↔ p.KeepsBalance x := by
  rw [Balanced, step, CTv.patchEntries_eq]
  obtain ⟨command, ans⟩ := x
  cases command with
  | startTv source => exact (balanced_created _ _ source).trans (and_iff_right hs)
  | stopTv source => exact (balanced_released _ _).trans (and_iff_right hs)
  | switchSource destSource =>
    rw [KeepsBalance]
    dsimp only
    split
    · -- the stop is entered into the ledger before the start
      rename_i hne
      rw [imp_iff_right hne, ← List.append_assoc, balanced_created, balanced_released,
        held_released_eq_nil_iff, and_assoc]
      exact and_iff_right hs
    · rename_i hsame
      rw [List.append_nil]
      exact iff_of_true hs fun h => absurd h hsame
  | _ =>
    dsimp only
    rw [List.append_nil]
    exact iff_of_true hs trivial

/-- **Runs with a balanced ledger**: the ledger is balanced in every state of a run exactly if
every step meets the condition. -/
theorem balanced_iff_keeps (ans : Answers) (boot : CTv.Boot)
    (xs : List (CTv.Command × Answers)) :
    Machine.Throughout step Balanced (construct ans boot) xs ↔
      Machine.Along step KeepsBalance (construct ans boot) xs := by
  apply Machine.throughout_iff_along fun _ => True
  · exact fun _ _ _ => trivial
  · exact fun p x _ hs => balanced_step_iff hs x
  · trivial
  · exact Ledger.balanced_nil

/-! ## Handles that are released twice -/

/-- Every handle that was acquired is a new one, and none is zero. -/
def Fresh (p : Patched) : Prop :=
  (Ledger.acquired p.journal).Nodup ∧ 0 ∉ Ledger.acquired p.journal

/-- The handle is kept when it was released, and a second stop releases it again. -/
theorem journal_start_stop_stop (p : Patched) {source : SourceInput} (hsource : source ≠ sourceMpeg)
    (hinit : (p.tv.audioInstance ans).iSInit = true) (hcreates : ans.createAudioPatch.1 = 0)
    (hhandle : ans.createAudioPatch.2 ≠ 0) :
    (Machine.run step p [(.startTv source, ans), (.stopTv source, ans),
      (.stopTv source, ans)]).journal = p.journal ++ [.acquired ans.createAudioPatch.2,
        .released ans.createAudioPatch.2 (ans.releaseAudioPatch = 0),
        .released ans.createAudioPatch.2 (ans.releaseAudioPatch = 0)] := by
  have hcreated : p.tv.created ans source = [.acquired ans.createAudioPatch.2] := by
    rw [CTv.created, CTv.createsPatch]
    simp [hsource, hinit, hcreates]
  -- the handle is the same behind the start and behind the first stop
  have hstarted := CTv.audioInstance_startTv hsource hinit
  have hstopped : ((p.tv.startTv ans source).2.stopTv ans source).2.audioInstance ans =
      { p.tv.audioInstance ans with patchHandle := ans.createAudioPatch.2 } :=
    (CTv.audioInstance_stopTv source).trans hstarted
  have hreleased {tv : CTv} (h : tv.audioInstance ans = { p.tv.audioInstance ans with
      patchHandle := ans.createAudioPatch.2 }) : tv.released ans =
        [.released ans.createAudioPatch.2 (ans.releaseAudioPatch = 0)] := by
    rw [CTv.released, CTv.releasesPatch, h]
    simp [hinit, hhandle]
  simp only [Machine.run_cons, Machine.run_nil, step, CTv.patchEntries_eq]
  change p.journal ++ _ ++ CTv.released (p.tv.startTv ans source).2 ans ++
    CTv.released ((p.tv.startTv ans source).2.stopTv ans source).2 ans = _
  rw [hcreated, hreleased hstarted, hreleased hstopped, List.append_assoc, List.append_assoc]
  rfl

/-- A source is started and stopped twice. -/
theorem not_forall_balanced :
    ¬ ∀ (ans : Answers) (boot : CTv.Boot) (xs : List (CTv.Command × Answers)),
      (∀ x ∈ xs, ∃ source,
        x.1 = .startTv source ∨ x.1 = .stopTv source ∨ x.1 = .switchSource source) →
        (Machine.run step (construct ans boot) xs).Fresh →
          (Machine.run step (construct ans boot) xs).Balanced := by
  intro hall
  let ans := Answers.granting 0 CTv.noSignalInfo
  let boot : CTv.Boot := ⟨fun _ => none, none, true, true, sourceTv⟩
  have haudio : (CTv.construct ans boot).audioInstance ans = ⟨true, 0⟩ :=
    CTv.audioInstance_of_touches (CTv.touches_construct ans boot) rfl
  have hjournal := journal_start_stop_stop (construct ans boot)
    (by decide : sourceHdmi1 ≠ sourceMpeg) (congrArg CTvAudio.iSInit haudio) rfl (by decide)
  have hfresh : (Machine.run step (construct ans boot) [(.startTv sourceHdmi1, ans),
      (.stopTv sourceHdmi1, ans), (.stopTv sourceHdmi1, ans)]).Fresh := by
    rw [Fresh, hjournal]
    exact ⟨List.nodup_singleton _, by decide⟩
  have hbalanced := hall ans boot _ (by simp) hfresh
  rw [Balanced, hjournal] at hbalanced
  exact hbalanced.once [.acquired 1, .released 1 true] 1 true (List.prefix_refl _) (by decide)

end Patched
