import TvServer.Foundations.Restore
import TvServer.Tv.DecoderProtocol

/-!
# The screen mode

The snow is shown in full screen. The mode that the screen had is saved when the snow is switched
on, and written back when it is switched off. It is saved at every missing signal that is reported,
so that a second report saves the mode of the snow, and before the first one there is nothing saved
but the invalid mode of the constructor.

The node of the screen mode takes what is written to it and reads it back; at first it shows a text
of its own.

## Main definitions

* `ScreenInput`, `screenStep`: the calls of `setSnowShowEnable` and the commands, with the node
* `snowCall`: the call of `setSnowShowEnable` that a step makes
* `SavesScreenMode`: the screen mode is saved and restored along a run

## Main results

* `screen_screenStep`: what a step does to the screen mode and to the saved one
* `savesScreenMode_iff`: the runs that save and restore the screen mode
-/

namespace CTv

variable {ans : Answers} {tv : CTv}

/-! ## The node -/

/-- The texts written to the node, and the saved mode. -/
def screen (tv : CTv) : List (List Char) × Int32 :=
  (tv.trace.filterMap TvAction.screenMode, tv.mLastScreenMode)

/-- What the node shows: the text that was written last, the one at first if there is none. -/
def screenModeText (node : List Char) (tv : CTv) : List Char :=
  (Journal.lastOf TvAction.screenMode tv.trace).getD node

/-- The answers, with the node read for the screen mode. -/
def readingNode (node : List Char) (tv : CTv) (ans : Answers) : Answers :=
  { ans with screenMode := tv.screenModeText node }

/-- The mode of the screen, and the saved one. -/
def screenCell (node : List Char) (tv : CTv) : Restore.Cell Int32 :=
  ⟨CText.atoi (tv.screenModeText node), tv.mLastScreenMode⟩

/-- A direct call, or a command. -/
inductive ScreenInput where
  | setSnowShowEnable (enable : Bool) (ans : Answers)
  | command (x : Command × Answers)

/-- A direct call or a command, which read the screen mode from the node. -/
def screenStep (node : List Char) (tv : CTv) : ScreenInput → CTv
  | .setSnowShowEnable enable ans => (tv.setSnowShowEnable (tv.readingNode node ans) enable).2
  | .command (command, ans) => tv.step (command, tv.readingNode node ans)

/-- The call of `setSnowShowEnable` that a step makes: a command makes one at the report of a
missing signal, where the snow is asked for. -/
def snowCall (tv : CTv) : ScreenInput → Option Bool
  | .setSnowShowEnable enable _ => some enable
  | .command (.vdinSignalChange, ans) =>
    match tv.report ans with
    | some info =>
      if info.status = tvinSigStatusNosig ∧ tv.needSnowEffect = true then some true else none
    | none => none
  | .command _ => none

/-- The screen mode is saved and restored along a run: each call that switches the snow off leaves
the mode in force before the first call that switched it on since it was last switched off, and the
invalid mode is not written. -/
structure SavesScreenMode (node : List Char) (tv : CTv) (xs : List ScreenInput) : Prop where
  restored : Journal.Disciplined Restore.Allows
    (Restore.callsOf (screenStep node) snowCall (screenCell node) tv xs)
  unwritten : CText.decText (-1) ∉
    (Machine.run (screenStep node) tv xs).trace.filterMap TvAction.screenMode

/-! ## Steps -/

theorem screen_dependsOn : DependsOn screen [.lastScreenMode, .screenMode] := by
  intro tv u hu
  have htexts : (update tv u).trace.filterMap TvAction.screenMode =
      tv.trace.filterMap TvAction.screenMode := by
    refine filterMap_dependsOn (fun action haction => ?_) tv u hu
    apply TvAction.screenMode_eq_none
    intro hpart
    apply haction
    rw [hpart]
    exact List.mem_cons_of_mem _ (List.mem_singleton_self _)
  have hsaved : (update tv u).mLastScreenMode = tv.mLastScreenMode := by
    cases u with
    | storeEdidVersion source edidVer =>
      exact storeEdidVersion_keeps mLastScreenMode tv (fun _ _ _ _ => rfl) source edidVer
    | _ => first | rfl | exact absurd (of_decide_eq_true rfl) hu
  exact Prod.ext htexts hsaved

/-- What a call does to the texts and to the saved mode, with the mode it reads. -/
def screenCall (screenMode : Int32) (screen : List (List Char) × Int32) (enable : Bool) :
    List (List Char) × Int32 :=
  if enable then (screen.1 ++ [CText.decText 1], screenMode)
  else (screen.1 ++ [CText.decText screen.2], screen.2)

theorem screen_setSnowShowEnable (enable : Bool) :
    (tv.setSnowShowEnable ans enable).2.screen =
      screenCall (getVideoScreenMode ans) tv.screen enable := by
  have hswitch (tv : CTv) : (tv.tvinSwitchSnow ans enable).2.screen = tv.screen :=
    (touches_tvinSwitchSnow ans tv enable).frame screen_dependsOn rfl
  have hwrite (tv : CTv) (value : Int32) : (tv.setVideoScreenMode ans value).screen =
      (tv.screen.1 ++ [CText.decText value], tv.screen.2) := by
    rw [screen, setVideoScreenMode, tvWriteSysfs, perform]
    simp [screen, TvAction.screenMode]
  rw [setSnowShowEnable, hswitch, screenCall]
  split
  · rw [hwrite]
    rfl
  · rw [hwrite]
    rfl

/-- The handlers of a report call for a missing signal, where the snow is asked for. -/
theorem screen_onSigTo (status : UInt32) : (tv.onSigTo ans status).screen =
    if status = tvinSigStatusNosig ∧ tv.needSnowEffect = true then
      screenCall (getVideoScreenMode ans) tv.screen true
    else tv.screen := by
  split
  · rename_i hsnow
    obtain ⟨rfl, hneed⟩ := hsnow
    have hlog : (tv.perform (.log .onSigToNoSig)).screen = tv.screen :=
      (touches_log tv .onSigToNoSig).frame screen_dependsOn rfl
    rw [(touches_onSigTo_of_snow ans tv hneed).frame screen_dependsOn rfl,
      screen_setSnowShowEnable, hlog]
  · rename_i hsnow
    exact (touches_onSigTo_of_no_snow ans tv hsnow).frame screen_dependsOn rfl

theorem screen_onVdinSignalChange : (tv.onVdinSignalChange ans).screen =
    (tv.snowCall (.command (.vdinSignalChange, ans))).elim tv.screen
      (screenCall (getVideoScreenMode ans) tv.screen) := by
  rw [snowCall]
  cases hreport : tv.report ans with
  | none =>
    exact (touches_onVdinSignalChange_of_no_report hreport).frame screen_dependsOn rfl
  | some info =>
    have hrecorded := touches_recorded ans tv
    have hneed : (tv.recorded ans).needSnowEffect = tv.needSnowEffect :=
      hrecorded.frame needSnowEffect_dependsOn rfl
    have hscreen : (tv.recorded ans).screen = tv.screen :=
      hrecorded.frame screen_dependsOn rfl
    rw [onVdinSignalChange_of_report hreport, screen_onSigTo, hneed, hscreen]
    dsimp only
    split <;> rfl

/-- **What a step does to the screen** is what its call does, with the mode that the node shows. -/
theorem screen_screenStep (node : List Char) (tv : CTv) (x : ScreenInput) :
    (tv.screenStep node x).screen = (tv.snowCall x).elim tv.screen
      (screenCall (tv.screenCell node).value tv.screen) := by
  rcases x with ⟨enable, ans⟩ | ⟨command, ans⟩
  · exact screen_setSnowShowEnable enable
  · have htouches := touches_step tv (command, tv.readingNode node ans)
    cases command with
    | vdinSignalChange => exact screen_onVdinSignalChange
    | _ => exact htouches.frame screen_dependsOn rfl

/-! ## Runs -/

theorem screenCell_eq (node : List Char) (tv : CTv) : tv.screenCell node =
    ⟨CText.atoi (tv.screen.1.getLast?.getD node), tv.screen.2⟩ := rfl

/-- The screen mode and the saved one change by calls only. -/
theorem screenCell_screenStep (node : List Char) (tv : CTv) (x : ScreenInput) :
    (tv.screenStep node x).screenCell node =
      (tv.snowCall x).elim (tv.screenCell node) ((tv.screenCell node).call 1) := by
  rw [screenCell_eq, screen_screenStep]
  rcases tv.snowCall x with _ | enable
  · rfl
  · cases enable <;> simp [screenCall, Restore.Cell.call, CText.atoi_decText, screenCell, screen]

/-- The text that a step writes is that of the mode it leaves. -/
theorem texts_screenStep (node : List Char) (tv : CTv) (x : ScreenInput) :
    (tv.screenStep node x).trace.filterMap TvAction.screenMode =
      tv.trace.filterMap TvAction.screenMode ++
        (tv.snowCall x).toList.map fun _ =>
          CText.decText ((tv.screenStep node x).screenCell node).value := by
  have hscreen := congrArg Prod.fst (screen_screenStep node tv x)
  have hcell := congrArg Restore.Cell.value (screenCell_screenStep node tv x)
  refine hscreen.trans ?_
  rw [hcell]
  rcases tv.snowCall x with _ | enable
  · exact (List.append_nil _).symm
  · cases enable <;> rfl

/-- The texts that a run writes are those of the modes its calls leave. -/
theorem texts_run (node : List Char) (tv : CTv) (xs : List ScreenInput) :
    (Machine.run (screenStep node) tv xs).trace.filterMap TvAction.screenMode =
      tv.trace.filterMap TvAction.screenMode ++
        (Restore.callsOf (screenStep node) snowCall (screenCell node) tv xs).map fun call =>
          CText.decText call.after := by
  induction xs generalizing tv with
  | nil => exact (List.append_nil _).symm
  | cons x xs ih =>
    rw [Machine.run_cons, ih, texts_screenStep, List.append_assoc, Restore.callsOf_cons,
      List.map_append, List.map_map]
    rfl

/-- The constructor writes no screen mode, and has none saved. -/
theorem screen_construct (ans : Answers) (boot : Boot) :
    (construct ans boot).screen = ([], -1) := by
  have hvideo := touches_tvWriteSysfs ans (allocate boot).loadATVDisplaySnow .vfmMap
  have hconfigured : (configured ans boot).screen = ([], -1) :=
    (hvideo _).frame screen_dependsOn rfl
  exact ((touches_construct ans boot).frame screen_dependsOn rfl).trans hconfigured

/-- **Runs that save and restore the screen mode** are those all of whose calls that switch the
snow off come behind one that switched it on, with a valid mode at first, and with no two in a row
that switch it on right before, unless the mode at first is that of the snow. -/
theorem savesScreenMode_iff (ans : Answers) (boot : Boot) (node : List Char)
    (xs : List ScreenInput) :
    SavesScreenMode node (construct ans boot) xs ↔
      Journal.Disciplined (Restore.Keeps 1 (-1) (CText.atoi node))
        (Restore.flagsOf (screenStep node) snowCall (construct ans boot) xs) := by
  have hscreen := screen_construct ans boot
  have hcell : (construct ans boot).screenCell node = ⟨CText.atoi node, -1⟩ := by
    rw [screenCell_eq, hscreen]
    rfl
  have hcalls := Restore.callsOf_eq (screenCell_screenStep node) (construct ans boot) xs
  have htexts := texts_run node (construct ans boot) xs
  have hempty : (construct ans boot).trace.filterMap TvAction.screenMode = [] :=
    congrArg Prod.fst hscreen
  have hdecText : Function.Injective CText.decText :=
    Function.LeftInverse.injective CText.atoi_decText
  rw [hempty, List.nil_append] at htexts
  rw [← Restore.restores_iff (by decide), ← hcell, ← hcalls]
  constructor
  · rintro ⟨hrestored, hunwritten⟩
    refine ⟨hrestored, fun call hcall hafter => hunwritten ?_⟩
    rw [htexts, ← hafter]
    exact List.mem_map_of_mem hcall
  · rintro ⟨hrestored, hafter⟩
    refine ⟨hrestored, fun hmem => ?_⟩
    rw [htexts, List.mem_map] at hmem
    obtain ⟨call, hcall, htext⟩ := hmem
    exact hafter call hcall (hdecText htext)

/-- The mode of the snow is saved over that of the user when the snow is switched on twice. -/
theorem not_forall_savesScreenMode :
    ¬ ∀ (ans : Answers) (boot : Boot) (node : List Char) (xs : List ScreenInput),
      SavesScreenMode node (construct ans boot) xs := by
  intro hall
  let ans := Answers.granting 0 noSignalInfo
  let boot : Boot := ⟨fun _ => none, none, true, true, sourceTv⟩
  let xs : List ScreenInput :=
    [.setSnowShowEnable true ans, .setSnowShowEnable true ans, .setSnowShowEnable false ans]
  have hkeeps := (savesScreenMode_iff ans boot ['0'] xs).mp (hall ans boot ['0'] xs)
  obtain ⟨-, -, hpending⟩ := hkeeps [true, true] false List.prefix_rfl rfl
  exact absurd hpending (by decide)

end CTv
