import TvServer.Foundations.Journal
import TvServer.Tv.Footprint

/-!
# The image of the EDID data

The EDID data of the ports is loaded from six files, by a loop that uses one buffer for their
names and one for their bytes. What is written to the receiver is an image of six blocks, each
with the bytes of one file and nothing of the others.

## Main definitions

* `edidFilePath`, `isDolbyVisionKoExist`, `edidFile`: the files that are loaded
* `edidBlock`: the block of a file
* `edidWrites`: the images that are written

## Main results

* `loadEdidFile_edidLoadBuf`: what a round of the loop does to the image
* `edidLoadBuf_eq`: the image is the blocks of the files, one after the other
* `edidWrites_loadEdidData`: the image that is written
-/

/-- The bytes that are handed to the write of the EDID data. -/
def TvAction.edidData : TvAction → Option (List UInt8)
  | .writeEdid data _ => some data
  | _ => none

namespace CTv

variable {ans : Answers} {tv : CTv}

/-! ## The files -/

/-- The directory of the EDID files. -/
def edidFilePath (tv : CTv) : List Char :=
  tv.configGetStr cfgSectionHdmi "edid.file.path".toList configEdidFilePathDef

/-- Whether there is a module for Dolby vision. -/
def isDolbyVisionKoExist (ans : Answers) (tv : CTv) : Bool :=
  ans.fileExists (tv.configGetStr cfgSectionSetting "module.dolby.path".toList
    dolbyVisionTvKoPath) || ans.fileExists dolbyVisionStbKoPath

/-- The names of the files: for each port one with the data of either version. -/
def edidNames : Vector String 6 :=
  #v["/port1_14", "/port1_20", "/port2_14", "/port2_20", "/port3_14", "/port3_20"]

/-- A file of a directory. -/
def edidFileOf (edidFilePath suffix : List Char) (i : Fin 6) : List Char :=
  edidFilePath ++ edidNames[i].toList ++ suffix

/-- The files that are loaded: those for Dolby vision where there is a module for it and it is
enabled. -/
def edidFile (ans : Answers) (tv : CTv) (isDolbyVisionEnable : Int32) : Fin 6 → List Char :=
  edidFileOf tv.edidFilePath
    (if tv.isDolbyVisionKoExist ans ∧ isDolbyVisionEnable = 1 then "_dv.bin" else ".bin").toList

/-- The block of a file: its first bytes, with zeros behind them. -/
def edidBlock (ans : Answers) (fileName : List Char) : List UInt8 :=
  Buffer.padded realEdidDataSize 0 ((ans.readFile fileName).getD [])

/-- The parity and the half of the loop counter give the names in their order. -/
theorem edidNames_get : ∀ i : Fin 6, edidNames[i].toList =
    if (i.val + 1) % 2 ≠ 0 then
      "/port".toList ++ Nat.toDigits 10 ((i.val + 1) / 2 + 1) ++ "_14".toList
    else "/port".toList ++ Nat.toDigits 10 ((i.val + 1) / 2) ++ "_20".toList := by
  decide

theorem null_not_mem_edidNames : ∀ i : Fin 6, '\x00' ∉ edidNames[i].toList := by decide

theorem edidFileName_succ (edidFilePath suffix : List Char) (i : Fin 6) :
    edidFileName edidFilePath suffix (i.val + 1) = edidFileOf edidFilePath suffix i := by
  rw [edidFileOf, edidFileName, edidNames_get]
  split <;> simp only [List.append_assoc]

/-- No name has a null character in it, where the directory has none. -/
theorem null_not_mem_edidFileOf {edidFilePath suffix : List Char} (hpath : '\x00' ∉ edidFilePath)
    (hsuffix : '\x00' ∉ suffix) (i : Fin 6) : '\x00' ∉ edidFileOf edidFilePath suffix i := by
  rw [edidFileOf, List.mem_append, List.mem_append]
  rintro ((hmem | hmem) | hmem)
  · exact hpath hmem
  · exact null_not_mem_edidNames i hmem
  · exact hsuffix hmem

/-- A value of the configuration is a C string, if the default is one. -/
theorem null_not_mem_configGetStr {sectionName key default : List Char} (h : '\x00' ∉ default) :
    '\x00' ∉ tv.configGetStr sectionName key default := by
  rw [configGetStr, CIniFile.getString]
  split
  · exact h
  · split
    · exact h
    · exact Lines.not_mem_cstr _

/-! ## The loop -/

/-- A file is read behind its first bytes, and the rest of the buffer stays cleared. -/
theorem toList_readDataFromFile (fileName : List Char) (buf : Vector UInt8 realEdidDataSize) :
    (readDataFromFile ans fileName 0 realEdidDataSize (Buffer.memset buf 0)).2.toList =
      edidBlock ans fileName := by
  rw [readDataFromFile, edidBlock]
  cases ans.readFile fileName with
  | none => rfl
  | some content => exact Buffer.toList_memcpy_memset buf 0 content

/-- **One round of the loop** copies the block of its file to the image: neither the name nor the
bytes of an earlier file are left in the buffers. -/
theorem loadEdidFile_edidLoadBuf {edidFilePath suffix : List Char} {loadNum : ℕ}
    (hnull : '\x00' ∉ edidFileName edidFilePath suffix loadNum)
    (hfits : (edidFileName edidFilePath suffix loadNum).length < 100) (bufs : EdidBuffers) :
    (loadEdidFile ans edidFilePath suffix bufs loadNum).edidLoadBuf =
      Buffer.memcpy bufs.edidLoadBuf ((loadNum - 1) * realEdidDataSize)
        (edidBlock ans (edidFileName edidFilePath suffix loadNum)) := by
  rw [loadEdidFile]
  dsimp only
  rw [Buffer.cstr_sprintf hnull hfits, toList_readDataFromFile]

/-- The rounds of the loop, as copies to the image. -/
theorem foldl_loadEdidFile {edidFilePath suffix : List Char} {loadNums : List ℕ}
    (hnames : ∀ loadNum ∈ loadNums, '\x00' ∉ edidFileName edidFilePath suffix loadNum ∧
      (edidFileName edidFilePath suffix loadNum).length < 100) (bufs : EdidBuffers) :
    (loadNums.foldl (loadEdidFile ans edidFilePath suffix) bufs).edidLoadBuf =
      loadNums.foldl (fun buf loadNum => Buffer.memcpy buf ((loadNum - 1) * realEdidDataSize)
        (edidBlock ans (edidFileName edidFilePath suffix loadNum))) bufs.edidLoadBuf := by
  induction loadNums generalizing bufs with
  | nil => rfl
  | cons loadNum loadNums ih =>
    obtain ⟨hnull, hfits⟩ := hnames loadNum List.mem_cons_self
    -- the next round finds other names and bytes in the buffers, which do not matter
    rw [List.foldl_cons, List.foldl_cons, ← loadEdidFile_edidLoadBuf hnull hfits bufs]
    exact ih (fun n hn => hnames n (List.mem_cons_of_mem loadNum hn)) _

/-- **The image** is the blocks of the files, one after the other. -/
theorem edidLoadBuf_eq {edidFilePath suffix : List Char} (hpath : '\x00' ∉ edidFilePath)
    (hsuffix : '\x00' ∉ suffix)
    (hfits : ∀ i, (edidFileOf edidFilePath suffix i).length < 100) :
    edidLoadBuf ans edidFilePath suffix = (List.range 6).flatMap fun k =>
      edidBlock ans (edidFileName edidFilePath suffix (k + 1)) := by
  have hnums : List.range' 1 6 = (List.range 6).map (· + 1) := rfl
  have hnames : ∀ loadNum ∈ List.range' 1 6,
      '\x00' ∉ edidFileName edidFilePath suffix loadNum ∧
        (edidFileName edidFilePath suffix loadNum).length < 100 := by
    rw [hnums]
    intro loadNum hmem
    obtain ⟨k, hk, rfl⟩ := List.mem_map.mp hmem
    rw [edidFileName_succ _ _ ⟨k, List.mem_range.mp hk⟩]
    exact ⟨null_not_mem_edidFileOf hpath hsuffix _, hfits _⟩
  have hlength (k : ℕ) : (edidBlock ans (edidFileName edidFilePath suffix (k + 1))).length =
      realEdidDataSize := Buffer.length_padded _ _ _
  rw [edidLoadBuf, foldl_loadEdidFile hnames, hnums, List.foldl_map]
  -- the six blocks fill the buffer
  have hfilled := Buffer.toList_foldl_memcpy hlength
    (Vector.replicate (6 * realEdidDataSize) (0 : UInt8)) 6 (Nat.le_refl _)
  rw [List.drop_eq_nil_of_le (Vector.length_toList).le, List.append_nil] at hfilled
  exact hfilled

/-! ## The write -/

/-- The images that are written between two states. -/
def edidWrites (before after : CTv) : List (List UInt8) :=
  (after.trace.drop before.trace.length).filterMap TvAction.edidData

/-- The images of a trace. -/
def edidImages (tv : CTv) : List (List UInt8) := tv.trace.filterMap TvAction.edidData

theorem edidImages_dependsOn : DependsOn edidImages [.edidData] := by
  apply filterMap_dependsOn
  intro action haction
  cases action with
  | writeEdid data ret => exact absurd (of_decide_eq_true rfl) haction
  | _ => rfl

theorem pIniFile_dependsOn : DependsOn pIniFile [] := by
  intro tv u _
  cases u with
  | storeEdidVersion source edidVer =>
    exact storeEdidVersion_keeps pIniFile tv (fun _ _ _ _ => rfl) source edidVer
  | _ => rfl

/-- A load of the EDID data writes one image, where the node opens. -/
theorem edidImages_loadEdidData (tv : CTv) (hopen : ans.edidOpen = true)
    (isNeedBlackScreen isDolbyVisionEnable : Int32) :
    (tv.loadEdidData ans isNeedBlackScreen isDolbyVisionEnable).2.edidImages =
      tv.edidImages ++ [(edidLoadBuf ans tv.edidFilePath
        (if tv.isDolbyVisionKoExist ans ∧ isDolbyVisionEnable = 1 then
          "_dv.bin" else ".bin").toList).take (6 * realEdidDataSize)] := by
  -- a stop of the decoder comes first, which neither writes an image nor reloads the configuration
  have hstop := touches_blackScreen ans tv isNeedBlackScreen
  have himages : edidImages (if isNeedBlackScreen = 1 then (tv.tvinStopDecoder ans).2 else tv) =
      tv.edidImages := hstop.frame edidImages_dependsOn rfl
  have hconfig (sectionName key default : List Char) :
      configGetStr (if isNeedBlackScreen = 1 then (tv.tvinStopDecoder ans).2 else tv)
        sectionName key default = tv.configGetStr sectionName key default := by
    rw [configGetStr, configGetStr, hstop.frame pIniFile_dependsOn rfl]
  have hwrite (tv : CTv) (data : List UInt8) : tv.hdmiRxEdidDataSwitch ans data =
      (0, tv.perform (.writeEdid (data.take (6 * realEdidDataSize)) ans.edidWrite)) := if_pos hopen
  rw [loadEdidData, hconfig, hconfig]
  generalize (if isNeedBlackScreen = 1 then (tv.tvinStopDecoder ans).2 else tv) = stopped
    at himages ⊢
  rw [hwrite, if_pos rfl, (touches_hdmiRxEdidVerSwitch ans _ _).frame edidImages_dependsOn rfl,
    ← himages]
  exact List.filterMap_append

/-- **The image that is written.** Where the node opens and the names fit their buffer, a load
writes one image of 1536 bytes, whose blocks are those of the six files. -/
theorem edidWrites_loadEdidData (ans : Answers) (tv : CTv)
    (isNeedBlackScreen isDolbyVisionEnable : Int32) (hopen : ans.edidOpen = true)
    (hfits : ∀ i, (tv.edidFile ans isDolbyVisionEnable i).length < 100) :
    ∃ image, edidWrites tv (tv.loadEdidData ans isNeedBlackScreen isDolbyVisionEnable).2 =
        [image] ∧ image.length = 1536 ∧ ∀ k : Fin 6,
      (image.drop (256 * k)).take 256 = edidBlock ans (tv.edidFile ans isDolbyVisionEnable k) := by
  have hpath : '\x00' ∉ tv.edidFilePath := null_not_mem_configGetStr (by decide)
  have himage := edidImages_loadEdidData tv hopen isNeedBlackScreen isDolbyVisionEnable
  rw [edidFile] at hfits ⊢
  generalize hsuffix : (if tv.isDolbyVisionKoExist ans ∧ isDolbyVisionEnable = 1 then "_dv.bin"
    else ".bin") = suffix at hfits himage ⊢
  have hnull : '\x00' ∉ suffix.toList := by
    rw [← hsuffix]
    split <;> decide
  -- the write takes the whole image
  have hlength : (edidLoadBuf ans tv.edidFilePath suffix.toList).length =
      6 * realEdidDataSize := Vector.length_toList
  rw [List.take_of_length_le hlength.le] at himage
  refine ⟨edidLoadBuf ans tv.edidFilePath suffix.toList, ?_, hlength, ?_⟩
  · exact Journal.filterMap_drop_of_prefix (trace_prefix_of_touches (touches_loadEdidData ans tv
      isNeedBlackScreen isDolbyVisionEnable)) himage
  · intro k
    have hblock (k : ℕ) : (edidBlock ans (edidFileName tv.edidFilePath suffix.toList
        (k + 1))).length = realEdidDataSize := Buffer.length_padded _ _ _
    rw [edidLoadBuf_eq hpath hnull hfits, ← edidFileName_succ, Nat.mul_comm]
    exact Buffer.block_flatMap hblock k.isLt

/-- A short file in the default directory, the others missing. -/
theorem edidWrites_default :
    let ans : Answers := { Answers.granting 0 noSignalInfo with
      readFile := fun fileName =>
        if fileName = "/etc/tvconfig/hdmi/port1_20.bin".toList then some [1, 2, 3] else none }
    let tv := allocate ⟨fun _ => none, none, true, true, sourceTv⟩
    ∃ image, edidWrites tv (tv.loadEdidData ans 0 0).2 = [image] ∧ image.length = 1536 ∧
      (image.drop 256).take 256 = [1, 2, 3] ++ List.replicate 253 0 := by
  intro ans tv
  have hfits : ∀ i, (tv.edidFile ans 0 i).length < 100 := by
    decide
  obtain ⟨image, hwrites, hlength, hblocks⟩ := edidWrites_loadEdidData ans tv 0 0 rfl hfits
  have hread : ans.readFile (tv.edidFile ans 0 1) = some [1, 2, 3] := if_pos (by decide)
  refine ⟨image, hwrites, hlength, (hblocks 1).trans ?_⟩
  rw [edidBlock, hread]
  rfl

end CTv
