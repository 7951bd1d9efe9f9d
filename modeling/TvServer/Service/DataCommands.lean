import TvServer.Service.Commands

/-!
# The data commands of the service

A data command has a short text with its id and its source, and a buffer of bytes beside it. The
bytes travel as integers: a `char` is signed, so that a byte is extended with its sign on the way
and cut back where it is stored. EDID data is written to a node of the HDMI receiver behind the
id of its port.

## Main definitions

* `setEdidData`, `getEdidData`: the EDID data of a source
* `parserTvDataCommand`: a data command, performed
* `onTransactDataSet`: the transaction that carries a command and its bytes

## Main results

* `readDataFrom_eq`: the buffer holds the bytes that were sent
* `onTransactDataSet_set`: the bytes that were sent are those that are set
-/

def hdmiEdidDataSet : Int32 := 103
def hdmiEdidDataGet : Int32 := 104

/-! ## The HDMI receiver -/

/-- The answers to the requests of one data command: whether the node opens, and what the write
and the update return. -/
structure EdidPortAnswers where
  dataOpen : Bool
  dataWrite : Int32
  edidUpdate : Int32

/-- What the HDMI receiver is asked for by a data command: a write to `edid_with_port`, and the
ioctl `HDMI_IOC_EDID_UPDATE`. -/
inductive EdidPortAction where
  | write (data : List UInt8) (ret : Int32)
  | update (ret : Int32)
deriving DecidableEq

namespace CTv

variable (ans : EdidPortAnswers) (tv : CTv)

/-- Write the EDID data behind the byte of its port, and request the update behind a write that
did not fail. -/
def updataEdidDataWithPort (port : TvinPortId) (dataBuf : Vector UInt8 realEdidDataSize) :
    Int32 × List EdidPortAction :=
  let loadBuf := port.toUInt8 :: dataBuf.toList
  if ans.dataOpen then
    if ans.dataWrite < 0 then (-1, [.write loadBuf ans.dataWrite])
    else (0, [.write loadBuf ans.dataWrite, .update ans.edidUpdate])
  else (-1, [])

def setEdidData (source : SourceInput) (data : Vector Int8 realEdidDataSize) :
    Int32 × List EdidPortAction :=
  let edidData := data.map Int8.toUInt8
  updataEdidDataWithPort ans (tv.tvinGetHdmiPortIdBySourceInput source) edidData

/-- The EDID data of a source: zeros, since the read from the file is commented out. -/
def getEdidData : Int32 × Vector Int8 realEdidDataSize := (0, Vector.replicate realEdidDataSize 0)

end CTv

namespace TvService

open CTv (realEdidDataSize)

variable (ans : EdidPortAnswers) (mpTv : CTv)

/-- The size of `dataBuf` and of the buffers of the parser. -/
def dataBufSize : ℕ := 1024

/-! ## The parser -/

/-- The first bytes of the data buffer, copied to characters. -/
def tempData (dataBuf : Vector UInt8 dataBufSize) : Vector Int8 realEdidDataSize :=
  Vector.ofFn fun i => (dataBuf.get (i.castLE (by decide))).toInt8

/-- Perform a data command: its result, the data buffer behind it, and what was asked of the HDMI
receiver. The buffer of the command is given with the memory behind it, of which the parser copies
as much as its own buffer takes; there is no result where that has no terminator. -/
def parserTvDataCommand (commandBuf : List Char) (dataBuf : Vector UInt8 dataBufSize) :
    Option (Int32 × Vector UInt8 dataBufSize × List EdidPortAction) :=
  let cmdbuff := commandBuf.take dataBufSize
  if '\x00' ∈ cmdbuff then do
    let (cmdID, rest) ← strtokInt (Lines.cstr cmdbuff)
    if cmdID = hdmiEdidDataSet then
      let (setSource, _) ← strtokInt rest
      let ret := mpTv.setEdidData ans setSource (tempData dataBuf)
      some (ret.1, dataBuf, ret.2)
    else if cmdID = hdmiEdidDataGet then
      let (_getSource, _) ← strtokInt rest
      let ret := CTv.getEdidData
      -- the data is copied over the first bytes of the buffer
      let dataBuf := Vector.ofFn fun i : Fin dataBufSize =>
        if h : i.val < realEdidDataSize then (ret.2.get ⟨i.val, h⟩).toUInt8 else dataBuf.get i
      some (ret.1, dataBuf, [])
    else some (0, dataBuf, [])
  else none

/-! ## The transaction -/

/-- The byte that is stored for a word: cut to a `char`, and kept as an unsigned one. -/
def storedByte (w : Int32) : UInt8 := w.toInt8.toUInt8

/-- The loop that reads words into the data buffer, from an index on: there is no result where it
writes behind the buffer. -/
def readDataFrom : ℕ → ℕ → Vector UInt8 dataBufSize → Parcel →
    Option (Vector UInt8 dataBufSize × Parcel)
  | 0, _, dataBuf, data => some (dataBuf, data)
  | size + 1, count, dataBuf, data =>
    if h : count < dataBufSize then
      readDataFrom size (count + 1)
        (dataBuf.set count (storedByte data.readInt32.1) h) data.readInt32.2
    else none

/-- The transaction `DATA_SET_ACTION`: the size and the bytes are read from the parcel, behind the
command. -/
def onTransactDataSet (command : List Char) (data reply : Parcel) :
    Option (Parcel × List EdidPortAction) := do
  let (setDataSize, data) := data.readInt32
  let (dataBuf, _) ←
    readDataFrom setDataSize.toInt.toNat 0 (Vector.replicate dataBufSize 0) data
  let (ret, _, actions) ← parserTvDataCommand ans mpTv command dataBuf
  some (reply.writeInt32 ret, actions)

/-- What the loop leaves in the buffer: the words from the index on, cut to bytes. -/
theorem readDataFrom_eq {ws : List Int32} {count : ℕ} (hfit : count + ws.length ≤ dataBufSize)
    (dataBuf : Vector UInt8 dataBufSize) (rest : Parcel) :
    ∃ buf, readDataFrom ws.length count dataBuf (ws ++ rest) = some (buf, rest) ∧
      ∀ i, buf.get i = ((if count ≤ i.val then ws[i.val - count]? else none).map storedByte).getD
        (dataBuf.get i) := by
  induction ws generalizing count dataBuf with
  | nil => exact ⟨dataBuf, rfl, fun i => by simp⟩
  | cons w ws ih =>
    rw [List.length_cons] at hfit
    have hlt : count < dataBufSize := by omega
    obtain ⟨buf, hread, hbuf⟩ :=
      @ih (count + 1) (by omega) (dataBuf.set count (storedByte w) hlt)
    refine ⟨buf, ?_, fun i => ?_⟩
    · rw [List.length_cons, List.cons_append, readDataFrom, dif_pos hlt]
      exact hread
    · -- an index in front, the one that is written now, or one that is written later
      rw [hbuf i]
      rcases Nat.lt_trichotomy i.val count with hi | hi | hi
      · have hne : count ≠ i.val := by omega
        rw [if_neg (by omega), if_neg (by omega)]
        show (dataBuf.set count (storedByte w) hlt)[i.val] = dataBuf[i.val]
        exact Vector.getElem_set_ne hlt i.isLt hne
      · have hsub : i.val - count = 0 := by omega
        rw [if_neg (by omega), if_pos (by omega), hsub]
        show (dataBuf.set count (storedByte w) hlt)[i.val] = storedByte w
        simp [hi]
      · have hne : count ≠ i.val := by omega
        have hsub : i.val - count = i.val - (count + 1) + 1 := by omega
        have hkeep : (dataBuf.set count (storedByte w) hlt).get i = dataBuf.get i :=
          Vector.getElem_set_ne hlt i.isLt hne
        rw [if_pos (by omega), if_pos (by omega), hsub, List.getElem?_cons_succ, hkeep]

/-- The command that sets the EDID data of a source, whatever is in memory behind it. -/
theorem parserTvDataCommand_set (source : SourceInput) (dataBuf : Vector UInt8 dataBufSize)
    (behind : List Char) :
    parserTvDataCommand ans mpTv
        (commandText [CText.decText hdmiEdidDataSet, CText.decText source, []] ++ '\x00' :: behind)
        dataBuf =
      some ((mpTv.setEdidData ans source (tempData dataBuf)).1, dataBuf,
        (mpTv.setEdidData ans source (tempData dataBuf)).2) := by
  have hnull : '\x00' ∉
      commandText [CText.decText hdmiEdidDataSet, CText.decText source, []] := by
    have hid := CText.not_mem_decText rfl (by decide : '\x00' ≠ '-') hdmiEdidDataSet
    have hsource := CText.not_mem_decText rfl (by decide : '\x00' ≠ '-') source
    simp [commandText, hid, hsource]
  have hlen : (commandText [CText.decText hdmiEdidDataSet, CText.decText source, []]).length <
      dataBufSize := by
    have hid := CText.length_decText_le hdmiEdidDataSet
    have hsource := CText.length_decText_le source
    rw [length_commandText_cons, length_commandText_cons, commandText_singleton, dataBufSize,
      List.length_nil]
    omega
  generalize hcommand : commandText [CText.decText hdmiEdidDataSet, CText.decText source, []] =
    command at hnull hlen
  -- the copy takes the command with its terminator
  obtain ⟨n, hn⟩ := Nat.exists_eq_add_of_lt hlen
  have hcopy : (command ++ '\x00' :: behind).take dataBufSize =
      command ++ '\x00' :: behind.take n := by
    rw [List.take_append, List.take_of_length_le (Nat.le_of_lt hlen)]
    congr 1
    rw [hn, Nat.add_assoc, Nat.add_sub_cancel_left, List.take_succ_cons]
  have hcstr : Lines.cstr (command ++ '\x00' :: behind.take n) = command :=
    Lines.cstr_append_null hnull _
  rw [parserTvDataCommand, hcopy, if_pos (by simp), hcstr, ← hcommand, strtokInt_commandText]
  show (do
    let (setSource, _) ← strtokInt (commandText [CText.decText source, []])
    let ret := mpTv.setEdidData ans setSource (tempData dataBuf)
    some (ret.1, dataBuf, ret.2)) = _
  rw [strtokInt_commandText]
  rfl

/-- **The transaction of the command** that sets the EDID data of a source: the bytes that were
sent as words are those that are set. -/
theorem onTransactDataSet_set (source : SourceInput) (dataBuf : Vector Int8 realEdidDataSize)
    (behind : List Char) (reply : Parcel) :
    onTransactDataSet ans mpTv
        (commandText [CText.decText hdmiEdidDataSet, CText.decText source, []] ++ '\x00' :: behind)
        (256 :: dataBuf.toList.map Int8.toInt32) reply =
      some (reply.writeInt32 (mpTv.setEdidData ans source dataBuf).1,
        (mpTv.setEdidData ans source dataBuf).2) := by
  have hsize : (dataBuf.toList.map Int8.toInt32).length = (256 : Int32).toInt.toNat := by simp; rfl
  have hfit : 0 + (dataBuf.toList.map Int8.toInt32).length ≤ dataBufSize := by
    rw [hsize]
    decide
  obtain ⟨buf, hread, hbuf⟩ := readDataFrom_eq hfit (Vector.replicate dataBufSize 0) []
  have hdata : tempData buf = dataBuf := by
    ext i hi
    have hword : (dataBuf.toList.map Int8.toInt32)[i]? = some (dataBuf[i].toInt32) := by
      simp [hi]
    have hbyte := hbuf ⟨i, Nat.lt_of_lt_of_le hi (by decide)⟩
    rw [if_pos (Nat.zero_le _), Nat.sub_zero, hword] at hbyte
    rw [tempData, Vector.getElem_ofFn]
    show (buf.get ⟨i, _⟩).toInt8 = dataBuf[i]
    rw [hbyte]
    show (storedByte dataBuf[i].toInt32).toInt8 = dataBuf[i]
    rw [storedByte, Int8.toInt8_toInt32, Int8.toInt8_toUInt8]
  rw [List.append_nil, hsize] at hread
  rw [onTransactDataSet, Parcel.readInt32_cons]
  show (do
    let (dataBuf, _) ← readDataFrom (256 : Int32).toInt.toNat 0 (Vector.replicate dataBufSize 0)
      (dataBuf.toList.map Int8.toInt32)
    let (ret, _, actions) ← parserTvDataCommand ans mpTv _ dataBuf
    some (reply.writeInt32 ret, actions)) = _
  rw [hread]
  show (do
    let (ret, _, actions) ← parserTvDataCommand ans mpTv _ buf
    some (reply.writeInt32 ret, actions)) = _
  rw [parserTvDataCommand_set, hdata]
  rfl

end TvService
