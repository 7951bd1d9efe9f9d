import TvServer.Service.DataCommands

/-!
# Uploading EDID data

The client sends the EDID data of a source as words beside a command. What arrives at the node of
the HDMI receiver is the byte of the port, followed by the bytes that the client was given.

## Main definitions

* `setEdidData`: the method of the client
* `hdmiPorts`: the bytes of the HDMI ports

## Main results

* `setEdidData_exact`: the upload is exact from the client to the node
-/

/-- The data of a write. -/
def EdidPortAction.written : EdidPortAction → Option (List UInt8)
  | .write data _ => some data
  | .update _ => none

namespace TvClient

open CText (decText)
open TvService (commandText onTransactDataSet)
open CTv (realEdidDataSize)

variable (ans : EdidPortAnswers) (tv : CTv)

/-- Format the command, send it with its bytes as words, and read the reply. The parser of the
service copies more than the command from the parcel: `behind` is what the parcel has there. -/
def setEdidData (source : SourceInput) (dataBuf : Vector Int8 realEdidDataSize)
    (behind : List Char) : Option (Int32 × List EdidPortAction) :=
  let cmdString := commandText [decText hdmiEdidDataSet, decText source, []]
  if cmdString.length < 32 then
    -- a `char` is promoted with its sign
    let send := dataBuf.toList.foldl (fun send b => send.writeInt32 b.toInt32)
      (Parcel.writeInt32 [] 256)
    (onTransactDataSet ans tv (cmdString ++ '\x00' :: behind) send []).map
      fun (reply, actions) => (reply.readInt32.1, actions)
  else none

/-- The bytes of the HDMI ports, with the ports. -/
def hdmiPorts : List (UInt8 × TvinPort) :=
  [(1, tvinPortHdmi0), (2, tvinPortHdmi1), (3, tvinPortHdmi2), (4, tvinPortHdmi3)]

theorem foldl_writeInt32 (bs : List Int8) (send : Parcel) :
    bs.foldl (fun send b => send.writeInt32 b.toInt32) send = send ++ bs.map Int8.toInt32 := by
  induction bs generalizing send with
  | nil => exact (List.append_nil send).symm
  | cons b bs ih =>
    rw [List.foldl_cons, ih, Parcel.writeInt32, List.append_assoc]
    rfl

/-- A call of the method sets the EDID data at the television object. -/
theorem setEdidData_eq (source : SourceInput) (dataBuf : Vector Int8 realEdidDataSize)
    (behind : List Char) :
    setEdidData ans tv source dataBuf behind = some (tv.setEdidData ans source dataBuf) := by
  have hlen : (commandText [decText hdmiEdidDataSet, decText source, []]).length < 32 := by
    have hid := CText.length_decText_le hdmiEdidDataSet
    have hsource := CText.length_decText_le source
    rw [TvService.length_commandText_cons, TvService.length_commandText_cons,
      TvService.commandText_singleton, List.length_nil]
    omega
  rw [setEdidData, if_pos hlen, foldl_writeInt32]
  show (onTransactDataSet ans tv _ (256 :: dataBuf.toList.map Int8.toInt32) []).map _ = _
  rw [TvService.onTransactDataSet_set]
  rfl

theorem portId_of_hdmiPort {tv : CTv} {source : SourceInput} (hlow : sourceHdmi1 ≤ source)
    (hhigh : source ≤ sourceHdmi4) {p : UInt8} {port : TvinPort} (hp : (p, port) ∈ hdmiPorts)
    (hport : tv.tvinGetSourcePortBySourceInput source = port) :
    (tv.tvinGetHdmiPortIdBySourceInput source).toUInt8 = p := by
  have hrange : ¬ (sourceHdmi4 < source ∨ source < sourceHdmi1) := by
    rintro (h | h)
    · exact absurd hhigh (Int32.not_le.mpr h)
    · exact absurd hlow (Int32.not_le.mpr h)
  rw [CTv.tvinGetHdmiPortIdBySourceInput, if_neg hrange, hport]
  simp only [hdmiPorts, List.mem_cons, Prod.mk.injEq, List.not_mem_nil, or_false] at hp
  rcases hp with ⟨rfl, rfl⟩ | ⟨rfl, rfl⟩ | ⟨rfl, rfl⟩ | ⟨rfl, rfl⟩ <;> rfl

/-- **The upload of EDID data is exact.** For an HDMI source on an HDMI port, the byte of the port
and the bytes of the buffer are what is written where the node opens, the update is requested
exactly if the write succeeds, and the result is negative exactly if the open or the write
fails. -/
theorem setEdidData_exact {source : SourceInput} (hlow : sourceHdmi1 ≤ source)
    (hhigh : source ≤ sourceHdmi4) {p : UInt8} {port : TvinPort} (hp : (p, port) ∈ hdmiPorts)
    (hport : tv.tvinGetSourcePortBySourceInput source = port)
    (dataBuf : Vector Int8 realEdidDataSize) (behind : List Char) :
    ∃ ret actions, setEdidData ans tv source dataBuf behind = some (ret, actions) ∧
      actions.filterMap EdidPortAction.written =
        (if ans.dataOpen then [p :: dataBuf.toList.map Int8.toUInt8] else []) ∧
      ((∃ r, .update r ∈ actions) ↔ ans.dataOpen = true ∧ 0 ≤ ans.dataWrite) ∧
      (ret < 0 ↔ ans.dataOpen = false ∨ ans.dataWrite < 0) := by
  refine ⟨(tv.setEdidData ans source dataBuf).1, (tv.setEdidData ans source dataBuf).2,
    setEdidData_eq ans tv source dataBuf behind, ?_⟩
  have hbytes : (dataBuf.map Int8.toUInt8).toList = dataBuf.toList.map Int8.toUInt8 :=
    Vector.toList_map
  rw [CTv.setEdidData, CTv.updataEdidDataWithPort, portId_of_hdmiPort hlow hhigh hp hport, hbytes]
  rcases hopen : ans.dataOpen with _ | _
  · simp [failure_neg]
  · by_cases hwrite : ans.dataWrite < 0
    · have hfail : ¬ 0 ≤ ans.dataWrite := Int32.not_le.mpr hwrite
      simp [hwrite, hfail, failure_neg, EdidPortAction.written]
    · have hok : 0 ≤ ans.dataWrite := Int32.not_lt.mp hwrite
      simp [hwrite, hok, EdidPortAction.written]

/-- The bytes of ones, for a source on the third port. -/
theorem setEdidData_exact_ones :
    ∃ tv : CTv, tv.tvinGetSourcePortBySourceInput sourceHdmi2 = tvinPortHdmi2 ∧
      ∃ ret actions,
        setEdidData ⟨true, 257, 0⟩ tv sourceHdmi2 (Vector.replicate realEdidDataSize (-1)) [] =
          some (ret, actions) ∧
        actions.filterMap EdidPortAction.written =
          [3 :: (Vector.replicate realEdidDataSize (-1)).toList.map Int8.toUInt8] := by
  let tv := (CTv.allocate ⟨fun _ => none, none, true, true, sourceTv⟩).tvinLoadSourceInputToPortMap
  have hport : tv.tvinGetSourcePortBySourceInput sourceHdmi2 = tvinPortHdmi2 := by decide +kernel
  have hp : (3, tvinPortHdmi2) ∈ hdmiPorts := by simp [hdmiPorts]
  obtain ⟨ret, actions, hcall, hwritten, -⟩ := setEdidData_exact ⟨true, 257, 0⟩ tv (by decide)
    (by decide) hp hport (Vector.replicate realEdidDataSize (-1)) []
  exact ⟨tv, hport, ret, actions, hcall, hwritten⟩

end TvClient
