/-!
# Sources, ports and signals

The numbers that the television object, the driver and the clients share. An enumeration with a
negative member is a signed 32-bit integer, any other enumeration an unsigned one: a value of an
enumeration is any integer of its type, since commands and drivers deliver any.

## Main definitions

* `SourceInput`, `TvinPort`, `TvinPortId`: sources, their ports, and the ids of HDMI ports
* `TvinInfo`: the information about a signal
* `TvinFrontendInfo`: the information about the frontend
-/

/-! ## Sources -/

/-- A source, `tv_source_input_t`. -/
abbrev SourceInput := Int32

def sourceInvalid : SourceInput := -1
def sourceTv : SourceInput := 0
def sourceAv1 : SourceInput := 1
def sourceAv2 : SourceInput := 2
def sourceYpbpr1 : SourceInput := 3
def sourceYpbpr2 : SourceInput := 4
def sourceHdmi1 : SourceInput := 5
def sourceHdmi2 : SourceInput := 6
def sourceHdmi3 : SourceInput := 7
def sourceHdmi4 : SourceInput := 8
def sourceVga : SourceInput := 9
def sourceMpeg : SourceInput := 10
def sourceDtv : SourceInput := 11
def sourceIptv : SourceInput := 13
def sourceSpdif : SourceInput := 15
def sourceMax : SourceInput := 16

/-- A kind of source, `tv_source_input_type_t`. -/
inductive SourceInputType where
  | tv
  | av
  | component
  | hdmi
  | vga
  | mpeg
  | dtv
  | iptv
  | spdif
deriving DecidableEq

/-! ## Ports -/

/-- An input port, `tvin_port_t`. -/
abbrev TvinPort := UInt32

def tvinPortNull : TvinPort := 0x00000000
def tvinPortMpeg0 : TvinPort := 0x00000100
def tvinPortBt656 : TvinPort := 0x00000200
def tvinPortVga0 : TvinPort := 0x00000400
def tvinPortComp0 : TvinPort := 0x00000800
def tvinPortComp1 : TvinPort := 0x00000801
def tvinPortCvbs0 : TvinPort := 0x00001000
def tvinPortCvbs1 : TvinPort := 0x00001001
def tvinPortCvbs2 : TvinPort := 0x00001002
def tvinPortCvbs3 : TvinPort := 0x00001003
def tvinPortHdmi0 : TvinPort := 0x00004000
def tvinPortHdmi1 : TvinPort := 0x00004001
def tvinPortHdmi2 : TvinPort := 0x00004002
def tvinPortHdmi3 : TvinPort := 0x00004003
def tvinPortDtv : TvinPort := 0x00040000

/-- The id of an HDMI port, `tvin_port_id_t`. -/
abbrev TvinPortId := UInt32

def tvinPortId1 : TvinPortId := 1
def tvinPortId2 : TvinPortId := 2
def tvinPortId3 : TvinPortId := 3
def tvinPortId4 : TvinPortId := 4
def tvinPortIdMax : TvinPortId := 5

/-! ## Signals -/

def tvinTfmt2d : UInt32 := 0

def tvinSigFmtNull : UInt32 := 0

def tvinSigStatusNull : UInt32 := 0
def tvinSigStatusNosig : UInt32 := 1
def tvinSigStatusUnstable : UInt32 := 2
def tvinSigStatusNotsup : UInt32 := 3
def tvinSigStatusStable : UInt32 := 4

def tvinColorFmtMax : UInt32 := 13

def tvinAspectNull : UInt32 := 0

def tvinColorRangeAuto : Int32 := 0

def vdinWorkModeVfm : UInt32 := 0

/-- What the driver reports about a signal, `tvin_info_t`. -/
structure TvinInfo where
  transFmt : UInt32
  fmt : UInt32
  status : UInt32
  cfmt : UInt32
  fps : UInt32
  isDvi : UInt32
  hdrInfo : UInt32
  aspectRatio : UInt32
deriving DecidableEq

/-- What the driver reports about the frontend, `tvin_frontend_info_t`. -/
structure TvinFrontendInfo where
  scanMode : UInt32
  cfmt : UInt32
  fps : UInt32
  width : UInt32
  height : UInt32
  colordepth : UInt32
deriving DecidableEq

/-- The memory of a frontend info set to zero. -/
def TvinFrontendInfo.zero : TvinFrontendInfo := ⟨0, 0, 0, 0, 0, 0⟩

/-! ## Changes of a signal -/

def tvinSigChgSdr2hdr : UInt32 := 0x01
def tvinSigChgHdr2sdr : UInt32 := 0x02
def tvinSigChgDv2no : UInt32 := 0x04
def tvinSigChgNo2dv : UInt32 := 0x08
def tvinSigChgColorFmt : UInt32 := 0x10
def tvinSigChgRange : UInt32 := 0x20
def tvinSigChgBit : UInt32 := 0x40
def tvinSigChgVsFrq : UInt32 := 0x80
def tvinSigChgDvAllm : UInt32 := 0x100
def tvinSigChgAfd : UInt32 := 0x200
def tvinSigChgSts : UInt32 := 0x80000000

/-! ## EDID versions -/

def hdmiEdidVer14 : UInt32 := 0
def hdmiEdidVer20 : UInt32 := 1
def hdmiEdidVerMax : UInt32 := 3
