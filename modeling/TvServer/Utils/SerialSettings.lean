import Mathlib.Tactic.SplitIfs
import TvServer.Foundations.Masks

/-!
# The settings of a serial port

The settings of a port are words of flags, the number of data bits being a field of two bits among
them. One way to set them starts from settings that were never initialised, and changes them flag by
flag; it clears and sets a flag of the input word in the control word, where its bit is one of the
data bits. The other way starts from the settings of the port, and ends with the raw mode.

## Main definitions

* `Termios`: the settings of a port
* `cfsetispeed`, `cfsetospeed`, `cfmakeraw`: what the C library does to them
* `setdatabits`, `setstopbits`, `setparity`: their parts
* `newCfg`: the settings that `set_opt` hands to the port
* `setParity`: the settings of the other way
* `AsRequested`: the port gets the data bits, stop bits and parity that are asked for
* `sent`, `sentSpeed`, `sentInput`, `sentChars`: what `set_opt` decides

## Main results

* `newCfg_asRequested_iff`: the requests that `set_opt` honours
* `newCfg_eq_iff`: what it hands to the port of what was in memory before
* `setParity_asRequested_iff`: the requests that the other way honours
-/

open Masks

namespace CSerialPort

/-- A word of flags, `tcflag_t`. -/
abbrev Tcflag := BitVec 32

/-- The settings of a port: the flags for input, output, control and local modes, the discipline of
the line, the control characters, and the speeds. -/
@[ext] structure Termios where
  cIflag : Tcflag
  cOflag : Tcflag
  cCflag : Tcflag
  cLflag : Tcflag
  cLine : UInt8
  cCc : Vector UInt8 32
  cIspeed : UInt32
  cOspeed : UInt32

/-! ## Flags -/

def csize : Tcflag := 0x30
def cs5 : Tcflag := 0x00
def cs6 : Tcflag := 0x10
def cs7 : Tcflag := 0x20
def cs8 : Tcflag := 0x30
def cstopb : Tcflag := 0x40
def parenb : Tcflag := 0x100
def parodd : Tcflag := 0x200

/-- A flag of the input word. -/
def inpck : Tcflag := 0x10

/-- `IGNBRK | BRKINT | PARMRK | ISTRIP | INLCR | IGNCR | ICRNL | IXON`. -/
def rawIflags : Tcflag := 0x1 ||| 0x2 ||| 0x8 ||| 0x20 ||| 0x40 ||| 0x80 ||| 0x100 ||| 0x400

def opost : Tcflag := 0x1

/-- `ECHO | ECHONL | ICANON | ISIG | IEXTEN`. -/
def rawLflags : Tcflag := 0x8 ||| 0x40 ||| 0x2 ||| 0x1 ||| 0x8000

/-- The bits of the control word that have a speed too. -/
def cbaud : Tcflag := 0o10017
def cbaudex : Tcflag := 0o10000

/-- The flag of the input word for an input speed of zero. -/
def ibaud0 : Tcflag := 0o20000000000

/-- The names of the speeds, with their codes. -/
def speeds : List (Int32 × UInt32) :=
  [(230400, 0o10003), (115200, 0o10002), (38400, 0o17), (19200, 0o16), (9600, 0o15), (4800, 0o14),
    (2400, 0o13), (1200, 0o11), (300, 0o7), (38400, 0o17), (19200, 0o16), (9600, 0o15),
    (4800, 0o14), (2400, 0o13), (1200, 0o11), (300, 0o7)]

/-! ## Parts of the settings -/

def setdatabits (s : Termios) (db : Int32) : Termios :=
  if db = 5 then { s with cCflag := s.cCflag &&& ~~~ csize ||| cs5 &&& csize }
  else if db = 6 then { s with cCflag := s.cCflag &&& ~~~ csize ||| cs6 &&& csize }
  else if db = 7 then { s with cCflag := s.cCflag &&& ~~~ csize ||| cs7 &&& csize }
  else if db = 8 then { s with cCflag := s.cCflag &&& ~~~ csize ||| cs8 &&& csize }
  else s

def setstopbits (s : Termios) (sb : Int32) : Termios :=
  if sb = 1 then { s with cCflag := s.cCflag &&& ~~~ cstopb }
  else if sb = 2 then { s with cCflag := s.cCflag ||| cstopb }
  else s

/-- The flag of the input word is cleared and set in the control word, but for even parity. -/
def setparity (s : Termios) (pb : Char) : Termios :=
  if pb = 'n' ∨ pb = 'N' then
    { s with cCflag := s.cCflag &&& ~~~ parenb &&& ~~~ inpck }
  else if pb = 'o' ∨ pb = 'O' then
    { s with cCflag := s.cCflag ||| (parodd ||| parenb) ||| inpck }
  else if pb = 'e' ∨ pb = 'E' then
    { s with cCflag := (s.cCflag ||| parenb) &&& ~~~ parodd, cIflag := s.cIflag ||| inpck }
  else if pb = 's' ∨ pb = 'S' then
    { s with cCflag := s.cCflag &&& ~~~ parenb &&& ~~~ cstopb ||| inpck }
  else s

/-- The flags of the raw mode. -/
def rawFlags (s : Termios) : Termios :=
  { s with
    cIflag := s.cIflag &&& ~~~ rawIflags
    cOflag := s.cOflag &&& ~~~ opost
    cLflag := s.cLflag &&& ~~~ rawLflags
    cCflag := s.cCflag &&& ~~~ (csize ||| parenb) ||| cs8 }

/-! ## The C library -/

/-- The raw mode of the C library, in which a read waits for one character: `VMIN` is one, and
`VTIME` zero. -/
def cfmakeraw (s : Termios) : Termios :=
  { rawFlags s with cCc := (s.cCc.set 6 1).set 5 0 }

/-- The speed for input, which is kept in the control word too if it is not zero. -/
def cfsetispeed (s : Termios) (speed : UInt32) : Termios :=
  if speed = 0 then { s with cIspeed := speed, cIflag := s.cIflag ||| ibaud0 }
  else
    { s with
      cIspeed := speed
      cIflag := s.cIflag &&& ~~~ ibaud0
      cCflag := s.cCflag &&& ~~~ (cbaud ||| cbaudex) ||| speed.toBitVec }

/-- The speed for output, which is kept in the control word too. -/
def cfsetospeed (s : Termios) (speed : UInt32) : Termios :=
  { s with
    cOspeed := speed
    cCflag := s.cCflag &&& ~~~ (cbaud ||| cbaudex) ||| speed.toBitVec }

/-! ## Setting a port -/

/-- What is asked of `set_opt`. -/
structure Options where
  speed : Int32
  db : Int32
  sb : Int32
  pb : Char
  overtime : Int32
  rawMode : Bool

/-- The code of a speed, if it has one. -/
def speedCode (speed : Int32) : Option UInt32 := (speeds.find? fun p => p.1 = speed).map Prod.snd

/-- Both speeds are set to one that has a code, and are left as they are for any other one. -/
def setspeeds (s : Termios) (speed : Int32) : Termios :=
  match speedCode speed with
  | none => s
  | some code => cfsetospeed (cfsetispeed s code) code

/-- `VTIME` in tenths of a second, and no `VMIN`. -/
def setovertime (s : Termios) (overtime : Int32) : Termios :=
  { s with
    cCc :=
      if 0 ≤ overtime then (s.cCc.set 5 (UInt8.ofInt (overtime / 100).toInt)).set 6 0
      else s.cCc }

/-- The settings that `set_opt` hands to the port; those that it starts from are what was in memory
before. -/
def newCfg (cfg : Termios) (o : Options) : Termios :=
  let cfg := setdatabits (setspeeds cfg o.speed) o.db
  let cfg := setparity (setstopbits cfg o.sb) o.pb
  let cfg := setovertime cfg o.overtime
  if o.rawMode then cfmakeraw cfg else cfg

/-- The return value of `set_opt`, and the settings that it hands to the port. -/
def setOpt (mFd : Int32) (tcgetattr tcsetattr : Bool) (cfg : Termios) (o : Options) :
    Int32 × Option Termios :=
  if mFd ≤ 0 then (-1, none)
  else if tcgetattr = false then (-1, none)
  else if tcsetattr = false then (-1, some (newCfg cfg o))
  else (0, some (newCfg cfg o))

/-- The first `switch` of `set_Parity`. -/
def databitsCase (options : Termios) (databits : Int32) : Option Termios :=
  if databits = 7 then some { options with cCflag := options.cCflag ||| cs7 }
  else if databits = 8 then some { options with cCflag := options.cCflag ||| cs8 }
  else none

def parityCase (options : Termios) (parity : Char) : Option Termios :=
  if parity = 'n' ∨ parity = 'N' then
    some { options with
      cCflag := options.cCflag &&& ~~~ parenb, cIflag := options.cIflag &&& ~~~ inpck }
  else if parity = 'o' ∨ parity = 'O' then
    some { options with
      cCflag := options.cCflag ||| (parodd ||| parenb), cIflag := options.cIflag ||| inpck }
  else if parity = 'e' ∨ parity = 'E' then
    some { options with
      cCflag := (options.cCflag ||| parenb) &&& ~~~ parodd, cIflag := options.cIflag ||| inpck }
  else if parity = 'S' ∨ parity = 's' then
    some { options with cCflag := options.cCflag &&& ~~~ parenb &&& ~~~ cstopb }
  else none

def stopbitsCase (options : Termios) (stopbits : Int32) : Option Termios :=
  if stopbits = 1 then some { options with cCflag := options.cCflag &&& ~~~ cstopb }
  else if stopbits = 2 then some { options with cCflag := options.cCflag ||| cstopb }
  else none

/-- The settings that `set_Parity` hands to the port, made of those that the port has; `none` for
settings that it does not support. -/
def parityCfg (options : Termios) (databits stopbits : Int32) (parity : Char) : Option Termios := do
  let options := { options with cCflag := options.cCflag &&& ~~~ csize }
  let options ← databitsCase options databits
  let options ← parityCase options parity
  let options ← stopbitsCase options stopbits
  -- any other letter, an `N` too, asks for the check of the input
  let options :=
    if parity ≠ 'n' then { options with cIflag := options.cIflag ||| inpck } else options
  let options := { options with cCc := (options.cCc.set 5 150).set 6 0 }
  return rawFlags options

/-- What `set_Parity` returns, and the settings that it hands to the port: `options` are those that
the port has, where they can be got. -/
def setParity (options : Option Termios) (tcsetattr : Bool) (databits stopbits : Int32)
    (parity : Char) : Int32 × Option Termios :=
  match options.bind fun options => parityCfg options databits stopbits parity with
  | none => (0, none)
  | some cfg => (if tcsetattr then 1 else 0, some cfg)

/-! ## What is asked for -/

inductive Parity where
  | none
  | odd
  | even
deriving DecidableEq

/-- What a letter asks for: no parity in two ways, odd or even parity, or nothing that is known. -/
inductive Letter where
  | n
  | o
  | e
  | s
  | unknown
deriving DecidableEq

def letter (pb : Char) : Letter :=
  if pb = 'n' ∨ pb = 'N' then .n
  else if pb = 'o' ∨ pb = 'O' then .o
  else if pb = 'e' ∨ pb = 'E' then .e
  else if pb = 's' ∨ pb = 'S' then .s
  else .unknown

def Letter.parity : Letter → Option Parity
  | .n | .s => some .none
  | .o => some .odd
  | .e => some .even
  | .unknown => none

/-- The number of data bits in a control word. -/
def dataBits (cflag : Tcflag) : Int32 :=
  if cflag &&& csize = cs5 then 5
  else if cflag &&& csize = cs6 then 6
  else if cflag &&& csize = cs7 then 7
  else 8

def stopBits (cflag : Tcflag) : Int32 := if cflag &&& cstopb = 0 then 1 else 2

/-- The parity in a control word. -/
def parity (cflag : Tcflag) : Parity :=
  if cflag &&& parenb = 0 then .none
  else if cflag &&& parodd = 0 then .even
  else .odd

/-- A control word has the data bits, the stop bits and the parity that are asked for. -/
def AsRequested (db sb : Int32) (l : Letter) (cflag : Tcflag) : Prop :=
  dataBits cflag = db ∧ stopBits cflag = sb ∧ l.parity = some (parity cflag)

instance (db sb : Int32) (l : Letter) (cflag : Tcflag) : Decidable (AsRequested db sb l cflag) := by
  unfold AsRequested
  infer_instance

/-- The requests that `set_opt` honours. In the raw mode the number of data bits is eight, and there
is no parity. Else a letter for no parity makes six data bits five and eight data bits seven, one
for odd parity makes five data bits six and seven data bits eight, and the other letter for no
parity does so too, and makes two stop bits one. -/
def Honoured (db sb : Int32) (l : Letter) (rawMode : Bool) : Prop :=
  (sb = 1 ∨ sb = 2) ∧
    if rawMode then db = 8 ∧ (l = .n ∨ l = .s ∧ sb = 1)
    else
      match l with
      | .n => db = 5 ∨ db = 7
      | .o => db = 6 ∨ db = 8
      | .e => db = 5 ∨ db = 6 ∨ db = 7 ∨ db = 8
      | .s => (db = 6 ∨ db = 8) ∧ sb = 1
      | .unknown => False

instance (db sb : Int32) (l : Letter) (rawMode : Bool) : Decidable (Honoured db sb l rawMode) := by
  unfold Honoured
  cases rawMode <;> cases l <;> infer_instance

/-! ## Updates of the control word -/

def dataUpdate (db : Int32) : Update 32 :=
  if db = 5 then ⟨csize, cs5 &&& csize⟩
  else if db = 6 then ⟨csize, cs6 &&& csize⟩
  else if db = 7 then ⟨csize, cs7 &&& csize⟩
  else if db = 8 then ⟨csize, cs8 &&& csize⟩
  else .keep

def stopUpdate (sb : Int32) : Update 32 :=
  if sb = 1 then .clearing cstopb else if sb = 2 then .setting cstopb else .keep

def parityUpdate : Letter → Update 32
  | .n => (Update.clearing parenb).comp (.clearing inpck)
  | .o => (Update.setting (parodd ||| parenb)).comp (.setting inpck)
  | .e => (Update.setting parenb).comp (.clearing parodd)
  | .s => ((Update.clearing parenb).comp (.clearing cstopb)).comp (.setting inpck)
  | .unknown => .keep

/-- What even parity sets in the input word. -/
def inputUpdate : Letter → Update 32
  | .e => .setting inpck
  | .n | .o | .s | .unknown => .keep

def rawUpdate (rawMode : Bool) : Update 32 :=
  if rawMode then ⟨csize ||| parenb, cs8⟩ else .keep

/-- The bits of the control word for the format of the data, which `set_opt` decides. -/
def sent (db sb : Int32) (l : Letter) (rawMode : Bool) : Update 32 :=
  (((dataUpdate db).comp (stopUpdate sb)).comp (parityUpdate l)).comp (rawUpdate rawMode)

/-- The bits of another word, which the raw mode clears. -/
def sentRaw (flags : Tcflag) (rawMode : Bool) : Update 32 :=
  if rawMode then .clearing flags else .keep

/-- The bits of the control word for a speed with a code. -/
def sentSpeed : Option UInt32 → Update 32
  | none => .keep
  | some code => ⟨cbaud ||| cbaudex, code.toBitVec⟩

/-- The bit of the input word for a speed with a code. -/
def speedInput : Option UInt32 → Update 32
  | none => .keep
  | some code => if code = 0 then .setting ibaud0 else .clearing ibaud0

/-- The bits of the input word that `set_opt` decides. -/
def sentInput (code : Option UInt32) (l : Letter) (rawMode : Bool) : Update 32 :=
  ((speedInput code).comp (inputUpdate l)).comp (sentRaw rawIflags rawMode)

/-- The control characters that are sent: those for the time to wait, and those of the raw mode. -/
def sentChars (overtime : Int32) (rawMode : Bool) (cc : Vector UInt8 32) : Vector UInt8 32 :=
  let cc := if 0 ≤ overtime then (cc.set 5 (UInt8.ofInt (overtime / 100).toInt)).set 6 0 else cc
  if rawMode then (cc.set 6 1).set 5 0 else cc

theorem setspeeds_eq (s : Termios) (speed : Int32) :
    setspeeds s speed =
      { s with
        cIflag := (speedInput (speedCode speed)).apply s.cIflag
        cCflag := (sentSpeed (speedCode speed)).apply s.cCflag
        cIspeed := (speedCode speed).getD s.cIspeed
        cOspeed := (speedCode speed).getD s.cOspeed } := by
  unfold setspeeds
  cases speedCode speed with
  | none => simp only [speedInput, sentSpeed, Update.apply_keep, Option.getD_none]
  | some code =>
    by_cases hzero : code = 0
    · simp only [cfsetispeed, cfsetospeed, speedInput, sentSpeed, if_pos hzero,
        Update.apply_setting, Option.getD_some]
      rfl
    · -- the bits of the control word are set twice
      have htwice := Update.apply_apply ⟨cbaud ||| cbaudex, code.toBitVec⟩ s.cCflag
      simp only [Update.apply] at htwice
      simp only [cfsetispeed, cfsetospeed, speedInput, sentSpeed, if_neg hzero,
        Update.apply_clearing, Option.getD_some, htwice]
      rfl

theorem setdatabits_eq (s : Termios) (db : Int32) :
    setdatabits s db = { s with cCflag := (dataUpdate db).apply s.cCflag } := by
  unfold setdatabits dataUpdate
  split_ifs
  · rfl
  · rfl
  · rfl
  · rfl
  · rw [Update.apply_keep]

theorem setstopbits_eq (s : Termios) (sb : Int32) :
    setstopbits s sb = { s with cCflag := (stopUpdate sb).apply s.cCflag } := by
  unfold setstopbits stopUpdate
  split_ifs
  · rw [Update.apply_clearing]
  · rw [Update.apply_setting]
  · rw [Update.apply_keep]

theorem setparity_eq (s : Termios) (pb : Char) :
    setparity s pb =
      { s with
        cCflag := (parityUpdate (letter pb)).apply s.cCflag
        cIflag := (inputUpdate (letter pb)).apply s.cIflag } := by
  unfold setparity letter
  split_ifs <;> simp [parityUpdate, inputUpdate, Update.apply_comp, Update.apply_clearing,
    Update.apply_setting, Update.apply_keep]

/-- **The settings** that `set_opt` hands to the port. -/
theorem newCfg_eq (cfg : Termios) (o : Options) :
    newCfg cfg o =
      { cIflag := (sentInput (speedCode o.speed) (letter o.pb) o.rawMode).apply cfg.cIflag
        cOflag := (sentRaw opost o.rawMode).apply cfg.cOflag
        cCflag := ((sentSpeed (speedCode o.speed)).comp
          (sent o.db o.sb (letter o.pb) o.rawMode)).apply cfg.cCflag
        cLflag := (sentRaw rawLflags o.rawMode).apply cfg.cLflag
        cLine := cfg.cLine
        cCc := sentChars o.overtime o.rawMode cfg.cCc
        cIspeed := (speedCode o.speed).getD cfg.cIspeed
        cOspeed := (speedCode o.speed).getD cfg.cOspeed } := by
  rw [newCfg, setspeeds_eq, setdatabits_eq, setstopbits_eq, setparity_eq, sent, sentInput]
  simp only [Update.apply_comp, setovertime, sentChars]
  cases o.rawMode with
  | false => simp [rawUpdate, sentRaw, Update.apply_keep]
  | true =>
    simp only [cfmakeraw, rawFlags, rawUpdate, sentRaw, if_true, Update.apply_clearing]
    rfl

/-! ## What is read from the control word -/

theorem dataBits_congr {x y : Tcflag} (h : x &&& csize = y &&& csize) :
    dataBits x = dataBits y := by rw [dataBits, dataBits, h]

theorem stopBits_congr {x y : Tcflag} (h : x &&& cstopb = y &&& cstopb) :
    stopBits x = stopBits y := by rw [stopBits, stopBits, h]

theorem parity_congr {x y : Tcflag} (h : x &&& parenb = y &&& parenb)
    (hodd : x &&& parodd = y &&& parodd) : parity x = parity y := by
  rw [parity, parity, h, hodd]

theorem dataBits_mem (cflag : Tcflag) :
    dataBits cflag = 5 ∨ dataBits cflag = 6 ∨ dataBits cflag = 7 ∨ dataBits cflag = 8 := by
  unfold dataBits
  split_ifs <;> decide

theorem stopBits_mem (cflag : Tcflag) : stopBits cflag = 1 ∨ stopBits cflag = 2 := by
  unfold stopBits
  split_ifs <;> decide

/-- An update that knows the bits that are read: the bit for odd parity is read only where there is
a parity. -/
structure Knows (u : Update 32) : Prop where
  size : csize &&& u.known = csize
  stop : cstopb &&& u.known = cstopb
  enabled : parenb &&& u.known = parenb
  odd : parodd &&& u.known = parodd ∨ u.set &&& parenb = 0

instance (u : Update 32) : Decidable (Knows u) :=
  decidable_of_iff (csize &&& u.known = csize ∧ cstopb &&& u.known = cstopb ∧
    parenb &&& u.known = parenb ∧ (parodd &&& u.known = parodd ∨ u.set &&& parenb = 0))
    ⟨fun h => ⟨h.1, h.2.1, h.2.2.1, h.2.2.2⟩, fun h => ⟨h.size, h.stop, h.enabled, h.odd⟩⟩

/-- What is read is what the update sets, whatever was there before. -/
theorem Knows.asRequested_iff {u : Update 32} (h : Knows u) (db sb : Int32) (l : Letter)
    (x : Tcflag) : AsRequested db sb l (u.apply x) ↔ AsRequested db sb l u.set := by
  have hparity : parity (u.apply x) = parity u.set := by
    rcases h.odd with hodd | hnone
    · exact parity_congr (Update.apply_and h.enabled x) (Update.apply_and hodd x)
    · -- there is no parity, and the bit for odd parity is not read
      have hread := (Update.apply_and h.enabled x).trans hnone
      rw [parity, parity, if_pos hread, if_pos hnone]
  rw [AsRequested, AsRequested, dataBits_congr (Update.apply_and h.size x),
    stopBits_congr (Update.apply_and h.stop x), hparity]

/-- What `set_opt` sets for a request whose values are supported. -/
theorem sent_of_mem {db sb : Int32} {l : Letter} (rawMode : Bool)
    (hdb : db = 5 ∨ db = 6 ∨ db = 7 ∨ db = 8) (hsb : sb = 1 ∨ sb = 2) (hl : l ≠ .unknown) :
    Knows (sent db sb l rawMode) ∧
      (AsRequested db sb l (sent db sb l rawMode).set ↔ Honoured db sb l rawMode) := by
  rcases hdb with rfl | rfl | rfl | rfl <;> rcases hsb with rfl | rfl <;> cases rawMode <;>
    cases l
  all_goals first | exact absurd rfl hl | exact ⟨by decide, by decide⟩

/-- A request that is honoured has supported values. -/
theorem Honoured.mem {db sb : Int32} {l : Letter} {rawMode : Bool}
    (h : Honoured db sb l rawMode) :
    (db = 5 ∨ db = 6 ∨ db = 7 ∨ db = 8) ∧ (sb = 1 ∨ sb = 2) ∧ l ≠ .unknown := by
  obtain ⟨hsb, hrest⟩ := h
  refine ⟨?_, hsb, ?_⟩
  · cases rawMode <;> cases l <;> simp at hrest ⊢ <;> grind
  · cases rawMode <;> cases l <;> simp at hrest ⊢

/-- **The requests that `set_opt` honours**: whatever was in memory before, the port is handed the
data bits, the stop bits and the parity that are asked for exactly for these. -/
theorem newCfg_asRequested_iff (cfg : Termios) (o : Options) :
    AsRequested o.db o.sb (letter o.pb) (newCfg cfg o).cCflag ↔
      Honoured o.db o.sb (letter o.pb) o.rawMode := by
  rw [newCfg_eq]
  by_cases hmem : (o.db = 5 ∨ o.db = 6 ∨ o.db = 7 ∨ o.db = 8) ∧ (o.sb = 1 ∨ o.sb = 2) ∧
      letter o.pb ≠ .unknown
  · obtain ⟨hdb, hsb, hl⟩ := hmem
    obtain ⟨hknows, hset⟩ := sent_of_mem o.rawMode hdb hsb hl
    rw [Update.apply_comp, hknows.asRequested_iff, hset]
  · -- no control word has other values
    refine iff_of_false (fun h => hmem ?_) fun h => hmem h.mem
    obtain ⟨hdb, hsb, hparity⟩ := h
    refine ⟨hdb ▸ dataBits_mem _, hsb ▸ stopBits_mem _, fun hl => ?_⟩
    rw [hl] at hparity
    cases hparity

/-- What `set_opt` has set where it returns that it has set it. -/
theorem setOpt_eq_iff {mFd : Int32} {tcgetattr tcsetattr : Bool} {cfg : Termios} {o : Options}
    {s : Termios} :
    setOpt mFd tcgetattr tcsetattr cfg o = (0, some s) ↔
      0 < mFd ∧ tcgetattr = true ∧ tcsetattr = true ∧ newCfg cfg o = s := by
  unfold setOpt
  rw [← Int32.not_le]
  split_ifs with hfd hget hset
  · simp [hfd]
  · simp [hget]
  · simp [hset]
  · simp [hfd, hget, hset]

/-- `set_opt` returns that it has set what is asked for exactly where it has a port, which answers,
and the request is one of those. -/
theorem setOpt_asRequested_iff (mFd : Int32) (tcgetattr tcsetattr : Bool) (cfg : Termios)
    (o : Options) :
    (∃ s, setOpt mFd tcgetattr tcsetattr cfg o = (0, some s) ∧
        AsRequested o.db o.sb (letter o.pb) s.cCflag) ↔
      0 < mFd ∧ tcgetattr = true ∧ tcsetattr = true ∧
        Honoured o.db o.sb (letter o.pb) o.rawMode := by
  rw [← newCfg_asRequested_iff cfg o]
  constructor
  · rintro ⟨s, hs, has⟩
    obtain ⟨hfd, hget, hset, rfl⟩ := setOpt_eq_iff.mp hs
    exact ⟨hfd, hget, hset, has⟩
  · rintro ⟨hfd, hget, hset, has⟩
    exact ⟨newCfg cfg o, setOpt_eq_iff.mpr ⟨hfd, hget, hset, rfl⟩, has⟩

/-! ## The other way -/

theorem databitsCase_isSome_iff (options : Termios) (databits : Int32) :
    (databitsCase options databits).isSome ↔ databits = 7 ∨ databits = 8 := by
  unfold databitsCase
  split_ifs with hseven height
  · simp [hseven]
  · simp [height]
  · simp [hseven, height]

theorem parityCase_isSome_iff (options : Termios) (pb : Char) :
    (parityCase options pb).isSome ↔ letter pb ≠ .unknown := by
  unfold parityCase letter
  split_ifs with hn ho he hS hs hs
  · simp
  · simp
  · simp
  · simp
  · exact absurd hS.symm hs
  · exact absurd hs.symm hS
  · simp

theorem stopbitsCase_isSome_iff (options : Termios) (stopbits : Int32) :
    (stopbitsCase options stopbits).isSome ↔ stopbits = 1 ∨ stopbits = 2 := by
  unfold stopbitsCase
  split_ifs with hone htwo
  · simp [hone]
  · simp [htwo]
  · simp [hone, htwo]

theorem cCflag_of_stopbitsCase {options cfg : Termios} {stopbits : Int32}
    (h : stopbitsCase options stopbits = some cfg) :
    cfg.cCflag = (stopUpdate stopbits).apply options.cCflag := by
  unfold stopbitsCase at h
  unfold stopUpdate
  split_ifs at h ⊢ with hone htwo
  · obtain rfl := Option.some_inj.mp h
    rw [Update.apply_clearing]
  · obtain rfl := Option.some_inj.mp h
    rw [Update.apply_setting]

/-- The requests for which the other way hands settings to the port. -/
theorem parityCfg_isSome_iff (options : Termios) (databits stopbits : Int32) (pb : Char) :
    (parityCfg options databits stopbits pb).isSome ↔
      (databits = 7 ∨ databits = 8) ∧ (stopbits = 1 ∨ stopbits = 2) ∧ letter pb ≠ .unknown := by
  simp only [parityCfg, Option.bind_eq_bind, Option.isSome_iff_exists, Option.bind_eq_some_iff,
    Option.pure_def, Option.some.injEq]
  constructor
  · rintro ⟨cfg, s₁, hdata, s₂, hparity, s₃, hstop, -⟩
    exact ⟨(databitsCase_isSome_iff _ _).mp (Option.isSome_of_mem hdata),
      (stopbitsCase_isSome_iff _ _).mp (Option.isSome_of_mem hstop),
      (parityCase_isSome_iff _ _).mp (Option.isSome_of_mem hparity)⟩
  · rintro ⟨hdata, hstop, hletter⟩
    obtain ⟨s₁, hs₁⟩ := Option.isSome_iff_exists.mp ((databitsCase_isSome_iff _ _).mpr hdata)
    obtain ⟨s₂, hs₂⟩ := Option.isSome_iff_exists.mp ((parityCase_isSome_iff s₁ _).mpr hletter)
    obtain ⟨s₃, hs₃⟩ := Option.isSome_iff_exists.mp ((stopbitsCase_isSome_iff s₂ _).mpr hstop)
    exact ⟨_, s₁, hs₁, s₂, hs₂, s₃, hs₃, rfl⟩

/-- What the other way hands to the port ends with the stop bits and the raw mode. -/
theorem cCflag_of_parityCfg {options cfg : Termios} {databits stopbits : Int32} {pb : Char}
    (h : parityCfg options databits stopbits pb = some cfg) :
    ∃ x, cfg.cCflag = ((stopUpdate stopbits).comp (rawUpdate true)).apply x := by
  simp only [parityCfg, Option.bind_eq_bind, Option.bind_eq_some_iff] at h
  obtain ⟨s₁, -, s₂, -, s₃, hstop, hraw⟩ := h
  obtain rfl := Option.some_inj.mp hraw
  refine ⟨s₂.cCflag, ?_⟩
  rw [Update.apply_comp, ← cCflag_of_stopbitsCase hstop]
  dsimp only [rawFlags]
  split_ifs <;> rfl

/-- What is read of settings that end with the stop bits and the raw mode. -/
theorem raw_of_mem {sb : Int32} (hsb : sb = 1 ∨ sb = 2) :
    Knows ((stopUpdate sb).comp (rawUpdate true)) ∧
      dataBits ((stopUpdate sb).comp (rawUpdate true)).set = 8 ∧
      stopBits ((stopUpdate sb).comp (rawUpdate true)).set = sb ∧
      parity ((stopUpdate sb).comp (rawUpdate true)).set = .none := by
  rcases hsb with rfl | rfl
  · decide
  · decide

/-- What the other way hands to the port has eight data bits and no parity. -/
theorem parityCfg_asRequested_iff {options cfg : Termios} {databits stopbits : Int32} {pb : Char}
    (h : parityCfg options databits stopbits pb = some cfg) :
    AsRequested databits stopbits (letter pb) cfg.cCflag ↔
      databits = 8 ∧ (letter pb).parity = some .none := by
  have hstop := ((parityCfg_isSome_iff _ _ _ _).mp (Option.isSome_of_mem h)).2.1
  obtain ⟨x, hx⟩ := cCflag_of_parityCfg h
  obtain ⟨hknows, hdata, hbits, hparity⟩ := raw_of_mem hstop
  rw [hx, hknows.asRequested_iff, AsRequested, hdata, hbits, hparity, eq_comm (a := 8)]
  simp only [true_and]

/-- **The requests that the other way honours** are for eight data bits and no parity, with either
letter. -/
theorem setParity_asRequested_iff (options : Option Termios) (tcsetattr : Bool)
    (databits stopbits : Int32) (pb : Char) :
    (∃ s, setParity options tcsetattr databits stopbits pb = (1, some s) ∧
        AsRequested databits stopbits (letter pb) s.cCflag) ↔
      options.isSome ∧ tcsetattr = true ∧
        databits = 8 ∧ (stopbits = 1 ∨ stopbits = 2) ∧ (letter pb = .n ∨ letter pb = .s) := by
  have hletter : (letter pb).parity = some .none ↔ letter pb = .n ∨ letter pb = .s := by
    cases letter pb <;> decide
  constructor
  · rintro ⟨s, hs, has⟩
    unfold setParity at hs
    cases hcfg : options.bind fun options => parityCfg options databits stopbits pb with
    | none => simp [hcfg] at hs
    | some cfg =>
      obtain ⟨before, hbefore, hparity⟩ := Option.bind_eq_some_iff.mp hcfg
      simp only [hcfg, Prod.mk.injEq, Option.some.injEq] at hs
      obtain ⟨hreturn, rfl⟩ := hs
      obtain ⟨hdata, hnone⟩ := (parityCfg_asRequested_iff hparity).mp has
      obtain ⟨-, hstop, -⟩ := (parityCfg_isSome_iff _ _ _ _).mp (Option.isSome_of_mem hparity)
      refine ⟨Option.isSome_of_mem hbefore, ?_, hdata, hstop, hletter.mp hnone⟩
      cases tcsetattr with
      | false => exact absurd hreturn (by decide)
      | true => rfl
  · rintro ⟨hget, hset, hdata, hstop, hnone⟩
    obtain ⟨before, rfl⟩ := Option.isSome_iff_exists.mp hget
    obtain ⟨cfg, hcfg⟩ := Option.isSome_iff_exists.mp
      ((parityCfg_isSome_iff before databits stopbits pb).mpr
        ⟨.inr hdata, hstop, by rcases hnone with h | h <;> simp [h]⟩)
    refine ⟨cfg, ?_, (parityCfg_asRequested_iff hcfg).mpr ⟨hdata, hletter.mpr hnone⟩⟩
    rw [setParity, Option.bind_some, hcfg, hset]
    rfl

/-! ## What was in memory before -/

/-- Two settings agree on what `set_opt` leaves as it is. -/
structure AgreeOnKept (o : Options) (cfg cfg' : Termios) : Prop where
  input : cfg.cIflag &&& ~~~ (sentInput (speedCode o.speed) (letter o.pb) o.rawMode).known =
    cfg'.cIflag &&& ~~~ (sentInput (speedCode o.speed) (letter o.pb) o.rawMode).known
  output : cfg.cOflag &&& ~~~ (sentRaw opost o.rawMode).known =
    cfg'.cOflag &&& ~~~ (sentRaw opost o.rawMode).known
  control : cfg.cCflag &&& ~~~ ((sentSpeed (speedCode o.speed)).comp
      (sent o.db o.sb (letter o.pb) o.rawMode)).known =
    cfg'.cCflag &&& ~~~ ((sentSpeed (speedCode o.speed)).comp
      (sent o.db o.sb (letter o.pb) o.rawMode)).known
  modes : cfg.cLflag &&& ~~~ (sentRaw rawLflags o.rawMode).known =
    cfg'.cLflag &&& ~~~ (sentRaw rawLflags o.rawMode).known
  line : cfg.cLine = cfg'.cLine
  chars : ∀ i : Fin 32, (0 ≤ o.overtime ∨ o.rawMode = true → i ≠ 5 ∧ i ≠ 6) →
    cfg.cCc[i] = cfg'.cCc[i]
  speeds : speedCode o.speed = none →
    cfg.cIspeed = cfg'.cIspeed ∧ cfg.cOspeed = cfg'.cOspeed

/-- The characters that are sent are those that are set, and those that were there. -/
theorem getElem_sentChars (overtime : Int32) (rawMode : Bool) (cc : Vector UInt8 32) (i : ℕ)
    (hi : i < 32) :
    (sentChars overtime rawMode cc)[i] =
      if rawMode = true ∧ (i = 5 ∨ i = 6) then if i = 5 then 0 else 1
      else if 0 ≤ overtime ∧ (i = 5 ∨ i = 6) then
        if i = 5 then UInt8.ofInt (overtime / 100).toInt else 0
      else cc[i] := by
  unfold sentChars
  cases rawMode <;> by_cases hover : 0 ≤ overtime <;>
    by_cases hfive : i = 5 <;> by_cases hsix : i = 6 <;>
      simp [hover, hfive, hsix, eq_comm]

/-- The characters that are set hide those that were there. -/
theorem sentChars_eq_iff (overtime : Int32) (rawMode : Bool) (cc cc' : Vector UInt8 32) :
    sentChars overtime rawMode cc = sentChars overtime rawMode cc' ↔
      ∀ i : Fin 32, (0 ≤ overtime ∨ rawMode = true → i ≠ 5 ∧ i ≠ 6) → cc[i] = cc'[i] := by
  have hset : ∀ i : Fin 32, (0 ≤ overtime ∨ rawMode = true → i ≠ 5 ∧ i ≠ 6) ↔
      ¬ (rawMode = true ∧ ((i : ℕ) = 5 ∨ (i : ℕ) = 6)) ∧
        ¬ (0 ≤ overtime ∧ ((i : ℕ) = 5 ∨ (i : ℕ) = 6)) := by
    intro i
    have hfive : i = 5 ↔ (i : ℕ) = 5 := Fin.ext_iff
    have hsix : i = 6 ↔ (i : ℕ) = 6 := Fin.ext_iff
    rw [ne_eq, ne_eq, hfive, hsix, or_imp, not_and, not_and, not_or, and_comm]
  constructor
  · -- a character that is not set is sent as it was
    intro h i hi
    obtain ⟨hraw, hover⟩ := (hset i).mp hi
    have hentry : (sentChars overtime rawMode cc)[(i : ℕ)] =
        (sentChars overtime rawMode cc')[(i : ℕ)] := by rw [h]
    rwa [getElem_sentChars, getElem_sentChars, if_neg hraw, if_neg hraw, if_neg hover,
      if_neg hover] at hentry
  · intro h
    apply Vector.ext
    intro i hi
    rw [getElem_sentChars, getElem_sentChars]
    split_ifs with hraw hfive hover hfive
    · rfl
    · rfl
    · rfl
    · rfl
    · exact h ⟨i, hi⟩ ((hset ⟨i, hi⟩).mpr ⟨hraw, hover⟩)

/-- Two settings that are sent are equal exactly where those before agree on what is kept. -/
theorem newCfg_eq_iff (cfg cfg' : Termios) (o : Options) :
    newCfg cfg o = newCfg cfg' o ↔ AgreeOnKept o cfg cfg' := by
  rw [newCfg_eq, newCfg_eq, Termios.ext_iff]
  simp only [Update.apply_eq_apply_iff, sentChars_eq_iff]
  -- each field on its own; only the speeds that a code hides are left
  constructor
  · rintro ⟨hinput, houtput, hcontrol, hmodes, hline, hchars, hispeed, hospeed⟩
    refine ⟨hinput, houtput, hcontrol, hmodes, hline, hchars, fun hnone => ?_⟩
    rw [hnone] at hispeed hospeed
    exact ⟨hispeed, hospeed⟩
  · rintro ⟨hinput, houtput, hcontrol, hmodes, hline, hchars, hspeeds⟩
    refine ⟨hinput, houtput, hcontrol, hmodes, hline, hchars, ?_, ?_⟩
    · cases hcode : speedCode o.speed with
      | none => exact (hspeeds hcode).1
      | some code => rfl
    · cases hcode : speedCode o.speed with
      | none => exact (hspeeds hcode).2
      | some code => rfl

end CSerialPort
