import TvServer.Foundations.Lines

/-!
# The ini file

An ini file in memory is two linked lists: the lines of the file, and the section lines among
them, each section entry pointing to its line. Lines are nodes of the heap and are identified by
their addresses; a list is given by its nodes in the order of the `pNext` pointers. A line keeps
its text in a fixed buffer and the start of its value as a pointer into it.

## Main definitions

* `Line`: a node of the line list
* `CIniFile`: the two lists, and the name of the file
* `loadFromFile`, `saveToFile`: reading and writing the file
* `getString`, `setString`: reading a value, and setting one and saving
-/

/-- The contents of the files by name. -/
abbrev Files := List Char → Option (List Char)

inductive LineType where
  | lineTypeSection
  | lineTypeKey
  | lineTypeComment
deriving DecidableEq

/-- A line of the file. The buffer holds the characters written to it, the others being null;
what is left of an earlier text stays behind the terminator of a later one. -/
structure Line where
  addr : ℕ
  type : LineType
  text : List Char
  pValueStart : ℕ
deriving DecidableEq

namespace Line

/-- The text of a line: the C string in its buffer. -/
def str (l : Line) : List Char := Lines.cstr l.text

/-- The C string `pValueStart` points to. -/
def value (l : Line) : List Char := Lines.cstr (l.text.drop l.pValueStart)

end Line

/-- An ini file: the lines in their order, the addresses of the section lines in the order of
the section list, and the next address of the heap. -/
structure CIniFile where
  mpFileName : List Char
  lines : List Line
  sections : List ℕ
  fresh : ℕ
deriving DecidableEq

namespace CIniFile

def maxIniFileLineLen : ℕ := 512

/-- The constructor. -/
def new : CIniFile := ⟨[], [], [], 0⟩

def freeAllMem (ini : CIniFile) : CIniFile := { ini with lines := [], sections := [] }

/-! ## Loading -/

def dropTrailingCr (str : List Char) : List Char :=
  if str.getLast? = some '\r' then str.dropLast else str

/-- Cut at the first line feed, drop one carriage return at the end, delete the spaces. -/
def allTrim (str : List Char) : List Char :=
  (dropTrailingCr (str.takeWhile (· ≠ '\n'))).filter (· ≠ ' ')

def getLineType (str : List Char) : LineType :=
  if '#' ∈ str then .lineTypeComment
  else if '[' ∈ str ∧ ']' ∈ str then .lineTypeSection
  else if '=' ∈ str then .lineTypeKey
  else .lineTypeComment

/-- The start of the value in the text of a line just loaded. -/
def valueStart (str : List Char) : ℕ :=
  match getLineType str with
  | .lineTypeKey => str.idxOf '=' + 1
  | _ => 0

/-- One round of the loop that loads a file: the line read is appended to the lines, and to the
sections if it is one. -/
def loadLine (ini : CIniFile) (lineStr : List Char) : CIniFile :=
  let str := allTrim (Lines.cstr lineStr)
  -- the value of a key line starts behind its first `=`, that of any other line at its text
  let line : Line := ⟨ini.fresh, getLineType str, str, valueStart str⟩
  { ini with
    lines := ini.lines ++ [line]
    sections :=
      match line.type with
      | .lineTypeSection => ini.sections ++ [line.addr]
      | _ => ini.sections
    fresh := ini.fresh + 1 }

/-- Load a file: the return value and the ini file. The name is cut to its array, and a read
takes one character less than its buffer. -/
def loadFromFile (ini : CIniFile) (files : Files) : Option (List Char) → Int32 × CIniFile
  | none => (-1, ini.freeAllMem)
  | some filename =>
    let named := { ini.freeAllMem with mpFileName := filename.take 255 }
    match files named.mpFileName with
    -- the name is kept, and a later save goes to it
    | none => (-1, named)
    | some content => (0, (Lines.chunks (maxIniFileLineLen - 1) content).foldl loadLine named)

/-! ## Saving -/

/-- How a save goes: the file may not open for writing, and may take only the first characters
written to it. -/
inductive SaveOutcome where
  | openFails
  | truncated (n : ℕ)
  | complete
deriving DecidableEq

/-- What is printed to the file: each text with a carriage return and a line feed. -/
def content (ini : CIniFile) : List Char := ini.lines.flatMap fun l => l.str ++ ['\r', '\n']

/-- Save to a file, the one the ini file was loaded from by default. -/
def saveToFile (ini : CIniFile) (files : Files) (outcome : SaveOutcome)
    (filename : Option (List Char)) : Int32 × Files :=
  let filepath := filename.getD ini.mpFileName
  if filename = none ∧ ini.mpFileName = [] then (-1, files)
  else
    match outcome with
    | .openFails => (-1, files)
    -- what `fprintf` and `fsync` return is not looked at
    | .truncated n => (0, Function.update files filepath (some (ini.content.take n)))
    | .complete => (0, Function.update files filepath (some ini.content))

/-! ## Reading a value -/

/-- The line at an address. -/
def deref (ini : CIniFile) (addr : ℕ) : Option Line := ini.lines.find? fun l => l.addr = addr

/-- The nodes behind an address in the line list. -/
def linesAfter (ini : CIniFile) (addr : ℕ) : List Line :=
  (ini.lines.dropWhile fun l => l.addr ≠ addr).tail

/-- Whether the text behind the first character of a section line starts with a name. -/
def isSectionNamed (name : List Char) (l : Line) : Bool := name.isPrefixOf (l.str.drop 1)

/-- The first section whose name starts with the one given. -/
def getSection (ini : CIniFile) (name : List Char) : Option ℕ :=
  ini.sections.find? fun addr => (ini.deref addr).any (isSectionNamed name)

/-- The first key line that starts with a key, before the next section line. -/
def keyLineIn (key : List Char) : List Line → Option Line
  | [] => none
  | l :: ls =>
    match l.type with
    | .lineTypeSection => none
    | .lineTypeKey => if key.isPrefixOf l.str then some l else keyLineIn key ls
    | .lineTypeComment => keyLineIn key ls

def getKeyLineAtSec (ini : CIniFile) (sec : ℕ) (key : List Char) : Option Line :=
  keyLineIn key (ini.linesAfter sec)

/-- The value of a key in a section, or the default, which may be null. -/
def getString (ini : CIniFile) (name key : List Char) (default : Option (List Char)) :
    Option (List Char) :=
  match ini.getSection name with
  | none => default
  | some sec =>
    match ini.getKeyLineAtSec sec key with
    | none => default
    | some line => some line.value

/-! ## Setting a value -/

/-- Print into the buffer of a line; the text and its terminator have to fit. -/
def sprintfText (text new : List Char) : Option (List Char) :=
  if new.length < maxIniFileLineLen then some (new ++ '\x00' :: text.drop (new.length + 1))
  else none

def sectionText (name : List Char) : List Char := '[' :: name ++ [']']

def keyText (key value : List Char) : List Char := key ++ '=' :: value

/-- Put a line in front of the line list and of the section list. -/
def insertSection (ini : CIniFile) (line : Line) : CIniFile :=
  { ini with lines := line :: ini.lines, sections := line.addr :: ini.sections }

/-- Link a line behind the one at an address. -/
def linkAfter (sec : ℕ) (line : Line) : List Line → List Line
  | [] => []
  | l :: ls => if l.addr = sec then l :: line :: ls else l :: linkAfter sec line ls

def insertKeyLine (ini : CIniFile) (sec : ℕ) (line : Line) : CIniFile :=
  { ini with lines := linkAfter sec line ini.lines }

/-- Replace the text of the line at an address; the pointer to its value stays. -/
def rewriteText (ini : CIniFile) (addr : ℕ) (text : List Char) : CIniFile :=
  { ini with lines := ini.lines.map fun l => if l.addr = addr then { l with text := text } else l }

/-- A new key line at the next address. -/
def newKeyLine (ini : CIniFile) (key value : List Char) : Option Line :=
  (sprintfText [] (keyText key value)).map fun text =>
    ⟨ini.fresh, .lineTypeKey, text, key.length + 1⟩

/-- Set a value in memory: in a new section in front, in a new first line of its section, or in
the line of the key. A text that does not fit its buffer is undefined behaviour. -/
def setLines (ini : CIniFile) (name key value : List Char) : Option CIniFile :=
  match ini.getSection name with
  | none => do
    let text ← sprintfText [] (sectionText name)
    let line : Line := ⟨ini.fresh, .lineTypeSection, text, 0⟩
    -- the section line is linked before the text of the key line is printed
    let ini := { ini.insertSection line with fresh := ini.fresh + 1 }
    let keyLine ← ini.newKeyLine key value
    return { ini.insertKeyLine line.addr keyLine with fresh := ini.fresh + 1 }
  | some sec =>
    match ini.getKeyLineAtSec sec key with
    | none => do
      let keyLine ← ini.newKeyLine key value
      return { ini.insertKeyLine sec keyLine with fresh := ini.fresh + 1 }
    | some line => do
      let text ← sprintfText line.text (keyText key value)
      return ini.rewriteText line.addr text

/-- Set a value and save the file; whether the save succeeds is not looked at. -/
def setString (ini : CIniFile) (files : Files) (outcome : SaveOutcome)
    (name key value : List Char) : Option (CIniFile × Files) :=
  (ini.setLines name key value).map fun ini => (ini, (ini.saveToFile files outcome none).2)

end CIniFile
