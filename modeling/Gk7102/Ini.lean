import Gk7102.LineReader
import Mathlib.Data.List.DropRight

/-!
# The ini store

`_mozart_ini_getkey` reads a file line by line: it seeks the section, then a key
in it, and joins a key line that ends in a backslash with the lines after it. It
leaves behind the line numbers from which `mozart_ini_setkey` writes. A text is a
list of bytes, each a `Char`, and a missing file is `none`. Opening, reading and
closing a file for reading always succeed when the file is there.
-/

namespace Gk7102.Ini

open Gk7102.LineReader

set_option autoImplicit false

abbrev Text := List Char

def maxCfgBuf : Nat := 4096
def sectionPrefix : Char := '['
def sectionSuffix : Char := ']'
def iniComments : Text := [';', '#']

def cfgOk : Int := 0
def cfgSectionNotFound : Int := -1
def cfgKeyNotFound : Int := -2
def cfgErr : Int := -10
def cfgErrOpenFile : Int := -10
def cfgErrCreateFile : Int := -11
def cfgErrReadFile : Int := -12
def cfgErrWriteFile : Int := -13
def cfgErrFileFormat : Int := -14
def cfgErrExceedBufSize : Int := -22

/-- How `FileGetLine` treats one byte. -/
def charKind (c : Char) : CharKind :=
  if c = '\n' ∨ c = '\x00' then .ends
  else if c = '\x0c' ∨ c = '\x1a' then .closes
  else if c = '\r' then .drops
  else .plain

def iniFormat : Format Char where
  kind := charKind
  limit := maxCfgBuf
  limit_pos := by decide

/-- The lines that `FileGetLine` returns until it reports the end of the file. -/
def fileLines (content : Text) : List Text := lines iniFormat content

/-- Strips the blanks on the left, whatever its name says. -/
def strtrimr (buf : Text) : Text := buf.dropWhile (· == ' ')

/-- Strips the blanks on the right. -/
def strtriml (buf : Text) : Text := buf.rdropWhile (· == ' ')

def isBlank (c : Char) : Bool := c == ' ' || c == '\t'

/-- The key and the value, or the code 0 of a blank line, -1 of a line without
key and -2 of a line without `=`. -/
def splitKeyValue (buf : Text) : Except Int (Text × Text) :=
  match buf.dropWhile isBlank with
  | [] => .error 0
  | first :: rest =>
      if first = '=' then .error (-1)
      else
        match rest.dropWhile (· != '=') with
        | [] => .error (-2)
        | _ :: value => .ok (first :: rest.takeWhile (· != '='), value.dropWhile isBlank)

/-! ## Reading a key -/

inductive Phase where
  | seekingSection
  | seekingKey
  | joining (text : Text)
  | found (value : Text)
  | failed (ret : Int)
deriving DecidableEq, Repr

/-- An empty line or a comment. -/
def isSkipped : Text → Bool
  | [] => true
  | c :: _ => iniComments.contains c

/-- A header of two characters has the name that is left of it: none. -/
def seekSection (sect line : Text) : Phase :=
  let buf := strtriml (strtrimr line)
  if isSkipped buf then .seekingSection
  else if 2 < buf.length ∧ buf.head? = some sectionPrefix ∧ buf.getLast? ≠ some sectionSuffix then
    .failed cfgErrFileFormat
  else if buf.head? = some sectionPrefix ∧ buf.tail.dropLast = sect then .seekingKey
  else .seekingSection

/-- The whole text of a key line: another key sends the reader on. -/
def matchKey (key text : Text) : Phase :=
  match splitKeyValue text with
  | .error _ => .failed cfgErrFileFormat
  | .ok (name, value) => if strtriml (strtrimr name) = key then .found value else .seekingKey

def seekKey (key line : Text) : Phase :=
  let buf := strtriml (strtrimr line)
  if isSkipped buf then .seekingKey
  else if buf.head? = some sectionPrefix then .failed cfgKeyNotFound
  else if buf.getLast? = some '\\' then .joining buf.dropLast
  else matchKey key buf

def joinLine (key text line : Text) : Phase :=
  let buf := strtrimr line
  if buf.getLast? = some '\\' then
    if maxCfgBuf < text.length + buf.dropLast.length then .failed cfgErrExceedBufSize
    else .joining (text ++ buf.dropLast)
  else if maxCfgBuf < text.length + buf.length then .failed cfgErrExceedBufSize
  else matchKey key (text ++ buf)

def readLine (sect key : Text) : Phase → Text → Phase
  | .seekingSection, line => seekSection sect line
  | .seekingKey, line => seekKey key line
  | .joining text, line => joinLine key text line
  | .found value, _ => .found value
  | .failed ret, _ => .failed ret

/-- The end of the file closes a key line that was to be continued. -/
def endOfFile (key : Text) : Phase → Phase
  | .seekingSection => .failed cfgSectionNotFound
  | .seekingKey => .failed cfgKeyNotFound
  | .joining text =>
      match matchKey key text with
      | .seekingKey => .failed cfgKeyNotFound
      | phase => phase
  | phase => phase

/-- The reader with its `line_no` and the three globals that it leaves behind. -/
structure Reader where
  phase : Phase
  lineNo : Nat
  sectionLineNo : Nat
  keyLineNo : Nat
  keyLines : Nat
deriving DecidableEq, Repr

def Reader.start : Reader where
  phase := .seekingSection
  lineNo := 0
  sectionLineNo := 0
  keyLineNo := 0
  keyLines := 0

def Reader.read (sect key : Text) (reader : Reader) (line : Text) : Reader :=
  let next := readLine sect key reader.phase line
  match reader.phase with
  | .seekingSection =>
      { reader with
        phase := next
        lineNo := reader.lineNo + 1
        sectionLineNo := if next = .seekingKey then reader.lineNo + 1 else reader.sectionLineNo }
  | .seekingKey =>
      { reader with
        phase := next
        lineNo := reader.lineNo + 1
        keyLineNo := reader.lineNo + 1
        keyLines := 1 }
  | .joining _ =>
      { reader with
        phase := next
        lineNo := reader.lineNo + 1
        keyLines := reader.keyLines + 1 }
  | .found _ => reader
  | .failed _ => reader

def readAll (sect key : Text) (written : List Text) : Reader :=
  written.foldl (Reader.read sect key) Reader.start

def Phase.result : Phase → Int × Option Text
  | .found value => (cfgOk, some value)
  | .failed ret => (ret, none)
  | _ => (cfgErrReadFile, none)

def mozartIniGetkeyLocked (file : Option Text) (sect key : Text) :
    (Int × Option Text) × Reader :=
  match file with
  | none => ((cfgErrOpenFile, none), Reader.start)
  | some content =>
      let reader := readAll sect key (fileLines content)
      ((endOfFile key reader.phase).result, reader)

def mozartIniGetkey (lockTaken : Bool) (file : Option Text) (sect key : Text) :
    Int × Option Text :=
  if lockTaken then (mozartIniGetkeyLocked file sect key).1 else (-1, none)

/-! ## Setting a key -/

/-- `fgets` with a buffer of 1024: a piece ends with its newline or is cut. -/
def fgetsFormat : Format Char where
  kind := fun c => if c = '\n' then .closes else .plain
  limit := 1023
  limit_pos := by decide

/-- `fputs` writes each piece up to its first NUL. -/
def fileCopy (source : Text) : Text :=
  (lines fgetsFormat source).flatMap fun piece => piece.takeWhile (· != '\x00')

/-- How appending goes; a write that fails leaves `left` as the file. -/
inductive AppendIO where
  | works
  | cannotOpen
  | writeFails (left : Text)
deriving DecidableEq, Repr

/-- How rewriting through a temporary file goes. -/
inductive RewriteIO where
  | works
  | noTemporary
  | cannotReopen
  | writeFails
  | copyFails (left : Text)
deriving DecidableEq, Repr

structure DiskIO where
  lockTaken : Bool
  append : AppendIO
  rewrite : RewriteIO
deriving DecidableEq, Repr

def headerLine (sect : Text) : Text := sectionPrefix :: sect ++ [sectionSuffix]

def keyLine (key value : Text) : Text := key ++ '=' :: value

/-- The temporary file, unless the lines run out before the place is reached. -/
def rewritten (content : Text) (ret : Int) (reader : Reader) (key value : Text) : Option Text :=
  let all := fileLines content
  let lineNo1 := if ret = cfgKeyNotFound then reader.sectionLineNo else reader.keyLineNo - 1
  let skipped := if ret = cfgKeyNotFound then 0 else reader.keyLines
  if all.length < lineNo1 + skipped then none
  else
    some (writeLines '\n' (all.take lineNo1) ++ writeLines '\n' [keyLine key value] ++
      writeLines '\n' (all.drop (lineNo1 + skipped)))

def mozartIniSetkey (disk : DiskIO) (file : Option Text) (sect key value : Text) :
    Int × Option Text :=
  if disk.lockTaken then
    let ((ret, _), reader) := mozartIniGetkeyLocked file sect key
    if ret ≤ cfgErr ∧ ret ≠ cfgErrOpenFile then (ret, file)
    else if ret = cfgErrOpenFile ∨ ret = cfgSectionNotFound then
      match disk.append with
      | .works =>
          (cfgOk, some (file.getD [] ++ writeLines '\n' [headerLine sect, keyLine key value]))
      | .cannotOpen => (cfgErrCreateFile, file)
      | .writeFails left => (cfgErrWriteFile, some left)
    else
      match disk.rewrite with
      | .noTemporary => (cfgErrCreateFile, file)
      | .cannotReopen => (cfgErrOpenFile, file)
      | .writeFails => (cfgErrWriteFile, file)
      | .copyFails left => (cfgErrCreateFile, some left)
      | .works =>
          match rewritten (file.getD []) ret reader key value with
          | none => (cfgErrReadFile, file)
          | some temporary => (cfgOk, some (fileCopy temporary))
  else (-1, file)

end Gk7102.Ini
