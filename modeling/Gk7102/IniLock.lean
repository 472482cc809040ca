import Mathlib.Logic.Function.Basic
import Gk7102.IniEntry
import Gk7102.StepRuns

/-!
# The lock of the ini store

`mozart_ini_getkey` and `mozart_ini_setkey` with every exit of theirs, and for each
whether the descriptor of the lock file is closed on the way out. A descriptor that
stays open keeps the lock, and the next call waits in `flock` for ever, whichever
process makes it.
-/

namespace Gk7102.IniLock

open Ini LineReader StepRuns

set_option autoImplicit false

/-! ## What can go wrong -/

/-- How `inirw_lock` goes once `flock` returns. -/
inductive LockOutcome where
  | works
  | cannotOpen
  | flockFails
deriving DecidableEq, Repr

/-- The descriptor is not −1. -/
def inirwLock : LockOutcome → Bool
  | .works => true
  | .cannotOpen => false
  | .flockFails => false

/-- How reading a file goes: the call of `FileGetLine` after `failsAfter` lines may fail. -/
inductive ReadOutcome where
  | works
  | cannotOpen
  | failsAfter (count : Nat)
deriving DecidableEq, Repr

/-- How appending goes; a write that fails leaves `left` as the file. -/
inductive AppendOutcome where
  | works
  | cannotOpen
  | headerFails (left : Text)
  | keyFails (left : Text)
deriving DecidableEq, Repr

/-- How rewriting goes. A read or a write that fails ends it wherever it happens. -/
inductive RewriteOutcome where
  | works
  | noName
  | noTemporary
  | cannotReopen
  | readFails
  | writeFails
  | copyFails (left : Text)
deriving DecidableEq, Repr

structure CallOutcomes where
  lock : LockOutcome
  read : ReadOutcome
  append : AppendOutcome
  rewrite : RewriteOutcome
deriving DecidableEq, Repr

/-! ## The two calls -/

/-- The reader of a file whose reading may fail. The call that finds the end of the file
is the one after its last line. -/
def getkeyLocked (io : ReadOutcome) (file : Option Text) (sect key : Text) : Int × Reader :=
  match io with
  | .cannotOpen => (cfgErrOpenFile, Reader.start)
  | .works => ((mozartIniGetkeyLocked file sect key).1.1, (mozartIniGetkeyLocked file sect key).2)
  | .failsAfter count =>
      match file with
      | none => (cfgErrOpenFile, Reader.start)
      | some content =>
          if (fileLines content).length < count then
            ((mozartIniGetkeyLocked file sect key).1.1, (mozartIniGetkeyLocked file sect key).2)
          else
            let reader := readAll sect key ((fileLines content).take count)
            -- a reader that has ended does not read the line that fails
            (reader.phase.result.1, reader)

/-- How a call ends: what it returns, the file behind it, and whether the descriptor of
the lock is still open. -/
structure Exit where
  ret : Int
  file : Option Text
  locked : Bool
deriving DecidableEq, Repr

def unlockAndReturn (ret : Int) (file : Option Text) : Exit := ⟨ret, file, false⟩

def mozartIniGetkey (io : CallOutcomes) (file : Option Text) (sect key : Text) : Exit :=
  if inirwLock io.lock then unlockAndReturn (getkeyLocked io.read file sect key).1 file
  else ⟨-1, file, false⟩

/-- The branch for a file or a section that is missing. -/
def appendKey (io : AppendOutcome) (file : Option Text) (sect key value : Text) : Exit :=
  match io with
  | .cannotOpen => unlockAndReturn cfgErrCreateFile file
  | .headerFails left => unlockAndReturn cfgErrWriteFile (some left)
  | .keyFails left => unlockAndReturn cfgErrWriteFile (some left)
  | .works =>
      unlockAndReturn cfgOk
        (some (file.getD [] ++ writeLines '\n' [headerLine sect, keyLine key value]))

def rewriteKey (io : RewriteOutcome) (file : Option Text) (ret : Int) (reader : Reader)
    (key value : Text) : Exit :=
  match io with
  | .noName => unlockAndReturn cfgErrCreateFile file
  | .noTemporary => unlockAndReturn cfgErrCreateFile file
  | .cannotReopen => unlockAndReturn cfgErrOpenFile file
  | .readFails => unlockAndReturn cfgErrReadFile file
  | .writeFails => unlockAndReturn cfgErrWriteFile file
  | .copyFails left => unlockAndReturn cfgErrCreateFile (some left)
  | .works =>
      match rewritten (file.getD []) ret reader key value with
      | none => unlockAndReturn cfgErrReadFile file
      | some temporary => unlockAndReturn cfgOk (some (fileCopy temporary))

def mozartIniSetkey (io : CallOutcomes) (file : Option Text) (sect key value : Text) : Exit :=
  if inirwLock io.lock then
    let (ret, reader) := getkeyLocked io.read file sect key
    -- this `return` has no `inirw_unlock` in front of it
    if ret ≤ cfgErr ∧ ret ≠ cfgErrOpenFile then ⟨ret, file, true⟩
    else if ret = cfgErrOpenFile ∨ ret = cfgSectionNotFound then
      appendKey io.append file sect key value
    else rewriteKey io.rewrite file ret reader key value
  else ⟨-1, file, false⟩

/-! ## Sequences of calls -/

section Calls

variable {Path : Type*}

inductive Call (Path : Type*) where
  | getkey (path : Path) (sect key : Text)
  | setkey (path : Path) (sect key value : Text)

def Call.path : Call Path → Path
  | .getkey path _ _ => path
  | .setkey path _ _ _ => path

def Call.exit (call : Call Path) (io : CallOutcomes) (file : Option Text) : Exit :=
  match call with
  | .getkey _ sect key => mozartIniGetkey io file sect key
  | .setkey _ sect key value => mozartIniSetkey io file sect key value

/-- The files, and whether a call that has returned left the lock taken. -/
structure Store (Path : Type*) where
  files : Path → Option Text
  lockTaken : Bool

variable [DecidableEq Path]

/-- A call that needs a lock that is taken never returns. -/
def step (store : Store Path) (op : Call Path × CallOutcomes) : Store Path :=
  if inirwLock op.2.lock = true ∧ store.lockTaken = true then store
  else
    let exit := op.1.exit op.2 (store.files op.1.path)
    ⟨Function.update store.files op.1.path exit.file, store.lockTaken || exit.locked⟩

def Store.Released (store : Store Path) : Prop := store.lockTaken = false

/-- The codes with which `mozart_ini_setkey` goes on: found, one of the two not found, or
a file that cannot be opened. -/
def GoesOn (ret : Int) : Prop :=
  ret = cfgOk ∨ ret = cfgSectionNotFound ∨ ret = cfgKeyNotFound ∨ ret = cfgErrOpenFile

/-- A `mozart_ini_setkey` that gets the lock finds a file it can read up to the key or to
its end: no read fails, no line is malformed and no continued line is too long. -/
def FileReadable (store : Store Path) (op : Call Path × CallOutcomes) : Prop :=
  match op.1 with
  | .getkey _ _ _ => True
  | .setkey path sect key _ =>
      inirwLock op.2.lock = true →
        GoesOn (getkeyLocked op.2.read (store.files path) sect key).1

end Calls

/-! ## Where the lock stays taken -/

/-- A return value either lets `mozart_ini_setkey` go on or makes it leave. -/
def Classified (ret : Int) : Prop := GoesOn ret ↔ ¬ (ret ≤ cfgErr ∧ ret ≠ cfgErrOpenFile)

theorem read_failure_classified {ret : Int} (failure : ReadFailure ret) : Classified ret := by
  rcases failure with rfl | rfl | rfl
  · unfold Classified GoesOn
    decide
  · unfold Classified GoesOn
    decide
  · unfold Classified GoesOn
    decide

theorem code_classified {ret : Int}
    (code : ret = cfgOk ∨ ret = cfgSectionNotFound ∨ ret = cfgErrOpenFile ∨ ret = cfgErrReadFile) :
    Classified ret := by
  rcases code with rfl | rfl | rfl | rfl
  all_goals
    unfold Classified GoesOn
    decide

theorem lookup_classified (content sect key : Text) :
    Classified (lookup content sect key).result.1 := by
  rcases lookup_cases content sect key with ⟨value, found⟩ | ⟨missing, _⟩ | ⟨ret, failed, failure⟩
  · rw [found]
    exact code_classified (.inl rfl)
  · rw [missing]
    exact code_classified (.inr (.inl rfl))
  · rw [failed]
    exact read_failure_classified failure

theorem whole_read_classified (file : Option Text) (sect key : Text) :
    Classified (mozartIniGetkeyLocked file sect key).1.1 := by
  cases file with
  | none => exact code_classified (.inr (.inr (.inl rfl)))
  | some content =>
      rw [getkey_locked_eq]
      exact lookup_classified content sect key

theorem cut_read_classified (written : List Text) (sect key : Text) :
    Classified (readAll sect key written).phase.result.1 := by
  rw [read_all_phase]
  have failure := @read_lines_failure sect key .seekingSection written (by simp)
  cases phase : readLines sect key .seekingSection written with
  | found value => exact code_classified (.inl rfl)
  | failed ret => exact read_failure_classified (failure ret phase)
  | seekingSection => exact code_classified (.inr (.inr (.inr rfl)))
  | seekingKey => exact code_classified (.inr (.inr (.inr rfl)))
  | joining text => exact code_classified (.inr (.inr (.inr rfl)))

theorem getkey_locked_classified (io : ReadOutcome) (file : Option Text) (sect key : Text) :
    Classified (getkeyLocked io file sect key).1 := by
  cases io with
  | works => exact whole_read_classified file sect key
  | cannotOpen => exact code_classified (.inr (.inr (.inl rfl)))
  | failsAfter count =>
      cases file with
      | none => exact code_classified (.inr (.inr (.inl rfl)))
      | some content =>
          simp only [getkeyLocked]
          split
          · exact whole_read_classified (some content) sect key
          · exact cut_read_classified _ sect key

theorem append_key_unlocks (io : AppendOutcome) (file : Option Text) (sect key value : Text) :
    (appendKey io file sect key value).locked = false := by
  cases io <;> rfl

theorem rewrite_key_unlocks (io : RewriteOutcome) (file : Option Text) (ret : Int) (reader : Reader)
    (key value : Text) : (rewriteKey io file ret reader key value).locked = false := by
  cases io with
  | works =>
      rw [rewriteKey]
      cases rewritten (file.getD []) ret reader key value with
      | none => rfl
      | some temporary => rfl
  | noName => rfl
  | noTemporary => rfl
  | cannotReopen => rfl
  | readFails => rfl
  | writeFails => rfl
  | copyFails left => rfl

/-- Of all the exits only the one behind a failed read leaves the lock taken. -/
theorem setkey_leaves_locked_iff (io : CallOutcomes) (file : Option Text) (sect key value : Text) :
    (mozartIniSetkey io file sect key value).locked = true ↔
      inirwLock io.lock = true ∧ ¬ GoesOn (getkeyLocked io.read file sect key).1 := by
  have code := getkey_locked_classified io.read file sect key
  rw [mozartIniSetkey]
  by_cases taken : inirwLock io.lock = true
  · rw [if_pos taken]
    by_cases leaves : (getkeyLocked io.read file sect key).1 ≤ cfgErr ∧
        (getkeyLocked io.read file sect key).1 ≠ cfgErrOpenFile
    · simp only [if_pos leaves, taken, true_and, true_iff]
      exact fun goesOn => code.mp goesOn leaves
    · simp only [if_neg leaves, taken, true_and]
      have goesOn := code.mpr leaves
      apply iff_of_false _ (not_not_intro goesOn)
      split
      · rw [append_key_unlocks]
        decide
      · rw [rewrite_key_unlocks]
        decide
  · rw [if_neg taken]
    exact iff_of_false Bool.false_ne_true fun both => taken both.1

theorem getkey_unlocks (io : CallOutcomes) (file : Option Text) (sect key : Text) :
    (mozartIniGetkey io file sect key).locked = false := by
  rw [mozartIniGetkey]
  split <;> rfl

section Runs

variable {Path : Type*} [DecidableEq Path]

theorem step_released_iff {store : Store Path} (released : store.Released)
    (op : Call Path × CallOutcomes) : (step store op).Released ↔ FileReadable store op := by
  have free : store.lockTaken = false := released
  rw [step, if_neg (by simp [free]), Store.Released]
  simp only [free, Bool.false_or]
  obtain ⟨call, io⟩ := op
  cases call with
  | getkey path sect key =>
      apply iff_of_true
      · exact getkey_unlocks io (store.files path) sect key
      · exact trivial
  | setkey path sect key value =>
      have exits := setkey_leaves_locked_iff io (store.files path) sect key value
      simp only [Call.exit, Call.path, FileReadable]
      rw [← Bool.not_eq_true, exits]
      simp only [not_and, not_not]

/-- The lock is free after every call of a run exactly when no call of the run that sets a
key meets a file it cannot read through. -/
theorem lock_released_iff_files_readable (files : Path → Option Text)
    (ops : List (Call Path × CallOutcomes)) :
    AlongRun step Store.Released ⟨files, false⟩ ops ↔
      EveryStep step FileReadable ⟨files, false⟩ ops := by
  apply along_run_iff_every_step Store.Released
  · exact fun store released => released
  · exact fun store op released readable => (step_released_iff released op).mpr readable
  · exact fun store op released unreadable => mt (step_released_iff released op).mp unreadable
  · rfl

/-- No call that needs the lock changes a file once it has been left taken. -/
theorem store_frozen_when_taken {store : Store Path} (taken : store.lockTaken = true)
    (op : Call Path × CallOutcomes) (needed : inirwLock op.2.lock = true) :
    step store op = store := by
  rw [step, if_pos ⟨needed, taken⟩]

end Runs

def allWorks : CallOutcomes := ⟨.works, .works, .works, .works⟩

/-- Setting a key in a file with the line `[op` returns a format error with the lock taken. -/
theorem malformed_file_keeps_lock :
    ¬ ∀ (files : Unit → Option Text) (ops : List (Call Unit × CallOutcomes)),
      AlongRun step Store.Released ⟨files, false⟩ ops := by
  intro always
  have run := always (fun _ => some ['[', 'o', 'p'])
    [(.setkey () ['s'] ['k'] ['v'], allWorks)]
  have released : Store.Released _ := along_run_start run.2
  exact absurd released (by unfold Store.Released; decide)

/-! ## Agreement with the store without exits -/

def RewriteOutcome.ofDisk : Ini.RewriteIO → RewriteOutcome
  | .works => .works
  | .noTemporary => .noTemporary
  | .cannotReopen => .cannotReopen
  | .writeFails => .writeFails
  | .copyFails left => .copyFails left

def AppendOutcome.ofDisk : Ini.AppendIO → AppendOutcome
  | .works => .works
  | .cannotOpen => .cannotOpen
  | .writeFails left => .keyFails left

/-- Files that are there can be read. -/
def CallOutcomes.ofDisk (disk : DiskIO) : CallOutcomes :=
  ⟨if disk.lockTaken then .works else .flockFails, .works, .ofDisk disk.append,
    .ofDisk disk.rewrite⟩

theorem setkey_without_lock (disk : DiskIO) (file : Option Text) (sect key value : Text) :
    Ini.mozartIniSetkey disk file sect key value =
      ((mozartIniSetkey (.ofDisk disk) file sect key value).ret,
        (mozartIniSetkey (.ofDisk disk) file sect key value).file) := by
  obtain ⟨lockTaken, append, rewrite⟩ := disk
  cases lockTaken with
  | false => rfl
  | true =>
      simp only [Ini.mozartIniSetkey, mozartIniSetkey, CallOutcomes.ofDisk, inirwLock, getkeyLocked,
        if_true]
      split_ifs
      · rfl
      · cases append <;> rfl
      · cases rewrite with
        | works =>
            simp only [RewriteOutcome.ofDisk, rewriteKey]
            cases rewritten (file.getD []) (mozartIniGetkeyLocked file sect key).1.1
              (mozartIniGetkeyLocked file sect key).2 key value <;> rfl
        | noTemporary => rfl
        | cannotReopen => rfl
        | writeFails => rfl
        | copyFails left => rfl

end Gk7102.IniLock
