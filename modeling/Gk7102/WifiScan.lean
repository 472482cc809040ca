import Gk7102.Base64Coding
import Gk7102.JsonC
import Gk7102.LineReader
import Gk7102.RecordedCalls
import Gk7102.StepRuns
import Gk7102.UrlEscape

/-!
# Reading a Wi-Fi scan

`get_wifi_scanning_results` reads the output of `iwlist` line by line into an array of
cells. A line with an address opens the cell at the index, every other field is added to the
cell at the index, and the signal level closes it. What is written, which entry is used and
what is read as a string is recorded; a call that goes wrong there ends.
-/

namespace Gk7102.WifiScan

open Gk7102.Base64Coding
open Gk7102.ByteBlocks
open Gk7102.JsonC
open Gk7102.LineReader
open Gk7102.RecordedCalls
open Gk7102.StepRuns
open Gk7102.UrlEscape

set_option autoImplicit false

inductive Field where
  | text (content : List Byte)
  | number (value : Int)
deriving DecidableEq, Repr

abbrev Cell : Type := List (String × Field)

/-- `json_object_object_add`, which replaces the value of a key it has. -/
def setField (key : String) (field : Field) : Cell → Cell
  | [] => [(key, field)]
  | (name, held) :: rest =>
      if name = key then (name, field) :: rest else (name, held) :: setField key field rest

/-- How many items are written from the start of a block of `size` items, the entry of `wifi`
that is used, a block that is read as a string, and what `atoi` is given. -/
inductive Access where
  | write (count size : Nat)
  | entry (cell : Option Cell)
  | string (block : List Byte)
  | digits (text : Option (List Byte))
deriving DecidableEq, Repr

def Access.Allowed : Access → Prop
  | .write count size => count ≤ size
  | .entry cell => cell.isSome
  | .string block => 0 ∈ block
  | .digits text => text.isSome

/-- The index, what `wifi[i]` holds once it is written, and the array `wifilist`. -/
structure ScanState where
  i : Nat
  cell : Option Cell
  list : List Cell
deriving DecidableEq, Repr

def wifiEntries : Nat := 1024

def fgetsFormat : Format Byte where
  kind := fun c => if c = byte '\n' then .closes else .plain
  limit := 511
  limit_pos := by decide

def isSpace (c : Byte) : Bool := c = byte ' ' || (byte '\t' ≤ c && c ≤ byte '\r')

def isDigit (c : Byte) : Bool := byte '0' ≤ c && c ≤ byte '9'

/-- `atoi` of a 32-bit target. -/
def atoi (text : List Byte) : Int :=
  let value (digits : List Byte) : Int :=
    (digits.takeWhile isDigit).foldl (fun value digit => 10 * value + (digit - byte '0').toNat) 0
  match text.dropWhile isSpace with
  | [] => 0
  | sign :: digits =>
      if sign = byte '-' then clampInt32 (-(value digits))
      else if sign = byte '+' then clampInt32 (value digits)
      else clampInt32 (value (sign :: digits))

section Calls

def strncpyTo (block source : List Byte) (count : Nat) : Recorded Access (List Byte) := do
  record (.write count block.length)
  if count ≤ block.length then
    pure (source.take count ++ List.replicate (count - source.length) 0 ++ block.drop count)
  else fault

def newString (block : List Byte) : Recorded Access Field := do
  record (.string block)
  if block.contains 0 then pure (.text (cString block)) else fault

def ScanState.withField (key : String) (field : Field) (state : ScanState) : ScanState :=
  { state with cell := state.cell.map (setField key field) }

/-- `json_object_object_add(wifi[i], key, field)` -/
def addField (key : String) (field : Field) (state : ScanState) : Recorded Access ScanState := do
  record (.entry state.cell)
  if state.cell.isSome then pure (state.withField key field) else fault

variable (text : List Byte) (state : ScanState)

def addressCall : Recorded Access ScanState :=
  match strstr (ofAscii "Address: ") text with
  | none => pure state
  | some found => do
      record (.write (state.i + 1) wifiEntries)
      if state.i < wifiEntries then do
        let bssid ← strncpyTo (List.replicate 17 0) (found.drop 9) 17
        let bssid ← newString bssid
        addField "Bssid" bssid { state with cell := some [] }
      else fault

/-- The size is an `int` that `strncpy` takes as a `size_t`. Where `ESSID:"` stands, `ESSID:`
does. -/
def essidCall : Recorded Access ScanState :=
  match strstr (ofAscii "ESSID:\"") text with
  | none => pure state
  | some found => do
      let size : Int := found.length - 7 - 2
      let source := ((strstr (ofAscii "ESSID:") text).getD []).drop 7
      let ssid ← strncpyTo (List.replicate 64 0) source (size % 4294967296).toNat
      let ssid ← newString ssid
      addField "SSID" ssid state

def channelCall : Recorded Access ScanState :=
  match strstr (ofAscii "Channel") text with
  | none => pure state
  | some _ => do
      let digits := (strstr (ofAscii "Channel ") text).map (·.drop 8)
      record (.digits digits)
      match digits with
      | none => fault
      | some digits => addField "Channel" (.number (atoi digits)) state

def signalCall : Recorded Access ScanState :=
  match strstr (ofAscii "Signal level:") text with
  | none => pure state
  | some found => do
      let state ← addField "Signal level" (.number (atoi (found.drop 13))) state
      pure { i := state.i + 1, cell := none, list := state.list ++ state.cell.toList }

/-- The body of the loop, on what `fgets` left in `buf`. -/
def lineCall (buf : List Byte) : Recorded Access ScanState := do
  let state ← addressCall (cString buf) state
  let state ← essidCall (cString buf) state
  let state ← channelCall (cString buf) state
  signalCall (cString buf) state

end Calls

def linesCall : List (List Byte) → ScanState → Recorded Access ScanState
  | [], state => pure state
  | buf :: rest, state => do
      let state ← lineCall state buf
      linesCall rest state

def firstState : ScanState := ⟨0, none, []⟩

section Results

variable (jsonString : List Cell → CString) (allocated : Bool) (content : List Byte)

/-- `info` is a block of as many bytes as the printed list has, and all of them are copied. -/
def infoCall (list : List Cell) : Recorded Access (List Byte) := do
  let printed := (jsonString list).bytes
  record (.write printed.length (if allocated then printed.length else 0))
  if allocated then pure printed else fault

/-- What is returned: the block at `info`, or NULL when there is no scan to read. -/
def getWifiScanningResults (scanned opened : Bool) : Recorded Access (Option (List Byte)) :=
  if scanned ∧ opened then do
    let state ← linesCall (lines fgetsFormat content) firstState
    let info ← infoCall jsonString allocated state.list
    pure (some info)
  else pure none

def addressOf (text : List Byte) : Option (List Byte) :=
  (strstr (ofAscii "Address: ") text).map (·.drop 9)

def addresses (buffers : List (List Byte)) : List (List Byte) :=
  buffers.filterMap fun buf => addressOf (cString buf)

def bssidOf (cell : Cell) : Option Field := cell.lookup "Bssid"

/-- Nothing is written outside its block, only open cells are used, only strings are read as
strings, and what is returned is a string: the list of one entry for each cell, in order. -/
structure ScanSound : Prop where
  inside : ∀ access ∈ (getWifiScanningResults jsonString allocated content true true).events,
    access.Allowed
  returned : ∃ info list,
    (getWifiScanningResults jsonString allocated content true true).result = some (some info) ∧
      0 ∈ info ∧ cString info = (jsonString list).bytes ∧
      list.map bssidOf = (addresses (lines fgetsFormat content)).map fun address =>
        some (.text (address.take 17))

end Results

/-! ## One line -/

section Strings

theorem strncpy_to_meets (block source : List Byte) (count : Nat) {good : List Byte → Prop} :
    Meets Access.Allowed good (strncpyTo block source count) ↔
      count ≤ block.length ∧ good (source.take count ++
        List.replicate (count - source.length) 0 ++ block.drop count) := by
  rw [strncpyTo, meets_bind, meets_record]
  apply and_congr_right
  intro (fits : count ≤ block.length)
  rw [if_pos fits, meets_pure]

theorem new_string_meets (block : List Byte) {good : Field → Prop} :
    Meets Access.Allowed good (newString block) ↔ 0 ∈ block ∧ good (.text (cString block)) := by
  rw [newString, meets_bind, meets_record]
  apply and_congr_right
  intro (ended : 0 ∈ block)
  rw [if_pos (List.contains_iff_mem.mpr ended), meets_pure]

/-- Copied into a cleared block, a text that leaves a byte free reads as itself. -/
theorem copied_string_meets {source : List Byte} (free : 0 ∉ source) (size count : Nat)
    (good : Field → Prop) :
    Meets Access.Allowed (fun block => Meets Access.Allowed good (newString block))
        (strncpyTo (List.replicate size 0) source count) ↔
      count ≤ size ∧ min count source.length < size ∧ good (.text (source.take count)) := by
  rw [strncpy_to_meets, List.length_replicate]
  apply and_congr_right
  intro fits
  have noNul : (0 : Byte) ∉ source.take count := fun inside => free (List.mem_of_mem_take inside)
  have cleared : List.replicate (count - source.length) 0 ++ (List.replicate size 0).drop count =
      List.replicate (size - min count source.length) (0 : Byte) := by
    rw [List.drop_replicate, List.replicate_append_replicate]
    congr 1
    omega
  rw [new_string_meets, List.append_assoc, cleared]
  cases room : size - min count source.length with
  | zero =>
      have full : ¬ min count source.length < size := by omega
      rw [List.replicate_zero, List.append_nil]
      constructor
      · rintro ⟨inside, -⟩
        exact absurd inside noNul
      · rintro ⟨spare, -⟩
        exact absurd spare full
  | succ left =>
      have spare : min count source.length < size := by omega
      rw [List.replicate_succ, cstring_of_terminated noNul]
      simp [spare]

theorem strstr_suffix {needle text found : List Byte} (stands : strstr needle text = some found) :
    found <:+ text := by
  induction text with
  | nil =>
      unfold strstr at stands
      split at stands
      · rw [← Option.some.inj stands]
      · cases stands
  | cons c rest ih =>
      rw [strstr] at stands
      split at stands
      · rw [← Option.some.inj stands]
      · exact (ih stands).trans (List.suffix_cons c rest)

theorem strstr_front {front needle text found : List Byte} (shorter : front <+: needle)
    (stands : strstr needle text = some found) :
    ∃ earlier, strstr front text = some earlier ∧ found.length ≤ earlier.length := by
  induction text with
  | nil =>
      unfold strstr at stands
      split at stands
      · rename_i empty
        obtain rfl := List.isEmpty_iff.mp empty
        obtain rfl := List.prefix_nil.mp shorter
        exact ⟨[], rfl, by rw [← Option.some.inj stands]⟩
      · cases stands
  | cons c rest ih =>
      rw [strstr] at stands
      split at stands
      · rename_i here
        have also := shorter.trans (List.isPrefixOf_iff_prefix.mp here)
        refine ⟨c :: rest, ?_, by rw [← Option.some.inj stands]⟩
        rw [strstr, if_pos (List.isPrefixOf_iff_prefix.mpr also)]
      · obtain ⟨earlier, at_place, longer⟩ := ih stands
        by_cases here : front.isPrefixOf (c :: rest) = true
        · refine ⟨c :: rest, by rw [strstr, if_pos here], ?_⟩
          have bound := (strstr_suffix at_place).length_le
          simp only [List.length_cons]
          omega
        · exact ⟨earlier, by rw [strstr, if_neg here, at_place], longer⟩

theorem strstr_length {needle text found : List Byte} (stands : strstr needle text = some found) :
    needle.length ≤ found.length := by
  induction text with
  | nil =>
      unfold strstr at stands
      split at stands
      · rename_i empty
        simp [List.isEmpty_iff.mp empty]
      · cases stands
  | cons c rest ih =>
      rw [strstr] at stands
      split at stands
      · rename_i here
        rw [← Option.some.inj stands]
        exact (List.isPrefixOf_iff_prefix.mp here).length_le
      · exact ih stands

end Strings

section Fields

variable {good : ScanState → Prop}

theorem add_field_meets (key : String) (field : Field) (state : ScanState) :
    Meets Access.Allowed good (addField key field state) ↔
      state.cell.isSome ∧ good (state.withField key field) := by
  rw [addField, meets_bind, meets_record]
  apply and_congr_right
  intro (opened : state.cell.isSome = true)
  rw [if_pos opened, meets_pure]

@[simp] theorem with_field_is_some (key : String) (field : Field) (state : ScanState) :
    (state.withField key field).cell.isSome = state.cell.isSome := by
  simp [ScanState.withField]

variable {text : List Byte} (free : 0 ∉ text) (state : ScanState)

def openedBy (text : List Byte) : ScanState :=
  match addressOf text with
  | none => state
  | some address => { state with cell := some [("Bssid", .text address)] }

def titleOf (text : List Byte) : Option (List Byte) :=
  (strstr (ofAscii "ESSID:\"") text).map fun found =>
    (((strstr (ofAscii "ESSID:") text).getD []).drop 7).take (found.length - 9)

def channelOf (text : List Byte) : Option Int :=
  (strstr (ofAscii "Channel") text).map fun _ =>
    atoi (((strstr (ofAscii "Channel ") text).getD []).drop 8)

def signalOf (text : List Byte) : Option Int :=
  (strstr (ofAscii "Signal level:") text).map fun found => atoi (found.drop 13)

def ScanState.withOptional (key : String) (field : Option Field) (state : ScanState) :
    ScanState :=
  match field with
  | none => state
  | some field => state.withField key field

def ScanState.close (state : ScanState) : ScanState :=
  { i := state.i + 1, cell := none, list := state.list ++ state.cell.toList }

include free in
theorem address_meets :
    Meets Access.Allowed good (addressCall text state) ↔
      (∀ address, addressOf text = some address →
        state.i < wifiEntries ∧ address.length < 17) ∧ good (openedBy state text) := by
  unfold addressCall openedBy addressOf
  cases stands : strstr (ofAscii "Address: ") text with
  | none => simp
  | some found =>
      have clean : (0 : Byte) ∉ found.drop 9 := fun inside =>
        free ((strstr_suffix stands).subset (List.mem_of_mem_drop inside))
      have room : ∀ {call : Recorded Access ScanState},
          Meets Access.Allowed good
            (do record (.write (state.i + 1) wifiEntries)
                if state.i < wifiEntries then call else fault) ↔
            state.i < wifiEntries ∧ Meets Access.Allowed good call := by
        intro call
        rw [meets_bind, meets_record]
        apply and_congr_right
        intro (below : state.i < wifiEntries)
        rw [if_pos below]
      have field : ∀ value : Field, Meets Access.Allowed good
          (addField "Bssid" value { state with cell := some [] }) ↔
            good { state with cell := some [("Bssid", value)] } := by
        intro value
        rw [add_field_meets]
        simp [ScanState.withField, setField]
      simp only [room, meets_bind, field]
      have copied := copied_string_meets clean 17 17
        (fun value => good { state with cell := some [("Bssid", value)] })
      rw [copied]
      simp only [Option.map_some, Option.some.injEq, forall_eq', Nat.le_refl, true_and, and_assoc]
      apply and_congr_right
      intro _
      constructor
      · rintro ⟨short, holds⟩
        have fits : (found.drop 9).length < 17 := by omega
        rw [List.take_of_length_le (Nat.le_of_lt fits)] at holds
        exact ⟨fits, holds⟩
      · rintro ⟨fits, holds⟩
        rw [List.take_of_length_le (Nat.le_of_lt fits)]
        exact ⟨by omega, holds⟩

include free in
theorem essid_meets (short : text.length ≤ 511) :
    Meets Access.Allowed good (essidCall text state) ↔
      (∀ found, strstr (ofAscii "ESSID:\"") text = some found →
        9 ≤ found.length ∧ found.length ≤ 72 ∧ state.cell.isSome) ∧
      good (state.withOptional "SSID" ((titleOf text).map .text)) := by
  unfold essidCall titleOf
  cases stands : strstr (ofAscii "ESSID:\"") text with
  | none => simp [ScanState.withOptional]
  | some found =>
      have prefixed : ofAscii "ESSID:" <+: ofAscii "ESSID:\"" := by decide
      obtain ⟨earlier, at_place, longer⟩ := strstr_front prefixed stands
      have bound := (strstr_suffix stands).length_le
      have below := (strstr_suffix at_place).length_le
      have clean : (0 : Byte) ∉ earlier.drop 7 := fun inside =>
        free ((strstr_suffix at_place).subset (List.mem_of_mem_drop inside))
      have atLeast : 7 ≤ found.length := strstr_length stands
      have length : (earlier.drop 7).length = earlier.length - 7 := List.length_drop
      simp only [at_place, Option.getD_some, Option.map_some, meets_bind, add_field_meets]
      rw [copied_string_meets clean 64 _ (fun value =>
        state.cell.isSome = true ∧ good (state.withField "SSID" value))]
      simp only [Option.some.injEq, forall_eq', ScanState.withOptional, and_assoc]
      by_cases enough : 9 ≤ found.length
      · have count : (((found.length : Int) - 7 - 2) % 4294967296).toNat = found.length - 9 := by
          omega
        rw [count]
        constructor
        · rintro ⟨inside, spare, opened, holds⟩
          exact ⟨enough, by omega, opened, holds⟩
        · rintro ⟨-, fits, opened, holds⟩
          exact ⟨by omega, by omega, opened, holds⟩
      · have count : 64 < (((found.length : Int) - 7 - 2) % 4294967296).toNat := by omega
        constructor
        · rintro ⟨inside, -⟩
          omega
        · rintro ⟨fits, -⟩
          omega

theorem channel_meets :
    Meets Access.Allowed good (channelCall text state) ↔
      ((strstr (ofAscii "Channel") text).isSome →
        (strstr (ofAscii "Channel ") text).isSome ∧ state.cell.isSome) ∧
      good (state.withOptional "Channel" ((channelOf text).map .number)) := by
  unfold channelCall channelOf
  cases strstr (ofAscii "Channel") text with
  | none => simp [ScanState.withOptional]
  | some found =>
      rw [meets_bind, meets_record]
      cases strstr (ofAscii "Channel ") text with
      | none => simp [Access.Allowed]
      | some digits =>
          simp [Access.Allowed, add_field_meets, ScanState.withOptional]

theorem signal_meets :
    Meets Access.Allowed good (signalCall text state) ↔
      ((signalOf text).isSome → state.cell.isSome) ∧
      good (match signalOf text with
        | none => state
        | some level => (state.withField "Signal level" (.number level)).close) := by
  unfold signalCall signalOf
  cases strstr (ofAscii "Signal level:") text with
  | none => simp
  | some found => simp [meets_bind, add_field_meets, ScanState.close]

end Fields

def usesEntry (text : List Byte) : Bool :=
  (strstr (ofAscii "ESSID:\"") text).isSome || (strstr (ofAscii "Channel") text).isSome ||
    (signalOf text).isSome

/-- What keeps a line within bounds: room for its cell, an address shorter than 17 bytes, a
title that is closed and shorter than 64, a number behind its channel, and an open cell for
its fields. -/
structure SafeLine (state : ScanState) (buf : List Byte) : Prop where
  room : (addressOf (cString buf)).isSome → state.i < wifiEntries
  address : ∀ address, addressOf (cString buf) = some address → address.length < 17
  title : ∀ found, strstr (ofAscii "ESSID:\"") (cString buf) = some found →
    9 ≤ found.length ∧ found.length ≤ 72
  channel : (strstr (ofAscii "Channel") (cString buf)).isSome →
    (strstr (ofAscii "Channel ") (cString buf)).isSome
  opened : usesEntry (cString buf) → state.cell.isSome ∨ (addressOf (cString buf)).isSome

def lineAfter (state : ScanState) (buf : List Byte) : ScanState :=
  let text := cString buf
  let filled := ((openedBy state text).withOptional "SSID" ((titleOf text).map .text)).withOptional
    "Channel" ((channelOf text).map .number)
  match signalOf text with
  | none => filled
  | some level => (filled.withField "Signal level" (.number level)).close

section Lines

variable {good : ScanState → Prop}

@[simp] theorem with_optional_is_some (key : String) (field : Option Field) (state : ScanState) :
    (state.withOptional key field).cell.isSome = state.cell.isSome := by
  cases field <;> simp [ScanState.withOptional]

theorem opened_by_is_some (state : ScanState) (text : List Byte) :
    (openedBy state text).cell.isSome = (state.cell.isSome || (addressOf text).isSome) := by
  unfold openedBy
  cases addressOf text <;> simp

theorem cstring_no_nul (bytes : List Byte) : 0 ∉ cString bytes := by
  intro inside
  simpa using List.mem_takeWhile_imp inside

theorem line_meets (state : ScanState) {buf : List Byte} (short : buf.length ≤ 511) :
    Meets Access.Allowed good (lineCall state buf) ↔
      SafeLine state buf ∧ good (lineAfter state buf) := by
  have free := cstring_no_nul buf
  have length : (cString buf).length ≤ 511 :=
    Nat.le_trans (List.takeWhile_sublist _).length_le short
  simp only [lineCall, meets_bind, address_meets free, essid_meets free _ length, channel_meets,
    signal_meets, with_optional_is_some, opened_by_is_some, Bool.or_eq_true]
  constructor
  · rintro ⟨opens, title, channel, signal, holds⟩
    refine ⟨⟨?_, fun address found => (opens address found).2,
      fun found stands => ⟨(title found stands).1, (title found stands).2.1⟩,
      fun stands => (channel stands).1, ?_⟩, holds⟩
    · intro announced
      obtain ⟨address, found⟩ := Option.isSome_iff_exists.mp announced
      exact (opens address found).1
    · intro used
      simp only [usesEntry, Bool.or_eq_true] at used
      rcases used with (titled | numbered) | ended
      · obtain ⟨found, stands⟩ := Option.isSome_iff_exists.mp titled
        exact (title found stands).2.2
      · exact (channel numbered).2
      · exact signal ended
  · rintro ⟨safe, holds⟩
    have opened : usesEntry (cString buf) = true →
        state.cell.isSome = true ∨ (addressOf (cString buf)).isSome = true := safe.opened
    simp only [usesEntry, Bool.or_eq_true] at opened
    refine ⟨fun address found => ⟨safe.room (by simp [found]), safe.address address found⟩,
      fun found stands => ⟨(safe.title found stands).1, (safe.title found stands).2,
        opened (.inl (.inl (by simp [stands])))⟩,
      fun stands => ⟨safe.channel stands, opened (.inl (.inr stands))⟩,
      fun ended => opened (.inr ended), holds⟩

theorem lines_meet (buffers : List (List Byte)) (state : ScanState)
    (short : ∀ buf ∈ buffers, buf.length ≤ 511) :
    Meets Access.Allowed good (linesCall buffers state) ↔
      EveryStep lineAfter SafeLine state buffers ∧ good (run lineAfter state buffers) := by
  induction buffers generalizing state with
  | nil => simp [linesCall, EveryStep]
  | cons buf rest ih =>
      rw [linesCall, meets_bind, line_meets state (short buf List.mem_cons_self)]
      rw [ih (lineAfter state buf) fun other inside => short other (List.mem_cons_of_mem _ inside)]
      simp only [EveryStep, run_cons, and_assoc]

end Lines

/-! ## One entry for each cell -/

/-- An address comes when no cell is open. -/
def Fresh (state : ScanState) (buf : List Byte) : Prop :=
  (addressOf (cString buf)).isSome → state.cell = none

section Cells

/-- The addresses of the cells in the list and of the open one. -/
def ScanState.cells (state : ScanState) : List (Option Field) :=
  (state.list ++ state.cell.toList).map bssidOf

theorem set_field_bssid {key : String} (other : key ≠ "Bssid") (field : Field) (cell : Cell) :
    bssidOf (setField key field cell) = bssidOf cell := by
  unfold bssidOf
  induction cell with
  | nil => simp [setField, Ne.symm other]
  | cons member rest ih =>
      obtain ⟨name, held⟩ := member
      unfold setField
      split
      · rename_i same
        subst same
        have differs : ("Bssid" == name) = false := beq_false_of_ne (Ne.symm other)
        rw [List.lookup_cons, List.lookup_cons, differs]
      · rw [List.lookup_cons, List.lookup_cons, ih]

theorem with_field_cells {key : String} (other : key ≠ "Bssid") (field : Field)
    (state : ScanState) : (state.withField key field).cells = state.cells := by
  unfold ScanState.cells ScanState.withField
  cases state.cell <;> simp [set_field_bssid other]

theorem with_optional_cells {key : String} (other : key ≠ "Bssid") (field : Option Field)
    (state : ScanState) : (state.withOptional key field).cells = state.cells := by
  cases field with
  | none => rfl
  | some field => exact with_field_cells other field state

theorem close_cells (state : ScanState) : state.close.cells = state.cells := by
  simp [ScanState.cells, ScanState.close]

theorem line_cells (state : ScanState) (buf : List Byte) :
    (lineAfter state buf).cells =
      match addressOf (cString buf) with
      | none => state.cells
      | some address => state.list.map bssidOf ++ [some (.text address)] := by
  have opened : (lineAfter state buf).cells = (openedBy state (cString buf)).cells := by
    have other : ("SSID" : String) ≠ "Bssid" ∧ ("Channel" : String) ≠ "Bssid" ∧
        ("Signal level" : String) ≠ "Bssid" := by decide
    simp only [lineAfter]
    cases signalOf (cString buf) with
    | none => simp only [with_optional_cells other.1, with_optional_cells other.2.1]
    | some level =>
        simp only [close_cells, with_field_cells other.2.2, with_optional_cells other.1,
          with_optional_cells other.2.1]
  rw [opened]
  unfold openedBy
  cases addressOf (cString buf) with
  | none => rfl
  | some address => simp [ScanState.cells, bssidOf]

theorem run_cells (buffers : List (List Byte)) (state : ScanState) :
    (EveryStep lineAfter Fresh state buffers →
        (run lineAfter state buffers).cells =
          state.cells ++ (addresses buffers).map fun address => some (.text address)) ∧
      (run lineAfter state buffers).cells.length ≤
        state.cells.length + (addresses buffers).length ∧
      (¬ EveryStep lineAfter Fresh state buffers →
        (run lineAfter state buffers).cells.length <
          state.cells.length + (addresses buffers).length) := by
  induction buffers generalizing state with
  | nil => simp [addresses, EveryStep]
  | cons buf rest ih =>
      obtain ⟨kept, most, fewer⟩ := ih (lineAfter state buf)
      have here := line_cells state buf
      rw [run_cons]
      cases announced : addressOf (cString buf) with
      | none =>
          have same : addresses (buf :: rest) = addresses rest := by
            simp [addresses, announced]
          have fresh : Fresh state buf := by simp [Fresh, announced]
          rw [announced] at here
          rw [same]
          simp only [EveryStep, fresh, true_and]
          rw [here] at kept most fewer
          exact ⟨kept, most, fewer⟩
      | some address =>
          have one : addresses (buf :: rest) = address :: addresses rest := by
            simp [addresses, announced]
          rw [announced] at here
          rw [one]
          rw [here] at kept most fewer
          simp only [EveryStep, Fresh, announced, Option.isSome_some, true_implies]
          have before : state.cells = state.list.map bssidOf ++ state.cell.toList.map bssidOf := by
            simp [ScanState.cells]
          simp only [List.length_append, List.length_map, List.length_cons, List.length_nil,
            before] at *
          cases open_ : state.cell with
          | none =>
              simp only [open_, Option.toList_none, List.map_nil, List.append_nil,
                List.length_nil] at *
              refine ⟨fun every => ?_, by omega, fun lost => ?_⟩
              · rw [kept every.2]
                simp
              · have := fewer fun every => lost ⟨trivial, every⟩
                omega
          | some cell =>
              simp only [open_, Option.toList_some, List.map_cons, List.map_nil,
                List.length_singleton] at *
              exact ⟨fun every => absurd every.1 (by simp), by omega, fun _ => by omega⟩

theorem entries_iff (buffers : List (List Byte)) :
    (run lineAfter firstState buffers).list.map bssidOf =
        (addresses buffers).map (fun address => some (.text address)) ↔
      EveryStep lineAfter Fresh firstState buffers ∧
        (run lineAfter firstState buffers).cell = none := by
  obtain ⟨kept, most, fewer⟩ := run_cells buffers firstState
  have none_before : firstState.cells = [] := rfl
  have parts : (run lineAfter firstState buffers).cells =
      (run lineAfter firstState buffers).list.map bssidOf ++
        (run lineAfter firstState buffers).cell.toList.map bssidOf := by
    simp [ScanState.cells]
  rw [none_before, parts] at kept most fewer
  constructor
  · intro same
    rw [same] at most fewer
    simp only [List.length_append, List.length_map, List.length_nil] at most fewer
    constructor
    · by_contra lost
      have := fewer lost
      omega
    · have closed : (run lineAfter firstState buffers).cell.toList.length = 0 := by omega
      simpa using closed
  · rintro ⟨every, closed⟩
    have all := kept every
    rw [closed] at all
    simpa using all

end Cells

/-! ## The whole scan -/

theorem buffers_short (content : List Byte) :
    ∀ buf ∈ lines fgetsFormat content, buf.length ≤ 511 :=
  fun buf inside => is_line_length (lines_are_lines content buf inside)

/-- The loop stays within bounds and leaves one entry for each cell, in order, exactly when
every line is safe, every address comes when no cell is open, and none is left open. -/
theorem scan_loop_sound_iff (content : List Byte) :
    Meets Access.Allowed
        (fun state => state.list.map bssidOf =
          (addresses (lines fgetsFormat content)).map fun address => some (.text address))
        (linesCall (lines fgetsFormat content) firstState) ↔
      EveryStep lineAfter SafeLine firstState (lines fgetsFormat content) ∧
        EveryStep lineAfter Fresh firstState (lines fgetsFormat content) ∧
        (run lineAfter firstState (lines fgetsFormat content)).cell = none := by
  rw [lines_meet _ _ (buffers_short content), entries_iff]

/-- What is returned is never a string: its block has no room for the NUL byte. -/
theorem results_never_sound (jsonString : List Cell → CString) (allocated : Bool)
    (content : List Byte) : ¬ ScanSound jsonString allocated content := by
  intro sound
  obtain ⟨info, list, reached, ended, -⟩ := sound.returned
  rw [getWifiScanningResults, if_pos ⟨rfl, rfl⟩, bind_result] at reached
  obtain ⟨state, -, reached⟩ := Option.bind_eq_some_iff.mp reached
  rw [bind_result] at reached
  obtain ⟨block, printed, same⟩ := Option.bind_eq_some_iff.mp reached
  obtain rfl : block = info := by simpa using same
  rw [infoCall, bind_result, record_result, Option.bind_some] at printed
  split at printed
  · obtain rfl := Option.some.inj printed
    exact (jsonString state.list).no_nul ended
  · cases printed

def addressLine : List Byte := ofAscii "Address: 00:11:22:33:44:55\n"

def emptyList : CString := ⟨ofAscii "\x7b \"WiFiList\": [ ] \x7d", by decide⟩

/-- The address fills `bssid`, which is read as a string all the same. -/
theorem address_fills_bssid :
    ¬ ∀ (jsonString : List Cell → CString) (allocated : Bool) (content : List Byte),
      ScanSound jsonString allocated content := by
  intro always
  have sound := always (fun _ => emptyList) true addressLine
  have inside := sound.inside (.string (ofAscii "00:11:22:33:44:55")) (by decide)
  revert inside
  unfold Access.Allowed
  decide

end Gk7102.WifiScan
