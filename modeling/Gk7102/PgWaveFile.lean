import Mathlib.Algebra.Group.Nat.Defs
import Gk7102.FileStream

/-!
# The wave file writer

`pgWaveFile.c` writes the header with sizes of zero, counts the bytes of the
samples, and writes both sizes into the header when the file is closed. Every
write of the header is checked, those at the end are not.
-/

namespace Gk7102.PgWaveFile

set_option autoImplicit false

open Gk7102.ByteBlocks
open Gk7102.FileStream

def letters (first second third fourth : Char) : List Byte :=
  [first, second, third, fourth].map fun letter => BitVec.ofNat 8 letter.toNat

def riff : List Byte := letters 'R' 'I' 'F' 'F'

def wave : List Byte := letters 'W' 'A' 'V' 'E'

def fmt : List Byte := letters 'f' 'm' 't' ' '

def data : List Byte := letters 'd' 'a' 't' 'a'

structure PgWaveFormat where
  wFormatTag : BitVec 16
  nChannels : BitVec 16
  nSamplesPerSec : BitVec 32
  nAvgBytesPerSec : BitVec 32
  nBlockAlign : BitVec 16
  wBitsPerSample : BitVec 16
  wSizeByte : BitVec 16
deriving DecidableEq, Repr

def sizeofFormat : Nat := 18

def encodeFormat (format : PgWaveFormat) : List Byte :=
  encodeHalf format.wFormatTag ++ encodeHalf format.nChannels ++
    encodeWord format.nSamplesPerSec ++ encodeWord format.nAvgBytesPerSec ++
    encodeHalf format.nBlockAlign ++ encodeHalf format.wBitsPerSample ++
    encodeHalf format.wSizeByte

/-- The `switch` over the formats: unknown and PCM, A-law and mu-law, and no other. -/
def bitsPerSample (uFormat : BitVec 32) : BitVec 16 :=
  if uFormat = 0 ∨ uFormat = 1 then 16
  else if uFormat = 6 ∨ uFormat = 7 then 8
  else 0

def formatOf (uFormat uSampleRate : BitVec 32) : PgWaveFormat where
  wFormatTag := uFormat.setWidth 16
  nChannels := 1
  nSamplesPerSec := uSampleRate
  nAvgBytesPerSec := uSampleRate * (bitsPerSample uFormat / 8).setWidth 32
  nBlockAlign := 1 * (bitsPerSample uFormat / 8)
  wBitsPerSample := bitsPerSample uFormat
  wSizeByte := 0

/-- `saved` is what the last `fclose` left in the file. -/
structure PgWaveFileCtx where
  pFile : Option Stream
  uDataSize : BitVec 32
  saved : Option (List Byte)
deriving DecidableEq, Repr

/-- A write that comes back short ends the header. -/
def fwriteAll (device : Device) (items : List Byte) (stream : Stream) : Except Stream Stream :=
  let written := fwrite device items stream
  if written.1 < items.length then .error written.2 else .ok written.2

def writeHeader (device : Device) (uFormat uSampleRate : BitVec 32) (stream : Stream) :
    Except Stream Stream := do
  let stream ← fwriteAll device riff stream
  let stream ← fwriteAll device (encodeWord 0) stream
  let stream ← fwriteAll device wave stream
  let stream ← fwriteAll device fmt stream
  if bitsPerSample uFormat = 0 then .error stream
  else do
    let stream ← fwriteAll device (encodeWord (BitVec.ofNat 32 sizeofFormat)) stream
    let stream ← fwriteAll device (encodeFormat (formatOf uFormat uSampleRate)) stream
    fwriteAll device data stream

def fclose (lpCtx : PgWaveFileCtx) (stream : Stream) : PgWaveFileCtx :=
  { lpCtx with pFile := none, saved := some stream.content }

/-- `fopened` is the outcome of `fopen`, which leaves an empty file. -/
def pgWaveFileOpen (device : Device) (fopened : Bool) (uFormat uSampleRate : BitVec 32)
    (lpCtx : PgWaveFileCtx) : BitVec 32 × PgWaveFileCtx :=
  if fopened then
    match writeHeader device uFormat uSampleRate ⟨[], 0⟩ with
    | .error stream => (0, fclose lpCtx stream)
    | .ok stream =>
        match fwriteAll device (encodeWord 0) stream with
        | .error stream => (0, fclose { lpCtx with uDataSize := 0 } stream)
        | .ok stream => (1, { lpCtx with pFile := some stream, uDataSize := 0 })
  else (0, { lpCtx with pFile := none })

def pgWaveFileClose (device : Device) (lpCtx : PgWaveFileCtx) : PgWaveFileCtx :=
  match lpCtx.pFile with
  | none => lpCtx
  | some stream =>
      let uTotalSize := BitVec.ofNat 32 (4 * 5) + BitVec.ofNat 32 sizeofFormat + lpCtx.uDataSize
      let sized := (fwrite device (encodeWord uTotalSize) (fseek stream 4)).2
      let patched :=
        (fwrite device (encodeWord lpCtx.uDataSize) (fseek sized (4 * 6 + sizeofFormat))).2
      fclose lpCtx patched

/-- The count that `fwrite` returns is kept in an `int`. -/
def pgWaveFileWrite (device : Device) (lpData : List Byte) (lpCtx : PgWaveFileCtx) :
    Int × PgWaveFileCtx :=
  match lpCtx.pFile with
  | none => (-1, lpCtx)
  | some stream =>
      let written := fwrite device lpData stream
      let iWrite := (BitVec.ofNat 32 written.1).toInt
      let uDataSize := if iWrite > 0 then lpCtx.uDataSize + BitVec.ofInt 32 iWrite
        else lpCtx.uDataSize
      (iWrite, { lpCtx with pFile := some written.2, uDataSize := uDataSize })

def pgWaveFileZero : PgWaveFileCtx where
  pFile := none
  uDataSize := 0
  saved := none

def writeBuffers (device : Device) (buffers : List (List Byte)) (lpCtx : PgWaveFileCtx) :
    PgWaveFileCtx :=
  buffers.foldl (fun ctx lpData => (pgWaveFileWrite device lpData ctx).2) lpCtx

def record (device : Device) (uFormat uSampleRate : BitVec 32) (buffers : List (List Byte)) :
    PgWaveFileCtx :=
  pgWaveFileClose device (writeBuffers device buffers
    (pgWaveFileOpen device true uFormat uSampleRate pgWaveFileZero).2)

/-- A file of one format block and one data block, with these sizes in it. -/
def waveBytes (format : PgWaveFormat) (totalSize dataSize : BitVec 32) (payload : List Byte) :
    List Byte :=
  riff ++ (encodeWord totalSize ++ (wave ++ (fmt ++ (encodeWord (BitVec.ofNat 32 sizeofFormat) ++
    (encodeFormat format ++ (data ++ (encodeWord dataSize ++ payload)))))))

/-- The sizes in the file are those of the file and of its payload. -/
structure WellFormedWave (format : PgWaveFormat) (payload file : List Byte) : Prop where
  layout : ∃ totalSize dataSize, file = waveBytes format totalSize dataSize payload ∧
    totalSize.toNat = file.length - 8 ∧ dataSize.toNat = payload.length

/-- Channels, sample size, block size and byte rate fit together. -/
structure FormatAgrees (format : PgWaveFormat) : Prop where
  blocks : 8 * format.nBlockAlign.toNat = format.nChannels.toNat * format.wBitsPerSample.toNat
  rate : format.nAvgBytesPerSec.toNat = format.nSamplesPerSec.toNat * format.nBlockAlign.toNat

/-- The same, with a byte rate that may be too large for its 32 bits. -/
structure FormatAgreesModulo (format : PgWaveFormat) : Prop where
  blocks : 8 * format.nBlockAlign.toNat = format.nChannels.toNat * format.wBitsPerSample.toNat
  low : format.nAvgBytesPerSec = format.nSamplesPerSec * format.nBlockAlign.setWidth 32
  rate : format.nSamplesPerSec.toNat * format.nBlockAlign.toNat < 2 ^ 32 →
    format.nAvgBytesPerSec.toNat = format.nSamplesPerSec.toNat * format.nBlockAlign.toNat

section Header

variable {device : Device}

theorem fwrite_all_appends (accepting : device.Accepting) (items content : List Byte) :
    fwriteAll device items ⟨content, content.length⟩ =
      .ok ⟨content ++ items, (content ++ items).length⟩ := by
  rw [fwriteAll, fwrite_appends accepting]
  simp only [Nat.lt_irrefl, if_false]

theorem header_of_invalid_format (accepting : device.Accepting) (uFormat uSampleRate : BitVec 32)
    (invalid : bitsPerSample uFormat = 0) :
    ∃ stream, writeHeader device uFormat uSampleRate ⟨[], 0⟩ = .error stream := by
  have start : (⟨[], 0⟩ : Stream) = ⟨[], ([] : List Byte).length⟩ := rfl
  rw [start]
  simp only [writeHeader, fwrite_all_appends accepting, bind, Except.bind, if_pos invalid]
  exact ⟨_, rfl⟩

theorem header_of_valid_format (accepting : device.Accepting) (uFormat uSampleRate : BitVec 32)
    (valid : bitsPerSample uFormat ≠ 0) :
    ∃ header, writeHeader device uFormat uSampleRate ⟨[], 0⟩ = .ok ⟨header, header.length⟩ ∧
      header ++ encodeWord 0 = waveBytes (formatOf uFormat uSampleRate) 0 0 [] := by
  have start : (⟨[], 0⟩ : Stream) = ⟨[], ([] : List Byte).length⟩ := rfl
  rw [start]
  simp only [writeHeader, fwrite_all_appends accepting, bind, Except.bind, if_neg valid]
  refine ⟨_, rfl, ?_⟩
  simp only [waveBytes, List.nil_append, List.append_nil, List.append_assoc]

/-- An accepted format leaves a whole header with sizes of zero. -/
theorem open_writes_header (accepting : device.Accepting) (uFormat uSampleRate : BitVec 32)
    (valid : bitsPerSample uFormat ≠ 0) (lpCtx : PgWaveFileCtx) :
    pgWaveFileOpen device true uFormat uSampleRate lpCtx =
      (1, { lpCtx with
        pFile := some ⟨waveBytes (formatOf uFormat uSampleRate) 0 0 [],
          (waveBytes (formatOf uFormat uSampleRate) 0 0 []).length⟩
        uDataSize := 0 }) := by
  rcases header_of_valid_format accepting uFormat uSampleRate valid with ⟨header, written, whole⟩
  simp only [pgWaveFileOpen, if_true, written, fwrite_all_appends accepting, whole]

theorem open_accepts_iff (accepting : device.Accepting) (uFormat uSampleRate : BitVec 32)
    (lpCtx : PgWaveFileCtx) :
    (pgWaveFileOpen device true uFormat uSampleRate lpCtx).1 = 1 ↔ bitsPerSample uFormat ≠ 0 := by
  constructor
  · intro opened invalid
    rcases header_of_invalid_format accepting uFormat uSampleRate invalid with ⟨stream, failed⟩
    simp only [pgWaveFileOpen, if_true, failed] at opened
    exact absurd opened (by decide)
  · intro valid
    rw [open_writes_header accepting uFormat uSampleRate valid]

end Header

section Recording

variable {device : Device} {format : PgWaveFormat}

/-- The file so far: a header with sizes of zero, the payload, and its length. -/
structure Recording (format : PgWaveFormat) (payload : List Byte) (lpCtx : PgWaveFileCtx) :
    Prop where
  stream : lpCtx.pFile = some ⟨waveBytes format 0 0 payload, (waveBytes format 0 0 payload).length⟩
  count : lpCtx.uDataSize = BitVec.ofNat 32 payload.length

theorem wave_bytes_append (totalSize dataSize : BitVec 32) (payload more : List Byte) :
    waveBytes format totalSize dataSize payload ++ more =
      waveBytes format totalSize dataSize (payload ++ more) := by
  simp only [waveBytes, List.append_assoc]

/-- A count below 2^31 survives the way through the `int`. -/
theorem counted_as_int {count : Nat} (small : count < 2 ^ 31) :
    (BitVec.ofNat 32 count).toInt = count := by
  have bound : (2 : Nat) ^ 31 * 2 = 2 ^ 32 := by decide
  rw [BitVec.toInt_eq_toNat_of_lt] <;> rw [BitVec.toNat_ofNat, Nat.mod_eq_of_lt (by omega)]
  omega

theorem write_records (accepting : device.Accepting) {payload lpData : List Byte}
    {lpCtx : PgWaveFileCtx} (recording : Recording format payload lpCtx)
    (small : lpData.length < 2 ^ 31) :
    (pgWaveFileWrite device lpData lpCtx).1 = lpData.length ∧
      Recording format (payload ++ lpData) (pgWaveFileWrite device lpData lpCtx).2 := by
  have counted := counted_as_int small
  simp only [pgWaveFileWrite, recording.stream, fwrite_appends accepting, counted]
  refine ⟨trivial, ?_, ?_⟩
  · simp only [wave_bytes_append]
  · dsimp only
    rw [recording.count, List.length_append, BitVec.ofNat_add]
    split
    · rw [BitVec.ofInt_natCast]
    · rename_i nothing
      have zero : lpData.length = 0 := by omega
      rw [zero]
      exact (BitVec.add_zero _).symm

theorem buffers_record (accepting : device.Accepting) (buffers : List (List Byte))
    {payload : List Byte} {lpCtx : PgWaveFileCtx} (recording : Recording format payload lpCtx)
    (small : ∀ lpData ∈ buffers, lpData.length < 2 ^ 31) :
    Recording format (payload ++ buffers.flatten) (writeBuffers device buffers lpCtx) := by
  induction buffers generalizing payload lpCtx with
  | nil =>
      rw [List.flatten_nil, List.append_nil]
      exact recording
  | cons lpData rest ih =>
      have first := (write_records accepting recording (small lpData List.mem_cons_self)).2
      have later := ih first fun other member => small other (List.mem_cons_of_mem lpData member)
      rw [List.flatten_cons, ← List.append_assoc]
      exact later

theorem encode_format_length (format : PgWaveFormat) :
    (encodeFormat format).length = sizeofFormat := by
  simp only [encodeFormat, List.length_append, encode_half_length, encode_word_length]
  rfl

theorem wave_bytes_length (totalSize dataSize : BitVec 32) (payload : List Byte) :
    (waveBytes format totalSize dataSize payload).length = 46 + payload.length := by
  simp only [waveBytes, List.length_append, encode_word_length, encode_format_length]
  simp only [riff, wave, fmt, data, letters, sizeofFormat, List.length_map, List.length_cons,
    List.length_nil]
  omega

theorem total_size_patched (accepting : device.Accepting)
    (totalSize dataSize uTotalSize : BitVec 32) (payload : List Byte) (position : Nat) :
    (fwrite device (encodeWord uTotalSize)
        (fseek ⟨waveBytes format totalSize dataSize payload, position⟩ 4)).2 =
      ⟨waveBytes format uTotalSize dataSize payload, 8⟩ :=
  fwrite_patches accepting riff (encodeWord totalSize) (encodeWord uTotalSize) _ position rfl

theorem data_size_patched (accepting : device.Accepting) (totalSize dataSize uDataSize : BitVec 32)
    (payload : List Byte) (position : Nat) :
    (fwrite device (encodeWord uDataSize)
        (fseek ⟨waveBytes format totalSize dataSize payload, position⟩ (4 * 6 + sizeofFormat))).2 =
      ⟨waveBytes format totalSize uDataSize payload, 46⟩ := by
  have patched := fwrite_patches accepting
    (riff ++ (encodeWord totalSize ++ (wave ++ (fmt ++
      (encodeWord (BitVec.ofNat 32 sizeofFormat) ++ (encodeFormat format ++ data))))))
    (encodeWord dataSize) (encodeWord uDataSize) payload position rfl
  simp only [List.append_assoc] at patched
  exact patched

/-- Closing puts both sizes where the header has left room for them. -/
theorem close_patches (accepting : device.Accepting) {payload : List Byte}
    {lpCtx : PgWaveFileCtx} (recording : Recording format payload lpCtx) :
    (pgWaveFileClose device lpCtx).saved =
      some (waveBytes format (BitVec.ofNat 32 (38 + payload.length))
        (BitVec.ofNat 32 payload.length) payload) := by
  have total : BitVec.ofNat 32 (4 * 5) + BitVec.ofNat 32 sizeofFormat +
      BitVec.ofNat 32 payload.length = BitVec.ofNat 32 (38 + payload.length) := by
    rw [← BitVec.ofNat_add, ← BitVec.ofNat_add]
    rfl
  simp only [pgWaveFileClose, recording.stream, recording.count, total,
    total_size_patched accepting, data_size_patched accepting]
  rfl

end Recording

section Formats

variable (uFormat uSampleRate : BitVec 32)

theorem bits_per_sample_of_valid (valid : bitsPerSample uFormat ≠ 0) :
    bitsPerSample uFormat = 16 ∨ bitsPerSample uFormat = 8 := by
  unfold bitsPerSample at valid ⊢
  split
  · exact Or.inl rfl
  · split
    · exact Or.inr rfl
    · rename_i neither other
      rw [if_neg neither, if_neg other] at valid
      exact absurd rfl valid

theorem format_blocks (valid : bitsPerSample uFormat ≠ 0) :
    8 * (formatOf uFormat uSampleRate).nBlockAlign.toNat =
      (formatOf uFormat uSampleRate).nChannels.toNat *
        (formatOf uFormat uSampleRate).wBitsPerSample.toNat := by
  simp only [formatOf]
  rcases bits_per_sample_of_valid uFormat valid with wide | narrow
  · rw [wide]
    rfl
  · rw [narrow]
    rfl

theorem format_rate :
    (formatOf uFormat uSampleRate).nAvgBytesPerSec =
      (formatOf uFormat uSampleRate).nSamplesPerSec *
        (formatOf uFormat uSampleRate).nBlockAlign.setWidth 32 := by
  have single : 1 * (bitsPerSample uFormat / 8) = bitsPerSample uFormat / 8 := BitVec.one_mul _
  simp only [formatOf, single]

theorem format_agrees_modulo (valid : bitsPerSample uFormat ≠ 0) :
    FormatAgreesModulo (formatOf uFormat uSampleRate) where
  blocks := format_blocks uFormat uSampleRate valid
  low := format_rate uFormat uSampleRate
  rate := by
    intro fits
    have align : ((formatOf uFormat uSampleRate).nBlockAlign.setWidth 32).toNat =
        (formatOf uFormat uSampleRate).nBlockAlign.toNat := by
      apply BitVec.toNat_setWidth_of_le
      decide
    rw [format_rate, BitVec.toNat_mul, align]
    exact Nat.mod_eq_of_lt fits

end Formats

theorem wave_bytes_well_formed (format : PgWaveFormat) (payload : List Byte)
    (total : payload.length < 2 ^ 32 - 46) :
    WellFormedWave format payload (waveBytes format (BitVec.ofNat 32 (38 + payload.length))
      (BitVec.ofNat 32 payload.length) payload) := by
  refine ⟨_, _, rfl, ?_, ?_⟩
  · rw [wave_bytes_length, BitVec.toNat_ofNat, Nat.mod_eq_of_lt (by omega)]
    omega
  · rw [BitVec.toNat_ofNat, Nat.mod_eq_of_lt (by omega)]

/-- Every recording of an accepted format is saved as a well formed wave file of that format,
with all buffers in it, and the fields of the format agree as far as they can. -/
theorem recorded_file_well_formed (device : Device) (accepting : device.Accepting)
    (uFormat uSampleRate : BitVec 32)
    (accepted : (pgWaveFileOpen device true uFormat uSampleRate pgWaveFileZero).1 = 1)
    (buffers : List (List Byte)) (small : ∀ lpData ∈ buffers, lpData.length < 2 ^ 31)
    (total : buffers.flatten.length < 2 ^ 32 - 46) :
    ∃ file, (record device uFormat uSampleRate buffers).saved = some file ∧
      WellFormedWave (formatOf uFormat uSampleRate) buffers.flatten file ∧
      FormatAgreesModulo (formatOf uFormat uSampleRate) := by
  have valid := (open_accepts_iff accepting uFormat uSampleRate pgWaveFileZero).mp accepted
  have opened := open_writes_header accepting uFormat uSampleRate valid pgWaveFileZero
  have empty : Recording (formatOf uFormat uSampleRate) []
      (pgWaveFileOpen device true uFormat uSampleRate pgWaveFileZero).2 := by
    rw [opened]
    exact ⟨rfl, rfl⟩
  have recording := buffers_record accepting buffers empty small
  rw [List.nil_append] at recording
  exact ⟨_, close_patches accepting recording, wave_bytes_well_formed _ _ total,
    format_agrees_modulo uFormat uSampleRate valid⟩

theorem two_buffers_recorded :
    ∃ file, (record Device.endless 1 8000 [[1, 2], [3, 4]]).saved = some file ∧
      WellFormedWave (formatOf 1 8000) [1, 2, 3, 4] file ∧ FormatAgreesModulo (formatOf 1 8000) :=
  recorded_file_well_formed Device.endless endless_accepting 1 8000 rfl [[1, 2], [3, 4]]
    (by decide) (by decide)

/-- 2^31 samples of two bytes a second: the byte rate in the file is zero. -/
theorem byte_rate_wraps :
    ¬ ∀ (device : Device) (uFormat uSampleRate : BitVec 32) (buffers : List (List Byte)),
      device.Accepting →
      (pgWaveFileOpen device true uFormat uSampleRate pgWaveFileZero).1 = 1 →
      (∀ lpData ∈ buffers, lpData.length < 2 ^ 31) → buffers.flatten.length < 2 ^ 32 - 46 →
      ∃ file, (record device uFormat uSampleRate buffers).saved = some file ∧
        WellFormedWave (formatOf uFormat uSampleRate) buffers.flatten file ∧
        FormatAgrees (formatOf uFormat uSampleRate) := by
  intro always
  rcases always Device.endless 1 0x80000000 [] endless_accepting rfl (by simp) (by decide) with
    ⟨file, -, -, agrees⟩
  exact absurd agrees.rate (by decide)

end Gk7102.PgWaveFile
