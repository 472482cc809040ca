import Gk7102.ByteBlocks
import Gk7102.JsonReader
import Gk7102.RecordedCalls
import Gk7102.SubClient

/-!
# Leaving the blanks out of a reply

`del_blank` squeezes a text into a buffer of `strlen` bytes and copies that to another one
of the same size. Neither has room for the NUL byte unless a blank was left out. A write
outside its buffer is recorded and ends the call.
-/

namespace Gk7102.DelBlank

open Gk7102.ByteBlocks
open Gk7102.JsonReader
open Gk7102.RecordedCalls
open Gk7102.SubClient

set_option autoImplicit false

def utf8Bytes (text : List Char) : List Byte :=
  (text.flatMap String.utf8EncodeChar).map UInt8.toBitVec

inductive Block where
  | buf
  | ret
deriving DecidableEq, Repr

structure Write where
  block : Block
  index : Nat
  size : Nat
deriving DecidableEq, Repr

def Write.Inside (write : Write) : Prop := write.index < write.size

def store (block : Block) (content : List Byte) (index : Nat) (byte : Byte) :
    Recorded Write (List Byte) := do
  record ⟨block, index, content.length⟩
  if index < content.length then pure (content.set index byte) else fault

def blank : Byte := 0x20

/-- The loop over `ptr`, with what `buf` holds and where `buf_p` points. -/
def squeeze : List Byte → List Byte → Nat → Recorded Write (List Byte)
  | [], buf, _ => pure buf
  | byte :: rest, buf, bufP =>
      if byte ≠ blank then do
        let buf ← store .buf buf bufP byte
        squeeze rest buf (bufP + 1)
      else squeeze rest buf bufP

/-- `strcpy(ret, buf)` reads on behind `buf` until it meets a NUL byte or the end of what is
mapped. -/
def strcpy : List Byte → List Byte → Nat → Recorded Write (List Byte)
  | [], _, _ => fault
  | byte :: rest, ret, index => do
      let ret ← store .ret ret index byte
      if byte = 0 then pure ret else strcpy rest ret (index + 1)

structure Allocations where
  buf : Bool
  ret : Bool
deriving DecidableEq, Repr

/-- `behind` is what the memory holds behind `buf`. -/
def delBlankCall (allocations : Allocations) (behind ptr : List Byte) :
    Recorded Write (Option (List Byte)) :=
  if allocations.buf then do
    let buf ← squeeze ptr (List.replicate ptr.length 0) 0
    if allocations.ret then do
      let ret ← strcpy (buf ++ behind) (List.replicate ptr.length 0) 0
      pure (some ret)
    else pure none
  else pure none

/-! ## Bytes -/

section Bytes

theorem encoded_char (char : Char) :
    (char.toNat < 128 ∧ String.utf8EncodeChar char = [UInt8.ofNat char.toNat]) ∨
      (128 ≤ char.toNat ∧ ∀ byte ∈ String.utf8EncodeChar char, 128 ≤ byte.toNat) := by
  have same : char.val.toNat = char.toNat := rfl
  unfold String.utf8EncodeChar
  rw [same]
  simp only
  split_ifs with one two three
  · exact .inl ⟨by omega, rfl⟩
  all_goals
    refine .inr ⟨by omega, ?_⟩
    simp only [List.forall_mem_cons, UInt8.toNat_ofNat']
    refine ⟨?_, ?_⟩ <;> grind

theorem utf8_bytes_cons (char : Char) (rest : List Char) :
    utf8Bytes (char :: rest) = utf8Bytes [char] ++ utf8Bytes rest := by
  simp [utf8Bytes]

theorem char_bytes (char : Char) :
    (char.toNat < 128 ∧ utf8Bytes [char] = [BitVec.ofNat 8 char.toNat]) ∨
      (128 ≤ char.toNat ∧ ∀ byte ∈ utf8Bytes [char], 128 ≤ byte.toNat) := by
  rcases encoded_char char with ⟨low, same⟩ | ⟨high, every⟩
  · refine .inl ⟨low, ?_⟩
    simp only [utf8Bytes, List.flatMap_cons, List.flatMap_nil, List.append_nil, same,
      List.map_cons, List.map_nil]
    rfl
  · refine .inr ⟨high, fun byte inside => ?_⟩
    simp only [utf8Bytes, List.flatMap_cons, List.flatMap_nil, List.append_nil,
      List.mem_map] at inside
    obtain ⟨encoded, member, rfl⟩ := inside
    exact every encoded member

theorem ascii_mem_char_bytes {byte : Byte} (ascii : byte.toNat < 128) (char : Char) :
    byte ∈ utf8Bytes [char] ↔ char.toNat = byte.toNat := by
  rcases char_bytes char with ⟨low, same⟩ | ⟨high, every⟩
  · rw [same, List.mem_singleton]
    constructor
    · rintro rfl
      simp only [BitVec.toNat_ofNat]
      omega
    · intro equal
      rw [equal, BitVec.ofNat_toNat, BitVec.setWidth_eq]
  · constructor
    · intro inside
      have above := every byte inside
      omega
    · omega

theorem ascii_mem_bytes {byte : Byte} (ascii : byte.toNat < 128) (text : List Char) :
    byte ∈ utf8Bytes text ↔ ∃ char ∈ text, char.toNat = byte.toNat := by
  induction text with
  | nil => simp [utf8Bytes]
  | cons char rest ih =>
      rw [utf8_bytes_cons, List.mem_append, ascii_mem_char_bytes ascii, ih]
      simp

theorem char_of_nat {char other : Char} : char.toNat = other.toNat ↔ char = other :=
  ⟨fun same => Char.ext (UInt32.toNat_inj.mp same), fun same => same ▸ rfl⟩

theorem nul_mem_bytes (text : List Char) : (0 : Byte) ∈ utf8Bytes text ↔ '\x00' ∈ text := by
  have zero : (0 : Byte).toNat = '\x00'.toNat := rfl
  rw [ascii_mem_bytes (by decide), zero]
  simp only [char_of_nat, exists_eq_right]

theorem blank_mem_bytes (text : List Char) : blank ∈ utf8Bytes text ↔ ' ' ∈ text := by
  have space : blank.toNat = ' '.toNat := rfl
  rw [ascii_mem_bytes (by decide), space]
  simp only [char_of_nat, exists_eq_right]

theorem solid_bytes (text : List Char) :
    (utf8Bytes text).filter (· ≠ blank) = utf8Bytes (text.filter (· ≠ ' ')) := by
  induction text with
  | nil => rfl
  | cons char rest ih =>
      rw [utf8_bytes_cons, List.filter_append, ih]
      by_cases space : char = ' '
      · subst space
        rw [List.filter_cons_of_neg (by simp)]
        rfl
      · have solid : blank ∉ utf8Bytes [char] := by
          rw [blank_mem_bytes, List.mem_singleton]
          exact fun same => space same.symm
        have kept : (utf8Bytes [char]).filter (· ≠ blank) = utf8Bytes [char] := by
          apply List.filter_eq_self.mpr
          intro byte inside
          simpa using ne_of_mem_of_not_mem inside solid
        rw [kept, List.filter_cons_of_pos (by simpa using space),
          utf8_bytes_cons char (rest.filter _)]

theorem utf8_bytes_injective {first second : List Char}
    (same : utf8Bytes first = utf8Bytes second) : first = second := by
  have encoded : first.flatMap String.utf8EncodeChar = second.flatMap String.utf8EncodeChar :=
    List.map_injective_iff.mpr (fun _ _ => UInt8.toBitVec_inj.mp) same
  apply String.ofList_injective
  apply String.toByteArray_inj.mp
  rw [String.toByteArray_ofList, String.toByteArray_ofList, List.utf8Encode, List.utf8Encode,
    encoded]

end Bytes

/-! ## The two buffers -/

section Buffers

variable {text rest : List Byte}

theorem store_returns (block : Block) (done : List Byte) (old byte : Byte) (after : List Byte) :
    Returns Write.Inside (done ++ byte :: after)
      (store block (done ++ old :: after) done.length byte) := by
  have room : done.length < (done ++ old :: after).length := by simp
  have here : Write.Inside ⟨block, done.length, (done ++ old :: after).length⟩ := room
  apply returns_bind (returns_record here)
  rw [if_pos room, List.set_append_right _ _ (Nat.le_refl _), Nat.sub_self]
  exact returns_pure _

theorem squeeze_returns (ptr done : List Byte) (room : Nat)
    (enough : (ptr.filter (· ≠ blank)).length ≤ room) :
    Returns Write.Inside
      (done ++ ptr.filter (· ≠ blank) ++
        List.replicate (room - (ptr.filter (· ≠ blank)).length) 0)
      (squeeze ptr (done ++ List.replicate room 0) done.length) := by
  induction ptr generalizing done room with
  | nil =>
      unfold squeeze
      simpa using returns_pure _
  | cons byte rest ih =>
      unfold squeeze
      by_cases solid : byte ≠ blank
      · rw [List.filter_cons_of_pos (by simpa using solid), List.length_cons] at *
        obtain ⟨left, rfl⟩ : ∃ left, room = left + 1 := ⟨room - 1, by omega⟩
        rw [if_pos solid, List.replicate_succ]
        apply returns_bind (store_returns .buf done 0 byte _)
        have further := ih (done ++ [byte]) left (by omega)
        simpa using further
      · rw [List.filter_cons_of_neg (by simpa using solid)] at *
        rw [if_neg solid]
        exact ih done room enough

variable (rest) in
theorem strcpy_returns (free : 0 ∉ text) (done old : List Byte)
    (room : text.length < old.length) :
    Returns Write.Inside (done ++ text ++ 0 :: old.drop (text.length + 1))
      (strcpy (text ++ 0 :: rest) (done ++ old) done.length) := by
  induction text generalizing done old with
  | nil =>
      obtain ⟨first, after, rfl⟩ := List.exists_cons_of_length_pos room
      apply returns_bind (store_returns .ret done first 0 after)
      simpa using returns_pure _
  | cons byte text ih =>
      obtain ⟨first, after, rfl⟩ := List.exists_cons_of_length_pos (Nat.zero_lt_of_lt room)
      have ⟨solid, others⟩ := List.ne_and_not_mem_of_not_mem_cons free
      apply returns_bind (store_returns .ret done first byte after)
      rw [if_neg (Ne.symm solid)]
      have further := ih others (done ++ [byte]) after (by simpa using room)
      simpa using further

variable (rest) in
/-- A text that fills `ret` is not ended within it. -/
theorem strcpy_overruns (free : 0 ∉ text) (done old : List Byte)
    (full : old.length ≤ text.length) :
    (strcpy (text ++ rest) (done ++ old) done.length).result = none := by
  induction old generalizing text done with
  | nil =>
      cases source : text ++ rest with
      | nil => rfl
      | cons byte after =>
          rw [strcpy, List.append_nil, bind_result, store, bind_result,
            if_neg (Nat.lt_irrefl _)]
          rfl
  | cons first after ih =>
      obtain ⟨byte, text, rfl⟩ := List.exists_cons_of_length_pos (Nat.zero_lt_of_lt full)
      have ⟨solid, others⟩ := List.ne_and_not_mem_of_not_mem_cons free
      have further := ih others (done ++ [byte]) (by simpa using full)
      rw [List.cons_append, strcpy, bind_result, (store_returns .ret done first byte after).2,
        Option.bind_some, if_neg (Ne.symm solid)]
      simpa using further

end Buffers

/-! ## The call -/

section Call

variable (allocations : Allocations) (behind : List Byte) (text : String)

def delBlankOf : Recorded Write (Option (List Byte)) :=
  delBlankCall allocations behind (utf8Bytes text.toList)

/-- No write leaves its buffer, and what is returned is a text with the value of `text`. -/
structure DelBlankSound : Prop where
  inside : ∀ write ∈ (delBlankOf allocations behind text).events, write.Inside
  returned : ∃ ret, (delBlankOf allocations behind text).result = some ret ∧
    ∀ bytes, ret = some bytes → 0 ∈ bytes ∧
      ∃ content, cString bytes = utf8Bytes content ∧ read content = read text.toList

variable {allocations text}

theorem del_blank_unallocated (refused : allocations.buf = false ∨ allocations.ret = false) :
    Returns Write.Inside none (delBlankOf allocations behind text) := by
  unfold delBlankOf delBlankCall
  cases buf : allocations.buf with
  | false => exact returns_pure _
  | true =>
      have ret : allocations.ret = false := by simpa [buf] using refused
      rw [if_pos rfl]
      apply returns_bind (squeeze_returns _ [] _ (List.length_filter_le _ _))
      rw [ret]
      exact returns_pure _

variable (buf : allocations.buf = true) (ret : allocations.ret = true)

include buf ret

theorem del_blank_overruns (free : '\x00' ∉ text.toList) (solid : ' ' ∉ text.toList) :
    (delBlankOf allocations behind text).result = none := by
  have same : (utf8Bytes text.toList).filter (· ≠ blank) = utf8Bytes text.toList := by
    rw [solid_bytes, List.filter_eq_self.mpr]
    intro char inside
    simpa using ne_of_mem_of_not_mem inside solid
  have squeezed := (squeeze_returns (utf8Bytes text.toList) [] _ (List.length_filter_le _ _)).2
  rw [same, Nat.sub_self] at squeezed
  have copied := strcpy_overruns behind (mt (nul_mem_bytes text.toList).mp free) []
    (List.replicate (utf8Bytes text.toList).length 0) (by simp)
  unfold delBlankOf delBlankCall
  simp only [buf, ret, if_true, bind_result]
  simp only [List.nil_append, List.length_nil, List.replicate_zero, List.append_nil] at *
  rw [squeezed, Option.bind_some, copied]
  rfl

theorem del_blank_call_returns {ptr : List Byte} (free : 0 ∉ ptr) (spaced : blank ∈ ptr) :
    Returns Write.Inside
      (some (ptr.filter (· ≠ blank) ++
        0 :: (List.replicate ptr.length 0).drop ((ptr.filter (· ≠ blank)).length + 1)))
      (delBlankCall allocations behind ptr) := by
  have noNul : (0 : Byte) ∉ ptr.filter (· ≠ blank) :=
    fun inside => free (List.mem_filter.mp inside).1
  have shorter : (ptr.filter (· ≠ blank)).length < ptr.length :=
    List.length_filter_lt_length_iff_exists.mpr ⟨blank, spaced, by simp⟩
  obtain ⟨left, room⟩ : ∃ left, ptr.length - (ptr.filter (· ≠ blank)).length = left + 1 :=
    ⟨ptr.length - (ptr.filter (· ≠ blank)).length - 1, by omega⟩
  have squeezed := squeeze_returns ptr [] ptr.length (Nat.le_of_lt shorter)
  have copied := strcpy_returns (List.replicate left 0 ++ behind) noNul []
    (List.replicate ptr.length 0) (by simpa using shorter)
  rw [room, List.replicate_succ] at squeezed
  rw [delBlankCall, if_pos buf]
  apply returns_bind squeezed
  rw [if_pos ret]
  simp only [List.nil_append, List.append_assoc, List.cons_append, List.length_nil] at *
  exact returns_bind copied (returns_pure _)

omit buf ret in
theorem del_blank_to_list : (delBlank text).toList = text.toList.filter (· ≠ ' ') :=
  String.toList_ofList

/-- The call returns the text that the replies are modelled with. -/
theorem del_blank_returns (free : '\x00' ∉ text.toList) (spaced : ' ' ∈ text.toList) :
    ∃ bytes, Returns Write.Inside (some bytes) (delBlankOf allocations behind text) ∧
      0 ∈ bytes ∧ cString bytes = utf8Bytes (delBlank text).toList := by
  have noNul := mt (nul_mem_bytes text.toList).mp free
  refine ⟨_, del_blank_call_returns behind buf ret noNul ((blank_mem_bytes _).mpr spaced), ?_, ?_⟩
  · exact List.mem_append_right _ List.mem_cons_self
  · rw [cstring_of_terminated (fun inside => noNul (List.mem_filter.mp inside).1), solid_bytes,
      del_blank_to_list]

end Call

/-- For a JSON text the buffers and the value are right exactly when the text has a blank and
no string of it does, unless one of the buffers cannot be had. -/
theorem del_blank_sound_iff (allocations : Allocations) (behind : List Byte) (text : String)
    (terminated : '\x00' ∉ text.toList) (json : (read text.toList).isSome) :
    DelBlankSound allocations behind text ↔
      (allocations.buf = true → allocations.ret = true →
        ' ' ∈ text.toList ∧ ∀ literal ∈ literals text.toList, .plain ' ' ∉ literal) := by
  constructor
  · intro sound buf ret
    obtain ⟨returned, reached, held⟩ := sound.returned
    have spaced : ' ' ∈ text.toList := by
      by_contra solid
      rw [del_blank_overruns behind buf ret terminated solid] at reached
      cases reached
    obtain ⟨bytes, returns, -, same⟩ := del_blank_returns behind buf ret terminated spaced
    rw [returns.2] at reached
    obtain ⟨-, content, held, value⟩ := held bytes (Option.some.inj reached).symm
    obtain rfl := utf8_bytes_injective (same.symm.trans held)
    rw [del_blank_to_list] at value
    exact ⟨spaced, (read_without_blanks_iff json).mp value⟩
  · intro condition
    by_cases both : allocations.buf = true ∧ allocations.ret = true
    · obtain ⟨buf, ret⟩ := both
      obtain ⟨spaced, free⟩ := condition buf ret
      obtain ⟨bytes, returns, ended, same⟩ := del_blank_returns behind buf ret terminated spaced
      refine ⟨returns.1, some bytes, returns.2, ?_⟩
      intro _ equal
      obtain rfl := Option.some.inj equal
      refine ⟨ended, _, same, ?_⟩
      rw [del_blank_to_list]
      exact (read_without_blanks_iff json).mpr free
    · have refused : allocations.buf = false ∨ allocations.ret = false := by
        cases buf : allocations.buf <;> simp_all
      have returns : Returns Write.Inside none (delBlankOf allocations behind text) :=
        del_blank_unallocated behind refused
      exact ⟨returns.1, none, returns.2, by simp⟩

/-- A printed object has a blank before its last brace, so of a reply only the strings are
left to judge. -/
theorem printed_object_spaced (members : List (String × JsonC.JsonObject)) :
    ' ' ∈ JsonC.spacedText (.object members) := by
  rw [JsonC.spacedText]
  exact List.mem_cons_of_mem _ (List.mem_append_right _ List.mem_cons_self)

/-- A blank between the members goes, and the value stays. -/
theorem spaced_object_sound :
    DelBlankSound ⟨true, true⟩ [] "\x7b \"a\": 1 \x7d" := by
  apply (del_blank_sound_iff ⟨true, true⟩ [] _ _ _).mpr
  all_goals decide

/-- A text without a blank fills both buffers, and its NUL byte is written behind `ret`. -/
theorem compact_array_overruns :
    ¬ ∀ (allocations : Allocations) (behind : List Byte) (text : String),
      '\x00' ∉ text.toList → (read text.toList).isSome →
      DelBlankSound allocations behind text := by
  intro always
  have sound := always ⟨true, true⟩ [0] "[1]" (by decide) (by decide)
  have inside := sound.inside ⟨.ret, 3, 3⟩ (by decide)
  exact Nat.lt_irrefl 3 inside

end Gk7102.DelBlank
