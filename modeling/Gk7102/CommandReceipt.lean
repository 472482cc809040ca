import Gk7102.CommandDelivery

/-!
# Receipt of commands

`recv_cmd` on a stream cut anywhere: the block it allocates, the bytes it stores there
and what it returns. The size of the block is the prefix as a `size_t`, and the second
`recv` asks for the prefix less four, computed without a sign.
-/

namespace Gk7102.CommandReceipt

open ByteBlocks PlayerCommand SocketCalls

set_option autoImplicit false

/-- The block of `malloc`, the offsets and lengths of all stores to it, and the command
returned. Nothing is read from the block. -/
structure Receipt where
  blockSize : Nat
  stores : List (Nat × Nat)
  cmd : Option (List Byte)
deriving DecidableEq, Repr

def noBlock : Receipt := ⟨0, [], none⟩

/-- `total_size - sizeof(total_size)`. -/
def restSize (totalSize : BitVec 32) : BitVec 32 := totalSize - 4

/-- The part after the first `recv`. `later` is what the stream still holds. -/
def recvRest (totalSize : BitVec 32) (second : CallOutcome) (later : List Byte) : Receipt :=
  let body := second.received (restSize totalSize).toNat later
  ⟨totalSize.toNat, [(0, 4), (4, body.length)],
    if second.ret body.length = restSize totalSize then some (encodeWord totalSize ++ body)
    else none⟩

/-- `first` and `second` are the outcomes of the two `recv` calls, and `allocates` says for
which sizes `malloc` finds memory. -/
def recvCmd (allocates : Nat → Bool) (first second : CallOutcome) (stream : List Byte) : Receipt :=
  let head := first.received 4 stream
  if first.ret head.length ≠ 4 then noBlock
  else
    let totalSize := decodeWord head
    if allocates totalSize.toNat then recvRest totalSize second (first.remaining 4 stream)
    else noBlock

/-- Every store stays inside the block. -/
def Receipt.InBounds (receipt : Receipt) : Prop :=
  ∀ access ∈ receipt.stores, access.1 + access.2 ≤ receipt.blockSize

/-- A returned command has a whole header, and its bytes are the first of the stream. -/
def Receipt.CameFrom (receipt : Receipt) (stream : List Byte) : Prop :=
  ∀ cmd ∈ receipt.cmd, (sizeofPlayerCommand : Int) ≤ (commandTotalSize cmd).toInt ∧
    cmd.length = (commandTotalSize cmd).toNat ∧ cmd <+: stream

def Receipt.Contained (receipt : Receipt) (stream : List Byte) : Prop :=
  receipt.InBounds ∧ receipt.CameFrom stream

/-- The prefix leaves room for itself, and if it is too small for a header, as a signed
number, the body does not arrive as long as the prefix says. -/
def PrefixTolerated (totalSize : BitVec 32) (second : CallOutcome) (later : List Byte) : Prop :=
  4 ≤ totalSize.toNat ∧
    (totalSize.toInt < sizeofPlayerCommand →
      second.ret (second.received (restSize totalSize).toNat later).length ≠ restSize totalSize)

theorem rest_size_toNat {totalSize : BitVec 32} (room : 4 ≤ totalSize.toNat) :
    (restSize totalSize).toNat = totalSize.toNat - 4 := by
  rw [restSize]
  have below := totalSize.isLt
  bv_omega

theorem rest_size_ne {totalSize : BitVec 32} (room : 4 ≤ totalSize.toNat) :
    restSize totalSize ≠ -1 := by
  intro same
  have value := rest_size_toNat room
  rw [same] at value
  have below := totalSize.isLt
  have ones : (-1 : BitVec 32).toNat = 4294967295 := by decide
  omega

theorem total_size_of_block (totalSize : BitVec 32) (body : List Byte) :
    commandTotalSize (encodeWord totalSize ++ body) = totalSize := by
  rw [commandTotalSize, totalSizeAt, load_front body (encode_word_length totalSize),
    decode_word_encode]

/-- With room for the prefix both stores are in bounds, whatever arrives. -/
theorem recv_rest_in_bounds (totalSize : BitVec 32) (second : CallOutcome) (later : List Byte) :
    (recvRest totalSize second later).InBounds ↔ 4 ≤ totalSize.toNat := by
  constructor
  · intro inside
    exact inside (0, 4) (by simp [recvRest])
  · intro room access member
    have stored := received_length_le second (restSize totalSize).toNat later
    have rest := rest_size_toNat room
    simp only [recvRest, List.mem_cons, List.not_mem_nil, or_false] at member
    rcases member with rfl | rfl
    · exact room
    · dsimp only [recvRest]
      omega

section Rest

variable {totalSize : BitVec 32} {second : CallOutcome} {later : List Byte}

theorem body_length (room : 4 ≤ totalSize.toNat)
    (whole : second.ret (second.received (restSize totalSize).toNat later).length =
      restSize totalSize) :
    (second.received (restSize totalSize).toNat later).length = totalSize.toNat - 4 := by
  obtain ⟨more, rfl⟩ := ret_received_moved second _ later (rest_size_ne room) whole
  have stored := received_length_le (.moved more) (restSize totalSize).toNat later
  have below := (restSize totalSize).isLt
  have value := congrArg BitVec.toNat whole
  rw [CallOutcome.ret, BitVec.toNat_ofNat, Nat.mod_eq_of_lt (by omega)] at value
  rw [value, rest_size_toNat room]

/-- A command is returned only when the body came as long as the prefix says. -/
theorem recv_rest_came_from (room : 4 ≤ totalSize.toNat) :
    (recvRest totalSize second later).CameFrom (encodeWord totalSize ++ later) ↔
      (totalSize.toInt < sizeofPlayerCommand →
        second.ret (second.received (restSize totalSize).toNat later).length ≠
          restSize totalSize) := by
  rw [Receipt.CameFrom, recvRest]
  by_cases whole : second.ret (second.received (restSize totalSize).toNat later).length =
      restSize totalSize
  · simp only [if_pos whole, Option.mem_def, Option.some.injEq, forall_eq', total_size_of_block]
    constructor
    · intro returned small
      exact absurd returned.1 (by omega)
    · intro tolerated
      refine ⟨?_, ?_, ?_⟩
      · by_contra small
        exact tolerated (by omega) whole
      · rw [List.length_append, encode_word_length, body_length room whole]
        omega
      · apply (List.prefix_append_right_inj _).mpr
        exact received_starts second _ later
  · apply iff_of_true
    · simp only [if_neg whole]
      intro cmd member
      exact absurd member (by simp)
    · intro small
      exact whole

theorem recv_rest_contained :
    (recvRest totalSize second later).Contained (encodeWord totalSize ++ later) ↔
      PrefixTolerated totalSize second later := by
  rw [Receipt.Contained, recv_rest_in_bounds, PrefixTolerated]
  apply and_congr_right
  intro room
  exact recv_rest_came_from room

end Rest

theorem no_block_contained (stream : List Byte) : noBlock.Contained stream :=
  ⟨fun _ member => absurd member List.not_mem_nil,
    fun _ member => absurd member (by simp [noBlock])⟩

/-- A first `recv` returns 4 when it stored four bytes. -/
theorem ret_head (first : CallOutcome) (stream : List Byte) :
    first.ret (first.received 4 stream).length = 4 ↔ (first.received 4 stream).length = 4 := by
  cases first with
  | failed errno => exact iff_of_false (by simp [CallOutcome.ret]) (by simp [CallOutcome.received])
  | moved more =>
      have stored := received_length_le (.moved more) 4 stream
      generalize (CallOutcome.received 4 stream (.moved more)).length = count at stored
      rw [CallOutcome.ret]
      constructor
      · intro same
        have value := congrArg BitVec.toNat same
        rw [BitVec.toNat_ofNat, Nat.mod_eq_of_lt (by omega)] at value
        exact value
      · intro same
        rw [same]
        rfl

/-- The four bytes of the prefix arrive in the first `recv` and `malloc` finds memory:
then the prefix is tolerated. -/
def StreamTolerated (allocates : Nat → Bool) (first second : CallOutcome) (stream : List Byte) :
    Prop :=
  (first.received 4 stream).length = 4 →
    allocates (decodeWord (first.received 4 stream)).toNat = true →
      PrefixTolerated (decodeWord (first.received 4 stream)) second (first.remaining 4 stream)

/-- `recv_cmd` keeps to its block and to the stream exactly for the tolerated prefixes. -/
theorem recv_cmd_contained_iff (allocates : Nat → Bool) (first second : CallOutcome)
    (stream : List Byte) :
    (recvCmd allocates first second stream).Contained stream ↔
      StreamTolerated allocates first second stream := by
  rw [recvCmd, StreamTolerated]
  by_cases whole : (first.received 4 stream).length = 4
  · rw [if_neg (not_not_intro ((ret_head first stream).mpr whole))]
    by_cases room : allocates (decodeWord (first.received 4 stream)).toNat = true
    · have split := received_append_remaining first 4 stream
      have reencoded := encode_word_decode whole
      simp only [room, whole, if_true, forall_const]
      rw [← recv_rest_contained, reencoded, split]
    · apply iff_of_true
      · simp only [room]
        exact no_block_contained stream
      · intro arrived found
        exact absurd found room
  · rw [if_pos (mt (ret_head first stream).mp whole)]
    apply iff_of_true (no_block_contained stream)
    intro arrived
    exact absurd arrived whole

/-- A prefix of 2 makes the block two bytes long, and `cmd->total_size` is stored past it. -/
theorem small_prefix_overruns_block :
    ¬ ∀ (allocates : Nat → Bool) (first second : CallOutcome) (stream : List Byte),
      (recvCmd allocates first second stream).Contained stream := by
  intro always
  have contained := always (fun _ => true) (.moved 3) (.moved 3) [2, 0, 0, 0]
  have inside := contained.1 (0, 4) (by decide)
  exact absurd inside (by decide)

/-- When neither `recv` is cut short and there is memory, this is the reader of whole
commands. -/
theorem recv_cmd_of_whole_reads {more : Nat} {totalSize : BitVec 32} {body : List Byte}
    (rest : List Byte) (room : 4 ≤ totalSize.toNat) (size : body.length = totalSize.toNat - 4)
    (uncut : body.length ≤ more + 1) :
    (recvCmd (fun _ => true) (.moved 3) (.moved more)
        (encodeWord totalSize ++ (body ++ rest))).cmd =
      (PlayerCommand.recvCmd (encodeWord totalSize ++ (body ++ rest))).map Prod.fst := by
  have prefixSize := encode_word_length totalSize
  have restCount := rest_size_toNat room
  have head : CallOutcome.received 4 (encodeWord totalSize ++ (body ++ rest)) (.moved 3) =
      encodeWord totalSize := List.take_left' prefixSize
  have later : CallOutcome.remaining 4 (encodeWord totalSize ++ (body ++ rest)) (.moved 3) =
      body ++ rest := by
    rw [CallOutcome.remaining, head, prefixSize]
    exact List.drop_left' prefixSize
  have stored : CallOutcome.received (restSize totalSize).toNat (body ++ rest) (.moved more) =
      body := by
    rw [CallOutcome.received, restCount, ← size, Nat.min_eq_right uncut]
    exact List.take_left' rfl
  have returned : CallOutcome.ret body.length (.moved more) = restSize totalSize := by
    rw [CallOutcome.ret, size, ← restCount, BitVec.ofNat_toNat, BitVec.setWidth_eq]
  have wholeBody : body.length = (restSize totalSize).toNat := by
    rw [size, restCount]
  rw [recvCmd, head, later, decode_word_encode, if_neg (by simp [CallOutcome.ret]), if_pos rfl,
    recvRest, stored, if_pos returned, PlayerCommand.recvCmd, recv_append prefixSize]
  simp only [Option.bind_some, decode_word_encode]
  rw [show totalSize - 4 = restSize totalSize from rfl, recv_append wholeBody]
  rfl

end Gk7102.CommandReceipt
