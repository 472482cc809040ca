import Gk7102.NalUnits

/-!
# SPS and PPS for frames that come without them

`H264FrameProcData` is meant to keep the last SPS and PPS it was fed and to put them in
front of a frame that begins with an IDR slice. Both copies into the cache scan the data
behind the start code that was already found, so they find none. Allocations succeed.
-/

namespace Gk7102.H264FrameProc

open ByteBlocks NalUnits

set_option autoImplicit false

def nalTypeSliceIdr : Nat := 5
def nalTypeSps : Nat := 7
def nalTypePps : Nat := 8

def typeOf (header : Byte) : Nat := (header &&& 0x1F).toNat

/-- A frame and the byte that follows it in memory, which is read when the frame ends
with a start code of four bytes. -/
structure Frame where
  bytes : List Byte
  beyond : Byte
deriving DecidableEq, Repr

/-- `pucDataFrm` is the size of the block it points to. -/
structure Cache where
  dataSps : List Byte
  sizeSps : Nat
  dataPps : List Byte
  sizePps : Nat
  pucDataFrm : Option Nat
  sizeFrm : Nat
deriving DecidableEq, Repr

def sizeofData : Nat := 128

def cacheInit : Cache :=
  ⟨List.replicate sizeofData 0, 0, List.replicate sizeofData 0, 0, none, 0⟩

/-- What a successful `H264GetNALBlock` reports; `copied` is what went to `lpucNalData`. -/
structure NalBlock where
  nalType : Nat
  copied : Option (List Byte)
  nextPos : Nat
deriving DecidableEq, Repr

/-- `room` is `*lpuNalSize` where the caller passes a buffer. -/
def getNalBlock (data : List Byte) (beyond : Byte) (room : Option Nat) : Option NalBlock :=
  (findCode data).bind fun (position, length) =>
    let ind0 := position + length
    let nalType := typeOf ((data ++ [beyond]).getD ind0 0)
    match room with
    | none => some ⟨nalType, none, ind0⟩
    | some room =>
        if nalType = nalTypeSps ∨ nalType = nalTypePps then
          let ind1 := (findCode (data.drop ind0)).map fun (ahead, _) => ind0 + ahead
          let size := ind1.getD data.length
          if room < size then none else some ⟨nalType, some (data.take size), ind1.getD 0⟩
        else some ⟨nalType, none, ind0⟩

/-- The call that copies a parameter set: its result is ignored, and the size it was given
is what is kept unless something was copied. -/
def copyNal (data : List Byte) (beyond : Byte) (old : List Byte) : List Byte × Nat :=
  match (getNalBlock data beyond (some sizeofData)).bind NalBlock.copied with
  | some bytes => (store old 0 bytes, bytes.length)
  | none => (old, sizeofData)

def roundUp (size : Nat) : Nat := if size % 1024 ≠ 0 then (size / 1024 + 1) * 1024 else size

def growBuffer (cache : Cache) (size : Nat) : Cache :=
  let cache :=
    if cache.sizeFrm < roundUp size ∧ cache.pucDataFrm ≠ none then
      { cache with pucDataFrm := none, sizeFrm := 0 }
    else cache
  if cache.pucDataFrm = none then
    { cache with pucDataFrm := some (roundUp size), sizeFrm := roundUp size }
  else cache

/-- The first unit is an IDR slice. -/
def procIdr (cache : Cache) (frame : Frame) : Option (List Byte) × Cache :=
  if cache.sizeSps ≠ 0 ∧ cache.sizePps ≠ 0 then
    (some (cache.dataSps.take cache.sizeSps ++ (cache.dataPps.take cache.sizePps ++ frame.bytes)),
      growBuffer cache (cache.sizeSps + cache.sizePps + frame.bytes.length))
  else (none, cache)

/-- Behind the start code of a PPS that follows an SPS. -/
def procPps (cache : Cache) (frame : Frame) (data : List Byte) : Option (List Byte) × Cache :=
  match getNalBlock data frame.beyond none with
  | none =>
      let (bytes, size) := copyNal data frame.beyond cache.dataPps
      (none, { cache with dataPps := bytes, sizePps := size })
  | some third => (if third.nalType = nalTypeSliceIdr then some frame.bytes else none, cache)

/-- Behind the start code of an SPS that comes first. -/
def procSps (cache : Cache) (frame : Frame) (data : List Byte) : Option (List Byte) × Cache :=
  match getNalBlock data frame.beyond none with
  | none =>
      let (bytes, size) := copyNal data frame.beyond cache.dataSps
      (none, { cache with dataSps := bytes, sizeSps := size })
  | some second =>
      if second.nalType = nalTypePps then procPps cache frame (data.drop second.nextPos)
      else (none, cache)

/-- The bytes returned with their length; NULL is `none`. -/
def h264FrameProcData (cache : Cache) (frame : Frame) : Option (List Byte) × Cache :=
  match getNalBlock frame.bytes frame.beyond none with
  | none => (some frame.bytes, cache)
  | some first =>
      if first.nalType = nalTypeSps then procSps cache frame (frame.bytes.drop first.nextPos)
      else if first.nalType = nalTypeSliceIdr then procIdr cache frame
      else (some frame.bytes, cache)

/-! ## What the cache ever holds -/

/-- A parameter set is only copied from data in which no start code was found, so nothing
is copied. -/
theorem copy_nal_nothing {data : List Byte} {beyond : Byte}
    (unfound : getNalBlock data beyond none = none) (old : List Byte) :
    copyNal data beyond old = (old, sizeofData) := by
  have none_found : findCode data = none := by
    cases found : findCode data with
    | none => rfl
    | some place =>
        rw [getNalBlock, found] at unfound
        cases unfound
  rw [copyNal, getNalBlock, none_found]
  rfl

/-- The parameter sets are as `H264_FRAME_PROC_CACHE_INIT` left them, whatever their sizes say. -/
structure Blank (cache : Cache) : Prop where
  sps : cache.dataSps = List.replicate sizeofData 0
  pps : cache.dataPps = List.replicate sizeofData 0
  size_sps : cache.sizeSps = 0 ∨ cache.sizeSps = sizeofData
  size_pps : cache.sizePps = 0 ∨ cache.sizePps = sizeofData

theorem blank_init : Blank cacheInit := ⟨rfl, rfl, .inl rfl, .inl rfl⟩

theorem blank_grow_buffer {cache : Cache} (blank : Blank cache) (size : Nat) :
    Blank (growBuffer cache size) := by
  unfold growBuffer
  simp only
  split <;> split <;> exact ⟨blank.sps, blank.pps, blank.size_sps, blank.size_pps⟩

theorem blank_proc_pps {cache : Cache} (blank : Blank cache) (frame : Frame)
    (data : List Byte) : Blank (procPps cache frame data).2 := by
  rw [procPps]
  split
  · rename_i unfound
    rw [copy_nal_nothing unfound]
    exact ⟨blank.sps, blank.pps, blank.size_sps, .inr rfl⟩
  · exact blank

theorem blank_proc_sps {cache : Cache} (blank : Blank cache) (frame : Frame)
    (data : List Byte) : Blank (procSps cache frame data).2 := by
  rw [procSps]
  split
  · rename_i unfound
    rw [copy_nal_nothing unfound]
    exact ⟨blank.sps, blank.pps, .inr rfl, blank.size_pps⟩
  · split
    · exact blank_proc_pps blank frame _
    · exact blank

theorem blank_frame {cache : Cache} (blank : Blank cache) (frame : Frame) :
    Blank (h264FrameProcData cache frame).2 := by
  rw [h264FrameProcData]
  split
  · exact blank
  split
  · exact blank_proc_sps blank frame _
  split
  · rw [procIdr]
    split
    · exact blank_grow_buffer blank _
    · exact blank
  · exact blank

/-! ## Frames that are units one after the other -/

def nalType (nal : Nal) : Nat := typeOf nal.header

theorem getd_behind (front back : List Byte) (byte : Byte) :
    (front ++ byte :: back).getD front.length 0 = byte := by
  rw [List.getD_eq_getElem?_getD, List.getElem?_append_right (Nat.le_refl _), Nat.sub_self]
  rfl

theorem get_nal_block_first (nal : Nal) (nals : List Nal) (beyond : Byte) :
    getNalBlock (streamOf (nal :: nals)) beyond none =
      some ⟨nalType nal, none, nal.code.length⟩ := by
  have header := getd_behind nal.code (nal.payload ++ streamOf nals ++ [beyond]) nal.header
  have layout : streamOf (nal :: nals) ++ [beyond] =
      nal.code ++ nal.header :: (nal.payload ++ streamOf nals ++ [beyond]) := by
    simp only [streamOf, List.flatMap_cons, Nal.bytes, List.append_assoc, List.cons_append]
  have found : findCode (streamOf (nal :: nals)) = some (0, nal.code.length) := find_code_nal nal _
  rw [getNalBlock, found, Option.bind_some]
  simp only [Nat.zero_add, layout, header]
  rfl

theorem drop_first_code (nal : Nal) (nals : List Nal) :
    (streamOf (nal :: nals)).drop nal.code.length =
      nal.header :: nal.payload ++ streamOf nals := by
  rw [streamOf, List.flatMap_cons, Nal.bytes, List.append_assoc, List.drop_left]
  rfl

theorem get_nal_block_last (nal : Nal) (beyond : Byte) :
    getNalBlock (nal.header :: nal.payload ++ streamOf []) beyond none = none := by
  rw [getNalBlock, find_code_next]
  rfl

theorem get_nal_block_next (nal next : Nal) (nals : List Nal) (beyond : Byte) :
    ∃ position, getNalBlock (nal.header :: nal.payload ++ streamOf (next :: nals)) beyond none =
        some ⟨nalType next, none, position⟩ ∧
      (nal.header :: nal.payload ++ streamOf (next :: nals)).drop position =
        next.header :: next.payload ++ streamOf nals := by
  refine ⟨(nal.header :: nal.payload).length + next.code.length, ?_, ?_⟩
  · have header := getd_behind (nal.header :: nal.payload ++ next.code)
      (next.payload ++ streamOf nals ++ [beyond]) next.header
    have layout : nal.header :: nal.payload ++ streamOf (next :: nals) ++ [beyond] =
        nal.header :: nal.payload ++ next.code ++
          next.header :: (next.payload ++ streamOf nals ++ [beyond]) := by
      simp only [streamOf, List.flatMap_cons, Nal.bytes, List.append_assoc, List.cons_append]
    rw [List.length_append] at header
    rw [getNalBlock, find_code_next, Option.bind_some]
    simp only [layout, header]
    rfl
  · rw [← List.drop_drop, List.drop_left, drop_first_code]

section Output

variable (cache : Cache) (frame : Frame)

theorem output_other {nal : Nal} {nals : List Nal} (parsed : frame.bytes = streamOf (nal :: nals))
    (notSps : nalType nal ≠ nalTypeSps) (notIdr : nalType nal ≠ nalTypeSliceIdr) :
    (h264FrameProcData cache frame).1 = some frame.bytes := by
  have first := get_nal_block_first nal nals frame.beyond
  rw [← parsed] at first
  rw [h264FrameProcData, first]
  simp only [if_neg notSps, if_neg notIdr]

theorem output_idr {nal : Nal} {nals : List Nal} (parsed : frame.bytes = streamOf (nal :: nals))
    (idr : nalType nal = nalTypeSliceIdr) :
    (h264FrameProcData cache frame).1 = (procIdr cache frame).1 := by
  have first := get_nal_block_first nal nals frame.beyond
  rw [← parsed] at first
  have notSps : nalType nal ≠ nalTypeSps := by
    rw [idr]
    decide
  rw [h264FrameProcData, first]
  simp only [if_neg notSps, if_pos idr]

/-- Of the frames that begin with an SPS, only those that go on with a PPS and an IDR slice
are returned. -/
theorem output_sps {nal : Nal} {nals : List Nal} (parsed : frame.bytes = streamOf (nal :: nals))
    (sps : nalType nal = nalTypeSps) :
    (h264FrameProcData cache frame).1 =
      if (nals.map nalType).take 2 = [nalTypePps, nalTypeSliceIdr] then some frame.bytes
      else none := by
  have first := get_nal_block_first nal nals frame.beyond
  have behind := drop_first_code nal nals
  rw [← parsed] at first behind
  rw [h264FrameProcData, first]
  simp only [if_pos sps, behind]
  cases nals with
  | nil =>
      rw [procSps, get_nal_block_last]
      rfl
  | cons second rest =>
      obtain ⟨position, found, behindSecond⟩ := get_nal_block_next nal second rest frame.beyond
      rw [procSps, found]
      simp only [behindSecond]
      cases rest with
      | nil =>
          split
          · rw [procPps, get_nal_block_last]
            simp
          · simp
      | cons third others =>
          obtain ⟨after, last, -⟩ := get_nal_block_next second third others frame.beyond
          split
          · rename_i pps
            rw [procPps, last]
            simp [pps]
          · rename_i notPps
            simp [notPps]

end Output

/-! ## Combined frames and complete frames -/

theorem one_mem_nal (nal : Nal) : (1 : Byte) ∈ nal.bytes := by
  unfold Nal.bytes Nal.code
  cases nal.long <;> simp [shortCode, longCode]

/-- No frame that begins with an IDR slice ever gets parameter sets in front of it: only
zeros are ever put there. -/
theorem idr_never_combined {cache : Cache} (blank : Blank cache) {frame : Frame} {idr : Nal}
    {nals : List Nal} (parsed : frame.bytes = streamOf (idr :: nals))
    (isIdr : nalType idr = nalTypeSliceIdr) {sps pps : Nal}
    (spsFits : sps.bytes.length ≤ sizeofData) (ppsFits : pps.bytes.length ≤ sizeofData) :
    (h264FrameProcData cache frame).1 ≠ some (sps.bytes ++ (pps.bytes ++ frame.bytes)) := by
  rw [output_idr cache frame parsed isIdr, procIdr]
  split
  · rename_i sized
    have sizeSps : cache.sizeSps = sizeofData := blank.size_sps.resolve_left sized.1
    have sizePps : cache.sizePps = sizeofData := blank.size_pps.resolve_left sized.2
    rw [sizeSps, sizePps, blank.sps, blank.pps, List.take_replicate, Nat.min_self]
    intro same
    have combined := Option.some.inj same
    have total := congrArg List.length combined
    simp only [List.length_append, List.length_replicate, sizeofData] at total spsFits ppsFits
    have zeros : List.replicate sizeofData 0 = sps.bytes :=
      (List.append_inj combined (by simp only [List.length_replicate, sizeofData]; omega)).1
    have one : (1 : Byte) ∈ List.replicate sizeofData 0 := by
      rw [zeros]
      exact one_mem_nal sps
    exact absurd (List.eq_of_mem_replicate one) (by decide)
  · simp

def Complete (nals : List Nal) : Prop :=
  ∃ before idr after, nals = before ++ idr :: after ∧ nalType idr = nalTypeSliceIdr ∧
    (∀ nal ∈ before, nalType nal ≠ nalTypeSliceIdr) ∧
    (∃ nal ∈ before, nalType nal = nalTypeSps) ∧ ∃ nal ∈ before, nalType nal = nalTypePps

/-- An SPS that comes first is followed at once by the PPS and the IDR slice. -/
def WellLed (nals : List Nal) : Prop :=
  (nals.map nalType).head? = some nalTypeSps →
    (nals.map nalType).take 3 = [nalTypeSps, nalTypePps, nalTypeSliceIdr]

theorem complete_head {nals : List Nal} (complete : Complete nals) :
    ∃ first rest, nals = first :: rest ∧ nalType first ≠ nalTypeSliceIdr := by
  obtain ⟨before, idr, after, rfl, -, noIdr, ⟨sps, member, -⟩, -⟩ := complete
  cases before with
  | nil => cases member
  | cons first others => exact ⟨first, others ++ idr :: after, rfl, noIdr first (by simp)⟩

/-- A complete frame is passed through exactly when it is well led. -/
theorem complete_passed_iff (cache : Cache) {frame : Frame} {nals : List Nal}
    (parsed : frame.bytes = streamOf nals) (complete : Complete nals) :
    (h264FrameProcData cache frame).1 = some frame.bytes ↔ WellLed nals := by
  obtain ⟨first, rest, rfl, notIdr⟩ := complete_head complete
  by_cases sps : nalType first = nalTypeSps
  · rw [output_sps cache frame parsed sps, WellLed]
    simp [sps]
  · rw [output_other cache frame parsed sps notIdr, WellLed]
    simp [sps]

/-! ## Runs -/

def cacheAfter (frames : List Frame) : Cache :=
  frames.foldl (fun cache frame => (h264FrameProcData cache frame).2) cacheInit

theorem blank_cache_after (frames : List Frame) : Blank (cacheAfter frames) := by
  have every : ∀ cache, Blank cache →
      Blank (frames.foldl (fun cache frame => (h264FrameProcData cache frame).2) cache) := by
    induction frames with
    | nil => exact fun _ blank => blank
    | cons frame rest ih => exact fun cache blank => ih _ (blank_frame blank frame)
  exact every cacheInit blank_init

/-- The units of a frame that is there to feed parameter sets, with no zero bytes between a unit
and the next start code. -/
def Feeds (frame : Frame) (nals : List Nal) : Prop :=
  frame.bytes = streamOf nals ∧
    ∀ nal ∈ nals, nalType nal = nalTypeSps ∨ nalType nal = nalTypePps

/-- The last unit of a type that was fed. -/
def LastFed (kind : Nat) (nal : Nal) (history : List Frame) : Prop :=
  ∃ earlier frame later front back, history = earlier ++ frame :: later ∧
    Feeds frame (front ++ nal :: back) ∧ nalType nal = kind ∧
    (∀ other ∈ back, nalType other ≠ kind) ∧
    ∀ other ∈ later, ∀ nals, Feeds other nals → ∀ unit ∈ nals, nalType unit ≠ kind

/-- Parameter sets that fit in the cache were fed, and the frame begins with an IDR slice. -/
def NeedsSets (history : List Frame) (frame : Frame) (sps pps : Nal) : Prop :=
  LastFed nalTypeSps sps history ∧ LastFed nalTypePps pps history ∧
    sps.bytes.length ≤ sizeofData ∧ pps.bytes.length ≤ sizeofData ∧
    ∃ idr rest, frame.bytes = streamOf (idr :: rest) ∧ nalType idr = nalTypeSliceIdr

structure Served (history : List Frame) (frame : Frame) : Prop where
  combined : ∀ sps pps, NeedsSets history frame sps pps →
    (h264FrameProcData (cacheAfter history) frame).1 =
      some (sps.bytes ++ (pps.bytes ++ frame.bytes))
  passed : ∀ nals, frame.bytes = streamOf nals → Complete nals →
    (h264FrameProcData (cacheAfter history) frame).1 = some frame.bytes

/-- A call that does not depend on what the cache cannot do. -/
structure Spared (history : List Frame) (frame : Frame) : Prop where
  no_sets_needed : ∀ sps pps, ¬ NeedsSets history frame sps pps
  well_led : ∀ nals, frame.bytes = streamOf nals → Complete nals → WellLed nals

theorem served_iff_spared (history : List Frame) (frame : Frame) :
    Served history frame ↔ Spared history frame := by
  have blank := blank_cache_after history
  constructor
  · intro served
    constructor
    · intro sps pps needs
      have combined := served.combined sps pps needs
      obtain ⟨-, -, spsFits, ppsFits, idr, rest, parsed, isIdr⟩ := needs
      exact idr_never_combined blank parsed isIdr spsFits ppsFits combined
    · intro nals parsed complete
      exact (complete_passed_iff _ parsed complete).mp (served.passed nals parsed complete)
  · intro spared
    constructor
    · intro sps pps needs
      exact absurd needs (spared.no_sets_needed sps pps)
    · intro nals parsed complete
      exact (complete_passed_iff _ parsed complete).mpr (spared.well_led nals parsed complete)

/-- A run does what the cache is for exactly when none of its calls needs the cache and all
its complete frames are well led. -/
theorem run_served_iff (frames : List Frame) :
    (∀ history frame, history ++ [frame] <+: frames → Served history frame) ↔
      ∀ history frame, history ++ [frame] <+: frames → Spared history frame := by
  simp only [served_iff_spared]

/-- An SPS, a PPS and an IDR slice of one byte of payload each. -/
def smallSps : Nal := ⟨true, 0x67, [0x42], ⟨by decide, by decide, by decide⟩⟩
def smallPps : Nal := ⟨true, 0x68, [0x42], ⟨by decide, by decide, by decide⟩⟩
def smallIdr : Nal := ⟨true, 0x65, [0x42], ⟨by decide, by decide, by decide⟩⟩

theorem fed_sets_not_combined :
    ¬ ∀ frames history frame, history ++ [frame] <+: frames → Served history frame := by
  intro every
  let sets : Frame := ⟨streamOf [smallSps, smallPps], 0⟩
  let frame : Frame := ⟨streamOf [smallIdr], 0⟩
  have feeds : Feeds sets [smallSps, smallPps] := ⟨rfl, by decide⟩
  have needs : NeedsSets [sets] frame smallSps smallPps := by
    refine ⟨⟨[], sets, [], [], [smallPps], rfl, feeds, rfl, by decide, by simp⟩,
      ⟨[], sets, [], [smallSps], [], rfl, feeds, rfl, by simp, by simp⟩, by decide, by decide,
      smallIdr, [], rfl, rfl⟩
  have served := every ([sets] ++ [frame]) [sets] frame (List.prefix_refl _)
  have combined := served.combined smallSps smallPps needs
  exact absurd combined (by decide)

end Gk7102.H264FrameProc
