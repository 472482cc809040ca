import Gk7102.H264FrameProc
import Gk7102.RecordedCalls

/-!
# What the frame scan reads

`H264GetNALBlock` and `H264FrameProcData` with every byte of the frame they read, every
position they move on to and the argument `*lpuNextPos` is stored through. Positions are
`unsigned int` and wrap. A read past the frame ends the call, as does a scan that does not
come to its end within the frame.
-/

namespace Gk7102.H264Reads

open ByteBlocks H264FrameProc NalUnits RecordedCalls

set_option autoImplicit false

/-- A byte read at an index, how many bytes are copied, a position that is reached, each with
the size of the data, and whether the pointer that is stored through is given. -/
inductive Access where
  | read (index size : Nat)
  | copy (count size : Nat)
  | advance (position size : Nat)
  | storeNextPos (given : Bool)
deriving DecidableEq, Repr

def Access.Allowed : Access → Prop
  | .read index size => index < size
  | .copy count size => count ≤ size
  | .advance position size => position < size
  | .storeNextPos given => given = true

def uintModulus : Nat := 4294967296

def uint (value : Nat) : Nat := value % uintModulus

section Calls

variable (data : List Byte)

def readByte (index : Nat) : Recorded Access Byte := do
  record (.read index data.length)
  match data[index]? with
  | none => fault
  | some byte => pure byte

/-- The bytes from `uInd + ahead` on are compared until one differs. -/
def matchesCode (uInd : Nat) : Nat → List Byte → Recorded Access Bool
  | _, [] => pure true
  | ahead, expected :: rest => do
      let byte ← readByte data (uint (uInd + ahead))
      if byte = expected then matchesCode uInd (ahead + 1) rest else pure false

def codeAt (uInd : Nat) : Recorded Access (Option Nat) := do
  let short ← matchesCode data uInd 0 shortCode
  if short then pure (some 3)
  else do
    let long ← matchesCode data uInd 0 longCode
    pure (if long then some 4 else none)

def scanLoop : (rounds uInd : Nat) → Recorded Access (Option (Nat × Nat))
  | 0, _ => fault
  | rounds + 1, uInd =>
      if uint (uInd + 4) ≤ data.length then do
        let code ← codeAt data uInd
        match code with
        | some length => pure (some (uInd, length))
        | none => do
            record (.advance (uint (uInd + 1)) data.length)
            scanLoop rounds (uint (uInd + 1))
      else pure none

/-- The part for SPS and PPS: the unit is copied up to the next start code. -/
def copyUnit (nalType ind0 room : Nat) : Recorded Access (Option NalBlock) := do
  let ahead ← scanLoop data (data.length + 1) ind0
  let size := (ahead.map Prod.fst).getD data.length
  if room < size then pure none
  else do
    record (.copy size data.length)
    pure (some ⟨nalType, some (data.take size), (ahead.map Prod.fst).getD 0⟩)

/-- `room` is `*lpuNalSize` where the caller passes a buffer, and `nextPos` says whether it
passes `lpuNextPos`. -/
def unitCalls (room : Option Nat) (nextPos : Bool) (ind0 : Nat) :
    Recorded Access (Option NalBlock) := do
  record (.advance ind0 data.length)
  let header ← readByte data ind0
  let nalType := typeOf header
  let block ←
    match room with
    | none => pure (some ⟨nalType, none, ind0⟩)
    | some room =>
        if nalType = nalTypeSps ∨ nalType = nalTypePps then copyUnit data nalType ind0 room
        else pure (some ⟨nalType, none, ind0⟩)
  match block with
  | none => pure none
  | some block => do
      record (.storeNextPos nextPos)
      if nextPos then pure (some block) else fault

def getNalBlockCalls (room : Option Nat) (nextPos : Bool) : Recorded Access (Option NalBlock) := do
  let found ← scanLoop data (data.length + 1) 0
  match found with
  | none => pure none
  | some (position, length) => unitCalls data room nextPos (uint (position + length))

/-- The call that copies a parameter set passes NULL for `lpuNextPos`. -/
def copyNalCalls (old : List Byte) : Recorded Access (List Byte × Nat) := do
  let block ← getNalBlockCalls data (some sizeofData) false
  match block.bind NalBlock.copied with
  | some bytes => pure (store old 0 bytes, bytes.length)
  | none => pure (old, sizeofData)

end Calls

section Frames

variable (cache : Cache) (frame : List Byte)

def procIdrCalls : Recorded Access (Option (List Byte) × Cache) :=
  if cache.sizeSps ≠ 0 ∧ cache.sizePps ≠ 0 then do
    record (.copy frame.length frame.length)
    pure (some (cache.dataSps.take cache.sizeSps ++ (cache.dataPps.take cache.sizePps ++ frame)),
      growBuffer cache (cache.sizeSps + cache.sizePps + frame.length))
  else pure (none, cache)

def procPpsCalls (data : List Byte) : Recorded Access (Option (List Byte) × Cache) := do
  let third ← getNalBlockCalls data none true
  match third with
  | none => do
      let copied ← copyNalCalls data cache.dataPps
      pure (none, { cache with dataPps := copied.1, sizePps := copied.2 })
  | some third => pure (if third.nalType = nalTypeSliceIdr then some frame else none, cache)

def procSpsCalls (data : List Byte) : Recorded Access (Option (List Byte) × Cache) := do
  let second ← getNalBlockCalls data none true
  match second with
  | none => do
      let copied ← copyNalCalls data cache.dataSps
      pure (none, { cache with dataSps := copied.1, sizeSps := copied.2 })
  | some second =>
      if second.nalType = nalTypePps then do
        record (.advance second.nextPos data.length)
        procPpsCalls cache frame (data.drop second.nextPos)
      else pure (none, cache)

def frameProcCalls : Recorded Access (Option (List Byte) × Cache) := do
  let first ← getNalBlockCalls frame none true
  match first with
  | none => pure (some frame, cache)
  | some first =>
      if first.nalType = nalTypeSps then do
        record (.advance first.nextPos frame.length)
        procSpsCalls cache frame (frame.drop first.nextPos)
      else if first.nalType = nalTypeSliceIdr then procIdrCalls cache frame
      else pure (some frame, cache)

/-- The call comes to its end, within the frame and without a store through NULL. -/
structure ReadsSound : Prop where
  allowed : ∀ access ∈ (frameProcCalls cache frame).events, access.Allowed
  ends : (frameProcCalls cache frame).result.isSome

end Frames

/-! ## One scan -/

section Scan

variable {data : List Byte}

theorem uint_of_lt {value : Nat} (small : value < uintModulus) : uint value = value :=
  Nat.mod_eq_of_lt small

theorem read_byte_returns {index : Nat} {byte : Byte} (stands : data[index]? = some byte) :
    Returns Access.Allowed byte (readByte data index) := by
  obtain ⟨inside, -⟩ := List.getElem?_eq_some_iff.mp stands
  have here : Access.Allowed (.read index data.length) := inside
  apply returns_bind (returns_record here)
  rw [stands]
  exact returns_pure byte

theorem read_past {index : Nat} (past : data.length ≤ index) {good : Byte → Prop} :
    ¬ Meets Access.Allowed good (readByte data index) := by
  rw [readByte, meets_bind, meets_record]
  rintro ⟨inside, -⟩
  exact absurd inside (Nat.not_lt_of_le past)

theorem matches_returns (fits : data.length < uintModulus) (uInd ahead : Nat)
    (pattern : List Byte) (inside : uInd + ahead + pattern.length ≤ data.length) :
    Returns Access.Allowed (decide ((data.drop (uInd + ahead)).take pattern.length = pattern))
      (matchesCode data uInd ahead pattern) := by
  induction pattern generalizing ahead with
  | nil =>
      rw [matchesCode]
      simpa using returns_pure true
  | cons expected rest ih =>
      simp only [List.length_cons] at inside
      have below : uInd + ahead < data.length := by omega
      rw [matchesCode, uint_of_lt (Nat.lt_trans below fits), List.drop_eq_getElem_cons below]
      apply returns_bind (read_byte_returns (List.getElem?_eq_getElem below))
      by_cases same : data[uInd + ahead] = expected
      · rw [if_pos same]
        have later := ih (ahead + 1) (by omega)
        simpa [same, Nat.add_assoc] using later
      · have differs : ¬ (data[uInd + ahead] :: data.drop (uInd + ahead + 1)).take
            (expected :: rest).length = expected :: rest := by
          rw [List.length_cons, List.take_succ_cons, List.cons.injEq]
          exact fun both => same both.1
        rw [if_neg same, decide_eq_false differs]
        exact returns_pure false

/-- A comparison that would cross the end of the data is only allowed to fail. -/
theorem matches_crossing (fits : data.length < uintModulus) {uInd ahead : Nat}
    {pattern : List Byte} (start : uInd + ahead ≤ data.length)
    (crosses : data.length < uInd + ahead + pattern.length) {good : Bool → Prop}
    (meets : Meets Access.Allowed good (matchesCode data uInd ahead pattern)) :
    uInd + ahead < data.length ∧ good false := by
  induction pattern generalizing ahead with
  | nil => simp only [List.length_nil] at crosses; omega
  | cons expected rest ih =>
      rw [matchesCode, uint_of_lt (Nat.lt_of_le_of_lt start fits), meets_bind] at meets
      by_cases below : uInd + ahead < data.length
      · refine ⟨below, ?_⟩
        have read := read_byte_returns (List.getElem?_eq_getElem below)
        rw [meets_done ⟨read.1, fun _ _ => trivial⟩ read.2] at meets
        split at meets
        · simp only [List.length_cons] at crosses
          exact (ih (by omega) (by omega) meets).2
        · exact (meets_pure _).mp meets
      · exact absurd meets (read_past (by omega))

def codeLength (tail : List Byte) : Option Nat :=
  if tail.take 3 = shortCode then some 3
  else if tail.take 4 = longCode then some 4
  else none

theorem code_at_returns (fits : data.length < uintModulus) {uInd : Nat}
    (inside : uInd + 4 ≤ data.length) :
    Returns Access.Allowed (codeLength (data.drop uInd)) (codeAt data uInd) := by
  have shortFits : uInd + 0 + shortCode.length ≤ data.length := by
    simp only [shortCode, List.length_cons, List.length_nil]
    omega
  have longFits : uInd + 0 + longCode.length ≤ data.length := by
    simp only [longCode, List.length_cons, List.length_nil]
    omega
  have short := matches_returns fits uInd 0 shortCode shortFits
  have long := matches_returns fits uInd 0 longCode longFits
  rw [Nat.add_zero] at short long
  unfold codeAt codeLength
  apply returns_bind short
  by_cases isShort : (data.drop uInd).take 3 = shortCode
  · have whole : (data.drop uInd).take shortCode.length = shortCode := isShort
    simp only [whole, decide_true, if_true, if_pos isShort]
    exact returns_pure _
  · have whole : ¬ (data.drop uInd).take shortCode.length = shortCode := isShort
    simp only [whole, decide_false, Bool.false_eq_true, if_false, if_neg isShort]
    apply returns_bind long
    simp only [decide_eq_true_eq]
    exact returns_pure _

theorem find_code_drop {uInd : Nat} (inside : uInd + 4 ≤ data.length) :
    findCode (data.drop uInd) =
      match codeLength (data.drop uInd) with
      | some length => some (0, length)
      | none => (findCode (data.drop (uInd + 1))).map fun (position, length) =>
          (position + 1, length) := by
  have below : uInd < data.length := by omega
  have long : ¬ (data[uInd] :: data.drop (uInd + 1)).length < 4 := by
    simp only [List.length_cons, List.length_drop]
    omega
  rw [List.drop_eq_getElem_cons below, find_code_cons, if_neg long]
  unfold codeLength
  by_cases short : (data[uInd] :: data.drop (uInd + 1)).take 3 = shortCode
  · rw [if_pos short, if_pos short]
  · rw [if_neg short, if_neg short]
    by_cases isLong : (data[uInd] :: data.drop (uInd + 1)).take 4 = longCode
    · rw [if_pos isLong, if_pos isLong]
    · rw [if_neg isLong, if_neg isLong]

/-- Near the end of the data a start code is only allowed not to be there, or to be the short
one that ends it. -/
theorem code_at_crossing (fits : data.length < uintModulus) {uInd : Nat}
    (start : uInd ≤ data.length) (crosses : data.length < uInd + 4) {good : Option Nat → Prop}
    (meets : Meets Access.Allowed good (codeAt data uInd)) :
    uInd < data.length ∧ (good none ∨ uInd + 3 = data.length ∧ good (some 3)) := by
  have longLength : longCode.length = 4 := rfl
  have shortLength : shortCode.length = 3 := rfl
  rw [codeAt, meets_bind] at meets
  have behind : ∀ {short : Bool}, short = false →
      Meets Access.Allowed good
        (if short = true then pure (some 3)
          else do
            let long ← matchesCode data uInd 0 longCode
            pure (if long then some 4 else none)) → uInd < data.length ∧ good none := by
    rintro _ rfl later
    rw [if_neg (by decide), meets_bind] at later
    obtain ⟨below, last⟩ := matches_crossing fits (by simpa using start)
      (by rw [longLength]; omega) later
    exact ⟨below, (meets_pure _).mp last⟩
  by_cases room : uInd + 3 = data.length
  · have read := matches_returns fits uInd 0 shortCode (by rw [shortLength]; omega)
    rw [meets_done ⟨read.1, fun _ _ => trivial⟩ read.2] at meets
    cases isShort : decide (List.take shortCode.length (data.drop (uInd + 0)) = shortCode) with
    | false =>
        rw [isShort] at meets
        have last := behind rfl meets
        exact ⟨last.1, .inl last.2⟩
    | true =>
        rw [isShort, if_pos rfl, meets_pure] at meets
        exact ⟨by omega, .inr ⟨room, meets⟩⟩
  · by_cases below : uInd + 3 < data.length
    · omega
    · obtain ⟨inside, last⟩ := matches_crossing fits (by simpa using start)
        (by rw [shortLength]; omega) meets
      exact ⟨inside, .inl (behind rfl last).2⟩

theorem find_code_few {tail : List Byte} (few : tail.length < 4) : findCode tail = none := by
  cases tail with
  | nil => rfl
  | cons byte rest => rw [find_code_cons, if_pos few]

theorem find_code_within {tail : List Byte} {position length : Nat}
    (found : findCode tail = some (position, length)) : position + length ≤ tail.length := by
  induction tail generalizing position with
  | nil => cases found
  | cons byte rest ih =>
      rw [find_code_cons] at found
      split_ifs at found
      · cases found
        simp only [List.length_cons] at *
        omega
      · cases found
        simp only [List.length_cons] at *
        omega
      · obtain ⟨⟨earlier, count⟩, inside, same⟩ := Option.map_eq_some_iff.mp found
        cases same
        have bound := ih inside
        simp only [List.length_cons]
        omega

/-- Where the scan may stand: at the start, or where the last round was allowed to look. -/
def Reached (data : List Byte) (uInd : Nat) : Prop := uInd = 0 ∨ uInd + 3 ≤ data.length

/-- The scan stays within data that is not as large as an `unsigned int` can say, and within
any data it finds a start code in. -/
theorem scan_returns (fits : data.length < uintModulus) (rounds : Nat) {uInd : Nat}
    (reached : Reached data uInd)
    (bounded : data.length + 1 < uintModulus ∨ (findCode (data.drop uInd)).isSome)
    (enough : data.length < uInd + rounds) (start : uInd ≤ data.length) :
    Returns Access.Allowed
      ((findCode (data.drop uInd)).map fun (position, length) => (uInd + position, length))
      (scanLoop data rounds uInd) := by
  induction rounds generalizing uInd with
  | zero => omega
  | succ rounds ih =>
      rw [scanLoop]
      by_cases inside : uInd + 4 ≤ data.length
      · rw [uint_of_lt (Nat.lt_of_le_of_lt inside fits), if_pos inside,
          find_code_drop inside]
        apply returns_bind (code_at_returns fits inside)
        have found := find_code_drop inside
        cases code : codeLength (data.drop uInd) with
        | some length => exact returns_pure _
        | none =>
            rw [code] at found
            have next : uint (uInd + 1) = uInd + 1 := uint_of_lt (by omega)
            have here : Access.Allowed (.advance (uInd + 1) data.length) :=
              show uInd + 1 < data.length by omega
            simp only [next]
            apply returns_bind (returns_record here)
            have later := @ih (uInd + 1) (.inr (by omega)) (by
              rw [found, Option.isSome_map] at bounded
              exact bounded) (by omega) (by omega)
            have shifted : ((findCode (data.drop (uInd + 1))).map fun (position, length) =>
                (position + 1, length)).map (fun (position, length) => (uInd + position, length)) =
                (findCode (data.drop (uInd + 1))).map fun (position, length) =>
                  (uInd + 1 + position, length) := by
              rw [Option.map_map]
              congr 1
              funext place
              simp only [Function.comp, Prod.mk.injEq, and_true]
              omega
            rw [shifted]
            exact later
      · have few : findCode (data.drop uInd) = none := by
          apply find_code_few
          rw [List.length_drop]
          omega
        have small : data.length + 1 < uintModulus := by
          rcases bounded with small | found
          · exact small
          · rw [few] at found
            cases found
        have past : ¬ uint (uInd + 4) ≤ data.length := by
          have wrapless : uInd + 4 < uintModulus := by
            rcases reached with rfl | inside
            · decide
            · omega
          rw [uint_of_lt wrapless]
          exact inside
        rw [if_neg past, few]
        exact returns_pure none

/-- The scan has found a code that data follows. -/
def FoundInside (data : List Byte) : Option (Nat × Nat) → Prop
  | none => True
  | some (position, length) => uint (position + length) < data.length

/-- Data as large as an `unsigned int` can say, without a start code, is left. -/
theorem scan_leaves (full : data.length + 1 = uintModulus) (rounds : Nat) {uInd : Nat}
    (unfound : findCode (data.drop uInd) = none) (enough : data.length < uInd + rounds)
    (start : uInd ≤ data.length) :
    ¬ Meets Access.Allowed (FoundInside data) (scanLoop data rounds uInd) := by
  have fits : data.length < uintModulus := by omega
  induction rounds generalizing uInd with
  | zero => omega
  | succ rounds ih =>
      have always : uint (uInd + 4) ≤ data.length := by
        have below : uint (uInd + 4) < uintModulus := Nat.mod_lt _ (by decide)
        omega
      rw [scanLoop, if_pos always, meets_bind]
      intro meets
      have next : uInd + 1 ≤ data.length → findCode (data.drop (uInd + 1)) = none →
          ¬ Meets Access.Allowed (FoundInside data) (do
            record (.advance (uint (uInd + 1)) data.length)
            scanLoop data rounds (uint (uInd + 1))) := by
        intro inside later
        rw [meets_bind, meets_record, uint_of_lt (by omega)]
        rintro ⟨-, rest⟩
        exact ih later (by omega) inside rest
      by_cases inside : uInd + 4 ≤ data.length
      · have read := code_at_returns fits inside
        rw [meets_done ⟨read.1, fun _ _ => trivial⟩ read.2] at meets
        have found := find_code_drop inside
        cases code : codeLength (data.drop uInd) with
        | some length =>
            rw [code, unfound] at found
            cases found
        | none =>
            rw [code] at meets found
            rw [unfound] at found
            exact next (by omega) (Option.map_eq_none_iff.mp found.symm) meets
      · obtain ⟨below, allowed⟩ := code_at_crossing fits start (by omega) meets
        rcases allowed with passed | ⟨last, short⟩
        · have few : findCode (data.drop (uInd + 1)) = none := by
            apply find_code_few
            rw [List.length_drop]
            omega
          exact next below few passed
        · have insideData : FoundInside data (some (uInd, 3)) := (meets_pure _).mp short
          have followed : uint (uInd + 3) < data.length := insideData
          rw [uint_of_lt (by omega)] at followed
          omega

end Scan

/-! ## One block -/

/-- The start code that is found first is not the end of the data, and there is one where the
data is as large as an `unsigned int` can say. -/
structure Bounded (data : List Byte) : Prop where
  ends : findCode data = none → data.length + 1 ≠ uintModulus
  followed : ∀ position length, findCode data = some (position, length) →
    position + length < data.length

section Blocks

variable {data : List Byte} (fits : data.length < uintModulus)

include fits

omit fits in
theorem unit_meets {ind0 : Nat} {good : Option NalBlock → Prop} :
    Meets Access.Allowed good (unitCalls data none true ind0) ↔
      ind0 < data.length ∧ good (some ⟨typeOf ((data ++ [0]).getD ind0 0), none, ind0⟩) := by
  rw [unitCalls, meets_bind, meets_record]
  apply and_congr_right
  intro (inside : ind0 < data.length)
  have stands := List.getElem?_eq_getElem inside
  have read := read_byte_returns stands
  have header : (data ++ [0]).getD ind0 0 = data[ind0] := by
    rw [List.getD_eq_getElem?_getD, List.getElem?_append_left inside, stands, Option.getD_some]
  rw [meets_bind, meets_done ⟨read.1, fun _ _ => trivial⟩ read.2, header]
  simp [meets_bind, Access.Allowed]

theorem get_nal_block_meets {good : Option NalBlock → Prop} :
    Meets Access.Allowed good (getNalBlockCalls data none true) ↔
      Bounded data ∧ good (getNalBlock data 0 none) := by
  rw [getNalBlockCalls, meets_bind]
  by_cases small : data.length + 1 < uintModulus ∨ (findCode data).isSome = true
  · have scanned := scan_returns fits (data.length + 1) (.inl rfl) (by simpa using small)
      (by omega) (Nat.zero_le _)
    rw [meets_done ⟨scanned.1, fun _ _ => trivial⟩ scanned.2, getNalBlock, List.drop_zero]
    cases found : findCode data with
    | none =>
        have bounded : Bounded data := by
          refine ⟨fun _ => ?_, fun position length stands => ?_⟩
          · rw [found] at small
            simp only [Option.isSome_none, Bool.false_eq_true, or_false] at small
            omega
          · rw [found] at stands
            cases stands
        simp [bounded]
    | some place =>
        obtain ⟨position, length⟩ := place
        have followed : Bounded data ↔ position + length < data.length := by
          constructor
          · exact fun bounded => bounded.followed position length found
          · intro inside
            refine ⟨fun none_found => ?_, fun other count stands => ?_⟩
            · rw [found] at none_found
              cases none_found
            · rw [found] at stands
              cases stands
              exact inside
        have within := find_code_within found
        rw [followed]
        simp only [Option.map_some, Nat.zero_add, Option.bind_some]
        rw [uint_of_lt (Nat.lt_of_le_of_lt within fits)]
        exact unit_meets
  · have unfound : findCode data = none := by
      cases found : findCode data with
      | none => rfl
      | some place => simp [found] at small
    have full : data.length + 1 = uintModulus := by omega
    constructor
    · intro meets
      apply absurd _ (scan_leaves full (data.length + 1)
        (by rw [List.drop_zero, unfound]) (by omega) (Nat.zero_le _))
      apply meets_mono _ meets
      rintro (_ | ⟨position, length⟩) rest
      · trivial
      · exact (unit_meets.mp rest).1
    · rintro ⟨bounded, -⟩
      exact absurd full (bounded.ends unfound)

theorem copy_nal_returns (unfound : findCode data = none) (small : data.length + 1 < uintModulus)
    (old : List Byte) :
    Returns Access.Allowed (copyNal data 0 old) (copyNalCalls data old) := by
  have scanned := scan_returns fits (data.length + 1) (.inl rfl) (.inl small)
    (by omega) (Nat.zero_le _)
  rw [List.drop_zero, unfound] at scanned
  have noBlock : getNalBlock data 0 none = none := by
    rw [getNalBlock, unfound]
    rfl
  have copied := copy_nal_nothing noBlock old
  rw [copied, copyNalCalls]
  have block : Returns Access.Allowed none (getNalBlockCalls data (some sizeofData) false) :=
    returns_bind scanned (returns_pure none)
  apply returns_bind block
  exact returns_pure _

end Blocks

/-! ## Whole frames -/

def unitBehind (data : List Byte) : Option (Nat × List Byte) :=
  (findCode data).map fun (position, length) =>
    (typeOf ((data.drop (position + length)).headD 0), data.drop (position + length))

/-- The start codes that are met one after the other, of the frame, behind an SPS and behind
the PPS that follows it, are none of them the end of the frame. -/
def Clear (frame : List Byte) : Prop :=
  Bounded frame ∧ ∀ sps, unitBehind frame = some (nalTypeSps, sps) →
    Bounded sps ∧ ∀ pps, unitBehind sps = some (nalTypePps, pps) → Bounded pps

theorem unit_behind_of_block {data : List Byte} {block : NalBlock}
    (found : getNalBlock data 0 none = some block) :
    unitBehind data = some (block.nalType, data.drop block.nextPos) := by
  unfold getNalBlock at found
  unfold unitBehind
  obtain ⟨⟨position, length⟩, stands, same⟩ := Option.bind_eq_some_iff.mp found
  rw [stands, Option.map_some, ← Option.some.inj same]
  have header : (data ++ [0]).getD (position + length) 0 =
      (data.drop (position + length)).headD 0 := by
    have within := find_code_within stands
    rw [List.getD_eq_getElem?_getD, ← List.head?_drop, List.drop_append_of_le_length within,
      List.headD_eq_head?_getD]
    cases data.drop (position + length) <;> rfl
  rw [header]

theorem next_pos_inside {data : List Byte} (bounded : Bounded data) {block : NalBlock}
    (found : getNalBlock data 0 none = some block) : block.nextPos < data.length := by
  unfold getNalBlock at found
  obtain ⟨⟨position, length⟩, stands, same⟩ := Option.bind_eq_some_iff.mp found
  rw [← Option.some.inj same]
  exact bounded.followed position length stands

theorem find_code_of_block {data : List Byte} (unfound : getNalBlock data 0 none = none) :
    findCode data = none := by
  cases found : findCode data with
  | none => rfl
  | some place =>
      rw [getNalBlock, found] at unfound
      cases unfound

section Frames

variable (cache : Cache) (frame : List Byte) {data : List Byte}
  (fits : data.length < uintModulus) {good : Option (List Byte) × Cache → Prop}

include fits

theorem proc_pps_meets :
    Meets Access.Allowed good (procPpsCalls cache frame data) ↔
      Bounded data ∧ good (procPps cache ⟨frame, 0⟩ data) := by
  rw [procPpsCalls, meets_bind, get_nal_block_meets fits]
  apply and_congr_right
  intro bounded
  unfold procPps
  cases found : getNalBlock data 0 none with
  | none =>
      have unfound := find_code_of_block found
      have small := bounded.ends unfound
      have copied := copy_nal_returns fits unfound (by omega) cache.dataPps
      rw [meets_bind, meets_done ⟨copied.1, fun _ _ => trivial⟩ copied.2, meets_pure]
  | some third => rw [meets_pure]

theorem proc_sps_meets :
    Meets Access.Allowed good (procSpsCalls cache frame data) ↔
      (Bounded data ∧ ∀ pps, unitBehind data = some (nalTypePps, pps) → Bounded pps) ∧
        good (procSps cache ⟨frame, 0⟩ data) := by
  rw [procSpsCalls, meets_bind, get_nal_block_meets fits, and_assoc]
  apply and_congr_right
  intro bounded
  unfold procSps
  cases found : getNalBlock data 0 none with
  | none =>
      have unfound := find_code_of_block found
      have small := bounded.ends unfound
      have copied := copy_nal_returns fits unfound (by omega) cache.dataSps
      have no_unit : unitBehind data = none := by rw [unitBehind, unfound]; rfl
      rw [meets_bind, meets_done ⟨copied.1, fun _ _ => trivial⟩ copied.2, meets_pure, no_unit]
      simp
  | some second =>
      have behind := unit_behind_of_block found
      have inside := next_pos_inside bounded found
      have shorter : (data.drop second.nextPos).length < uintModulus := by
        rw [List.length_drop]
        omega
      by_cases pps : second.nalType = nalTypePps
      · have here : Access.Allowed (.advance second.nextPos data.length) := inside
        simp only [if_pos pps]
        rw [meets_bind, meets_record, proc_pps_meets cache frame shorter, behind, pps]
        simp [here]
      · simp only [if_neg pps]
        rw [meets_pure, behind]
        simp [pps]

end Frames

/-- The frame scan stays within what is known to be followed, and then does what it is
modelled to do. -/
theorem frame_proc_meets (cache : Cache) {frame : List Byte} (fits : frame.length < uintModulus)
    {good : Option (List Byte) × Cache → Prop} :
    Meets Access.Allowed good (frameProcCalls cache frame) ↔
      Clear frame ∧ good (h264FrameProcData cache ⟨frame, 0⟩) := by
  rw [frameProcCalls, meets_bind, get_nal_block_meets fits, Clear, and_assoc]
  apply and_congr_right
  intro bounded
  unfold h264FrameProcData
  cases found : getNalBlock frame 0 none with
  | none =>
      have no_unit : unitBehind frame = none := by
        rw [unitBehind, find_code_of_block found]
        rfl
      rw [meets_pure, no_unit]
      simp
  | some first =>
      have behind := unit_behind_of_block found
      have inside := next_pos_inside bounded found
      have shorter : (frame.drop first.nextPos).length < uintModulus := by
        rw [List.length_drop]
        omega
      by_cases sps : first.nalType = nalTypeSps
      · have here : Access.Allowed (.advance first.nextPos frame.length) := inside
        simp only [if_pos sps]
        rw [meets_bind, meets_record, proc_sps_meets cache frame shorter, behind, sps]
        simp [here]
      · simp only [if_neg sps]
        rw [behind]
        simp only [Option.some.injEq, Prod.mk.injEq, sps, false_and, false_implies, implies_true,
          true_and]
        by_cases idr : first.nalType = nalTypeSliceIdr
        · rw [if_pos idr, if_pos idr, procIdrCalls, procIdr]
          split
          · rw [meets_bind, meets_record, meets_pure]
            simp [Access.Allowed]
          · rw [meets_pure]
        · rw [if_neg idr, if_neg idr, meets_pure]

/-- Every byte read lies in the frame, every position reached too, and the call ends without
a store through NULL, exactly when the start codes it meets are followed. -/
theorem reads_sound_iff (cache : Cache) (frame : List Byte) (fits : frame.length < uintModulus) :
    ReadsSound cache frame ↔ Clear frame := by
  constructor
  · intro sound
    exact ((frame_proc_meets cache fits).mp ⟨sound.allowed, fun _ _ => trivial⟩).1
  · intro clear
    have meets : Meets Access.Allowed (fun _ => True) (frameProcCalls cache frame) :=
      (frame_proc_meets cache fits).mpr ⟨clear, trivial⟩
    have ends : Ends Access.Allowed (frameProcCalls cache frame) := fun nothing =>
      ((frame_proc_meets cache fits).mp nothing).2
    obtain ⟨outcome, reached, -⟩ := ends_with ends meets
    exact ⟨meets.1, by rw [reached]; rfl⟩

/-- Where it stays within the frame, the call returns what it is modelled to return. -/
theorem frame_proc_result (cache : Cache) {frame : List Byte} (fits : frame.length < uintModulus)
    (clear : Clear frame) :
    (frameProcCalls cache frame).result = some (h264FrameProcData cache ⟨frame, 0⟩) := by
  have ends : Ends Access.Allowed (frameProcCalls cache frame) := fun nothing =>
    ((frame_proc_meets cache fits).mp nothing).2
  obtain ⟨outcome, reached, rfl⟩ := ends_with ends ((frame_proc_meets cache fits).mpr ⟨clear, rfl⟩)
  exact reached

theorem small_idr_reads_sound : ReadsSound cacheInit (streamOf [smallIdr]) := by
  apply (reads_sound_iff cacheInit _ (by decide)).mpr
  refine ⟨⟨by decide, ?_⟩, ?_⟩
  · intro position length found
    cases found
    decide
  · intro sps behind
    cases behind

/-- A frame that ends with a long start code: the type of the unit is read behind it. -/
theorem last_code_read_past :
    ¬ ∀ (cache : Cache) (frame : List Byte), frame.length < uintModulus →
      ReadsSound cache frame := by
  intro always
  have sound := always cacheInit longCode (by decide)
  have inside := sound.allowed (.read 4 4) (by decide)
  exact Nat.lt_irrefl 4 inside

end Gk7102.H264Reads
