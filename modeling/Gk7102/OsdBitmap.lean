import Gk7102.GlyphPaint

/-!
# Bitmap files shown in an area

`osd_function_show_bmp` reads the headers of a bitmap file and, where
`osd_read_bmp_file_header` accepts them, fills the palette and the pixels of an area out of the
file. What is read behind the end of the file leaves the memory as it was. Stores are recorded
with their place, as they may lie outside.
-/

namespace Gk7102.OsdBitmap

open ByteBlocks GlyphPaint

set_option autoImplicit false

abbrev Word := BitVec 32

/-! ## The headers -/

structure BmpHeader where
  bfType : BitVec 16
  bfSize : Word
  bfReserved1 : BitVec 16
  bfReserved2 : BitVec 16
  bfOffBits : Word
deriving DecidableEq, Repr

structure BmpInfoHeader where
  biSize : Word
  biWidth : Word
  biHeight : Word
  biPlanes : BitVec 16
  biBitCount : BitVec 16
  biCompression : Word
  biSizeImage : Word
  biXPelsPerMerer : Word
  biYPelsPerMerer : Word
  biClrUsed : Word
  biClrImportant : Word
deriving DecidableEq, Repr

/-- Reads over what the memory holds, as far as the file goes. -/
def fread (memory file : List Byte) : List Byte × List Byte :=
  (file.take memory.length ++ memory.drop file.length, file.drop memory.length)

def decodeHalf : List Byte → BitVec 16
  | [first, second] => second ++ first
  | _ => 0

def readHalf (file : List Byte) : BitVec 16 × List Byte :=
  let (bytes, rest) := fread [0, 0] file
  (decodeHalf bytes, rest)

def readWord (file : List Byte) : Word × List Byte :=
  let (bytes, rest) := fread [0, 0, 0, 0] file
  (decodeWord bytes, rest)

def readFileHeader (file : List Byte) : BmpHeader × List Byte :=
  let (bfType, file) := readHalf file
  let (bfSize, file) := readWord file
  let (bfReserved1, file) := readHalf file
  let (bfReserved2, file) := readHalf file
  let (bfOffBits, file) := readWord file
  (⟨bfType, bfSize, bfReserved1, bfReserved2, bfOffBits⟩, file)

/-- The structure is read as a whole: 40 bytes. -/
def readInfoHeader (file : List Byte) : BmpInfoHeader × List Byte :=
  let (bytes, rest) := fread (List.replicate 40 0) file
  ({ biSize := decodeWord (load bytes 0 4)
     biWidth := decodeWord (load bytes 4 4)
     biHeight := decodeWord (load bytes 8 4)
     biPlanes := decodeHalf (load bytes 12 2)
     biBitCount := decodeHalf (load bytes 14 2)
     biCompression := decodeWord (load bytes 16 4)
     biSizeImage := decodeWord (load bytes 20 4)
     biXPelsPerMerer := decodeWord (load bytes 24 4)
     biYPelsPerMerer := decodeWord (load bytes 28 4)
     biClrUsed := decodeWord (load bytes 32 4)
     biClrImportant := decodeWord (load bytes 36 4) }, rest)

def osdBitmapfileHeaderSize : Word := 14#32

def osdBitmapinfoHeaderSize : Word := 40#32

def osdBmpFileMagicNo : BitVec 16 := 0x4D42#16

def osdBmpFileBitCount : BitVec 16 := 8#16

def sizeofRgbQuad : Word := 4#32

/-- Why a header is not accepted; each answers -1. -/
inductive BmpRefusal where
  | notBmp
  | bitCount
  | sizeImage (biSizeImage biWidth biHeight : Word)
  | multiples (biWidth biHeight : Word)
  | tooLarge (biSizeImage osdSize : Word)
deriving DecidableEq, Repr

structure BmpSizes where
  width : Word
  height : Word
  size : Word
  colorCount : Word
deriving DecidableEq, Repr

def bmpSizes (fileHeader : BmpHeader) (infoHeader : BmpInfoHeader) : BmpSizes where
  width := infoHeader.biWidth
  height := infoHeader.biHeight
  size := infoHeader.biSizeImage
  colorCount := (fileHeader.bfOffBits - osdBitmapfileHeaderSize - osdBitmapinfoHeaderSize) /
    sizeofRgbQuad

def checkInfoHeader (infoHeader : BmpInfoHeader) (osdSize : Word) : Except BmpRefusal Unit :=
  if osdBmpFileBitCount < infoHeader.biBitCount then .error .bitCount
  else if infoHeader.biSizeImage ≠ infoHeader.biWidth * infoHeader.biHeight then
    .error (.sizeImage infoHeader.biSizeImage infoHeader.biWidth infoHeader.biHeight)
  else if infoHeader.biWidth &&& 0x1F#32 ≠ 0#32 ∨ infoHeader.biHeight &&& 0x3#32 ≠ 0#32 then
    .error (.multiples infoHeader.biWidth infoHeader.biHeight)
  else if osdSize < infoHeader.biSizeImage then
    .error (.tooLarge infoHeader.biSizeImage osdSize)
  else .ok ()

def osdReadBmpFileHeader (file : List Byte) (osdSize : Word) :
    Except BmpRefusal (BmpSizes × List Byte) :=
  let (fileHeader, file) := readFileHeader file
  if fileHeader.bfType ≠ osdBmpFileMagicNo then .error .notBmp
  else
    let (infoHeader, file) := readInfoHeader file
    (checkInfoHeader infoHeader osdSize).map fun _ => (bmpSizes fileHeader infoHeader, file)

/-! ## The display -/

structure YuvClut where
  v : Byte
  u : Byte
  y : Byte
  a : Byte
deriving DecidableEq, Repr

/-- The clut and the area as the driver maps them: their sizes are in bytes. -/
structure AreaMapping where
  clutSize : Word
  areaSize : Word
deriving DecidableEq, Repr

/-- What the pointer to the name of the file leads to. -/
inductive BmpFile where
  | null
  | missing
  | file (bytes : List Byte)
deriving DecidableEq, Repr

structure BmpParams where
  enable : Byte
  bmpFile : BmpFile
  startX : BitVec 16
  startY : BitVec 16
deriving DecidableEq, Repr

structure AreaParams where
  planeId : Byte
  areaId : Byte
  enable : Byte
  width : BitVec 16
  height : BitVec 16
  offsetX : BitVec 16
  offsetY : BitVec 16
deriving DecidableEq, Repr

def RgbQuad.bytes (rgb : RgbQuad) : List Byte := [rgb.b, rgb.g, rgb.r, rgb.a]

def RgbQuad.ofBytes : List Byte → RgbQuad
  | [b, g, r, a] => ⟨b, g, r, a⟩
  | _ => ⟨0, 0, 0, 0⟩

section Loops

variable (osdRgbToYuv : RgbQuad → YuvClut)

/-- The loop over the palette: the entries it stores, and what is left of the file. -/
def fillClut : Nat → Nat → RgbQuad → List Byte → List (Nat × YuvClut) × List Byte
  | 0, _, _, file => ([], file)
  | left + 1, cnt, rgb, file =>
      let (bytes, later) := fread (RgbQuad.bytes rgb) file
      let read := RgbQuad.ofBytes bytes
      let (entries, rest) := fillClut left (cnt + 1) read later
      ((cnt, osdRgbToYuv read) :: entries, rest)

def rowOffset (width height : Word) (cnt : Nat) : Word :=
  (height - 1#32 - BitVec.ofNat 32 cnt) * width

def fillArea (width height : Word) : Nat → Nat → List Byte → List (Nat × List Byte)
  | 0, _, _ => []
  | left + 1, cnt, file =>
      ((rowOffset width height cnt).toNat, file.take width.toNat) ::
        fillArea width height left (cnt + 1) (file.drop width.toNat)

end Loops

/-- What a call stores and hands to the driver, and whether it has cleared the clut and the area
before. -/
structure ShownBmp where
  retVal : Int
  cleared : Bool
  clut : List (Nat × YuvClut)
  area : List (Nat × List Byte)
  areaParams : Option AreaParams
deriving DecidableEq, Repr

/-- The arguments of a call, what the driver answers, the bytes that its variable `rgb` happens
to hold, and the floating point conversion of a colour. -/
structure ShowBmp where
  osdHandle : Bool
  planeId : Int
  areaId : Int
  bmpPars : Option BmpParams
  mapped : Int
  areaMapping : AreaMapping
  paramsSet : Int
  rgb : RgbQuad
  osdRgbToYuv : RgbQuad → YuvClut

def gadiOk : Int := 0

def gadiOsdErrBadParameter : Int := -10001

def osdPlaneNum : Int := 4

def osdAreaNum : Int := 3

section Call

variable (call : ShowBmp)

def ShowBmp.setAreaParams (enable : Byte) (width height offsetX offsetY : BitVec 16)
    (clut : List (Nat × YuvClut)) (area : List (Nat × List Byte)) : ShownBmp where
  retVal := if call.paramsSet ≠ gadiOk then call.paramsSet else gadiOk
  cleared := true
  clut := clut
  area := area
  areaParams := some
    { planeId := BitVec.ofInt 8 call.planeId
      areaId := BitVec.ofInt 8 call.areaId
      enable := enable
      width := width
      height := height
      offsetX := offsetX
      offsetY := offsetY }

def ShowBmp.fill (bmpPars : BmpParams) (sizes : BmpSizes) (file : List Byte) : ShownBmp :=
  let (entries, rest) := fillClut call.osdRgbToYuv sizes.colorCount.toNat 0 call.rgb file
  call.setAreaParams bmpPars.enable (sizes.width.setWidth 16) (sizes.height.setWidth 16)
    bmpPars.startX bmpPars.startY entries
    (fillArea sizes.width sizes.height sizes.height.toNat 0 rest)

def osdFunctionShowBmp : ShownBmp :=
  match call.osdHandle, call.bmpPars with
  | false, _ | _, none => ⟨-1, false, [], [], none⟩
  | true, some bmpPars =>
      if bmpPars.bmpFile = .null then ⟨-1, false, [], [], none⟩
      else if osdPlaneNum ≤ call.planeId ∨ osdAreaNum ≤ call.areaId then
        ⟨-1, false, [], [], none⟩
      else if call.mapped ≠ gadiOk then ⟨call.mapped, false, [], [], none⟩
      else if bmpPars.enable ≠ 0 then
        match bmpPars.bmpFile with
        | .null | .missing => ⟨gadiOsdErrBadParameter, true, [], [], none⟩
        | .file bytes =>
            match osdReadBmpFileHeader bytes call.areaMapping.areaSize with
            | .error _ => ⟨-1, true, [], [], none⟩
            | .ok (sizes, rest) => call.fill bmpPars sizes rest
      else call.setAreaParams bmpPars.enable 0 0 0 0 [] []

end Call

theorem ShowBmp.fill_stores (call : ShowBmp) (bmpPars : BmpParams) (sizes : BmpSizes)
    (file : List Byte) :
    let loop := fillClut call.osdRgbToYuv sizes.colorCount.toNat 0 call.rgb file
    (call.fill bmpPars sizes file).clut = loop.1 ∧
      (call.fill bmpPars sizes file).area =
        fillArea sizes.width sizes.height sizes.height.toNat 0 loop.2 := ⟨rfl, rfl⟩

/-! ## What the loops store -/

section Stores

variable (osdRgbToYuv : RgbQuad → YuvClut)

theorem fill_clut_entries (left : Nat) : ∀ (cnt : Nat) (rgb : RgbQuad) (file : List Byte),
    (fillClut osdRgbToYuv left cnt rgb file).1.map Prod.fst = List.range' cnt left := by
  induction left with
  | zero => exact fun _ _ _ => rfl
  | succ left ih =>
      intro cnt rgb file
      rw [fillClut, List.range'_succ, ← ih (cnt + 1)]
      rfl

/-- Every line that is stored is one of the counted ones, and no longer than the width. -/
theorem fill_area_lines (width height : Word) (left : Nat) : ∀ (cnt : Nat) (file : List Byte),
    ∀ line ∈ fillArea width height left cnt file, line.2.length ≤ width.toNat ∧
      ∃ i, cnt ≤ i ∧ i < cnt + left ∧ line.1 = (rowOffset width height i).toNat := by
  induction left with
  | zero => exact fun _ _ _ member => absurd member List.not_mem_nil
  | succ left ih =>
      intro cnt file line member
      rw [fillArea, List.mem_cons] at member
      rcases member with rfl | member
      · exact ⟨List.length_take_le _ _, cnt, Nat.le_refl _, by omega, rfl⟩
      · obtain ⟨short, i, after, below, place⟩ := ih (cnt + 1) (file.drop width.toNat) line
          member
        exact ⟨short, i, by omega, by omega, place⟩

end Stores

/-! ## Where they lie -/

/-- Entries lie in the clut, and pixels in the area. -/
structure ShownBmp.Inside (shown : ShownBmp) (mapping : AreaMapping) : Prop where
  clut : ∀ entry ∈ shown.clut, 4 * (entry.1 + 1) ≤ mapping.clutSize.toNat
  area : ∀ line ∈ shown.area, ∀ i < line.2.length, line.1 + i < mapping.areaSize.toNat

/-- The products and differences of the sizes are those of the integers. -/
structure SizesExact (fileHeader : BmpHeader) (infoHeader : BmpInfoHeader) : Prop where
  size : (infoHeader.biWidth * infoHeader.biHeight).toNat =
    infoHeader.biWidth.toNat * infoHeader.biHeight.toNat
  behindFileHeader : ((fileHeader.bfOffBits - osdBitmapfileHeaderSize).toNat : Int) =
    fileHeader.bfOffBits.toNat - 14
  behindInfoHeader :
    ((fileHeader.bfOffBits - osdBitmapfileHeaderSize - osdBitmapinfoHeaderSize).toNat : Int) =
      (fileHeader.bfOffBits - osdBitmapfileHeaderSize).toNat - 40
  lines : ∀ cnt < infoHeader.biHeight.toNat,
    ((infoHeader.biHeight - 1#32 - BitVec.ofNat 32 cnt).toNat : Int) =
        infoHeader.biHeight.toNat - 1 - cnt ∧
      ((rowOffset infoHeader.biWidth infoHeader.biHeight cnt).toNat : Int) =
        (infoHeader.biHeight.toNat - 1 - cnt) * infoHeader.biWidth.toNat

/-- The pixels number less than a word can count, and between the headers and the pixels lie no
more colours than the clut has room for. -/
structure SizesFit (fileHeader : BmpHeader) (infoHeader : BmpInfoHeader) (mapping : AreaMapping) :
    Prop where
  size : infoHeader.biWidth.toNat * infoHeader.biHeight.toNat < 4294967296
  offset : 54 ≤ fileHeader.bfOffBits.toNat
  colours : 4 * ((fileHeader.bfOffBits.toNat - 54) / 4) ≤ mapping.clutSize.toNat

section Sizes

variable {fileHeader : BmpHeader} {infoHeader : BmpInfoHeader} {mapping : AreaMapping}

theorem behind_headers_iff :
    (((fileHeader.bfOffBits - osdBitmapfileHeaderSize).toNat : Int) =
        fileHeader.bfOffBits.toNat - 14 ∧
      ((fileHeader.bfOffBits - osdBitmapfileHeaderSize - osdBitmapinfoHeaderSize).toNat : Int) =
        (fileHeader.bfOffBits - osdBitmapfileHeaderSize).toNat - 40) ↔
      54 ≤ fileHeader.bfOffBits.toNat := by
  have below := fileHeader.bfOffBits.isLt
  rw [BitVec.toNat_sub, BitVec.toNat_sub]
  change ((((4294967296 - 14 + fileHeader.bfOffBits.toNat) % 4294967296 : Nat) : Int) = _ ∧
    (((4294967296 - 40 + (4294967296 - 14 + fileHeader.bfOffBits.toNat) % 4294967296) %
      4294967296 : Nat) : Int) =
        ((4294967296 - 14 + fileHeader.bfOffBits.toNat) % 4294967296 : Nat) - 40) ↔ _
  omega

theorem colour_count (offset : 54 ≤ fileHeader.bfOffBits.toNat) :
    (bmpSizes fileHeader infoHeader).colorCount.toNat =
      (fileHeader.bfOffBits.toNat - 54) / 4 := by
  have below := fileHeader.bfOffBits.isLt
  rw [bmpSizes, BitVec.toNat_udiv, BitVec.toNat_sub, BitVec.toNat_sub]
  change (4294967296 - 40 + (4294967296 - 14 + fileHeader.bfOffBits.toNat) % 4294967296) %
    4294967296 / 4 = _
  omega

theorem row_offset_exact {width height : Word} (fits : width.toNat * height.toNat < 4294967296)
    {cnt : Nat} (below : cnt < height.toNat) :
    (height - 1#32 - BitVec.ofNat 32 cnt).toNat = height.toNat - 1 - cnt ∧
      (rowOffset width height cnt).toNat = (height.toNat - 1 - cnt) * width.toNat := by
  have tall := height.isLt
  have row : (height - 1#32 - BitVec.ofNat 32 cnt).toNat = height.toNat - 1 - cnt := by
    rw [BitVec.toNat_sub, BitVec.toNat_sub, BitVec.toNat_ofNat]
    change (4294967296 - cnt % 4294967296 + (4294967296 - 1 + height.toNat) % 4294967296) %
      4294967296 = _
    omega
  have above : (height.toNat - 1 - cnt) * width.toNat ≤ width.toNat * height.toNat := by
    rw [Nat.mul_comm]
    exact Nat.mul_le_mul_left _ (by omega)
  refine ⟨row, ?_⟩
  rw [rowOffset, BitVec.toNat_mul, row]
  exact Nat.mod_eq_of_lt (Nat.lt_of_le_of_lt above fits)

theorem SizesFit.exact (fit : SizesFit fileHeader infoHeader mapping) :
    SizesExact fileHeader infoHeader := by
  obtain ⟨first, second⟩ := behind_headers_iff.mpr fit.offset
  refine ⟨?_, first, second, fun cnt below => ?_⟩
  · rw [BitVec.toNat_mul]
    exact Nat.mod_eq_of_lt fit.size
  · obtain ⟨row, offset⟩ := row_offset_exact fit.size below
    have tall : ((infoHeader.biHeight.toNat - 1 - cnt : Nat) : Int) =
        infoHeader.biHeight.toNat - 1 - cnt := by omega
    rw [row, offset, Int.natCast_mul, tall]
    exact ⟨rfl, rfl⟩

end Sizes

/-! ## Files that are accepted -/

def fileHeaderOf (bytes : List Byte) : BmpHeader := (readFileHeader bytes).1

def infoHeaderOf (bytes : List Byte) : BmpInfoHeader :=
  (readInfoHeader (readFileHeader bytes).2).1

/-- A call that reads the headers of a file, and these are accepted. -/
structure ShowBmp.Accepts (call : ShowBmp) (bmpPars : BmpParams) (bytes : List Byte)
    (sizes : BmpSizes) (rest : List Byte) : Prop where
  handle : call.osdHandle = true
  pars : call.bmpPars = some bmpPars
  plane : call.planeId < osdPlaneNum
  area : call.areaId < osdAreaNum
  mapped : call.mapped = gadiOk
  enabled : bmpPars.enable ≠ 0
  file : bmpPars.bmpFile = .file bytes
  header : osdReadBmpFileHeader bytes call.areaMapping.areaSize = .ok (sizes, rest)

section Accepted

variable {call : ShowBmp} {bmpPars : BmpParams} {bytes rest : List Byte} {sizes : BmpSizes}

theorem ShowBmp.Accepts.shown (accepts : call.Accepts bmpPars bytes sizes rest) :
    osdFunctionShowBmp call = call.fill bmpPars sizes rest := by
  have known : BmpFile.file bytes ≠ .null := BmpFile.noConfusion
  have indices : ¬ (osdPlaneNum ≤ call.planeId ∨ osdAreaNum ≤ call.areaId) :=
    not_or.mpr ⟨Int.not_le.mpr accepts.plane, Int.not_le.mpr accepts.area⟩
  rw [osdFunctionShowBmp, accepts.handle, accepts.pars]
  simp only [if_neg known, if_neg indices, accepts.mapped, ne_eq, not_true, if_false,
    accepts.enabled, not_false_iff, if_true, accepts.file, accepts.header]

theorem check_info_header_ok {infoHeader : BmpInfoHeader} {osdSize : Word}
    (passed : checkInfoHeader infoHeader osdSize = .ok ()) :
    infoHeader.biSizeImage = infoHeader.biWidth * infoHeader.biHeight ∧
      infoHeader.biSizeImage ≤ osdSize := by
  unfold checkInfoHeader at passed
  split_ifs at passed with bits size multiples large
  exact ⟨Decidable.not_not.mp size, BitVec.not_lt.mp large⟩

theorem header_accepted {osdSize : Word}
    (header : osdReadBmpFileHeader bytes osdSize = .ok (sizes, rest)) :
    sizes = bmpSizes (fileHeaderOf bytes) (infoHeaderOf bytes) ∧
      checkInfoHeader (infoHeaderOf bytes) osdSize = .ok () := by
  unfold osdReadBmpFileHeader at header
  change (if (fileHeaderOf bytes).bfType ≠ osdBmpFileMagicNo then _ else
    (checkInfoHeader (infoHeaderOf bytes) osdSize).map fun _ =>
      (bmpSizes (fileHeaderOf bytes) (infoHeaderOf bytes),
        (readInfoHeader (readFileHeader bytes).2).2)) = _ at header
  split at header
  · cases header
  · cases check : checkInfoHeader (infoHeaderOf bytes) osdSize with
    | error refusal =>
        rw [check] at header
        cases header
    | ok passed =>
        rw [check] at header
        exact ⟨(Prod.mk.inj (Except.ok.inj header)).1.symm, rfl⟩

/-- The entries of the palette lie in the clut exactly when it has room for all of them. -/
theorem fill_clut_inside_iff (osdRgbToYuv : RgbQuad → YuvClut) (count : Nat) (rgb : RgbQuad)
    (file : List Byte) (clutSize : Nat) :
    (∀ entry ∈ (fillClut osdRgbToYuv count 0 rgb file).1, 4 * (entry.1 + 1) ≤ clutSize) ↔
      4 * count ≤ clutSize := by
  have entries := fill_clut_entries osdRgbToYuv count 0 rgb file
  have places : (∀ entry ∈ (fillClut osdRgbToYuv count 0 rgb file).1,
      4 * (entry.1 + 1) ≤ clutSize) ↔ ∀ i < count, 4 * (i + 1) ≤ clutSize := by
    rw [← List.forall_mem_map (f := Prod.fst) (P := fun i => 4 * (i + 1) ≤ clutSize), entries]
    simp only [List.mem_range'_1, Nat.zero_le, true_and, Nat.zero_add]
  rw [places]
  constructor
  · intro every
    cases count with
    | zero => exact Nat.zero_le _
    | succ count => exact every count (Nat.lt_succ_self _)
  · intro room i below
    omega

theorem fill_area_inside {width height : Word} {areaSize : Nat}
    (size : width.toNat * height.toNat < 4294967296)
    (room : width.toNat * height.toNat ≤ areaSize) (file : List Byte) :
    ∀ line ∈ fillArea width height height.toNat 0 file,
      ∀ i < line.2.length, line.1 + i < areaSize := by
  intro line member i inside
  obtain ⟨short, cnt, -, below, place⟩ := fill_area_lines width height _ 0 file line member
  rw [Nat.zero_add] at below
  have last : (height.toNat - 1 - cnt) * width.toNat + width.toNat ≤
      width.toNat * height.toNat := by
    rw [← Nat.succ_mul, Nat.mul_comm]
    exact Nat.mul_le_mul_left _ (by omega)
  rw [place, (row_offset_exact size below).2]
  omega

/-- When the headers of a file are accepted, every entry that is stored lies in the clut, every
pixel in the area, and the arithmetic of the sizes is that of the integers, exactly when the pixels
number less than a word can count and the offset of the pixels leaves the clut room for the colours
in front of them. -/
theorem bmp_shown_inside_iff (accepts : call.Accepts bmpPars bytes sizes rest) :
    (osdFunctionShowBmp call).Inside call.areaMapping ∧
        SizesExact (fileHeaderOf bytes) (infoHeaderOf bytes) ↔
      SizesFit (fileHeaderOf bytes) (infoHeaderOf bytes) call.areaMapping := by
  obtain ⟨rfl, check⟩ := header_accepted accepts.header
  obtain ⟨sizeImage, room⟩ := check_info_header_ok check
  rw [accepts.shown]
  constructor
  · intro kept
    rcases kept with ⟨inside, exactly⟩
    have offset := behind_headers_iff.mp ⟨exactly.behindFileHeader, exactly.behindInfoHeader⟩
    refine ⟨?_, offset, ?_⟩
    · rw [← exactly.size]
      exact BitVec.isLt _
    · have entries := inside.clut
      rw [(call.fill_stores _ _ _).1, fill_clut_inside_iff, colour_count offset] at entries
      exact entries
  · intro fit
    have exactly := fit.exact
    refine ⟨⟨?_, ?_⟩, exactly⟩
    · rw [(call.fill_stores _ _ _).1, fill_clut_inside_iff, colour_count fit.offset]
      exact fit.colours
    · rw [(call.fill_stores _ _ _).2]
      apply fill_area_inside fit.size
      rw [← exactly.size, ← sizeImage]
      exact room

end Accepted

/-- A file of 32 columns and four lines whose pixels begin at an offset. -/
def smallBmp (offBits : Word) (behind : List Byte) : List Byte :=
  [0x42, 0x4D] ++ encodeWord 0 ++ [0, 0, 0, 0] ++ encodeWord offBits ++ encodeWord 40 ++
    encodeWord 32 ++ encodeWord 4 ++ [1, 0, 8, 0] ++ encodeWord 0 ++ encodeWord 128 ++
    List.replicate 16 0 ++ behind

def smallPars (bytes : List Byte) : BmpParams := ⟨1, .file bytes, 0, 0⟩

/-- The clut has 256 entries. The files have no colour but black. -/
def showSmall (bytes : List Byte) : ShowBmp where
  osdHandle := true
  planeId := 0
  areaId := 0
  bmpPars := some (smallPars bytes)
  mapped := gadiOk
  areaMapping := ⟨1024#32, 131072#32⟩
  paramsSet := gadiOk
  rgb := ⟨0, 0, 0, 0⟩
  osdRgbToYuv := fun _ => ⟨128, 128, 16, 255⟩

theorem show_small_accepts {bytes rest : List Byte} {sizes : BmpSizes}
    (header : osdReadBmpFileHeader bytes 131072#32 = .ok (sizes, rest)) :
    (showSmall bytes).Accepts (smallPars bytes) bytes sizes rest :=
  ⟨rfl, rfl, show (0 : Int) < 4 by decide, show (0 : Int) < 3 by decide, rfl,
    show (1 : Byte) ≠ 0 by decide, rfl, header⟩

def blackImage : List Byte := List.replicate 132 0

def oneColour : List Byte := smallBmp 58#32 blackImage

theorem one_colour_shown_inside :
    (showSmall oneColour).Accepts (smallPars oneColour) oneColour
        ⟨32#32, 4#32, 128#32, 1#32⟩ blackImage ∧
      (osdFunctionShowBmp (showSmall oneColour)).Inside ⟨1024#32, 131072#32⟩ ∧
      SizesExact (fileHeaderOf oneColour) (infoHeaderOf oneColour) := by
  have header : osdReadBmpFileHeader oneColour 131072#32 =
      .ok (⟨32#32, 4#32, 128#32, 1#32⟩, blackImage) := by decide +kernel
  have accepts := show_small_accepts header
  have fit : SizesFit (fileHeaderOf oneColour) (infoHeaderOf oneColour) ⟨1024#32, 131072#32⟩ :=
    ⟨by decide +kernel, by decide +kernel, by decide +kernel⟩
  exact ⟨accepts, (bmp_shown_inside_iff accepts).mpr fit⟩

/-- Pixels at the offset 1082 leave room for 257 colours: one more than the clut has. -/
theorem palette_overflows :
    ¬ ∀ (call : ShowBmp) (bmpPars : BmpParams) (bytes rest : List Byte) (sizes : BmpSizes),
      call.Accepts bmpPars bytes sizes rest →
        (osdFunctionShowBmp call).Inside call.areaMapping ∧
          SizesExact (fileHeaderOf bytes) (infoHeaderOf bytes) := by
  intro every
  have header : osdReadBmpFileHeader (smallBmp 1082#32 []) 131072#32 =
      .ok (⟨32#32, 4#32, 128#32, 257#32⟩, []) := by decide +kernel
  have accepts := show_small_accepts header
  have inside := (every _ _ _ _ _ accepts).1.clut
  rw [accepts.shown, (ShowBmp.fill_stores _ _ _ _).1] at inside
  have room := (fill_clut_inside_iff _ _ _ _ _).mp inside
  exact absurd room (by decide)

end Gk7102.OsdBitmap
