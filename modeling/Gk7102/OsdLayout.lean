import Gk7102.OsdText

/-!
# How a text fits its area

What `osd_convert_text` assigns to its variables of type `unsigned short`, where the cells of
its characters lie, and when the size that it stores fits the area.
-/

namespace Gk7102.OsdText

open ByteBlocks GlyphPaint MachineInt

set_option autoImplicit false

/-! ## What is assigned to an `unsigned short` -/

def fittedWidth (text : TextParams) (width : BitVec 16) : Nat :=
  min (min (text.textStr.length * text.size.toNat % intModulus) (maxOffset text.startX width))
    (percentOf text.boxWidth width)

/-- What `boxHeight`, `boxWidth`, `lineHeight` and `lines` are set to, as it is before the
conversion. -/
def boxShorts (text : TextParams) (width height : BitVec 16) : List Int :=
  [(wrapInt (text.boxHeight.toNat * height.toNat)).tdiv 100,
    (min (percentOf text.boxHeight height) (maxOffset text.startY height) : Nat),
    (wrapInt (text.boxWidth.toNat * width.toNat)).tdiv 100,
    (fittedWidth text width : Int),
    ((fittedWidth text width + 31) / 32 * 32 : Nat),
    (text.size.toNat : Int),
    0]

/-- `++lines` -/
def startLineShorts (box : TextBox) (layout : Layout) : List Int :=
  if box.width < layout.offsetX + box.size then
    if box.height < (layout.newLine box).offsetY + box.size then []
    else [(layout.lines : Int) + 1]
  else []

/-- `--lines` -/
def checkRoomShorts (box : TextBox) (layout : Layout) : List Int :=
  if layout.data.length < layout.rgbData + box.width * box.size then [(layout.lines : Int) - 1]
  else []

def dateShorts (dateEnable : Bool) (layout : Layout) : List Int :=
  if dateEnable ∧ layout.datePar.isSome then [(layout.offsetX : Int), (layout.offsetY : Int)]
  else []

section Source

variable (tests : Nat) (signed : Bool) (font : LatticeFont) (around : FontLib → Int → Byte)
  (pixelType : PixelType) (dateEnable : Bool)

def loopShorts (box : TextBox) : Nat → List Byte → Layout → List Int
  | _, [], _ => []
  | skip + 1, _ :: rest, layout => loopShorts box skip rest layout
  | 0, byte :: rest, layout =>
      startLineShorts box layout ++
        match startLine box layout with
        | .error _ => []
        | .ok turned =>
            checkRoomShorts box turned ++
              match checkRoom box turned with
              | .error _ => []
              | .ok checked =>
                  dateShorts dateEnable checked ++
                    match convertCharacter tests signed font around pixelType dateEnable box
                        (byte, rest.headD 0) checked with
                    | none => []
                    | some (usedNbyte, next) => loopShorts box (usedNbyte - 1) rest next

/-- Everything that a call assigns to an `unsigned short`. -/
def convertShorts (text : TextParams) (width height : BitVec 16) (datePar : Option ShowDateParams)
    (textData : TextData) (latticeInfo : LatticeInfo) : List Int :=
  let box := textBox text width height
  let data := setBackground pixelType.pixelBackground textData.data
  boxShorts text width height ++
    if box.height < box.size then []
    else loopShorts tests signed font around pixelType dateEnable box 0 text.textStr
      (Layout.initial data datePar latticeInfo)

end Source

/-! ## Texts that fit -/

def CellInside (signed : Bool) (font : LatticeFont) (width height : Nat) (character : Character) :
    Prop :=
  let selection := selectGlyph signed font character.ch character.info
  selection.buffer ≠ none →
    (character.map.startx : Int) + selection.info.width ≤ width ∧
      (character.map.starty : Int) + selection.info.height ≤ height

def FitShort (value : Int) : Prop := 0 ≤ value ∧ value < 65536

/-- The size that is stored fits the area, no `unsigned short` wraps, and every cell that is
painted lies in the box. -/
structure Outcome.LaidOut (outcome : Outcome) (shorts : List Int) (signed : Bool)
    (font : LatticeFont) (area width height : Nat) : Prop where
  room : width * height ≤ area
  shorts : ∀ value ∈ shorts, FitShort value
  cells : ∀ character ∈ outcome.characters, CellInside signed font width height character

/-! ## What a text asks for -/

def noInfo : LatticeInfo := ⟨.bit, 0, 0, 0, 0⟩

/-- The characters of a text, each with the byte behind it. -/
def splitText (signed : Bool) (font : LatticeFont) : Nat → List Byte → List (Byte × Byte)
  | _, [] => []
  | skip + 1, _ :: rest => splitText signed font skip rest
  | 0, byte :: rest =>
      let ch := (byte, rest.headD 0)
      ch :: splitText signed font ((selectGlyph signed font ch noInfo).usedNbyte - 1) rest

/-- A character that has no glyph, or one of so many columns at most. -/
def GlyphWithin (signed : Bool) (font : LatticeFont) (columns : Nat) (ch : Byte × Byte) : Prop :=
  let selection := selectGlyph signed font ch noInfo
  selection.buffer ≠ none → selection.info.width ≤ columns

def askedWidth (text : TextParams) (width : BitVec 16) : Nat :=
  min (min (text.textStr.length * text.size.toNat % intModulus) (maxOffset text.startX width))
    (text.boxWidth.toNat * width.toNat / 100)

def askedColumns (text : TextParams) (width : BitVec 16) : Nat :=
  (askedWidth text width + 31) / 32 * 32

def askedRows (text : TextParams) (height : BitVec 16) : Nat :=
  min (text.boxHeight.toNat * height.toNat / 100) (maxOffset text.startY height)

/-- The box has less than 65536 rows and columns, the area has room for a line of it, and where a
character is wider than the box, the glyphs of the characters that get a line of their own are
not. -/
structure TextFits (text : TextParams) (width height : BitVec 16) (signed : Bool)
    (font : LatticeFont) (area : Nat) : Prop where
  boxHeight : text.boxHeight.toNat * height.toNat < 6553600
  boxWidth : text.boxWidth.toNat * width.toNat < 6553600
  rounded : askedWidth text width ≤ 65504
  line : askedColumns text width * text.size.toNat ≤ area
  glyphs : askedColumns text width < text.size.toNat →
    ∀ i ch, (splitText signed font 0 text.textStr)[i]? = some ch →
      (i + 2) * text.size.toNat ≤ askedRows text height →
        askedColumns text width * ((i + 2) * text.size.toNat) ≤ area →
          GlyphWithin signed font (askedColumns text width) ch

/-! ## The box -/

section Box

theorem product_small (part extent : BitVec 16) :
    part.toNat * extent.toNat ≤ 65535 * 65535 :=
  Nat.mul_le_mul (Nat.le_of_lt_succ part.isLt) (Nat.le_of_lt_succ extent.isLt)

/-- A percentage is computed without a wrap exactly when it is below the first value that an
`unsigned short` does not have. -/
theorem percent_fits_iff (part extent : BitVec 16) :
    FitShort ((wrapInt (part.toNat * extent.toNat)).tdiv 100) ↔
      part.toNat * extent.toNat < 6553600 := by
  have small := product_small part extent
  have whole : ((part.toNat : Int) * extent.toNat) = (part.toNat * extent.toNat : Nat) := by
    rw [Int.natCast_mul]
  rw [whole]
  generalize part.toNat * extent.toNat = product at small ⊢
  unfold FitShort
  by_cases fits : product < 2147483648
  · rw [wrap_int_fits (by unfold FitsInt; omega), Int.tdiv_eq_ediv_of_nonneg (by omega)]
    omega
  · have negative : wrapInt product = -((4294967296 - product : Nat) : Int) := by
      rw [wrapInt, intModulus, Int.bmod_def]
      omega
    rw [negative, Int.neg_tdiv, Int.tdiv_eq_ediv_of_nonneg (by omega)]
    omega

theorem percent_of_small {part extent : BitVec 16} (small : part.toNat * extent.toNat < 6553600) :
    percentOf part extent = part.toNat * extent.toNat / 100 := by
  have whole : ((part.toNat : Int) * extent.toNat) = (part.toNat * extent.toNat : Nat) := by
    rw [Int.natCast_mul]
  rw [percentOf, whole]
  generalize part.toNat * extent.toNat = product at small ⊢
  rw [wrap_int_fits (by unfold FitsInt; omega), Int.tdiv_eq_ediv_of_nonneg (by omega),
    unsignedShort]
  omega

theorem percent_of_lt (part extent : BitVec 16) : percentOf part extent < 65536 := by
  rw [percentOf, unsignedShort]
  omega

variable (text : TextParams) (width height : BitVec 16)

theorem box_shorts_iff :
    (∀ value ∈ boxShorts text width height, FitShort value) ↔
      text.boxHeight.toNat * height.toNat < 6553600 ∧
        text.boxWidth.toNat * width.toNat < 6553600 ∧ askedWidth text width ≤ 65504 := by
  have fitted : fittedWidth text width < 65536 :=
    Nat.lt_of_le_of_lt (Nat.min_le_right _ _) (percent_of_lt _ _)
  have low : min (percentOf text.boxHeight height) (maxOffset text.startY height) < 65536 :=
    Nat.lt_of_le_of_lt (Nat.min_le_left _ _) (percent_of_lt _ _)
  have size : text.size.toNat < 256 := text.size.isLt
  have asked (small : text.boxWidth.toNat * width.toNat < 6553600) :
      askedWidth text width = fittedWidth text width := by
    rw [askedWidth, fittedWidth, percent_of_small small]
  simp only [boxShorts, List.forall_mem_cons, percent_fits_iff]
  constructor
  · intro fit
    rcases fit with ⟨rows, -, columns, -, rounded, -, -⟩
    refine ⟨rows, columns, ?_⟩
    rw [asked columns]
    unfold FitShort at rounded
    omega
  · intro asks
    rcases asks with ⟨rows, columns, rounded⟩
    rw [asked columns] at rounded
    unfold FitShort
    refine ⟨rows, ?_, columns, ?_, ?_, ?_, by decide, List.forall_mem_nil _⟩ <;> omega

theorem box_shorts_converted :
    (boxShorts text width height).map unsignedShort =
      [percentOf text.boxHeight height, (textBox text width height).height,
        percentOf text.boxWidth width, fittedWidth text width, (textBox text width height).width,
        (textBox text width height).size, 0] := by
  have kept {value : Nat} (small : value < 65536) : unsignedShort value = value := by
    rw [unsignedShort]
    omega
  have fitted : fittedWidth text width < 65536 :=
    Nat.lt_of_le_of_lt (Nat.min_le_right _ _) (percent_of_lt _ _)
  have rows : min (percentOf text.boxHeight height) (maxOffset text.startY height) < 65536 :=
    Nat.lt_of_le_of_lt (Nat.min_le_left _ _) (percent_of_lt _ _)
  have size : text.size.toNat < 65536 := Nat.lt_trans text.size.isLt (by decide)
  simp only [boxShorts, List.map_cons, List.map_nil, kept rows, kept fitted, kept size]
  rfl

theorem text_box_asked {text : TextParams} {width height : BitVec 16}
    (rows : text.boxHeight.toNat * height.toNat < 6553600)
    (columns : text.boxWidth.toNat * width.toNat < 6553600)
    (rounded : askedWidth text width ≤ 65504) :
    textBox text width height =
      ⟨text.size.toNat, askedColumns text width, askedRows text height⟩ := by
  rw [textBox, askedColumns, askedRows, percent_of_small rows, percent_of_small columns]
  change TextBox.mk _ ((askedWidth text width + 31) / 32 * 32 % 65536) _ = _
  congr 1
  omega

end Box

/-! ## Glyphs -/

section Glyphs

variable (signed : Bool) (font : LatticeFont) (ch : Byte × Byte) (info : LatticeInfo)

theorem select_glyph_any :
    (selectGlyph signed font ch info).usedNbyte = (selectGlyph signed font ch noInfo).usedNbyte ∧
      (selectGlyph signed font ch info).buffer = (selectGlyph signed font ch noInfo).buffer ∧
      ((selectGlyph signed font ch info).buffer ≠ none →
        (selectGlyph signed font ch info).info = (selectGlyph signed font ch noInfo).info) := by
  unfold selectGlyph
  dsimp only
  split
  · exact ⟨rfl, rfl, fun _ => rfl⟩
  · split
    · exact ⟨rfl, rfl, fun _ => rfl⟩
    · exact ⟨rfl, rfl, fun none => absurd rfl none⟩

/-- A glyph has as many rows as the font size says, and no more columns. -/
theorem select_glyph_size {size : Nat} (small : size < 256) (sized : font.size = size)
    (glyph : (selectGlyph signed font ch info).buffer ≠ none) :
    (selectGlyph signed font ch info).info.height = size ∧
      (selectGlyph signed font ch info).info.width ≤ size := by
  have half : size >>> 1 ≤ size := Nat.shiftRight_le _ _
  unfold selectGlyph at glyph ⊢
  dsimp only at glyph ⊢
  rw [sized] at glyph ⊢
  rw [size_fits small] at glyph ⊢
  split_ifs at glyph ⊢ with low high russian
  · exact ⟨rfl, Int.ofNat_le.mpr half⟩
  · exact absurd rfl glyph
  · exact ⟨rfl, Int.le_refl _⟩
  · exact absurd rfl glyph

end Glyphs

/-! ## The loop -/

/-- A character of the box that does not reach below a row. -/
structure Stands (box : TextBox) (bottom : Nat) (map : MapInfo) : Prop where
  width : map.width = box.width
  low : map.starty + box.size ≤ bottom

theorem Stands.above {box : TextBox} {bottom lower : Nat} {map : MapInfo}
    (stands : Stands box bottom map) (above : bottom ≤ lower) : Stands box lower map :=
  ⟨stands.width, Nat.le_trans stands.low above⟩

/-- A layout where the loop begins a character. The line is in the box, and unless nothing has been
painted yet, the area has room for it. -/
structure Layout.Head (layout : Layout) (box : TextBox) (area : Nat) : Prop where
  fits : layout.Fits box area
  lines : layout.offsetY = box.size * layout.lines
  inside : layout.offsetY + box.size ≤ box.height
  still : box.size = 0 → layout.offsetX = 0
  rows : ∀ character ∈ layout.characters,
    Stands box (layout.offsetY + box.size) character.map
  room : (layout.lines = 0 ∧ layout.characters = []) ∨
    box.width * (layout.offsetY + box.size) ≤ area

/-- A layout where a character is painted next. -/
structure Layout.Ready (layout : Layout) (box : TextBox) (area : Nat) (pixelType : PixelType) :
    Prop where
  head : layout.Head box area
  room : box.width * (layout.offsetY + box.size) ≤ area
  placed : Placed box area (layout.mapInfo pixelType box)

/-- A layout where the loop has broken off, and what has been assigned in its last round. -/
structure Layout.Stopped (layout stopped : Layout) (box : TextBox) (area : Nat)
    (shorts : List Int) : Prop where
  characters : stopped.characters = layout.characters
  fits : stopped.Fits box area
  rows : ∀ character ∈ layout.characters,
    Stands box (box.size * (stopped.lines + 1)) character.map
  exact : (∀ value ∈ shorts, FitShort value) ∧
      box.width * (box.size * (stopped.lines + 1)) ≤ area ↔ box.width * box.size ≤ area
  full : box.width < box.size → ¬ ((layout.lines + 2) * box.size ≤ box.height ∧
    box.width * ((layout.lines + 2) * box.size) ≤ area)

section Loop

variable {box : TextBox} {area : Nat} {layout : Layout}

theorem Layout.Head.rows_fit (head : layout.Head box area) :
    ∀ character ∈ layout.characters, Stands box (box.size * (layout.lines + 1)) character.map := by
  rw [Nat.mul_succ, ← head.lines]
  exact head.rows

/-- Where the lines stay, the stored size fits exactly when a line does. -/
theorem Layout.Head.room_iff (head : layout.Head box area) :
    box.width * (box.size * (layout.lines + 1)) ≤ area ↔ box.width * box.size ≤ area := by
  rw [Nat.mul_succ, ← head.lines]
  rcases head.room with ⟨first, -⟩ | room
  · rw [head.lines, first, Nat.mul_zero, Nat.zero_add]
  · apply iff_of_true room
    exact Nat.le_trans (Nat.mul_le_mul_left _ (Nat.le_add_left _ _)) room

theorem new_line_bottom (head : layout.Head box area) :
    (layout.newLine box).offsetY + box.size = (layout.lines + 2) * box.size := by
  rw [Layout.newLine, head.lines]
  ring

theorem check_room_cases (fits : layout.Fits box area) :
    (area < box.width * (layout.offsetY + box.size) ∧
      checkRoom box layout = .error { layout with lines := (layout.lines + 65535) % 65536 } ∧
      checkRoomShorts box layout = [(layout.lines : Int) - 1]) ∨
    (box.width * (layout.offsetY + box.size) ≤ area ∧
      checkRoom box layout = .ok layout ∧ checkRoomShorts box layout = []) := by
  have bottom : layout.rgbData + box.width * box.size =
      box.width * (layout.offsetY + box.size) := by rw [fits.line, Nat.mul_add]
  rw [checkRoom, checkRoomShorts, bottom, fits.length]
  by_cases full : area < box.width * (layout.offsetY + box.size)
  · left
    exact ⟨full, if_pos full, if_pos full⟩
  · right
    exact ⟨Nat.le_of_not_lt full, if_neg full, if_neg full⟩

theorem Layout.Head.stopped (head : layout.Head box area) {stopped : Layout} {shorts : List Int}
    (lines : stopped.lines = layout.lines) (characters : stopped.characters = layout.characters)
    (fits : stopped.Fits box area) (fit : ∀ value ∈ shorts, FitShort value)
    (full : box.width < box.size → ¬ ((layout.lines + 2) * box.size ≤ box.height ∧
      box.width * ((layout.lines + 2) * box.size) ≤ area)) :
    layout.Stopped stopped box area shorts where
  characters := characters
  fits := fits
  rows := by
    rw [lines]
    exact head.rows_fit
  exact := by
    rw [lines, head.room_iff]
    exact and_iff_right fit
  full := full

theorem Layout.Head.same_line (head : layout.Head box area) (small : box.size < 256)
    (narrow : box.width < 65536) (allocated : area < 1073741824) (pixelType : PixelType)
    (free : layout.offsetX + box.size ≤ box.width) :
    (∃ stopped, checkRoom box layout = .error stopped ∧
      layout.Stopped stopped box area (checkRoomShorts box layout)) ∨
    (checkRoom box layout = .ok layout ∧ checkRoomShorts box layout = [] ∧
      layout.Ready box area pixelType) := by
  rcases check_room_cases head.fits with ⟨full, stops, shorts⟩ | ⟨room, goes, shorts⟩
  · left
    rcases head.room with ⟨first, none⟩ | room
    · have line : area < box.width * box.size := by
        rw [head.lines, first, Nat.mul_zero, Nat.zero_add] at full
        exact full
      refine ⟨_, stops, rfl, ⟨head.fits.length, head.fits.line, head.fits.placed⟩, ?_, ?_, ?_⟩
      · rw [none]
        exact fun character member => absurd member List.not_mem_nil
      · -- the line count wraps below zero
        rw [shorts, first]
        refine iff_of_false ?_ (Nat.not_le_of_lt line)
        intro kept
        have negative := (kept.1 _ List.mem_cons_self).1
        omega
      · intro wide
        omega
    · exact absurd room (Nat.not_le_of_lt full)
  · right
    have left : layout.offsetX < 1073741824 := by omega
    exact ⟨goes, shorts, head, room, ⟨small, small, left, allocated, room⟩, Or.inl free⟩

def Layout.turned (layout : Layout) (box : TextBox) : Layout :=
  { layout.newLine box with lines := layout.lines + 1 }

theorem Layout.Head.turned (head : layout.Head box area)
    (low : (layout.lines + 2) * box.size ≤ box.height)
    (room : box.width * ((layout.lines + 2) * box.size) ≤ area) :
    (layout.turned box).Head box area where
  fits := ⟨head.fits.new_line.length, head.fits.new_line.line, head.fits.new_line.placed⟩
  lines := by
    change layout.offsetY + box.size = box.size * (layout.lines + 1)
    rw [head.lines, Nat.mul_succ]
  inside := by
    change (layout.newLine box).offsetY + box.size ≤ box.height
    rw [new_line_bottom head]
    exact low
  still := fun _ => rfl
  rows := fun character member =>
    (head.rows character member).above (Nat.le_add_right _ _)
  room := by
    right
    change box.width * ((layout.newLine box).offsetY + box.size) ≤ area
    rw [new_line_bottom head]
    exact room

theorem Layout.Head.turned_line (head : layout.Head box area) (small : box.size < 256)
    (allocated : area < 1073741824) (pixelType : PixelType)
    (low : (layout.lines + 2) * box.size ≤ box.height)
    (fit : FitShort ((layout.lines : Int) + 1)) :
    (∃ stopped, checkRoom box (layout.turned box) = .error stopped ∧
      layout.Stopped stopped box area
        ([(layout.lines : Int) + 1] ++ checkRoomShorts box (layout.turned box))) ∨
    (checkRoom box (layout.turned box) = .ok (layout.turned box) ∧
      checkRoomShorts box (layout.turned box) = [] ∧
      (layout.turned box).Ready box area pixelType) := by
  have fits : (layout.turned box).Fits box area :=
    ⟨head.fits.new_line.length, head.fits.new_line.line, head.fits.new_line.placed⟩
  have bottom : (layout.turned box).offsetY + box.size = (layout.lines + 2) * box.size :=
    new_line_bottom head
  rcases check_room_cases fits with ⟨lacking, stops, shorts⟩ | ⟨room, goes, shorts⟩
  · left
    rw [bottom] at lacking
    -- the line that has been started is taken back
    have back : (layout.lines + 1 + 65535) % 65536 = layout.lines := by
      unfold FitShort at fit
      omega
    refine ⟨_, stops, head.stopped back rfl ⟨fits.length, fits.line, fits.placed⟩ ?_
      fun _ room => Nat.not_le_of_lt lacking room.2⟩
    rw [shorts]
    refine List.forall_mem_cons.mpr ⟨fit, List.forall_mem_singleton.mpr ?_⟩
    change FitShort (((layout.lines + 1 : Nat) : Int) - 1)
    unfold FitShort at fit ⊢
    omega
  · right
    have turned := head.turned low (by rw [← bottom]; exact room)
    exact ⟨goes, shorts, turned, room,
      ⟨small, small, show (0 : Nat) < 1073741824 by decide, allocated, room⟩, Or.inr rfl⟩

theorem Layout.Head.next_line (head : layout.Head box area) (small : box.size < 256)
    (allocated : area < 1073741824) (tall : box.height < 65536) (pixelType : PixelType)
    (full : box.width < layout.offsetX + box.size) :
    (∃ stopped, startLine box layout = .error stopped ∧
      layout.Stopped stopped box area (startLineShorts box layout)) ∨
    (startLine box layout = .ok (layout.turned box) ∧
      (∀ value ∈ startLineShorts box layout, FitShort value) ∧
      ((∃ stopped, checkRoom box (layout.turned box) = .error stopped ∧
        layout.Stopped stopped box area
          (startLineShorts box layout ++ checkRoomShorts box (layout.turned box))) ∨
      (checkRoom box (layout.turned box) = .ok (layout.turned box) ∧
        checkRoomShorts box (layout.turned box) = [] ∧
        (layout.turned box).Ready box area pixelType))) := by
  have positive : 0 < box.size := by
    rcases Nat.eq_zero_or_pos box.size with zero | positive
    · have edge := head.still zero
      omega
    · exact positive
  rw [startLine, startLineShorts, if_pos full, if_pos full, new_line_bottom head]
  by_cases low : box.height < (layout.lines + 2) * box.size
  · left
    rw [if_pos low, if_pos low]
    exact ⟨_, rfl, head.stopped rfl rfl head.fits.new_line (List.forall_mem_nil _)
      fun _ room => Nat.not_le_of_lt low room.1⟩
  · right
    have reach : layout.lines + 2 ≤ (layout.lines + 2) * box.size :=
      Nat.le_mul_of_pos_right _ positive
    have kept : (layout.lines + 1) % 65536 = layout.lines + 1 := Nat.mod_eq_of_lt (by omega)
    have fit : FitShort ((layout.lines : Int) + 1) := by
      unfold FitShort
      omega
    rw [if_neg low, if_neg low, kept]
    exact ⟨rfl, List.forall_mem_singleton.mpr fit,
      head.turned_line small allocated pixelType (Nat.le_of_not_lt low) fit⟩

end Loop

section Paint

variable (signed : Bool) {box : TextBox} {area : Nat} {layout : Layout}
  (asc : Option (FontFile box.size (box.size >>> 1))) (gb2312 : Option (FontFile box.size box.size))
  (around : FontLib → Int → Byte) (pixelType : PixelType) (dateEnable : Bool)

theorem Layout.Ready.paint (ready : layout.Ready box area pixelType) (ch : Byte × Byte) :
    ∃ next : Layout, next.Head box area ∧ next.lines = layout.lines ∧
      (∃ painted : Character, painted.ch = ch ∧
        next.characters = layout.characters ++ [painted]) ∧
      ∀ tests, 256 ≤ tests →
        convertCharacter tests signed (loadedFont box.size asc gb2312) around pixelType dateEnable
            box ch layout =
          some ((selectGlyph signed (loadedFont box.size asc gb2312) ch noInfo).usedNbyte,
            next) := by
  obtain ⟨head, room, placed⟩ := ready
  obtain ⟨painting, length, ends⟩ := char_to_bitmap_ends signed asc gb2312 around ch
    layout.latticeInfo layout.data (by rw [head.fits.length]; exact placed.cell)
  let selection := selectGlyph signed (loadedFont box.size asc gb2312) ch layout.latticeInfo
  refine ⟨layout.advance pixelType dateEnable box ch selection painting, ?_, rfl,
    ⟨_, rfl, rfl⟩, fun tests enough => ?_⟩
  · refine ⟨⟨length.trans head.fits.length, head.fits.line, ?_⟩, head.lines, head.inside, ?_, ?_,
      Or.inr room⟩
    · rw [Layout.advance, List.forall_mem_append, List.forall_mem_singleton]
      exact ⟨head.fits.placed, head.fits.length, placed⟩
    · intro zero
      change layout.offsetX + (box.size >>> 1) * selection.usedNbyte = 0
      rw [head.still zero, zero, Nat.zero_shiftRight, Nat.zero_mul]
    · rw [Layout.advance, List.forall_mem_append, List.forall_mem_singleton]
      exact ⟨head.rows, rfl, Nat.le_refl _⟩
  · rw [convertCharacter, ends tests enough, Option.map_some,
      ← (select_glyph_any signed _ ch layout.latticeInfo).1]

theorem Layout.Ready.date_shorts (ready : layout.Ready box area pixelType)
    (narrow : box.width < 65536) (tall : box.height < 65536) :
    ∀ value ∈ dateShorts dateEnable layout, FitShort value := by
  have inside := ready.head.inside
  have turned : layout.offsetX + box.size ≤ box.width ∨ layout.offsetX = 0 := ready.placed.turned
  rw [dateShorts]
  split
  · refine List.forall_mem_cons.mpr ⟨?_, List.forall_mem_singleton.mpr ?_⟩ <;>
      · unfold FitShort
        omega
  · exact List.forall_mem_nil _

end Paint

/-! ## The run -/

/-- The line behind so many others lies in the box, and the area has room for it. -/
def LineFits (box : TextBox) (area lines : Nat) : Prop :=
  (lines + 1) * box.size ≤ box.height ∧ box.width * ((lines + 1) * box.size) ≤ area

theorem line_fits_of_le {box : TextBox} {area lines more : Nat} (fewer : lines ≤ more)
    (fits : LineFits box area more) : LineFits box area lines := by
  have low : (lines + 1) * box.size ≤ (more + 1) * box.size :=
    Nat.mul_le_mul_right _ (Nat.succ_le_succ fewer)
  exact ⟨Nat.le_trans low fits.1, Nat.le_trans (Nat.mul_le_mul_left _ low) fits.2⟩

/-- The end of the loop from a layout on, and everything that has been assigned on the way. In a
box that is narrower than a character each one gets a line of its own, the first one is left out,
and those are painted whose lines fit. -/
structure Layout.Ends (layout final : Layout) (signed : Bool) (font : LatticeFont) (box : TextBox)
    (area skip : Nat) (text : List Byte) (shorts : List Int) : Prop where
  fits : final.Fits box area
  rows : ∀ character ∈ final.characters,
    Stands box (box.size * (final.lines + 1)) character.map
  exact : (∀ value ∈ shorts, FitShort value) ∧
      box.width * (box.size * (final.lines + 1)) ≤ area ↔ box.width * box.size ≤ area
  painted : box.width < box.size → ∀ ch, (∃ character ∈ final.characters, character.ch = ch) ↔
    (∃ character ∈ layout.characters, character.ch = ch) ∨
      ∃ i, (splitText signed font skip text)[i]? = some ch ∧
        LineFits box area (layout.lines + i + 1)

section Run

variable (signed : Bool) {box : TextBox} {area : Nat}
  (asc : Option (FontFile box.size (box.size >>> 1))) (gb2312 : Option (FontFile box.size box.size))
  (around : FontLib → Int → Byte) (pixelType : PixelType) (dateEnable : Bool)

theorem Layout.Stopped.ends {layout stopped : Layout} {shorts : List Int}
    (stop : layout.Stopped stopped box area shorts) (font : LatticeFont) (text : List Byte) :
    layout.Ends stopped signed font box area 0 text shorts where
  fits := stop.fits
  rows := by
    rw [stop.characters]
    exact stop.rows
  exact := stop.exact
  painted := by
    intro wide ch
    rw [stop.characters]
    constructor
    · exact Or.inl
    · intro either
      rcases either with before | ⟨i, -, fits⟩
      · exact before
      · exact absurd (line_fits_of_le (by omega) fits) (stop.full wide)

theorem Layout.Ends.of_next {layout next final : Layout} {font : LatticeFont} {byte : Byte}
    {rest : List Byte} {before shorts : List Int} {painted : Character}
    (ends : next.Ends final signed font box area
      ((selectGlyph signed font (byte, rest.headD 0) noInfo).usedNbyte - 1) rest shorts)
    (fit : ∀ value ∈ before, FitShort value)
    (same : painted.ch = (byte, rest.headD 0))
    (characters : next.characters = layout.characters ++ [painted])
    (lines : box.width < box.size →
      next.lines = layout.lines + 1 ∧ LineFits box area (layout.lines + 1)) :
    layout.Ends final signed font box area 0 (byte :: rest) (before ++ shorts) where
  fits := ends.fits
  rows := ends.rows
  exact := by
    rw [List.forall_mem_append, and_iff_right fit]
    exact ends.exact
  painted := by
    intro wide ch
    obtain ⟨more, first⟩ := lines wide
    rw [ends.painted wide ch, characters, more, splitText]
    constructor
    · intro either
      rcases either with ⟨character, member, rfl⟩ | ⟨i, there, fits⟩
      · rcases List.mem_append.mp member with old | new
        · exact Or.inl ⟨character, old, rfl⟩
        · rw [List.mem_singleton.mp new, same]
          exact Or.inr ⟨0, rfl, first⟩
      · refine Or.inr ⟨i + 1, there, ?_⟩
        rw [Nat.add_right_comm layout.lines 1 i] at fits
        exact fits
    · intro either
      rcases either with ⟨character, old, rfl⟩ | ⟨i, there, fits⟩
      · exact Or.inl ⟨character, List.mem_append_left _ old, rfl⟩
      · cases i with
        | zero =>
            exact Or.inl ⟨painted, List.mem_append_right _ (List.mem_singleton_self _),
              same.trans (Option.some.inj there)⟩
        | succ i =>
            refine Or.inr ⟨i, there, ?_⟩
            rw [Nat.add_right_comm layout.lines 1 i]
            exact fits

def LoopEnds (area skip : Nat) (text : List Byte) (layout : Layout) : Prop :=
  ∃ (final : Layout) (shorts : List Int),
    layout.Ends final signed (loadedFont box.size asc gb2312) box area skip text shorts ∧
    ∀ tests, 256 ≤ tests →
      convertLoop tests signed (loadedFont box.size asc gb2312) around pixelType dateEnable box
          skip text layout = some final ∧
        loopShorts tests signed (loadedFont box.size asc gb2312) around pixelType dateEnable box
          skip text layout = shorts

section Round

variable {layout turned stopped : Layout} (byte : Byte) {rest : List Byte}

theorem line_stops (start : startLine box layout = .error stopped)
    (stop : layout.Stopped stopped box area (startLineShorts box layout)) :
    LoopEnds signed asc gb2312 around pixelType dateEnable area 0 (byte :: rest) layout := by
  refine ⟨stopped, _, stop.ends signed _ _, fun tests _ => ⟨?_, ?_⟩⟩
  · simp only [convertLoop, start, Except.bind]
  · simp only [loopShorts, start, List.append_nil]

theorem room_stops (start : startLine box layout = .ok turned)
    (room : checkRoom box turned = .error stopped)
    (stop : layout.Stopped stopped box area
      (startLineShorts box layout ++ checkRoomShorts box turned)) :
    LoopEnds signed asc gb2312 around pixelType dateEnable area 0 (byte :: rest) layout := by
  refine ⟨stopped, _, stop.ends signed _ _, fun tests _ => ⟨?_, ?_⟩⟩
  · simp only [convertLoop, start, Except.bind, room]
  · simp only [loopShorts, start, room, List.append_nil]

theorem character_painted (narrow : box.width < 65536) (tall : box.height < 65536)
    (later : ∀ skip next, next.Head box area →
      LoopEnds signed asc gb2312 around pixelType dateEnable area skip rest next)
    (start : startLine box layout = .ok turned) (room : checkRoom box turned = .ok turned)
    (none : checkRoomShorts box turned = []) (ready : turned.Ready box area pixelType)
    (fit : ∀ value ∈ startLineShorts box layout, FitShort value)
    (characters : turned.characters = layout.characters)
    (lines : box.width < box.size → turned.lines = layout.lines + 1) :
    LoopEnds signed asc gb2312 around pixelType dateEnable area 0 (byte :: rest) layout := by
  obtain ⟨next, head, same, ⟨painted, ch, more⟩, paints⟩ :=
    ready.paint signed asc gb2312 around pixelType dateEnable (byte, rest.headD 0)
  obtain ⟨final, shorts, ends, goes⟩ := later _ next head
  have dates := ready.date_shorts pixelType dateEnable narrow tall
  refine ⟨final, startLineShorts box layout ++ dateShorts dateEnable turned ++ shorts,
    ends.of_next signed ?_ ch (by rw [more, characters]) ?_, fun tests enough => ?_⟩
  · exact List.forall_mem_append.mpr ⟨fit, dates⟩
  · intro wide
    refine ⟨same.trans (lines wide), ?_⟩
    have bottom : turned.offsetY + box.size = (layout.lines + 1 + 1) * box.size := by
      rw [ready.head.lines, lines wide]
      ring
    have inside := ready.head.inside
    have roomy := ready.room
    rw [bottom] at inside roomy
    exact ⟨inside, roomy⟩
  · simp only [convertLoop, loopShorts, start, Except.bind, room, none, paints tests enough,
      Option.bind_some, List.nil_append, List.append_assoc]
    obtain ⟨run, assigned⟩ := goes tests enough
    rw [run, assigned]
    exact ⟨rfl, rfl⟩

end Round

theorem convert_loop_laid_out (small : box.size < 256) (narrow : box.width < 65536)
    (tall : box.height < 65536) (allocated : area < 1073741824) (text : List Byte) :
    ∀ skip (layout : Layout), layout.Head box area →
      LoopEnds signed asc gb2312 around pixelType dateEnable area skip text layout := by
  induction text with
  | nil =>
      intro skip layout head
      refine ⟨layout, [], ⟨head.fits, head.rows_fit, ?_, ?_⟩, fun tests _ => ?_⟩
      · rw [and_iff_right (List.forall_mem_nil _)]
        exact head.room_iff
      · intro _ ch
        refine (or_iff_left ?_).symm
        intro later
        rcases later with ⟨i, there, -⟩
        rw [splitText] at there
        cases there
      · rw [convertLoop, loopShorts]
        exact ⟨rfl, rfl⟩
  | cons byte rest ih =>
      intro skip layout head
      cases skip with
      | succ skip =>
          obtain ⟨final, shorts, ends, goes⟩ := ih skip layout head
          exact ⟨final, shorts, ⟨ends.fits, ends.rows, ends.exact, ends.painted⟩, goes⟩
      | zero =>
          by_cases full : box.width < layout.offsetX + box.size
          · rcases head.next_line small allocated tall pixelType full with
              ⟨stopped, start, stop⟩ | ⟨start, fit, ⟨stopped, room, stop⟩ | ⟨room, none, ready⟩⟩
            · exact line_stops signed asc gb2312 around pixelType dateEnable byte start stop
            · exact room_stops signed asc gb2312 around pixelType dateEnable byte start room stop
            · exact character_painted signed asc gb2312 around pixelType dateEnable byte
                narrow tall ih start room none ready fit rfl fun _ => rfl
          · have start : startLine box layout = .ok layout := if_neg full
            have shorts : startLineShorts box layout = [] := if_neg full
            rcases head.same_line small narrow allocated pixelType (Nat.le_of_not_lt full) with
              ⟨stopped, room, stop⟩ | ⟨room, none, ready⟩
            · apply room_stops signed asc gb2312 around pixelType dateEnable byte start room
              rw [shorts]
              exact stop
            · apply character_painted signed asc gb2312 around pixelType dateEnable byte
                narrow tall ih start room none ready _ rfl
              · intro wide
                omega
              · rw [shorts]
                exact List.forall_mem_nil _

end Run

/-! ## Texts laid out in their areas -/

section Cells

variable {signed : Bool} {font : LatticeFont} {box : TextBox} {area bottom : Nat}

theorem glyph_within_iff (signed : Bool) (font : LatticeFont) (columns : Nat) (ch : Byte × Byte)
    (info : LatticeInfo) :
    GlyphWithin signed font columns ch ↔ ((selectGlyph signed font ch info).buffer ≠ none →
      (selectGlyph signed font ch info).info.width ≤ columns) := by
  obtain ⟨-, buffer, same⟩ := select_glyph_any signed font ch info
  unfold GlyphWithin
  dsimp only
  rw [← buffer]
  refine forall_congr' fun glyph => ?_
  rw [same glyph]

theorem cell_inside_iff (small : box.size < 256) (sized : font.size = box.size)
    {character : Character} (placed : Placed box area character.map)
    (stands : Stands box bottom character.map) :
    CellInside signed font box.width bottom character ↔
      (box.width < box.size → GlyphWithin signed font box.width character.ch) := by
  have low := stands.low
  have turned := placed.turned
  rw [stands.width] at turned
  rw [glyph_within_iff signed font box.width character.ch character.info, CellInside]
  have size := select_glyph_size signed font character.ch character.info small sized
  generalize selectGlyph signed font character.ch character.info = selection at size ⊢
  constructor
  · intro inside wide glyph
    have columns := (inside glyph).1
    omega
  · intro within glyph
    obtain ⟨height, width⟩ := size glyph
    rw [height]
    refine ⟨?_, by omega⟩
    rcases turned with free | edge
    · omega
    · by_cases wide : box.width < box.size
      · have columns := within wide glyph
        omega
      · omega

theorem Layout.Ends.cells_iff {layout final : Layout} {text : List Byte} {shorts : List Int}
    (ends : layout.Ends final signed font box area 0 text shorts) (small : box.size < 256)
    (sized : font.size = box.size) (first : layout.lines = 0) (none : layout.characters = []) :
    (∀ character ∈ final.characters,
        CellInside signed font box.width (box.size * (final.lines + 1)) character) ↔
      (box.width < box.size → ∀ i ch, (splitText signed font 0 text)[i]? = some ch →
        LineFits box area (i + 1) → GlyphWithin signed font box.width ch) := by
  have inside : ∀ character ∈ final.characters,
      (CellInside signed font box.width (box.size * (final.lines + 1)) character ↔
        (box.width < box.size → GlyphWithin signed font box.width character.ch)) :=
    fun character member => cell_inside_iff small sized (ends.fits.placed character member).2
      (ends.rows character member)
  have painted (wide : box.width < box.size) (ch : Byte × Byte) :
      (∃ character ∈ final.characters, character.ch = ch) ↔
        ∃ i, (splitText signed font 0 text)[i]? = some ch ∧ LineFits box area (i + 1) := by
    rw [ends.painted wide ch, none, first, or_iff_right (by simp)]
    simp only [Nat.zero_add]
  constructor
  · intro cells wide i ch there fits
    obtain ⟨character, member, rfl⟩ := (painted wide ch).mpr ⟨i, there, fits⟩
    exact (inside character member).mp (cells character member) wide
  · intro glyphs character member
    refine (inside character member).mpr fun wide => ?_
    obtain ⟨i, there, fits⟩ := (painted wide character.ch).mp ⟨character, member, rfl⟩
    exact glyphs wide i character.ch there fits

end Cells

section LaidOut

variable (signed : Bool) (around : FontLib → Int → Byte) (pixelType : PixelType)
  (dateEnable : Bool) (text : TextParams)
  (asc : Option (FontFile text.size.toNat (text.size.toNat >>> 1)))
  (gb2312 : Option (FontFile text.size.toNat text.size.toNat)) (width height : BitVec 16)
  (datePar : Option ShowDateParams) (textData : TextData) (latticeInfo : LatticeInfo)

theorem text_fits_iff (font : LatticeFont) (area : Nat) :
    TextFits text width height signed font area ↔
      (∀ value ∈ boxShorts text width height, FitShort value) ∧
        (textBox text width height).width * (textBox text width height).size ≤ area ∧
        ((textBox text width height).width < (textBox text width height).size →
          ∀ i ch, (splitText signed font 0 text.textStr)[i]? = some ch →
            LineFits (textBox text width height) area (i + 1) →
              GlyphWithin signed font (textBox text width height).width ch) := by
  rw [box_shorts_iff]
  constructor
  · intro fits
    rw [text_box_asked fits.boxHeight fits.boxWidth fits.rounded]
    exact ⟨⟨fits.boxHeight, fits.boxWidth, fits.rounded⟩, fits.line,
      fun wide i ch there line => fits.glyphs wide i ch there line.1 line.2⟩
  · intro parts
    rcases parts with ⟨⟨rows, columns, rounded⟩, line, glyphs⟩
    rw [text_box_asked rows columns rounded] at line glyphs
    exact ⟨rows, columns, rounded, line,
      fun wide i ch there low room => glyphs wide i ch there ⟨low, room⟩⟩

/-- The conversion of a text ends. When it stores a size, this fits the area, nothing that is
assigned to an `unsigned short` wraps and every cell that is painted lies in the box, exactly when
the text fits. -/
theorem text_laid_out_iff :
    ∃ (outcome : Outcome) (shorts : List Int),
      (∀ tests, 256 ≤ tests →
        osdConvertText tests signed (loadedFont text.size.toNat asc gb2312) around pixelType
            dateEnable text width height datePar textData latticeInfo = some outcome ∧
          convertShorts tests signed (loadedFont text.size.toNat asc gb2312) around pixelType
            dateEnable text width height datePar textData latticeInfo = shorts) ∧
      ∀ storedWidth storedHeight, outcome.stored = some (storedWidth, storedHeight) →
        (outcome.LaidOut shorts signed (loadedFont text.size.toNat asc gb2312)
            textData.data.length storedWidth storedHeight ↔
          TextFits text width height signed (loadedFont text.size.toNat asc gb2312)
            textData.data.length) := by
  obtain ⟨small, narrow⟩ := text_box_small text width height
  by_cases refused : (textBox text width height).height < (textBox text width height).size
  · refine ⟨⟨none, textData.data, datePar, []⟩, boxShorts text width height ++ [],
      fun tests _ => ⟨if_pos refused, ?_⟩, fun _ _ stored => ?_⟩
    · rw [convertShorts, if_pos refused]
    · cases stored
  · let start := Layout.initial (setBackground pixelType.pixelBackground textData.data) datePar
      latticeInfo
    have tall : (textBox text width height).height < 65536 :=
      Nat.lt_of_le_of_lt (Nat.min_le_left _ _) (percent_of_lt _ _)
    have head : start.Head (textBox text width height) textData.data.length :=
      ⟨⟨set_background_length _ _, rfl, List.forall_mem_nil _⟩, rfl,
        by rw [show start.offsetY = 0 from rfl]; omega, fun _ => rfl, List.forall_mem_nil _,
        Or.inl ⟨rfl, rfl⟩⟩
    obtain ⟨final, shorts, ends, goes⟩ := convert_loop_laid_out signed asc gb2312 around pixelType
      dateEnable small narrow tall textData.allocated text.textStr 0 start head
    refine ⟨final.outcome (textBox text width height), boxShorts text width height ++ shorts,
      fun tests enough => ?_, ?_⟩
    · obtain ⟨run, assigned⟩ := goes tests enough
      rw [osdConvertText, convertShorts, if_neg refused, if_neg refused]
      exact ⟨congrArg (Option.map _) run, congrArg _ assigned⟩
    · rintro storedWidth storedHeight ⟨rfl, rfl⟩
      have cells := ends.cells_iff small rfl rfl rfl
      rw [text_fits_iff, ← ends.exact]
      constructor
      · intro laid
        obtain ⟨boxed, looped⟩ := List.forall_mem_append.mp laid.shorts
        exact ⟨boxed, ⟨looped, laid.room⟩, cells.mp laid.cells⟩
      · intro parts
        rcases parts with ⟨boxed, ⟨looped, room⟩, glyphs⟩
        exact ⟨room, List.forall_mem_append.mpr ⟨boxed, looped⟩, cells.mpr glyphs⟩

end LaidOut

/-- One pixel less than a line of the mark takes. -/
def tooSmall : TextData where
  data := List.replicate 383 ⟨0, 0, 0, 0⟩
  allocated := by
    rw [List.length_replicate]
    decide

set_option maxRecDepth 4000 in
/-- The line count of an area without room for a line wraps below zero. -/
theorem line_count_wraps :
    ¬ ∀ (signed : Bool) (around : FontLib → Int → Byte) (pixelType : PixelType)
      (dateEnable : Bool) (text : TextParams)
      (asc : Option (FontFile text.size.toNat (text.size.toNat >>> 1)))
      (gb2312 : Option (FontFile text.size.toNat text.size.toNat)) (width height : BitVec 16)
      (datePar : Option ShowDateParams) (textData : TextData) (latticeInfo : LatticeInfo),
      ∃ (outcome : Outcome) (shorts : List Int),
        (∀ tests, 256 ≤ tests →
          osdConvertText tests signed (loadedFont text.size.toNat asc gb2312) around pixelType
              dateEnable text width height datePar textData latticeInfo = some outcome ∧
            convertShorts tests signed (loadedFont text.size.toNat asc gb2312) around pixelType
              dateEnable text width height datePar textData latticeInfo = shorts) ∧
        ∀ storedWidth storedHeight, outcome.stored = some (storedWidth, storedHeight) →
          outcome.LaidOut shorts signed (loadedFont text.size.toNat asc gb2312)
            textData.data.length storedWidth storedHeight := by
  intro every
  obtain ⟨outcome, shorts, ends, laid⟩ := every false (fun _ _ => 0) whiteText false dottedText
    none none 704 576 none tooSmall ⟨.bit, 0, 0, 0, 0⟩
  have size : (osdConvertText 256 false (loadedFont 12 none none) (fun _ _ => 0) whiteText false
      dottedText 704 576 none tooSmall ⟨.bit, 0, 0, 0, 0⟩).map Outcome.stored =
      some (some (32, 786432)) := by decide +kernel
  have stored := (congrArg (Option.map Outcome.stored) (ends 256 (Nat.le_refl _)).1).symm.trans size
  have room : 32 * 786432 ≤ 383 := (laid 32 786432 (Option.some.inj stored)).room
  exact absurd room (by decide)

end Gk7102.OsdText
