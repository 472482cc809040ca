import Gk7102.GlyphLookup

/-!
# Text laid out in an area

`osd_convert_text` fits a box to the picture, fills it line by line and stores the size of
what it filled. The callers pass the length of the string, so a byte behind it is zero. A
product of `int`s that is too large wraps.
-/

namespace Gk7102.OsdText

open ByteBlocks GlyphPaint MachineInt

set_option autoImplicit false

structure TextParams where
  textStr : List Byte
  size : Byte
  startX : BitVec 16
  startY : BitVec 16
  boxWidth : BitVec 16
  boxHeight : BitVec 16
deriving DecidableEq, Repr

/-- An allocated area: its pixels of four bytes fit the address space. -/
structure TextData where
  data : List RgbQuad
  allocated : data.length < 1073741824

structure ShowDateParams where
  osdDateOffsetX : List Nat
  osdDateOffsetY : List Nat
deriving DecidableEq, Repr

/-! ## The box -/

def unsignedInt (value : Int) : Nat := (value % intModulus).toNat

def unsignedShort (value : Int) : Nat := (value % 65536).toNat

def maxOffset (start extent : BitVec 16) : Nat :=
  unsignedInt ((wrapInt ((100 - start.toNat) * extent.toNat)).tdiv 100)

def percentOf (part extent : BitVec 16) : Nat :=
  unsignedShort ((wrapInt (part.toNat * extent.toNat)).tdiv 100)

structure TextBox where
  size : Nat
  width : Nat
  height : Nat
deriving DecidableEq, Repr

def textBox (text : TextParams) (width height : BitVec 16) : TextBox :=
  let fitted := min (min (text.textStr.length * text.size.toNat % intModulus)
    (maxOffset text.startX width)) (percentOf text.boxWidth width)
  { size := text.size.toNat
    width := (fitted + 31) / 32 * 32 % 65536
    height := min (percentOf text.boxHeight height) (maxOffset text.startY height) }

/-! ## The background -/

/-- `osdColoTab[OSD_COLOUR_TRANSPARENT]` -/
def osdColourTransparent : RgbQuad := ⟨0, 0, 0, 0⟩

def zeroBytes : Nat → List RgbQuad → List RgbQuad
  | _, [] => []
  | 0, data => data
  | 1, pixel :: rest => { pixel with b := 0 } :: rest
  | 2, pixel :: rest => { pixel with b := 0, g := 0 } :: rest
  | 3, pixel :: rest => { pixel with b := 0, g := 0, r := 0 } :: rest
  | count + 4, _ :: rest => ⟨0, 0, 0, 0⟩ :: zeroBytes count rest

def setBackground (background : RgbQuad) (data : List RgbQuad) : List RgbQuad :=
  if background = osdColourTransparent then zeroBytes data.length data
  else List.replicate (data.length / 4) background ++ data.drop (data.length / 4)

/-! ## The lines -/

structure Layout where
  cnt : Nat
  offsetX : Nat
  offsetY : Nat
  rgbData : Nat
  lines : Nat
  latticeInfo : LatticeInfo
  data : List RgbQuad
  datePar : Option ShowDateParams
  characters : List Character
deriving DecidableEq, Repr

def Layout.newLine (layout : Layout) (box : TextBox) : Layout :=
  { layout with
    offsetX := 0
    offsetY := layout.offsetY + box.size
    rgbData := layout.rgbData + box.width * box.size }

/-- Starts a new line at the boundary of the box; at its end the loop breaks. -/
def startLine (box : TextBox) (layout : Layout) : Except Layout Layout :=
  if box.width < layout.offsetX + box.size then
    if box.height < (layout.newLine box).offsetY + box.size then .error (layout.newLine box)
    else .ok { layout.newLine box with lines := (layout.lines + 1) % 65536 }
  else .ok layout

/-- Breaks the loop where the area has no room for the line. -/
def checkRoom (box : TextBox) (layout : Layout) : Except Layout Layout :=
  if layout.data.length < layout.rgbData + box.width * box.size then
    .error { layout with lines := (layout.lines + 65535) % 65536 }
  else .ok layout

def ShowDateParams.record (par : ShowDateParams) (layout : Layout) : ShowDateParams where
  osdDateOffsetX := par.osdDateOffsetX.set layout.cnt (unsignedShort layout.offsetX)
  osdDateOffsetY := par.osdDateOffsetY.set layout.cnt (unsignedShort layout.offsetY)

section Source

variable (tests : Nat) (signed : Bool) (font : LatticeFont) (around : FontLib → Int → Byte)
  (pixelType : PixelType) (dateEnable : Bool)

def Layout.mapInfo (layout : Layout) (box : TextBox) : MapInfo where
  width := box.width
  startx := layout.offsetX
  starty := layout.offsetY
  color := pixelType

def Layout.advance (layout : Layout) (box : TextBox) (ch : Byte × Byte) (selection : Selection)
    (painting : Painting) : Layout :=
  { layout with
    cnt := layout.cnt + selection.usedNbyte
    offsetX := layout.offsetX + (box.size >>> 1) * selection.usedNbyte
    latticeInfo := selection.info
    data := painting.data
    datePar :=
      if dateEnable then layout.datePar.map fun par => par.record layout else layout.datePar
    characters := layout.characters ++
      [⟨ch, layout.latticeInfo, layout.mapInfo pixelType box, layout.data⟩] }

def convertCharacter (box : TextBox) (ch : Byte × Byte) (layout : Layout) :
    Option (Nat × Layout) :=
  (charToBitmapByLatticeLibrary tests signed font around ch layout.latticeInfo
      (layout.mapInfo pixelType box) ⟨layout.data, [], []⟩).map fun (selection, painting) =>
    (selection.usedNbyte, layout.advance pixelType dateEnable box ch selection painting)

/-- The loop over the text; the bytes that a character has used are skipped. -/
def convertLoop (box : TextBox) : Nat → List Byte → Layout → Option Layout
  | _, [], layout => some layout
  | skip + 1, _ :: rest, layout => convertLoop box skip rest layout
  | 0, byte :: rest, layout =>
      match (startLine box layout).bind (checkRoom box) with
      | .error layout => some layout
      | .ok layout =>
          (convertCharacter tests signed font around pixelType dateEnable box (byte, rest.headD 0)
              layout).bind fun (usedNbyte, layout) =>
            convertLoop box (usedNbyte - 1) rest layout

/-- The size that is stored, if the box is accepted, and what the area holds in the end. -/
structure Outcome where
  stored : Option (Nat × Nat)
  data : List RgbQuad
  datePar : Option ShowDateParams
  characters : List Character
deriving DecidableEq, Repr

def Layout.outcome (layout : Layout) (box : TextBox) : Outcome where
  stored := some (box.width, box.size * (layout.lines + 1))
  data := layout.data
  datePar := layout.datePar
  characters := layout.characters

def Layout.initial (data : List RgbQuad) (datePar : Option ShowDateParams)
    (latticeInfo : LatticeInfo) : Layout where
  cnt := 0
  offsetX := 0
  offsetY := 0
  rgbData := 0
  lines := 0
  latticeInfo := latticeInfo
  data := data
  datePar := datePar
  characters := []

def osdConvertText (text : TextParams) (width height : BitVec 16) (datePar : Option ShowDateParams)
    (textData : TextData) (latticeInfo : LatticeInfo) : Option Outcome :=
  let box := textBox text width height
  let data := setBackground pixelType.pixelBackground textData.data
  if box.height < box.size then some ⟨none, textData.data, datePar, []⟩
  else
    (convertLoop tests signed font around pixelType dateEnable box 0 text.textStr
      (Layout.initial data datePar latticeInfo)).map fun layout => layout.outcome box

end Source

/-! ## Where characters are placed -/

/-- A line of an area that the memory has room for, and a character at its start or inside. -/
structure Placed (box : TextBox) (area : Nat) (map : MapInfo) : Prop where
  cell : CellRoom box.size box.size map area
  turned : map.startx + box.size ≤ map.width ∨ map.startx = 0

structure Layout.Fits (layout : Layout) (box : TextBox) (area : Nat) : Prop where
  length : layout.data.length = area
  line : layout.rgbData = box.width * layout.offsetY
  placed : ∀ character ∈ layout.characters,
    character.data.length = area ∧ Placed box area character.map

theorem zero_bytes_length (count : Nat) (data : List RgbQuad) :
    (zeroBytes count data).length = data.length := by
  fun_induction zeroBytes count data <;> simp_all

theorem set_background_length (background : RgbQuad) (data : List RgbQuad) :
    (setBackground background data).length = data.length := by
  rw [setBackground]
  split
  · exact zero_bytes_length _ _
  · rw [List.length_append, List.length_replicate, List.length_drop]
    omega

theorem text_box_small (text : TextParams) (width height : BitVec 16) :
    (textBox text width height).size < 256 ∧ (textBox text width height).width < 65536 :=
  ⟨text.size.isLt, Nat.mod_lt _ (by omega)⟩

section Placement

variable {box : TextBox} {area : Nat} {layout : Layout}

theorem Layout.Fits.new_line (fits : layout.Fits box area) : (layout.newLine box).Fits box area where
  length := fits.length
  line := by rw [newLine, fits.line, Nat.mul_add]
  placed := fits.placed

theorem Layout.Fits.start_line (fits : layout.Fits box area) :
    match startLine box layout with
    | .error stopped => stopped.Fits box area
    | .ok turned => turned.Fits box area ∧
        (turned.offsetX + box.size ≤ box.width ∨ turned.offsetX = 0) := by
  rw [startLine]
  by_cases full : box.width < layout.offsetX + box.size
  · rw [if_pos full]
    by_cases low : box.height < (layout.newLine box).offsetY + box.size
    · rw [if_pos low]
      exact fits.new_line
    · rw [if_neg low]
      exact ⟨⟨fits.new_line.length, fits.new_line.line, fits.new_line.placed⟩, Or.inr rfl⟩
  · rw [if_neg full]
    exact ⟨fits, Or.inl (Nat.le_of_not_lt full)⟩

theorem Layout.Fits.check_room (fits : layout.Fits box area) :
    match checkRoom box layout with
    | .error stopped => stopped.Fits box area
    | .ok checked => checked = layout ∧ box.width * (layout.offsetY + box.size) ≤ area := by
  rw [checkRoom]
  by_cases full : layout.data.length < layout.rgbData + box.width * box.size
  · rw [if_pos full]
    exact ⟨fits.length, fits.line, fits.placed⟩
  · rw [if_neg full]
    rw [fits.length, fits.line, ← Nat.mul_add] at full
    exact ⟨rfl, Nat.le_of_not_lt full⟩

theorem Layout.Fits.start (fits : layout.Fits box area) (small : box.size < 256)
    (narrow : box.width < 65536) (allocated : area < 1073741824) (pixelType : PixelType) :
    match (startLine box layout).bind (checkRoom box) with
    | .error stopped => stopped.Fits box area
    | .ok turned => turned.Fits box area ∧ Placed box area (turned.mapInfo pixelType box) := by
  have started := fits.start_line
  cases line : startLine box layout with
  | error stopped =>
      rw [line] at started
      exact started
  | ok turned =>
      rw [line] at started
      obtain ⟨fits, turn⟩ := started
      have checked := fits.check_room
      rw [Except.bind]
      cases room : checkRoom box turned with
      | error stopped =>
          rw [room] at checked
          exact checked
      | ok checked' =>
          rw [room] at checked
          obtain ⟨rfl, room⟩ := checked
          have left : checked'.offsetX < 1073741824 := by omega
          exact ⟨fits, ⟨small, small, left, allocated, room⟩, turn⟩

end Placement

section Run

variable (signed : Bool) {box : TextBox} {area : Nat}
  (asc : Option (FontFile box.size (box.size >>> 1))) (gb2312 : Option (FontFile box.size box.size))
  (around : FontLib → Int → Byte) (pixelType : PixelType) (dateEnable : Bool)

theorem convert_character_ends {layout : Layout} (fits : layout.Fits box area)
    (placed : Placed box area (layout.mapInfo pixelType box)) (ch : Byte × Byte) :
    ∃ (usedNbyte : Nat) (next : Layout), next.Fits box area ∧ ∀ tests, 256 ≤ tests →
      convertCharacter tests signed (loadedFont box.size asc gb2312) around pixelType dateEnable box
        ch layout = some (usedNbyte, next) := by
  obtain ⟨painting, length, ends⟩ := char_to_bitmap_ends signed asc gb2312 around ch
    layout.latticeInfo layout.data (by rw [fits.length]; exact placed.cell)
  let selection := selectGlyph signed (loadedFont box.size asc gb2312) ch layout.latticeInfo
  refine ⟨selection.usedNbyte, layout.advance pixelType dateEnable box ch selection painting, ?_,
    fun tests enough => ?_⟩
  · refine ⟨length.trans fits.length, fits.line, ?_⟩
    rw [Layout.advance, List.forall_mem_append, List.forall_mem_singleton]
    exact ⟨fits.placed, fits.length, placed⟩
  · rw [convertCharacter, ends tests enough, Option.map_some]

theorem convert_loop_ends (small : box.size < 256) (narrow : box.width < 65536)
    (allocated : area < 1073741824) (text : List Byte) :
    ∀ skip (layout : Layout), layout.Fits box area →
      ∃ final : Layout, final.Fits box area ∧ ∀ tests, 256 ≤ tests →
        convertLoop tests signed (loadedFont box.size asc gb2312) around pixelType dateEnable box
          skip text layout = some final := by
  induction text with
  | nil =>
      intro skip layout fits
      exact ⟨layout, fits, fun tests _ => by rw [convertLoop]⟩
  | cons byte rest ih =>
      intro skip layout fits
      cases skip with
      | succ skip => exact ih skip layout fits
      | zero =>
          have started := fits.start small narrow allocated pixelType
          simp only [convertLoop]
          cases start : (startLine box layout).bind (checkRoom box) with
          | error stopped =>
              rw [start] at started
              exact ⟨stopped, started, fun _ _ => rfl⟩
          | ok turned =>
              rw [start] at started
              obtain ⟨usedNbyte, next, fits, ends⟩ := convert_character_ends signed asc gb2312 around
                pixelType dateEnable started.1 started.2 (byte, rest.headD 0)
              obtain ⟨final, fits, goes⟩ := ih (usedNbyte - 1) next fits
              refine ⟨final, fits, fun tests enough => ?_⟩
              simp only [ends tests enough, Option.bind_some]
              exact goes tests enough

end Run

/-! ## What the text path paints -/

section Painted

variable (signed : Bool) (around : FontLib → Int → Byte) (pixelType : PixelType)
  (dateEnable : Bool) (text : TextParams)
  (asc : Option (FontFile text.size.toNat (text.size.toNat >>> 1)))
  (gb2312 : Option (FontFile text.size.toNat text.size.toNat)) (width height : BitVec 16)
  (datePar : Option ShowDateParams) (textData : TextData) (latticeInfo : LatticeInfo)

/-- The conversion of a text ends, and every character has its place. -/
theorem osd_convert_text_ends :
    ∃ outcome : Outcome,
      (∀ character ∈ outcome.characters, character.data.length = textData.data.length ∧
        Placed (textBox text width height) textData.data.length character.map) ∧
      ∀ tests, 256 ≤ tests →
        osdConvertText tests signed (loadedFont text.size.toNat asc gb2312) around pixelType
          dateEnable text width height datePar textData latticeInfo = some outcome := by
  obtain ⟨small, narrow⟩ := text_box_small text width height
  by_cases refused : (textBox text width height).height < (textBox text width height).size
  · refine ⟨⟨none, textData.data, datePar, []⟩, by simp, fun tests _ => ?_⟩
    exact if_pos refused
  · obtain ⟨final, fits, goes⟩ := convert_loop_ends signed asc gb2312 around pixelType dateEnable
      small narrow textData.allocated text.textStr 0
      (Layout.initial (setBackground pixelType.pixelBackground textData.data) datePar latticeInfo)
      ⟨set_background_length _ _, rfl, by simp [Layout.initial]⟩
    refine ⟨final.outcome (textBox text width height), fits.placed, fun tests enough => ?_⟩
    rw [osdConvertText, if_neg refused]
    exact congrArg (Option.map _) (goes tests enough)

/-- Both loops of the painter end for every character of a text. Each glyph lies in its font and
is painted bit for bit exactly when each character selects no glyph, or one that the font file has
and whose rows, each begun at the byte of its first bit, show the bits of its own. -/
theorem glyphs_painted_iff :
    ∃ outcome : Outcome,
      (∀ tests, 256 ≤ tests →
        osdConvertText tests signed (loadedFont text.size.toNat asc gb2312) around pixelType
          dateEnable text width height datePar textData latticeInfo = some outcome) ∧
      ((∀ character ∈ outcome.characters,
        character.Sound signed (loadedFont text.size.toNat asc gb2312) around) ↔
      ∀ character ∈ outcome.characters,
        Paintable signed asc gb2312 character.ch character.map) := by
  obtain ⟨outcome, placed, ends⟩ := osd_convert_text_ends signed around pixelType dateEnable text
    asc gb2312 width height datePar textData latticeInfo
  refine ⟨outcome, ends, forall₂_congr fun character member => ?_⟩
  obtain ⟨length, place⟩ := placed character member
  exact character.sound_iff signed asc gb2312 around (by rw [length]; exact place.cell) place.turned

end Painted

/-- A mark of size 12, six columns wide, whose top left pixel alone is set. -/
def dottedText : TextParams := ⟨[0x21], 12, 0, 0, 100, 100⟩

def dottedFont : FontFile 12 6 where
  bytes := List.replicate 396 0 ++ 0x80 :: List.replicate 11 0
  glyphs := 34
  holds := by
    rw [List.length_append, List.length_cons, List.length_replicate, List.length_replicate]
    decide

def oneLine : TextData where
  data := List.replicate 384 ⟨0, 0, 0, 0⟩
  allocated := by
    rw [List.length_replicate]
    decide

def whiteText : PixelType := ⟨⟨0, 0, 0, 0⟩, ⟨255, 255, 255, 255⟩, ⟨0, 0, 0, 255⟩⟩

set_option maxRecDepth 4000 in
/-- The painter begins the second row of the mark in the byte of the first. -/
theorem second_row_smeared :
    ¬ ∀ (signed : Bool) (around : FontLib → Int → Byte) (pixelType : PixelType)
      (dateEnable : Bool) (text : TextParams)
      (asc : Option (FontFile text.size.toNat (text.size.toNat >>> 1)))
      (gb2312 : Option (FontFile text.size.toNat text.size.toNat)) (width height : BitVec 16)
      (datePar : Option ShowDateParams) (textData : TextData) (latticeInfo : LatticeInfo),
      ∃ outcome : Outcome,
        (∀ tests, 256 ≤ tests →
          osdConvertText tests signed (loadedFont text.size.toNat asc gb2312) around pixelType
            dateEnable text width height datePar textData latticeInfo = some outcome) ∧
        ∀ character ∈ outcome.characters,
          character.Sound signed (loadedFont text.size.toNat asc gb2312) around := by
  intro every
  obtain ⟨outcome, ends, sound⟩ := every false (fun _ _ => 0) whiteText false dottedText
    (some dottedFont) none 704 576 none oneLine ⟨.bit, 0, 0, 0, 0⟩
  have painted : (osdConvertText 256 false (loadedFont 12 (some dottedFont) none) (fun _ _ => 0)
      whiteText false dottedText 704 576 none oneLine ⟨.bit, 0, 0, 0, 0⟩).map
        (fun outcome => outcome.characters.map fun character =>
          (character.ch, character.map, character.data.length)) =
      some [((0x21, 0), ⟨32, 0, 0, whiteText⟩, 384)] := by decide +kernel
  have run := (congrArg (Option.map fun outcome : Outcome =>
    outcome.characters.map fun character =>
      (character.ch, character.map, character.data.length)) (ends 256 (Nat.le_refl _))).symm.trans
        painted
  obtain ⟨character, member, same⟩ := List.mem_map.mp
    ((Option.some.inj run).symm ▸ List.mem_singleton_self _)
  obtain ⟨code, map, length⟩ := Prod.mk.inj same |>.imp id Prod.mk.inj
  have cell : CellRoom 12 12 character.map character.data.length := by
    rw [map, length]
    exact ⟨by decide, by decide, by decide, by decide, by decide⟩
  have paintable := (character.sound_iff false (some dottedFont) none (fun _ _ => 0) cell
    (by rw [map]; decide)).mp (sound character member)
  rcases paintable.1 (by rw [code]; decide) dottedFont rfl with empty | ⟨-, -, whole | agree⟩
  · exact absurd empty (by decide)
  · exact absurd whole (by decide)
  · have second := agree 1 (by decide) 0 (by rw [map]; decide)
    rw [code] at second
    revert second
    decide +kernel

end Gk7102.OsdText
