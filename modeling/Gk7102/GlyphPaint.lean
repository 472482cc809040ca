import Gk7102.ByteBlocks
import Gk7102.CounterLoops
import Gk7102.MachineInt
import Mathlib.Tactic.Ring

/-!
# Glyphs painted into an area

`char_to_bitmap_by_lattice_library` looks up the glyph of a character in a font file held in
memory, and its hook `fill_area_map_data` paints the glyph into the map of an area. A pointer
into a font is the font with an offset, and memory around a font may hold anything. The
library handle is not null, and the hook is set.
-/

namespace Gk7102.GlyphPaint

open ByteBlocks CounterLoops MachineInt RasterLoops

set_option autoImplicit false

structure RgbQuad where
  b : Byte
  g : Byte
  r : Byte
  a : Byte
deriving DecidableEq, Repr

structure PixelType where
  pixelBackground : RgbQuad
  pixelFont : RgbQuad
  pixelOutline : RgbQuad
deriving DecidableEq, Repr

structure MapInfo where
  width : Nat
  startx : Nat
  starty : Nat
  color : PixelType
deriving DecidableEq, Repr

inductive LatticeBaseType where
  | bit
  | char
  | int
deriving DecidableEq, Repr

structure LatticeInfo where
  type : LatticeBaseType
  width : Int
  height : Int
  x : Int
  y : Int
deriving DecidableEq, Repr

/-- The pixels of an area, with the bytes read and the pixels stored so far. -/
structure Painting where
  data : List RgbQuad
  reads : List Int
  writes : List Int
deriving DecidableEq, Repr

/-! ## Painting -/

def Painting.see (painting : Painting) (source : Int) : Painting :=
  { painting with reads := painting.reads ++ [source] }

def Painting.store (painting : Painting) (dst : Int) (color : RgbQuad) : Painting :=
  { painting with
    data := painting.data.set dst.toNat color
    writes := painting.writes ++ [dst] }

/-- The body of the inner loop of `fill_area_map_per_bit`. -/
def paintBit (buffer : Int → Byte) (map : MapInfo) (dst source : Int) (column : Nat)
    (painting : Painting) : Painting :=
  if dst < 0 then painting
  else if buffer source = 0 then painting.see source
  else if buffer source &&& (0x80#8 >>> (column &&& 0x07)) ≠ 0 then
    (painting.see source).store dst map.color.pixelFont
  else painting.see source

def dstIndex (info : LatticeInfo) (map : MapInfo) (row : Nat) : Int :=
  wrapInt (map.width * (row + map.starty + info.y) + map.startx + info.x)

def columnGoes (info : LatticeInfo) (map : MapInfo) (column : Nat) : Bool :=
  (column : Int) < info.width ∧ (column + map.startx) % intModulus < map.width

/-- `row` and `col` are of type `unsigned char`. -/
def fillAreaMapPerBit (tests : Nat) (buffer : Int → Byte) (info : LatticeInfo) (map : MapInfo)
    (painting : Painting) : Option Painting :=
  loopFrom 256 (fun row => (row : Int) < info.height)
    (fun row =>
      let srcIndex : Int := (row * info.width) >>> (3 : Nat)
      loopFrom 256 (columnGoes info map)
        (fun column painting =>
          some (paintBit buffer map (dstIndex info map row + column) (srcIndex + (column / 8 : Nat))
            column painting)) tests 0) tests 0 painting

/-- The body of the inner loop of `fill_area_map_per_char`. -/
def paintChar (buffer : Int → Byte) (map : MapInfo) (dst source : Int) (painting : Painting) :
    Painting :=
  if dst < 0 then painting
  else if buffer source = 0 then painting.see source
  else if buffer source = 0xff then (painting.see source).store dst map.color.pixelFont
  else (painting.see source).store dst { map.color.pixelOutline with a := buffer source }

/-- `row` and `col` are of type `int`. -/
def fillAreaMapPerChar (tests : Nat) (buffer : Int → Byte) (info : LatticeInfo) (map : MapInfo)
    (painting : Painting) : Option Painting :=
  loopFrom intModulus (fun row => (row : Int) < info.height)
    (fun row =>
      loopFrom intModulus (columnGoes info map)
        (fun column painting =>
          some (paintChar buffer map (dstIndex info map row + column) (row * info.width + column)
            painting)) tests 0) tests 0 painting

def fillAreaMapData (tests : Nat) (buffer : Option (Int → Byte)) (info : LatticeInfo)
    (map : MapInfo) (painting : Painting) : Option Painting :=
  match buffer with
  | none => some painting
  | some buffer =>
      match info.type with
      | .bit => fillAreaMapPerBit tests buffer info map painting
      | .char => fillAreaMapPerChar tests buffer info map painting
      | .int => some painting

/-! ## The library -/

inductive FontLib where
  | asc
  | gb2312
deriving DecidableEq, Repr

structure LatticeFont where
  size : Nat
  ascLib : Option (List Byte)
  gb2312Lib : Option (List Byte)
deriving DecidableEq, Repr

structure GlyphPointer where
  lib : FontLib
  offset : Int
deriving DecidableEq, Repr

def LatticeFont.bytes (font : LatticeFont) : FontLib → List Byte
  | .asc => font.ascLib.getD []
  | .gb2312 => font.gb2312Lib.getD []

def LatticeFont.byteAt (font : LatticeFont) (around : FontLib → Int → Byte)
    (pointer : GlyphPointer) (i : Int) : Byte :=
  if 0 ≤ pointer.offset + i then
    ((font.bytes pointer.lib)[(pointer.offset + i).toNat]?).getD
      (around pointer.lib (pointer.offset + i))
  else around pointer.lib (pointer.offset + i)

structure Selection where
  buffer : Option GlyphPointer
  info : LatticeInfo
  usedNbyte : Nat
deriving DecidableEq, Repr

def strideBytes (width : Int) : Int := (width + 7).tdiv 8

/-- What `char_to_bitmap_by_lattice_library` hands to its hook. Characters that no library
holds leave the size that the caller has. -/
def selectGlyph (signed : Bool) (font : LatticeFont) (ch : Byte × Byte) (info : LatticeInfo) :
    Selection :=
  let code := charInt signed ch.1
  let gb2312Width := wrapInt font.size
  let ascWidth : Int := (font.size >>> 1 : Nat)
  if code < 0x7f ∧ font.ascLib.isSome then
    { buffer := some ⟨.asc, wrapInt (code * font.size * strideBytes ascWidth)⟩
      info := ⟨.bit, ascWidth, wrapInt font.size, 0, 0⟩
      usedNbyte := 1 }
  else if code > 0xa0 ∧ font.gb2312Lib.isSome then
    let quCode := code - 0xa0 - 1
    let weiCode := charInt signed ch.2 - 0xa0 - 1
    { buffer :=
        if 6 = quCode then none
        else some ⟨.gb2312,
          wrapInt ((quCode * 94 + weiCode) * font.size * strideBytes gb2312Width)⟩
      info := ⟨.bit, gb2312Width, wrapInt font.size, 0, 0⟩
      usedNbyte := 2 }
  else
    { buffer := none
      info := { info with type := .bit, x := 0, y := 0 }
      usedNbyte := 1 }

def charToBitmapByLatticeLibrary (tests : Nat) (signed : Bool) (font : LatticeFont)
    (around : FontLib → Int → Byte) (ch : Byte × Byte) (info : LatticeInfo) (map : MapInfo)
    (painting : Painting) : Option (Selection × Painting) :=
  let selection := selectGlyph signed font ch info
  (fillAreaMapData tests (selection.buffer.map (font.byteAt around)) selection.info map
    painting).map fun painting => (selection, painting)

/-! ## What is painted -/

def glyphBit (byte : Byte) (column : Nat) : Bool := byte &&& (0x80#8 >>> (column % 8)) ≠ 0

def Painting.cell (painting : Painting) (color : RgbQuad) (place source : Int) (set : Bool) :
    Painting :=
  if set then (painting.see source).store place color else painting.see source

def storeAll (color : RgbQuad) (data : List RgbQuad) (writes : List Int) : List RgbQuad :=
  writes.foldl (fun data place => data.set place.toNat color) data

/-- The columns of a glyph that the area has room for. -/
def visible (columns : Nat) (map : MapInfo) : Nat := min columns (map.width - map.startx)

def pixelPlace (map : MapInfo) (row column : Nat) : Nat :=
  map.width * (map.starty + row) + (map.startx + column)

structure CellRoom (rows columns : Nat) (map : MapInfo) (area : Nat) : Prop where
  rows_small : rows < 256
  columns_small : columns < 256
  startx_small : map.startx < 1073741824
  area_small : area < 1073741824
  room : map.width * (map.starty + rows) ≤ area

section Painter

variable {buffer : Int → Byte} {map : MapInfo} {rows columns area tests : Nat}

theorem paint_bit_cell {dst source : Int} (inside : 0 ≤ dst) (column : Nat) (painting : Painting) :
    paintBit buffer map dst source column painting =
      painting.cell map.color.pixelFont dst source (glyphBit (buffer source) column) := by
  have mask : column &&& 7 = column % 8 := Nat.and_two_pow_sub_one_eq_mod column 3
  rw [paintBit, if_neg (Int.not_lt.mpr inside), Painting.cell, glyphBit, mask]
  by_cases blank : buffer source = 0
  · simp [blank]
  · rw [if_neg blank]
    simp only [decide_eq_true_eq]

theorem loop_cells (color : RgbQuad) (place source : Nat → Int) (set : Nat → Bool) (count : Nat)
    (data : List RgbQuad) :
    loop (fun i (painting : Painting) => painting.cell color (place i) (source i) (set i)) count
        ⟨data, [], []⟩ =
      { data := storeAll color data (((List.range count).filter set).map place)
        reads := (List.range count).map source
        writes := ((List.range count).filter set).map place } := by
  induction count with
  | zero => rfl
  | succ count ih =>
      rw [loop, ih, List.range_succ, List.filter_append, List.map_append, List.map_append,
        Painting.cell]
      cases bit : set count <;>
        simp [bit, Painting.see, Painting.store, storeAll]

theorem CellRoom.place_below (cell : CellRoom rows columns map area) {row column : Nat}
    (above : row < rows) (inside : column < visible columns map) :
    pixelPlace map row column < area := by
  have fits : map.startx + column < map.width := by
    unfold visible at inside
    omega
  have line : map.width * (map.starty + row + 1) ≤ map.width * (map.starty + rows) :=
    Nat.mul_le_mul_left _ (by omega)
  have room := cell.room
  rw [Nat.mul_succ] at line
  unfold pixelPlace
  omega

theorem CellRoom.dst_index (cell : CellRoom rows columns map area) {row column : Nat}
    (above : row < rows) (inside : column < visible columns map) :
    dstIndex ⟨.bit, columns, rows, 0, 0⟩ map row + column = pixelPlace map row column := by
  have below := cell.place_below above (Nat.zero_lt_of_lt inside)
  have start : (map.width * (row + map.starty + 0) + map.startx + 0 : Int) =
      pixelPlace map row 0 := by
    unfold pixelPlace
    push_cast
    ring
  have small := cell.area_small
  rw [dstIndex, start, wrap_int_fits (by unfold FitsInt; omega)]
  unfold pixelPlace
  push_cast
  ring

theorem CellRoom.column_goes (cell : CellRoom rows columns map area) {column : Nat}
    (reached : column ≤ visible columns map) :
    columnGoes ⟨.bit, columns, rows, 0, 0⟩ map column = true ↔ column < visible columns map := by
  have small := cell.startx_small
  have narrow := cell.columns_small
  have kept : (column + map.startx) % intModulus = column + map.startx := by
    apply Nat.mod_eq_of_lt
    unfold visible at reached
    unfold intModulus
    omega
  rw [columnGoes, kept]
  unfold visible at reached ⊢
  simp only [decide_eq_true_eq]
  omega

/-- The source byte of a pixel, as the painter computes it. -/
def paintSource (columns row column : Nat) : Nat := row * columns / 8 + column / 8

def paintedCells (buffer : Int → Byte) (columns : Nat) (map : MapInfo) (rows : Nat) :
    List (Nat × Nat) :=
  (places rows (visible columns map)).filter fun place =>
    glyphBit (buffer (paintSource columns place.1 place.2)) place.2

theorem CellRoom.fill_per_bit (cell : CellRoom rows columns map area) (enough : 256 ≤ tests)
    (buffer : Int → Byte) (data : List RgbQuad) :
    fillAreaMapPerBit tests buffer ⟨.bit, columns, rows, 0, 0⟩ map ⟨data, [], []⟩ =
      some
        { data := storeAll map.color.pixelFont data
            ((paintedCells buffer columns map rows).map fun place =>
              (pixelPlace map place.1 place.2 : Int))
          reads := (places rows (visible columns map)).map fun place =>
            (paintSource columns place.1 place.2 : Int)
          writes := (paintedCells buffer columns map rows).map fun place =>
            (pixelPlace map place.1 place.2 : Int) } := by
  have narrow : visible columns map < 256 :=
    Nat.lt_of_le_of_lt (Nat.min_le_left _ _) cell.columns_small
  let paint (row column : Nat) (painting : Painting) : Painting :=
    painting.cell map.color.pixelFont (pixelPlace map row column) (paintSource columns row column)
      (glyphBit (buffer (paintSource columns row column)) column)
  have pixel : ∀ row < rows, ∀ column < visible columns map, ∀ painting,
      paintBit buffer map (dstIndex ⟨.bit, columns, rows, 0, 0⟩ map row + column)
        (((row * columns : Int) >>> (3 : Nat)) + (column / 8 : Nat)) column painting =
      paint row column painting := by
    intro row above column inside painting
    have source : ((row * columns : Int) >>> (3 : Nat)) + (column / 8 : Nat) =
        paintSource columns row column := by
      rw [Int.shiftRight_eq_div_pow, paintSource]
      push_cast
      rfl
    rw [cell.dst_index above inside, source,
      paint_bit_cell (Int.natCast_nonneg _)]
  have line : ∀ row < rows, ∀ painting,
      loopFrom 256 (columnGoes ⟨.bit, columns, rows, 0, 0⟩ map)
        (fun column painting =>
          some (paintBit buffer map (dstIndex ⟨.bit, columns, rows, 0, 0⟩ map row + column)
            (((row * columns : Int) >>> (3 : Nat)) + (column / 8 : Nat)) column painting))
        tests 0 painting =
      some (loop (paint row) (visible columns map) painting) := by
    intro row above painting
    apply loop_from_zero narrow
    · exact fun column inside => (cell.column_goes (Nat.le_of_lt inside)).mpr inside
    · rw [← Bool.not_eq_true, cell.column_goes (Nat.le_refl _)]
      exact Nat.lt_irrefl _
    · intro column inside painting
      rw [pixel row above column inside]
    · omega
  have flat : loop (fun row => loop (paint row) (visible columns map)) rows ⟨data, [], []⟩ =
      loop (fun i => paint (i / visible columns map) (i % visible columns map))
        (rows * visible columns map) ⟨data, [], []⟩ := by
    apply loop_rows
    intro row column inside painting
    rw [place_row inside, place_column inside]
  have goes : ∀ row < rows, decide ((row : Int) < rows) = true := fun row above =>
    decide_eq_true (Int.ofNat_lt.mpr above)
  have ends : decide ((rows : Int) < rows) = false := decide_eq_false (Int.lt_irrefl _)
  have painted := loop_from_zero cell.rows_small goes ends line
    (Nat.lt_of_lt_of_le cell.rows_small enough) ⟨data, [], []⟩
  rw [flat, loop_cells] at painted
  rw [fillAreaMapPerBit, paintedCells, places, List.filter_map, List.map_map, List.map_map]
  exact painted

theorem store_all_length (color : RgbQuad) (data : List RgbQuad) (writes : List Int) :
    (storeAll color data writes).length = data.length := by
  induction writes generalizing data with
  | nil => rfl
  | cons first writes ih =>
      rw [storeAll, List.foldl_cons]
      rw [← storeAll, ih, List.length_set]

theorem CellRoom.fills (cell : CellRoom rows columns map area) (buffer : Int → Byte)
    (data : List RgbQuad) :
    ∃ painting : Painting, painting.data.length = data.length ∧ ∀ tests, 256 ≤ tests →
      fillAreaMapPerBit tests buffer ⟨.bit, columns, rows, 0, 0⟩ map ⟨data, [], []⟩ =
        some painting := by
  refine ⟨_, ?_, fun tests enough => cell.fill_per_bit enough buffer data⟩
  exact store_all_length _ _ _

/-- A glyph of 256 rows or more is painted for ever. -/
theorem fill_per_bit_endless {info : LatticeInfo} (tall : 256 ≤ info.height)
    (painting : Painting) : fillAreaMapPerBit tests buffer info map painting = none := by
  apply loop_from_endless (by decide) _ tests 0 (by decide)
  intro row below
  exact decide_eq_true (by omega)

end Painter

/-! ## Glyphs -/

def stride (columns : Nat) : Nat := (columns + 7) / 8

def glyphBytes (rows columns : Nat) : Nat := rows * stride columns

def glyphPixel (glyph : List Byte) (columns row column : Nat) : Bool :=
  glyphBit (glyph.getD (row * stride columns + column / 8) 0) column

/-- The pixels of a cell inside the area are stored exactly when the glyph has them set, and no
byte outside the glyph is read. -/
structure PaintsGlyph (glyph : List Byte) (rows columns : Nat) (map : MapInfo)
    (data : List RgbQuad) (painting : Painting) : Prop where
  reads_glyph : ∀ source ∈ painting.reads, 0 ≤ source ∧ source < glyphBytes rows columns
  paints : ∀ row < rows, ∀ column < columns, map.startx + column < map.width →
    ((pixelPlace map row column : Int) ∈ painting.writes ↔
      glyphPixel glyph columns row column = true)
  only_cell : ∀ place ∈ painting.writes, ∃ row < rows, ∃ column < columns,
    map.startx + column < map.width ∧ place = pixelPlace map row column ∧
      pixelPlace map row column < data.length
  stores : ∀ place : Nat, painting.data[place]? =
    if (place : Int) ∈ painting.writes then some map.color.pixelFont else data[place]?

def RowsAgree (glyph : List Byte) (rows columns : Nat) (map : MapInfo) : Prop :=
  ∀ row < rows, ∀ column < visible columns map,
    glyphBit (glyph.getD (paintSource columns row column) 0) column =
      glyphPixel glyph columns row column

section Glyphs

variable {map : MapInfo} {rows columns area : Nat}

theorem visible_iff {column : Nat} :
    column < visible columns map ↔ column < columns ∧ map.startx + column < map.width := by
  unfold visible
  omega

theorem paint_source_lt {row column : Nat} (above : row < rows) (inside : column < columns) :
    paintSource columns row column < glyphBytes rows columns := by
  have wide : columns ≤ stride columns * 8 := by
    unfold stride
    omega
  have line : row * columns ≤ row * stride columns * 8 := by
    rw [Nat.mul_assoc]
    exact Nat.mul_le_mul_left row wide
  have whole : (row + 1) * stride columns ≤ rows * stride columns := Nat.mul_le_mul_right _ above
  rw [Nat.succ_mul] at whole
  unfold paintSource glyphBytes
  omega

/-- Whole bytes to a row: the two ways to find a row are one. -/
theorem rows_agree_of_dvd (whole : 8 ∣ columns) (glyph : List Byte) :
    RowsAgree glyph rows columns map := by
  intro row _ column _
  obtain ⟨bytes, rfl⟩ := whole
  have painted : row * (8 * bytes) / 8 = row * bytes := by
    rw [Nat.mul_left_comm, Nat.mul_div_cancel_left _ (by omega)]
  have held : stride (8 * bytes) = bytes := by
    unfold stride
    omega
  rw [paintSource, glyphPixel, painted, held]

theorem pixel_place_injective {row column row' column' : Nat}
    (inside : map.startx + column < map.width) (inside' : map.startx + column' < map.width)
    (same : pixelPlace map row column = pixelPlace map row' column') :
    row = row' ∧ column = column' := by
  unfold pixelPlace at same
  rw [Nat.mul_comm, Nat.mul_comm map.width] at same
  have line : ((map.starty + row) * map.width + (map.startx + column)) / map.width =
      map.starty + row := place_row inside
  have place : ((map.starty + row) * map.width + (map.startx + column)) % map.width =
      map.startx + column := place_column inside
  rw [same, place_row inside'] at line
  rw [same, place_column inside'] at place
  omega

theorem store_all_getelem (color : RgbQuad) (writes : List Int) (data : List RgbQuad)
    (inside : ∀ dst ∈ writes, 0 ≤ dst ∧ dst < data.length) (place : Nat) :
    (storeAll color data writes)[place]? =
      if (place : Int) ∈ writes then some color else data[place]? := by
  induction writes generalizing data with
  | nil => simp [storeAll]
  | cons first writes ih =>
      obtain ⟨positive, below⟩ := inside first List.mem_cons_self
      have rest := ih (data.set first.toNat color) fun dst member => by
        rw [List.length_set]
        exact inside dst (List.mem_cons_of_mem _ member)
      rw [storeAll] at rest ⊢
      rw [List.foldl_cons, rest, List.getElem?_set]
      simp only [List.mem_cons]
      by_cases again : (place : Int) ∈ writes
      · rw [if_pos again, if_pos (Or.inr again)]
      · rw [if_neg again]
        by_cases now : (place : Int) = first
        · rw [if_pos (by omega), if_pos (by omega), if_pos (Or.inl now)]
        · rw [if_neg (by omega), if_neg (by simp only [now, again, or_self, not_false_eq_true])]

/-- The cell is painted right exactly when the rows agree. -/
theorem CellRoom.paints_iff (data : List RgbQuad) (cell : CellRoom rows columns map data.length)
    {glyph : List Byte} {buffer : Int → Byte}
    (held : ∀ i < glyphBytes rows columns, buffer (i : Nat) = glyph.getD i 0) {painting : Painting}
    (painted : ∀ tests, 256 ≤ tests →
      fillAreaMapPerBit tests buffer ⟨.bit, columns, rows, 0, 0⟩ map ⟨data, [], []⟩ =
        some painting) :
    PaintsGlyph glyph rows columns map data painting ↔ RowsAgree glyph rows columns map := by
  have result := Option.some.inj
    ((painted 256 (Nat.le_refl _)).symm.trans (cell.fill_per_bit (Nat.le_refl _) buffer data))
  have listed : ∀ place : Nat × Nat, place ∈ paintedCells buffer columns map rows ↔
      (place.1 < rows ∧ place.2 < visible columns map) ∧
        glyphBit (glyph.getD (paintSource columns place.1 place.2) 0) place.2 = true := by
    intro place
    rw [paintedCells, List.mem_filter, mem_places]
    apply and_congr_right
    intro inside
    rw [held _ (paint_source_lt inside.1 (visible_iff.mp inside.2).1)]
  have stored : ∀ row < rows, ∀ column < visible columns map,
      ((pixelPlace map row column : Int) ∈ painting.writes ↔
        glyphBit (glyph.getD (paintSource columns row column) 0) column = true) := by
    intro row above column inside
    rw [result, List.mem_map]
    constructor
    · rintro ⟨place, member, same⟩
      obtain ⟨⟨above', inside'⟩, bit⟩ := (listed place).mp member
      obtain ⟨rfl, rfl⟩ := pixel_place_injective (visible_iff.mp inside').2
        (visible_iff.mp inside).2 (Int.ofNat_inj.mp same)
      exact bit
    · exact fun bit => ⟨(row, column), (listed _).mpr ⟨⟨above, inside⟩, bit⟩, rfl⟩
  have only : ∀ place ∈ painting.writes, ∃ row < rows, ∃ column < columns,
      map.startx + column < map.width ∧ place = pixelPlace map row column ∧
        pixelPlace map row column < data.length := by
    intro place member
    rw [result, List.mem_map] at member
    obtain ⟨⟨row, column⟩, member, rfl⟩ := member
    obtain ⟨⟨above, inside⟩, -⟩ := (listed _).mp member
    obtain ⟨narrow, room⟩ := visible_iff.mp inside
    exact ⟨row, above, column, narrow, room, rfl, cell.place_below above inside⟩
  constructor
  · intro paints row above column inside
    obtain ⟨narrow, room⟩ := visible_iff.mp inside
    rw [Bool.eq_iff_iff]
    exact (stored row above column inside).symm.trans (paints.paints row above column narrow room)
  · intro agree
    refine ⟨?_, ?_, only, ?_⟩
    · intro source member
      rw [result, List.mem_map] at member
      obtain ⟨⟨row, column⟩, member, rfl⟩ := member
      obtain ⟨above, inside⟩ := mem_places.mp member
      exact ⟨Int.natCast_nonneg _,
        Int.ofNat_lt.mpr (paint_source_lt above (visible_iff.mp inside).1)⟩
    · intro row above column narrow room
      have inside := visible_iff.mpr ⟨narrow, room⟩
      rw [stored row above column inside, agree row above column inside]
    · intro place
      have inside : ∀ dst ∈ painting.writes, 0 ≤ dst ∧ dst < data.length := by
        intro dst member
        obtain ⟨row, -, column, -, -, rfl, below⟩ := only dst member
        exact ⟨Int.natCast_nonneg _, Int.ofNat_lt.mpr below⟩
      rw [← store_all_getelem map.color.pixelFont painting.writes data inside, result]

end Glyphs

end Gk7102.GlyphPaint
