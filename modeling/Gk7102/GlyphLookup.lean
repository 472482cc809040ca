import Gk7102.GlyphPaint

/-!
# Glyphs out of font files

A font file holds the glyphs of one size, each with whole bytes to a row. Which glyph a
character selects is decided by its code alone, and the file need not hold that glyph.
-/

namespace Gk7102.GlyphPaint

open ByteBlocks MachineInt

set_option autoImplicit false

structure FontFile (rows columns : Nat) where
  bytes : List Byte
  glyphs : Nat
  holds : bytes.length = glyphs * glyphBytes rows columns

def glyphAt (bytes : List Byte) (rows columns : Nat) (offset : Int) : List Byte :=
  (bytes.drop offset.toNat).take (glyphBytes rows columns)

/-- The library after the font attribute is set: a file that cannot be loaded leaves none. -/
def loadedFont (size : Nat) (asc : Option (FontFile size (size >>> 1)))
    (gb2312 : Option (FontFile size size)) : LatticeFont where
  size := size
  ascLib := asc.map FontFile.bytes
  gb2312Lib := gb2312.map FontFile.bytes

/-- A character as the text path paints it. -/
structure Character where
  ch : Byte × Byte
  info : LatticeInfo
  map : MapInfo
  data : List RgbQuad
deriving DecidableEq, Repr

/-- The loops end, and either there is no glyph and nothing happens, or the glyph lies in the
font and is painted. -/
def Character.Sound (character : Character) (signed : Bool) (font : LatticeFont)
    (around : FontLib → Int → Byte) : Prop :=
  let selection := selectGlyph signed font character.ch character.info
  let rows := selection.info.height.toNat
  let columns := selection.info.width.toNat
  ∃ painting,
    (∀ tests, 256 ≤ tests →
      charToBitmapByLatticeLibrary tests signed font around character.ch character.info
        character.map ⟨character.data, [], []⟩ = some (selection, painting)) ∧
    match selection.buffer with
    | none => painting = ⟨character.data, [], []⟩
    | some pointer =>
        0 ≤ pointer.offset ∧
        pointer.offset + glyphBytes rows columns ≤ (font.bytes pointer.lib).length ∧
        PaintsGlyph (glyphAt (font.bytes pointer.lib) rows columns pointer.offset) rows columns
          character.map character.data painting ∧
        (font.size ≤ character.map.width →
          character.map.startx + columns ≤ character.map.width)

/-- The file has a glyph of this number whose rows the painter finds. -/
def FontFile.Paintable {rows columns : Nat} (file : FontFile rows columns) (index : Int)
    (map : MapInfo) : Prop :=
  glyphBytes rows columns = 0 ∨ 0 ≤ index ∧ index < file.glyphs ∧
    (8 ∣ columns ∨
      RowsAgree (glyphAt file.bytes rows columns (index * glyphBytes rows columns)) rows columns map)

/-- The characters that are painted right. -/
def Paintable (signed : Bool) {size : Nat} (asc : Option (FontFile size (size >>> 1)))
    (gb2312 : Option (FontFile size size)) (ch : Byte × Byte) (map : MapInfo) : Prop :=
  (charInt signed ch.1 < 0x7f → ∀ file ∈ asc, file.Paintable (charInt signed ch.1) map) ∧
  (0xa0 < charInt signed ch.1 → charInt signed ch.1 ≠ 0xa7 → ∀ file ∈ gb2312,
    file.Paintable ((charInt signed ch.1 - 0xa1) * 94 + (charInt signed ch.2 - 0xa1)) map)

section Lookup

variable {rows columns size : Nat}

theorem char_int_bounds (signed : Bool) (byte : Byte) :
    -128 ≤ charInt signed byte ∧ charInt signed byte < 256 := by
  unfold charInt
  have unsigned := byte.isLt
  have lower := BitVec.le_toInt byte
  have upper := BitVec.toInt_lt (x := byte)
  split <;> omega

theorem stride_bytes_eq (columns : Nat) : strideBytes columns = (stride columns : Int) := by
  rw [strideBytes, stride, Int.tdiv_eq_ediv_of_nonneg (by omega)]
  rfl

theorem offset_fits {index : Int} (lower : -10000 ≤ index) (upper : index ≤ 10000)
    (small : size < 256) (narrow : columns ≤ size) :
    wrapInt (index * size * stride columns) = index * glyphBytes size columns := by
  have bytes : stride columns ≤ 32 := by
    unfold stride
    omega
  have area : glyphBytes size columns ≤ 255 * 32 := Nat.mul_le_mul (by omega) bytes
  have size_ : (index * glyphBytes size columns).natAbs ≤ 10000 * (255 * 32) := by
    rw [Int.natAbs_mul, Int.natAbs_natCast]
    exact Nat.mul_le_mul (by omega) area
  have whole : index * size * stride columns = index * glyphBytes size columns := by
    rw [glyphBytes, Int.natCast_mul, Int.mul_assoc]
  rw [whole]
  exact wrap_int_fits (by unfold FitsInt; omega)

theorem size_fits (small : size < 256) : wrapInt size = size :=
  wrap_int_fits (by unfold FitsInt; omega)

theorem select_glyph_cases (signed : Bool) (small : size < 256)
    (asc : Option (FontFile size (size >>> 1))) (gb2312 : Option (FontFile size size))
    (ch : Byte × Byte) (info : LatticeInfo) :
    (charInt signed ch.1 < 0x7f ∧ (∃ file : FontFile size (size >>> 1), asc = some file) ∧
      selectGlyph signed (loadedFont size asc gb2312) ch info =
        ⟨some ⟨.asc, charInt signed ch.1 * glyphBytes size (size >>> 1)⟩,
          ⟨.bit, (size >>> 1 : Nat), size, 0, 0⟩, 1⟩) ∨
    (0xa0 < charInt signed ch.1 ∧ charInt signed ch.1 ≠ 0xa7 ∧
      (∃ file : FontFile size size, gb2312 = some file) ∧
      selectGlyph signed (loadedFont size asc gb2312) ch info =
        ⟨some ⟨.gb2312, ((charInt signed ch.1 - 0xa1) * 94 + (charInt signed ch.2 - 0xa1)) *
            glyphBytes size size⟩, ⟨.bit, size, size, 0, 0⟩, 2⟩) ∨
    ((selectGlyph signed (loadedFont size asc gb2312) ch info).buffer = none ∧
      (charInt signed ch.1 < 0x7f → asc = none) ∧
      (0xa0 < charInt signed ch.1 → charInt signed ch.1 ≠ 0xa7 → gb2312 = none)) := by
  obtain ⟨lower, upper⟩ := char_int_bounds signed ch.1
  obtain ⟨lower', upper'⟩ := char_int_bounds signed ch.2
  have half : size >>> 1 ≤ size := Nat.shiftRight_le _ _
  simp only [selectGlyph, loadedFont, Option.isSome_map, size_fits small, stride_bytes_eq]
  by_cases low : charInt signed ch.1 < 0x7f
  · have notHigh : ¬ 0xa0 < charInt signed ch.1 := by omega
    cases asc with
    | none =>
        right; right
        simp [notHigh]
    | some file =>
        left
        refine ⟨low, ⟨file, rfl⟩, ?_⟩
        rw [offset_fits (by omega) (by omega) small half]
        simp [low]
  · by_cases high : 0xa0 < charInt signed ch.1
    · cases gb2312 with
      | none =>
          right; right
          simp [low]
      | some file =>
          by_cases russian : charInt signed ch.1 = 0xa7
          · right; right
            simp [russian]
          · right; left
            refine ⟨high, russian, ⟨file, rfl⟩, ?_⟩
            have quCode : charInt signed ch.1 - 0xa0 - 1 = charInt signed ch.1 - 0xa1 := by omega
            have weiCode : charInt signed ch.2 - 0xa0 - 1 = charInt signed ch.2 - 0xa1 := by omega
            rw [quCode, weiCode, offset_fits (by omega) (by omega) small (Nat.le_refl _)]
            have plain : ¬ 6 = charInt signed ch.1 - 0xa1 := by omega
            simp [low, high, plain]
    · right; right
      simp [low, high]

variable (rows columns) in
theorem byte_at_glyph (font : LatticeFont) (around : FontLib → Int → Byte) (pointer : GlyphPointer)
    (positive : 0 ≤ pointer.offset)
    (below : pointer.offset + glyphBytes rows columns ≤ (font.bytes pointer.lib).length) {i : Nat}
    (inside : i < glyphBytes rows columns) :
    font.byteAt around pointer i =
      (glyphAt (font.bytes pointer.lib) rows columns pointer.offset).getD i 0 := by
  have place : (pointer.offset + i).toNat = pointer.offset.toNat + i := by omega
  have held : pointer.offset.toNat + i < (font.bytes pointer.lib).length := by omega
  rw [LatticeFont.byteAt, if_pos (by omega), place, glyphAt, List.getD_eq_getElem?_getD,
    List.getElem?_take_of_lt inside, List.getElem?_drop, List.getElem?_eq_getElem held]
  rfl

theorem FontFile.inside_iff (file : FontFile rows columns) (some_bytes : 0 < glyphBytes rows columns)
    (index : Int) :
    (0 ≤ index * glyphBytes rows columns ∧
      index * glyphBytes rows columns + glyphBytes rows columns ≤ file.bytes.length) ↔
    0 ≤ index ∧ index < file.glyphs := by
  have positive : (0 : Int) < glyphBytes rows columns := by omega
  have next : index * glyphBytes rows columns + glyphBytes rows columns =
      (index + 1) * glyphBytes rows columns := by
    rw [Int.add_mul, Int.one_mul]
  have length : (file.bytes.length : Int) = file.glyphs * glyphBytes rows columns := by
    rw [file.holds, Int.natCast_mul]
  rw [next, length, Int.mul_nonneg_iff_of_pos_right positive, Int.mul_le_mul_right positive,
    Int.add_one_le_iff]

/-- A glyph of a file is painted right exactly when the file has it and the painter finds its
rows. -/
theorem glyph_sound_iff (file : FontFile rows columns) (index : Int) (font : LatticeFont)
    (around : FontLib → Int → Byte) (lib : FontLib) (loaded : font.bytes lib = file.bytes)
    {map : MapInfo} (data : List RgbQuad) (cell : CellRoom rows columns map data.length)
    {painting : Painting}
    (painted : ∀ tests, 256 ≤ tests →
      fillAreaMapPerBit tests (font.byteAt around ⟨lib, index * glyphBytes rows columns⟩)
        ⟨.bit, columns, rows, 0, 0⟩ map ⟨data, [], []⟩ = some painting) :
    (0 ≤ index * glyphBytes rows columns ∧
      index * glyphBytes rows columns + glyphBytes rows columns ≤ file.bytes.length ∧
      PaintsGlyph (glyphAt file.bytes rows columns (index * glyphBytes rows columns)) rows columns
        map data painting) ↔ file.Paintable index map := by
  have inFile := byte_at_glyph rows columns font around
    ⟨lib, index * glyphBytes rows columns⟩
  rw [loaded] at inFile
  rcases Nat.eq_zero_or_pos (glyphBytes rows columns) with empty | some_bytes
  · have agree : RowsAgree (glyphAt file.bytes rows columns 0) rows columns map := by
      intro row above column inside
      have := paint_source_lt above (visible_iff.mp inside).1
      omega
    have held : ∀ i < glyphBytes rows columns,
        font.byteAt around ⟨lib, index * glyphBytes rows columns⟩ (i : Nat) =
          (glyphAt file.bytes rows columns 0).getD i 0 := by
      intro i inside
      omega
    have start : index * (glyphBytes rows columns : Int) = 0 := by
      rw [empty]
      exact Int.mul_zero _
    have done := (cell.paints_iff data held painted).mpr agree
    rw [start]
    simp only [FontFile.Paintable, empty, true_or, iff_true]
    exact ⟨Int.le_refl _, by simp, done⟩
  · rw [FontFile.Paintable, ← and_assoc, file.inside_iff some_bytes]
    constructor
    · rintro ⟨there, paints⟩
      obtain ⟨lower, upper⟩ := (file.inside_iff some_bytes index).mpr there
      have agree := (cell.paints_iff data
        (fun i inside => inFile lower upper inside) painted).mp paints
      exact Or.inr ⟨there.1, there.2, Or.inr agree⟩
    · rintro (empty | ⟨lower', upper', rows_found⟩)
      · omega
      · obtain ⟨lower, upper⟩ := (file.inside_iff some_bytes index).mpr ⟨lower', upper'⟩
        have agree : RowsAgree (glyphAt file.bytes rows columns (index * glyphBytes rows columns))
            rows columns map := by
          rcases rows_found with whole | agree
          · exact rows_agree_of_dvd whole _
          · exact agree
        exact ⟨⟨lower', upper'⟩, (cell.paints_iff data
          (fun i inside => inFile lower upper inside) painted).mpr agree⟩

end Lookup

theorem CellRoom.narrower {rows columns narrow area : Nat} {map : MapInfo}
    (cell : CellRoom rows columns map area) (less : narrow ≤ columns) :
    CellRoom rows narrow map area :=
  { cell with columns_small := Nat.lt_of_le_of_lt less cell.columns_small }

theorem Character.sound_of_selected (character : Character) {signed : Bool} {font : LatticeFont}
    (around : FontLib → Int → Byte) {columns used : Nat} (file : FontFile font.size columns)
    {index : Int} {lib : FontLib} (narrow : columns ≤ font.size)
    (loaded : font.bytes lib = file.bytes)
    (selected : selectGlyph signed font character.ch character.info =
      ⟨some ⟨lib, index * glyphBytes font.size columns⟩, ⟨.bit, columns, font.size, 0, 0⟩, used⟩)
    (cell : CellRoom font.size columns character.map character.data.length)
    (turned : character.map.startx + font.size ≤ character.map.width ∨ character.map.startx = 0) :
    character.Sound signed font around ↔ file.Paintable index character.map := by
  have whole : font.size ≤ character.map.width →
      character.map.startx + columns ≤ character.map.width := by omega
  obtain ⟨painted, -, fills⟩ :=
    cell.fills (font.byteAt around ⟨lib, index * glyphBytes font.size columns⟩) character.data
  have sound := glyph_sound_iff file index font around lib loaded character.data cell fills
  have converts : ∀ tests painting,
      charToBitmapByLatticeLibrary tests signed font around character.ch character.info
        character.map ⟨character.data, [], []⟩ =
          some (selectGlyph signed font character.ch character.info, painting) ↔
      fillAreaMapPerBit tests (font.byteAt around ⟨lib, index * glyphBytes font.size columns⟩)
        ⟨.bit, columns, font.size, 0, 0⟩ character.map ⟨character.data, [], []⟩ =
          some painting := by
    intro tests painting
    simp [charToBitmapByLatticeLibrary, selected, fillAreaMapData, Option.map_eq_some_iff]
  rw [← sound]
  simp only [Character.Sound, converts]
  simp only [selected, Int.toNat_natCast, loaded]
  constructor
  · rintro ⟨painting, ends, lower, upper, paints, -⟩
    obtain rfl := Option.some.inj ((ends 256 (Nat.le_refl _)).symm.trans
      (fills 256 (Nat.le_refl _)))
    exact ⟨lower, upper, paints⟩
  · rintro ⟨lower, upper, paints⟩
    exact ⟨painted, fills, lower, upper, paints, whole⟩

/-- A character is painted right exactly when it selects no glyph, or one that its file has and
whose rows the painter finds. -/
theorem Character.sound_iff (character : Character) (signed : Bool) {size : Nat}
    (asc : Option (FontFile size (size >>> 1))) (gb2312 : Option (FontFile size size))
    (around : FontLib → Int → Byte)
    (cell : CellRoom size size character.map character.data.length)
    (turned : character.map.startx + size ≤ character.map.width ∨ character.map.startx = 0) :
    character.Sound signed (loadedFont size asc gb2312) around ↔
      Paintable signed asc gb2312 character.ch character.map := by
  have half : size >>> 1 ≤ size := Nat.shiftRight_le _ _
  rcases select_glyph_cases signed cell.rows_small asc gb2312 character.ch character.info with
    ⟨low, ⟨file, rfl⟩, selected⟩ | ⟨high, plain, ⟨file, rfl⟩, selected⟩ | ⟨nowhere, noAsc, noGb⟩
  · have notHigh : ¬ 0xa0 < charInt signed character.ch.1 := by omega
    have sound := character.sound_of_selected around file half rfl selected (cell.narrower half)
      turned
    have only : Paintable signed (some file) gb2312 character.ch character.map ↔
        file.Paintable (charInt signed character.ch.1) character.map := by
      simp [Paintable, low, notHigh]
    exact sound.trans only.symm
  · have notLow : ¬ charInt signed character.ch.1 < 0x7f := by omega
    have sound := character.sound_of_selected around file (Nat.le_refl size) rfl selected cell
      turned
    have only : Paintable signed asc (some file) character.ch character.map ↔
        file.Paintable ((charInt signed character.ch.1 - 0xa1) * 94 +
          (charInt signed character.ch.2 - 0xa1)) character.map := by
      simp [Paintable, high, notLow, plain]
    exact sound.trans only.symm
  · have idle : character.Sound signed (loadedFont size asc gb2312) around := by
      simp [Character.Sound, charToBitmapByLatticeLibrary, nowhere, fillAreaMapData]
    have paintable : Paintable signed asc gb2312 character.ch character.map := by
      constructor
      · intro low file held
        rw [noAsc low] at held
        cases held
      · intro high plain file held
        rw [noGb high plain] at held
        cases held
    exact iff_of_true idle paintable

/-- With plain characters unsigned, whole bytes to a row in both fonts and all glyphs in the files,
every character of the code is painted right. -/
theorem paintable_of_complete {size : Nat} (whole : 16 ∣ size)
    {asc : Option (FontFile size (size >>> 1))} {gb2312 : Option (FontFile size size)}
    (ascComplete : ∀ file ∈ asc, 127 ≤ file.glyphs)
    (gbComplete : ∀ file ∈ gb2312, 94 * 94 ≤ file.glyphs) {ch : Byte × Byte}
    (first : ch.1.toNat < 0xff) (second : 0xa1 ≤ ch.2.toNat ∧ ch.2.toNat < 0xff) (map : MapInfo) :
    Paintable false asc gb2312 ch map := by
  obtain ⟨bytes, rfl⟩ := whole
  have halfBytes : 8 ∣ (16 * bytes) >>> 1 :=
    ⟨bytes, by rw [Nat.shiftRight_eq_div_pow]; omega⟩
  have fullBytes : 8 ∣ 16 * bytes := ⟨2 * bytes, by omega⟩
  simp only [Paintable, charInt, Bool.false_eq_true, if_false]
  constructor
  · intro low file held
    have complete := ascComplete file held
    exact Or.inr ⟨by omega, by omega, Or.inl halfBytes⟩
  · intro high _ file held
    have complete := gbComplete file held
    exact Or.inr ⟨by omega, by omega, Or.inl fullBytes⟩

/-- In an area with room the conversion of a character ends. -/
theorem char_to_bitmap_ends (signed : Bool) {size : Nat} (asc : Option (FontFile size (size >>> 1)))
    (gb2312 : Option (FontFile size size)) (around : FontLib → Int → Byte) (ch : Byte × Byte)
    (info : LatticeInfo) {map : MapInfo} (data : List RgbQuad)
    (cell : CellRoom size size map data.length) :
    ∃ painting : Painting, painting.data.length = data.length ∧ ∀ tests, 256 ≤ tests →
      charToBitmapByLatticeLibrary tests signed (loadedFont size asc gb2312) around ch info map
        ⟨data, [], []⟩ =
          some (selectGlyph signed (loadedFont size asc gb2312) ch info, painting) := by
  have half : size >>> 1 ≤ size := Nat.shiftRight_le _ _
  rcases select_glyph_cases signed cell.rows_small asc gb2312 ch info with
    ⟨-, -, selected⟩ | ⟨-, -, -, selected⟩ | ⟨nowhere, -⟩
  · obtain ⟨painting, length, fills⟩ := (cell.narrower half).fills
      ((loadedFont size asc gb2312).byteAt around
        ⟨.asc, charInt signed ch.1 * glyphBytes size (size >>> 1)⟩) data
    refine ⟨painting, length, fun tests enough => ?_⟩
    simp only [charToBitmapByLatticeLibrary, selected, fillAreaMapData, Option.map_some,
      fills tests enough]
  · obtain ⟨painting, length, fills⟩ := cell.fills
      ((loadedFont size asc gb2312).byteAt around
        ⟨.gb2312, ((charInt signed ch.1 - 0xa1) * 94 + (charInt signed ch.2 - 0xa1)) *
          glyphBytes size size⟩) data
    refine ⟨painting, length, fun tests enough => ?_⟩
    simp only [charToBitmapByLatticeLibrary, selected, fillAreaMapData, Option.map_some,
      fills tests enough]
  · refine ⟨⟨data, [], []⟩, rfl, fun tests _ => ?_⟩
    simp only [charToBitmapByLatticeLibrary, nowhere, Option.map_none, fillAreaMapData,
      Option.map_some]

end Gk7102.GlyphPaint
