import Gk7102.ByteBlocks
import Gk7102.MachineInt
import Gk7102.MotionDetect
import Gk7102.RasterLoops

/-!
# Counting the pixels that changed

`setInputImage` crops the resized frame, compares it with the stored one and stores it.
The comparison is a difference, a threshold, an erosion over the four neighbours and a
count, each a loop over the bytes of an image. Whether a plain `char` is signed is up to
the compiler. Images have the sizes their fields say, and allocations succeed.
-/

namespace Gk7102.ChangedPixels

open ByteBlocks MachineInt RasterLoops

set_option autoImplicit false

structure IplImage where
  nChannels : Nat
  width : Nat
  height : Nat
  imageData : List Byte
  widthStep : Nat
deriving DecidableEq, Repr

/-- The types that `cvCreateImageTL` tells apart. -/
inductive ImageType where
  | yuv420
  | yuv422
  | other
deriving DecidableEq, Repr

def imageSize (width height nChannels : Nat) (imageType : ImageType) : Nat :=
  if nChannels = 1 then width * height
  else
    match imageType with
    | .yuv420 => width * height * 3 / 2
    | .yuv422 => width * height * 2
    | .other => width * height * nChannels + width % 4 * height

def cvCreateImage (width height nChannels : Nat) (imageType : ImageType) : IplImage where
  nChannels := nChannels
  width := width
  height := height
  imageData := List.replicate (imageSize width height nChannels imageType) 0
  widthStep := width * nChannels

def byteAt (data : List Byte) (i : Nat) : Byte := data.getD i 0

/-- How often a loop runs that counts up to the limit in steps. -/
def rounds (limit step : Nat) : Nat := (limit + step - 1) / step

def IplImage.SameShape (first second : IplImage) : Prop :=
  first.widthStep = second.widthStep ∧ first.height = second.height ∧
    first.nChannels = second.nChannels

instance (first second : IplImage) : Decidable (first.SameShape second) :=
  inferInstanceAs (Decidable (_ ∧ _ ∧ _))

def cvCopyImage (src dst : IplImage) : IplImage :=
  if src.SameShape dst then
    { dst with
      imageData :=
        loop (fun i => loop (fun j block => block.set (i * dst.widthStep + j)
          (byteAt src.imageData (i * src.widthStep + j))) src.widthStep) src.height dst.imageData }
  else dst

def absDiff (first second : Byte) : Byte :=
  BitVec.ofNat 8 ((first.toNat : Int) - second.toNat).natAbs

def cvAbsDiff (src1 src2 dst : IplImage) : IplImage :=
  if src1.SameShape src2 ∧ src1.SameShape dst then
    { dst with
      imageData :=
        loop (fun i => loop (fun j => loop (fun k block =>
          block.set (i * dst.widthStep + (j * src1.nChannels + k))
            (absDiff (byteAt src1.imageData (i * src1.widthStep + (j * src1.nChannels + k)))
              (byteAt src2.imageData (i * src2.widthStep + (j * src1.nChannels + k)))))
          src1.nChannels) (rounds src1.widthStep src1.nChannels)) src1.height dst.imageData }
  else dst

def thresholded (signed : Bool) (threshold : Int) (byte : Byte) : Byte :=
  if threshold < charInt signed byte then 255 else 0

/-- `src` and `dst` are one image. -/
def cvThreshold (signed : Bool) (threshold : Int) (image : IplImage) : IplImage :=
  { image with
    imageData :=
      loop (fun i block => block.set i (thresholded signed threshold (byteAt block i)))
        (image.height * image.width * image.nChannels) image.imageData }

/-- The least of a pixel and its four neighbours. -/
def eroded (srcData : List Byte) (w h y x : Nat) : Byte :=
  let y2 := if y = 0 then h - 1 else y - 1
  let y3 := if h ≤ y + 1 then 0 else y + 1
  let x2 := if x = 0 then w - 1 else x - 1
  let x3 := if w ≤ x + 1 then 0 else x + 1
  let least (t : Byte) (i : Nat) : Byte := if byteAt srcData i < t then byteAt srcData i else t
  least (least (least (least (byteAt srcData (y * w + x)) (y2 * w + x)) (y3 * w + x))
    (y * w + x2)) (y * w + x3)

def cvErode (src dst : IplImage) (iterations : Nat) : IplImage :=
  { dst with
    imageData :=
      loop (fun _ => loop (fun y => loop (fun x block =>
        block.set (y * src.width + x) (eroded src.imageData src.width src.height y x))
        src.width) src.height) iterations dst.imageData }

/-- `src` and `dst` are one image; `index` counts along. -/
def cvCut (image : IplImage) (targetHeight : Nat) : IplImage :=
  { image with
    imageData :=
      (loop (fun i => loop (fun j => loop (fun k (held : List Byte × Nat) =>
        (held.1.set held.2 (byteAt held.1
          ((targetHeight + i) * image.widthStep + image.nChannels * j + k)), held.2 + 1))
        image.nChannels) image.width) (image.height - targetHeight) (image.imageData, 0)).1 }

def getDifference (motion : IplImage) : Nat :=
  loop (fun j => loop (fun i total =>
    if byteAt motion.imageData (j * motion.widthStep + i) = 255 then total + 1 else total)
    motion.width) motion.height 0

def clear (image : IplImage) : IplImage :=
  { image with
    imageData :=
      store image.imageData 0 (List.replicate (image.width * image.height) 0) }

def imageCompare (signed : Bool) (frame1 frame2 : IplImage) : Nat :=
  let motion := cvThreshold signed 35
    (cvAbsDiff frame1 frame2 (cvCreateImage frame1.width frame1.height frame1.nChannels .other))
  let temp := cvCopyImage motion
    (cvCreateImage motion.width motion.height motion.nChannels .other)
  getDifference (cvErode temp (clear motion) 1)

/-- `MotionDetection` with what `setInputImage` reads of it besides. -/
structure Detector where
  md : MotionDetect.MotionDetection
  cropRate : Nat
  frame1 : Option IplImage

/-- The frame as it is compared: its upper part is cut off. -/
def cropped (detector : Detector) (resized : IplImage) : IplImage :=
  let cutHeight := resized.height * detector.cropRate / 100
  { cvCut resized cutHeight with height := resized.height - cutHeight }

def stored (frame2 : IplImage) (imageType : ImageType) : IplImage :=
  cvCopyImage frame2 (cvCreateImage frame2.width frame2.height frame2.nChannels imageType)

/-- `resized` is the frame behind `cvResizeTL`. -/
def setInputImage (signed : Bool) (imageType : ImageType) (detector : Detector)
    (resized : IplImage) : Detector :=
  let frame2 := cropped detector resized
  let fresh := stored frame2 imageType
  let kept := detector.frame1.filter fun frame1 =>
    frame1.width = frame2.width ∧ frame1.height = frame2.height
  let changes := imageCompare signed (kept.getD fresh) frame2
  { detector with
    md := MotionDetect.setInputImage detector.md changes
    frame1 := some fresh }

/-! ## Gray images -/

structure Shows (image : IplImage) (w h : Nat) (bytes : Nat → Byte) : Prop where
  channels : image.nChannels = 1
  width : image.width = w
  height : image.height = h
  step : image.widthStep = w
  room : h * w ≤ image.imageData.length
  data : ∀ i < h * w, byteAt image.imageData i = bytes i

section Stages

variable {w h : Nat} {f g : Nat → Byte} {src dst : IplImage}

theorem shows_written (before : Shows dst w h g) (written : Nat → Byte) {data : List Byte}
    (same : data = (List.range (h * w)).map written ++ dst.imageData.drop (h * w)) :
    Shows { dst with imageData := data } w h written where
  channels := before.channels
  width := before.width
  height := before.height
  step := before.step
  room := by simp [same]
  data := by
    intro i inside
    rw [byteAt, same, written_getd _ _ _ inside]

theorem shows_congr (image : Shows src w h f) (same : ∀ i < h * w, f i = g i) :
    Shows src w h g :=
  ⟨image.channels, image.width, image.height, image.step, image.room,
    fun i inside => (image.data i inside).trans (same i inside)⟩

theorem create_shows (w h : Nat) (imageType : ImageType) :
    Shows (cvCreateImage w h 1 imageType) w h fun _ => 0 where
  channels := rfl
  width := rfl
  height := rfl
  step := Nat.mul_one w
  room := by simp [cvCreateImage, imageSize, Nat.mul_comm]
  data := by
    intro i inside
    simp only [byteAt, cvCreateImage, List.getD_eq_getElem?_getD, List.getElem?_replicate]
    split <;> rfl

theorem shows_same_shape (first : Shows src w h f) (second : Shows dst w h g) :
    src.SameShape dst :=
  ⟨first.step.trans second.step.symm, first.height.trans second.height.symm,
    first.channels.trans second.channels.symm⟩

theorem copy_shows (first : Shows src w h f) (second : Shows dst w h g) :
    Shows (cvCopyImage src dst) w h f := by
  rw [cvCopyImage, if_pos (shows_same_shape first second)]
  apply shows_congr (shows_written second
    (fun i => byteAt src.imageData (i / w * w + i % w)) _)
  · intro i inside
    rw [Nat.div_add_mod', first.data i inside]
  · rw [first.step, second.step, first.height]
    exact loop_raster (fun row column => byteAt src.imageData (row * w + column)) second.room

theorem abs_diff_shows {other : IplImage} {e : Nat → Byte} (first : Shows src w h f)
    (second : Shows other w h e) (third : Shows dst w h g) :
    Shows (cvAbsDiff src other dst) w h fun i => absDiff (f i) (e i) := by
  have once : rounds w 1 = w := by simp [rounds]
  rw [cvAbsDiff, if_pos ⟨shows_same_shape first second, shows_same_shape first third⟩]
  apply shows_congr (shows_written third (fun i =>
    absDiff (byteAt src.imageData (i / w * w + i % w))
      (byteAt other.imageData (i / w * w + i % w))) _)
  · intro i inside
    rw [Nat.div_add_mod', first.data i inside, second.data i inside]
  · rw [first.channels, first.step, second.step, third.step, first.height, once]
    simp only [loop, Nat.mul_one, Nat.add_zero]
    exact loop_raster (fun row column => absDiff (byteAt src.imageData (row * w + column))
      (byteAt other.imageData (row * w + column))) third.room

theorem threshold_shows (signed : Bool) (threshold : Int) (image : Shows src w h f) :
    Shows (cvThreshold signed threshold src) w h fun i => thresholded signed threshold (f i) := by
  apply shows_congr (shows_written image
    (fun i => thresholded signed threshold (byteAt src.imageData i)) _)
  · intro i inside
    rw [image.data i inside]
  · rw [image.channels, image.width, image.height, Nat.mul_one]
    apply loop_writes (fun i block => thresholded signed threshold (byteAt block i)) _ image.room
    intro i _
    simp only [byteAt, unwritten_getd _ _ _ (Nat.le_refl i)]

theorem clear_shows (image : Shows src w h f) : Shows (clear src) w h fun _ => 0 := by
  apply shows_written image
  rw [image.width, image.height, Nat.mul_comm, store, List.take_zero, List.nil_append,
    Nat.zero_add, List.length_replicate, List.map_const', List.length_range]

theorem shows_shorter {fewer : Nat} (image : Shows src w h f) (less : fewer ≤ h) :
    Shows { src with height := fewer } w fewer f := by
  have within : fewer * w ≤ h * w := Nat.mul_le_mul_right w less
  exact ⟨image.channels, image.width, rfl, image.step, Nat.le_trans within image.room,
    fun i inside => image.data i (Nat.lt_of_lt_of_le inside within)⟩

/-- The rows move up in place: a row is read before it is written over. -/
theorem cut_shows {targetHeight : Nat} (image : Shows src w h f) (less : targetHeight ≤ h) :
    Shows { cvCut src targetHeight with height := h - targetHeight } w (h - targetHeight)
      fun i => f (targetHeight * w + i) := by
  have shorter := shows_shorter image (Nat.sub_le h targetHeight)
  have whole : (h - targetHeight) * w + targetHeight * w = h * w := by
    rw [← Nat.add_mul, Nat.sub_add_cancel less]
  apply shows_congr (shows_written shorter
    (fun i => byteAt src.imageData (targetHeight * w + i)) _)
  · intro i inside
    exact image.data _ (by omega)
  · rw [cvCut, image.channels, image.width, image.height, image.step]
    simp only [loop, Nat.one_mul, Nat.add_zero]
    rw [loop_rows fun i held =>
      (held.1.set held.2 (byteAt held.1 (targetHeight * w + i)), held.2 + 1)]
    · rw [loop_counted (fun i block => block.set i (byteAt block (targetHeight * w + i)))
        fun _ _ => rfl]
      apply loop_writes (fun i block => byteAt block (targetHeight * w + i)) _ shorter.room
      intro i _
      simp only [byteAt, unwritten_getd _ _ _ (Nat.le_add_left i (targetHeight * w))]
    · intro row column _ held
      rw [Nat.add_mul, Nat.add_assoc]

theorem erode_shows (first : Shows src w h f) (second : Shows dst w h g) :
    Shows (cvErode src dst 1) w h fun i => eroded src.imageData w h (i / w) (i % w) := by
  apply shows_written second
  rw [first.width, first.height]
  simp only [loop]
  exact loop_raster (eroded src.imageData w h) second.room

theorem difference_shows (image : Shows src w h f) :
    getDifference src = (List.range (h * w)).countP fun i => f i = 255 := by
  rw [getDifference, image.step, image.width, image.height,
    loop_rows (fun i total => if byteAt src.imageData i = 255 then total + 1 else total)]
  · have counted := loop_counts (fun i => byteAt src.imageData i = 255) (h * w) 0
    simp only [decide_eq_true_eq, Nat.zero_add] at counted
    rw [counted]
    apply List.countP_congr
    intro i inside
    rw [image.data i (List.mem_range.mp inside)]
  · exact fun _ _ _ _ => rfl

end Stages

/-! ## Pixels and their neighbours -/

/-- A pixel and its four neighbours; behind a border comes the opposite one. -/
def cross (h w y x : Nat) : List (Nat × Nat) :=
  [(y, x), ((y + h - 1) % h, x), ((y + 1) % h, x), (y, (x + w - 1) % w), (y, (x + 1) % w)]

def pixel (image : IplImage) (place : Nat × Nat) : Byte :=
  byteAt image.imageData (place.1 * image.width + place.2)

def gap (first second : IplImage) (place : Nat × Nat) : Nat :=
  (((pixel first place).toNat : Int) - (pixel second place).toNat).natAbs

/-- The difference is above the threshold at the pixel and at its neighbours. -/
def Changed (first second : IplImage) (place : Nat × Nat) : Prop :=
  ∀ other ∈ cross second.height second.width place.1 place.2, 35 < gap first second other

instance (first second : IplImage) (place : Nat × Nat) : Decidable (Changed first second place) :=
  inferInstanceAs (Decidable (∀ other ∈ cross second.height second.width place.1 place.2, _))

def changedPixels (first second : IplImage) : Nat :=
  (places second.height second.width).countP fun place => Changed first second place

section Neighbours

theorem row_above {h y : Nat} (inside : y < h) :
    (if y = 0 then h - 1 else y - 1) = (y + h - 1) % h := by
  split
  · rename_i first
    rw [first, Nat.zero_add, Nat.mod_eq_of_lt (by omega)]
  · rw [show y + h - 1 = y - 1 + h by omega, Nat.add_mod_right, Nat.mod_eq_of_lt (by omega)]

theorem row_below {h y : Nat} (inside : y < h) :
    (if h ≤ y + 1 then 0 else y + 1) = (y + 1) % h := by
  split
  · rw [show y + 1 = h by omega, Nat.mod_self]
  · rw [Nat.mod_eq_of_lt (by omega)]

theorem cross_inside {h w y x : Nat} (above : y < h) (inside : x < w) :
    ∀ place ∈ cross h w y x, place.1 < h ∧ place.2 < w := by
  have positive : 0 < h ∧ 0 < w := ⟨by omega, by omega⟩
  simp only [cross, List.forall_mem_cons, List.not_mem_nil, false_implies, implies_true, and_true]
  exact ⟨⟨above, inside⟩, ⟨Nat.mod_lt _ positive.1, inside⟩, ⟨Nat.mod_lt _ positive.1, inside⟩,
    ⟨above, Nat.mod_lt _ positive.2⟩, ⟨above, Nat.mod_lt _ positive.2⟩⟩

theorem least_full_iff (t byte : Byte) :
    (if byte < t then byte else t) = 255 ↔ t = 255 ∧ byte = 255 := by
  have bound := t.isLt
  split
  · rename_i less
    have below : byte.toNat < t.toNat := less
    constructor
    · rintro rfl
      simp at below
      omega
    · rintro ⟨rfl, rfl⟩
      exact rfl
  · rename_i notLess
    constructor
    · rintro rfl
      have above : ¬ byte.toNat < (255 : Byte).toNat := notLess
      refine ⟨rfl, BitVec.eq_of_toNat_eq ?_⟩
      have most := byte.isLt
      simp at above
      simp
      omega
    · exact fun both => both.1

/-- The eroded pixel is full exactly when the pixel and its neighbours are. -/
theorem eroded_full_iff (data : List Byte) {w h y x : Nat} (above : y < h) (inside : x < w) :
    eroded data w h y x = 255 ↔
      ∀ place ∈ cross h w y x, byteAt data (place.1 * w + place.2) = 255 := by
  simp only [eroded, row_above above, row_below above, row_above inside, row_below inside,
    least_full_iff, cross, List.forall_mem_cons, List.not_mem_nil, false_implies, implies_true,
    and_true, and_assoc]

theorem thresholded_full_iff (signed : Bool) (first second : Byte) :
    thresholded signed 35 (absDiff first second) = 255 ↔
      35 < ((first.toNat : Int) - second.toNat).natAbs ∧
        (signed = true → ((first.toNat : Int) - second.toNat).natAbs ≤ 127) := by
  have one := first.isLt
  have two := second.isLt
  have small : ((first.toNat : Int) - second.toNat).natAbs < 256 := by omega
  have value : (absDiff first second).toNat = ((first.toNat : Int) - second.toNat).natAbs := by
    rw [absDiff, BitVec.toNat_ofNat, Nat.mod_eq_of_lt small]
  have full : thresholded signed 35 (absDiff first second) = 255 ↔
      35 < charInt signed (absDiff first second) := by
    unfold thresholded
    split <;> simp_all
  rw [full, charInt]
  cases signed with
  | false =>
      simp only [Bool.false_eq_true, if_false, false_implies, and_true, value]
      omega
  | true =>
      simp only [if_true, true_implies, BitVec.toInt_eq_toNat_cond, value]
      split <;> omega

end Neighbours

/-! ## One frame -/

/-- A gray image holds at least its pixels, row by row. -/
structure Gray (image : IplImage) : Prop where
  channels : image.nChannels = 1
  step : image.widthStep = image.width
  room : image.height * image.width ≤ image.imageData.length

theorem gray_shows {image : IplImage} (gray : Gray image) :
    Shows image image.width image.height (byteAt image.imageData) :=
  ⟨gray.channels, rfl, rfl, gray.step, gray.room, fun _ _ => rfl⟩

/-- What a signed `char` leaves of a changed pixel: no difference of the cross is so large that
it counts as negative. -/
def Noticed (signed : Bool) (first second : IplImage) (place : Nat × Nat) : Prop :=
  ∀ other ∈ cross second.height second.width place.1 place.2,
    35 < gap first second other ∧ (signed = true → gap first second other ≤ 127)

instance (signed : Bool) (first second : IplImage) (place : Nat × Nat) :
    Decidable (Noticed signed first second place) :=
  inferInstanceAs (Decidable (∀ other ∈ cross second.height second.width place.1 place.2, _))

def SameSize (first second : IplImage) : Prop :=
  first.width = second.width ∧ first.height = second.height

section Frames

variable {first second : IplImage}

theorem image_compare_noticed (signed : Bool) (gray : Gray first) (other : Gray second)
    (same : SameSize first second) :
    imageCompare signed first second =
      (places second.height second.width).countP fun place =>
        Noticed signed first second place := by
  have one := gray_shows gray
  rw [same.1, same.2] at one
  have two := gray_shows other
  have blank := create_shows second.width second.height .other
  have motion := threshold_shows signed 35 (abs_diff_shows one two blank)
  have temp := copy_shows motion blank
  have counted := difference_shows (erode_shows temp (clear_shows motion))
  unfold imageCompare
  rw [one.channels, one.width, one.height]
  simp only [motion.channels, motion.width, motion.height]
  rw [counted, places, List.countP_map]
  apply List.countP_congr
  intro i inside
  have below := List.mem_range.mp inside
  have positive : 0 < second.width := by
    rcases Nat.eq_zero_or_pos second.width with zero | positive
    · rw [zero, Nat.mul_zero] at below
      omega
    · exact positive
  have above : i / second.width < second.height :=
    Nat.div_lt_of_lt_mul (by rwa [Nat.mul_comm])
  have within := Nat.mod_lt i positive
  simp only [Function.comp, decide_eq_true_eq, eroded_full_iff _ above within]
  apply forall₂_congr
  intro place neighbour
  obtain ⟨row, column⟩ := cross_inside above within place neighbour
  rw [temp.data _ (place_lt row column), thresholded_full_iff, gap, pixel, pixel, same.1]

theorem noticed_changed {signed : Bool} {place : Nat × Nat}
    (noticed : Noticed signed first second place) : Changed first second place :=
  fun other neighbour => (noticed other neighbour).1

/-- Between two frames with the same pixels there is no change. -/
theorem image_compare_alike (signed : Bool) (gray : Gray first) (other : Gray second)
    (same : SameSize first second)
    (alike : ∀ place ∈ places first.height first.width, pixel first place = pixel second place) :
    imageCompare signed first second = 0 := by
  rw [image_compare_noticed signed gray other same, List.countP_eq_zero]
  intro place inside noticed
  have here := (of_decide_eq_true noticed place List.mem_cons_self).1
  rw [gap, alike place (by rwa [same.1, same.2]), Int.sub_self] at here
  simp at here

end Frames

section Input

variable (signed : Bool) (imageType : ImageType) (detector : Detector) (resized : IplImage)

/-- The count is the number of changed pixels, or 0 where there is no frame of this size to
compare with, and the frame is stored. -/
structure ChangesSound : Prop where
  counted : ∀ frame1, detector.frame1 = some frame1 → SameSize frame1 (cropped detector resized) →
    (setInputImage signed imageType detector resized).md.numberOfChanges =
      changedPixels frame1 (cropped detector resized)
  fresh : (∀ frame1, detector.frame1 = some frame1 →
      ¬ SameSize frame1 (cropped detector resized)) →
    (setInputImage signed imageType detector resized).md.numberOfChanges = 0
  kept : ∃ frame1, (setInputImage signed imageType detector resized).frame1 = some frame1 ∧
    SameSize frame1 (cropped detector resized) ∧
    ∀ place ∈ places frame1.height frame1.width,
      pixel frame1 place = pixel (cropped detector resized) place

variable {detector resized}

theorem cropped_gray (gray : Gray resized) (rate : detector.cropRate ≤ 100) :
    Gray (cropped detector resized) := by
  have less : resized.height * detector.cropRate / 100 ≤ resized.height := by
    apply Nat.div_le_of_le_mul
    rw [Nat.mul_comm]
    exact Nat.mul_le_mul_right _ rate
  have shown := cut_shows (gray_shows gray) less
  have width : (cropped detector resized).width = resized.width := shown.width
  exact ⟨shown.channels, shown.step.trans width.symm, by
    rw [width]
    exact shown.room⟩

theorem stored_shows {frame2 : IplImage} (gray : Gray frame2) :
    Shows (stored frame2 imageType) frame2.width frame2.height (byteAt frame2.imageData) := by
  rw [stored, gray.channels]
  exact copy_shows (gray_shows gray) (create_shows _ _ imageType)

theorem stored_gray {frame2 : IplImage} (gray : Gray frame2) : Gray (stored frame2 imageType) := by
  have shown := stored_shows imageType gray
  refine ⟨shown.channels, shown.step.trans shown.width.symm, ?_⟩
  rw [shown.width, shown.height]
  exact shown.room

theorem stored_alike {frame2 : IplImage} (gray : Gray frame2) :
    SameSize (stored frame2 imageType) frame2 ∧
      ∀ place ∈ places (stored frame2 imageType).height (stored frame2 imageType).width,
        pixel (stored frame2 imageType) place = pixel frame2 place := by
  have shown := stored_shows imageType gray
  refine ⟨⟨shown.width, shown.height⟩, ?_⟩
  rintro ⟨row, column⟩ inside
  rw [shown.width, shown.height] at inside
  obtain ⟨above, within⟩ := mem_places.mp inside
  rw [pixel, shown.width, shown.data _ (place_lt above within), pixel]

theorem update_state_changes (md : MotionDetect.MotionDetection) :
    (MotionDetect.updateState md).numberOfChanges = md.numberOfChanges := by
  unfold MotionDetect.updateState
  simp only
  split_ifs <;> rfl

theorem set_input_image_changes :
    (setInputImage signed imageType detector resized).md.numberOfChanges =
      imageCompare signed ((detector.frame1.filter fun frame1 =>
        frame1.width = (cropped detector resized).width ∧
          frame1.height = (cropped detector resized).height).getD
            (stored (cropped detector resized) imageType)) (cropped detector resized) :=
  update_state_changes _

variable {signed imageType}

/-- With a stored frame of this size, the pixels that are noticed are counted. -/
theorem changes_of_kept {frame1 : IplImage} (given : Gray (cropped detector resized))
    (held : detector.frame1 = some frame1) (gray : Gray frame1)
    (same : SameSize frame1 (cropped detector resized)) :
    (setInputImage signed imageType detector resized).md.numberOfChanges =
      (places (cropped detector resized).height (cropped detector resized).width).countP
        fun place => Noticed signed frame1 (cropped detector resized) place := by
  have chosen : Option.filter (fun frame1 => frame1.width = (cropped detector resized).width ∧
      frame1.height = (cropped detector resized).height) (some frame1) = some frame1 := by
    rw [Option.filter_some, if_pos]
    exact decide_eq_true same
  rw [set_input_image_changes, held, chosen, Option.getD_some,
    image_compare_noticed signed gray given same]

/-- Without one, the frame is compared with its copy. -/
theorem changes_of_fresh (given : Gray (cropped detector resized))
    (none_kept : ∀ frame1, detector.frame1 = some frame1 →
      ¬ SameSize frame1 (cropped detector resized)) :
    (setInputImage signed imageType detector resized).md.numberOfChanges = 0 := by
  have absent : (detector.frame1.filter fun frame1 =>
      frame1.width = (cropped detector resized).width ∧
        frame1.height = (cropped detector resized).height) = none := by
    rw [Option.filter_eq_none_iff]
    intro frame1 held
    rw [decide_eq_true_iff]
    exact none_kept frame1 held
  obtain ⟨same, alike⟩ := stored_alike imageType given
  rw [set_input_image_changes, absent, Option.getD_none,
    image_compare_alike signed (stored_gray imageType given) given same alike, Int.natCast_zero]

end Input

/-- The count is right exactly when a plain `char` is not signed or no pixel that changed has,
in its cross, a difference above 127. -/
theorem changes_sound_iff (signed : Bool) (imageType : ImageType) (detector : Detector)
    (resized : IplImage) (given : Gray resized) (rate : detector.cropRate ≤ 100)
    (held : ∀ frame1, detector.frame1 = some frame1 → Gray frame1) :
    ChangesSound signed imageType detector resized ↔
      (signed = true → ∀ frame1, detector.frame1 = some frame1 →
        SameSize frame1 (cropped detector resized) →
        ∀ place ∈ places (cropped detector resized).height (cropped detector resized).width,
          Changed frame1 (cropped detector resized) place →
          ∀ other ∈ cross (cropped detector resized).height (cropped detector resized).width
            place.1 place.2, gap frame1 (cropped detector resized) other ≤ 127) := by
  have cut := cropped_gray given rate
  constructor
  · intro sound negative frame1 present same place inside changed other neighbour
    have counted := sound.counted frame1 present same
    rw [changes_of_kept cut present (held frame1 present) same, changedPixels, Int.ofNat_inj,
      count_eq_iff_of_implies _ fun place _ noticed =>
        decide_eq_true (noticed_changed (of_decide_eq_true noticed))] at counted
    have noticed := of_decide_eq_true (counted place inside (decide_eq_true changed))
    exact (noticed other neighbour).2 negative
  · intro small
    refine ⟨?_, changes_of_fresh cut, _, rfl, stored_alike imageType cut⟩
    intro frame1 present same
    rw [changes_of_kept cut present (held frame1 present) same, changedPixels, Int.ofNat_inj]
    apply List.countP_congr
    intro place inside
    rw [decide_eq_true_iff, decide_eq_true_iff]
    constructor
    · exact noticed_changed
    · intro changed other neighbour
      exact ⟨changed other neighbour,
        fun negative => small negative frame1 present same place inside changed other neighbour⟩

def square (side : Nat) (pixels : List Byte) : IplImage where
  nChannels := 1
  width := side
  height := side
  imageData := pixels
  widthStep := side

def onePixel (value : Byte) : IplImage := square 1 [value]

def holdingFrame (image : IplImage) : Detector where
  md := MotionDetect.initMotionDetection ⟨0, 0, 0, 0, 0⟩ 0
  cropRate := 0
  frame1 := some image

theorem square_gray {side : Nat} {pixels : List Byte} (room : side * side ≤ pixels.length) :
    Gray (square side pixels) where
  channels := rfl
  step := rfl
  room := room

theorem holding_gray {image : IplImage} (gray : Gray image) :
    ∀ frame1, (holdingFrame image).frame1 = some frame1 → Gray frame1 := by
  intro frame1 held
  obtain rfl := Option.some.inj held
  exact gray

def holding (value : Byte) : Detector := holdingFrame (onePixel value)

def crossBefore : IplImage := square 3 [0, 200, 0, 180, 150, 160, 0, 170, 0]

def crossAfter : IplImage := square 3 [0, 100, 0, 100, 60, 100, 0, 100, 0]

/-- A cross got darker, each of its pixels by another amount: its centre alone has changed
together with its neighbours. -/
theorem darker_pixel_sound :
    ChangesSound true .other (holdingFrame crossBefore) crossAfter ∧
      (setInputImage true .other (holdingFrame crossBefore) crossAfter).md.numberOfChanges = 1 := by
  refine ⟨?_, by decide +kernel⟩
  have gray : Gray crossBefore ∧ Gray crossAfter :=
    ⟨square_gray (by decide), square_gray (by decide)⟩
  apply (changes_sound_iff true .other (holdingFrame crossBefore) crossAfter gray.2
    (Nat.zero_le 100) (holding_gray gray.1)).mpr
  intro negative frame1 held same
  obtain rfl := Option.some.inj held
  decide +kernel

/-- A pixel that got brighter by 200: the difference is −56 as a signed `char`. -/
theorem bright_pixel_missed :
    Gray (onePixel 200) ∧ SameSize (onePixel 0) (cropped (holding 0) (onePixel 200)) ∧
      changedPixels (onePixel 0) (cropped (holding 0) (onePixel 200)) = 1 ∧
      (setInputImage true .other (holding 0) (onePixel 200)).md.numberOfChanges = 0 ∧
      ¬ ChangesSound true .other (holding 0) (onePixel 200) := by
  have same : SameSize (onePixel 0) (cropped (holding 0) (onePixel 200)) := ⟨rfl, rfl⟩
  have changed : changedPixels (onePixel 0) (cropped (holding 0) (onePixel 200)) = 1 := by decide
  have counted : (setInputImage true .other (holding 0) (onePixel 200)).md.numberOfChanges = 0 := by
    decide
  refine ⟨square_gray (by decide), same, changed, counted, ?_⟩
  intro sound
  have claimed := sound.counted (onePixel 0) rfl same
  rw [counted, changed] at claimed
  omega

end Gk7102.ChangedPixels
