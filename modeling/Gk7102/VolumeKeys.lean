import Gk7102.MachineInt
import Gk7102.StepRuns
import Gk7102.SubClient

/-!
# The volume keys

`mozart_volume_set`, `mozart_volume_up` and `mozart_volume_down` share `music_vol` and ask
for the active domain on every call. Outside the music player the two step keys set the
volume to 80 through `mozart_volume_set`, which asks for the domain again. They are called
by the buttons, by remote messages and by voice commands.
-/

namespace Gk7102.VolumeKeys

open Gk7102.DeleteQueue
open Gk7102.JsonC
open Gk7102.MachineInt
open Gk7102.MusicPlayer
open Gk7102.StepRuns
open Gk7102.SubClient

set_option autoImplicit false

/-- The device after a key and what was sent to the player. -/
structure Pressed where
  device : Device
  sent : List Effect

def clampStep (vol : Int) : Int :=
  if vol > 100 then 100 else if vol < 60 then 60 else vol

section Keys

variable (answers : Answers) (again : Option MemoryDomain) (device : Device)

def playerSetVolume (musicVol : Int) : Outcome :=
  mozartMusicplayerSetVolume answers.world answers.handler musicVol device.player

def volumeSet (setVol : Int) : Pressed where
  device := mozartVolumeSet answers device setVol
  sent :=
    match answers.domain with
    | some .musicplayer => (playerSetVolume answers device setVol).effects
    | _ => []

/-- What the two step keys share; `again` is the domain that the second question yields. -/
def moveVolume (change : Int) : Pressed :=
  let musicVol := clampStep (wrapInt (device.musicVol + change))
  match answers.domain with
  | none => ⟨device, []⟩
  | some .musicplayer =>
      ⟨⟨(playerSetVolume answers device musicVol).state, musicVol⟩,
        (playerSetVolume answers device musicVol).effects⟩
  | some .other =>
      volumeSet { answers with domain := again } { device with musicVol := musicVol } 80

def mozartVolumeUp : Pressed := moveVolume answers again device 4

def mozartVolumeDown : Pressed := moveVolume answers again device (-4)

end Keys

inductive VolumeKey where
  | set (setVol : Int)
  | up
  | down
deriving DecidableEq, Repr

/-- One call with the player it finds and the answers it gets. -/
structure VolumeCall where
  key : VolumeKey
  player : PlayerState
  answers : Answers
  again : Option MemoryDomain

def press (musicVol : Int) (call : VolumeCall) : Pressed :=
  match call.key with
  | .set setVol => volumeSet call.answers ⟨call.player, musicVol⟩ setVol
  | .up => mozartVolumeUp call.answers call.again ⟨call.player, musicVol⟩
  | .down => mozartVolumeDown call.answers call.again ⟨call.player, musicVol⟩

def musicVolAfter (musicVol : Int) (call : VolumeCall) : Int := (press musicVol call).device.musicVol

/-! ## Who presses them -/

def digitsValue (digits : List Char) : Nat :=
  digits.foldl (fun value digit => 10 * value + (digit.toNat - '0'.toNat)) 0

/-- The digits a text begins with, as an `int`. -/
def atoiDigits (text : List Char) : Int :=
  clampInt32 (digitsValue (text.takeWhile Char.isDigit))

/-- The volume part of `process_vr_asr_command_command`. -/
def voiceKey (volume : String) : Option VolumeKey :=
  if volume = "+" then some .up
  else if volume = "-" then some .down
  else if volume = "max" then some (.set 100)
  else if volume = "min" then some (.set 10)
  else if volume.toList.head?.any Char.isDigit then some (.set (atoiDigits volume.toList))
  else none

def remoteKey (library : JsonLibrary) (received : Received) : Option VolumeKey :=
  match commandNames.lookup received.command with
  | some .setVolume => some (.set (getObjectInt library "volume" received.object))
  | some .increaseVolume => some .up
  | some .decreaseVolume => some .down
  | _ => none

theorem voice_volume_nonneg {volume : String} {setVol : Int}
    (spoken : voiceKey volume = some (.set setVol)) : 0 ≤ setVol := by
  have digits : 0 ≤ atoiDigits volume.toList := by
    unfold atoiDigits clampInt32
    omega
  unfold voiceKey at spoken
  split_ifs at spoken
  all_goals cases spoken
  · decide
  · decide
  · exact digits

/-! ## One call -/

def InRange (musicVol : Int) : Prop := 0 ≤ musicVol ∧ musicVol ≤ 100

/-- The domain that the last question of a call yields. -/
def lastDomain (call : VolumeCall) : Option MemoryDomain :=
  match call.key, call.answers.domain with
  | .set _, domain => domain
  | _, some .other => call.again
  | _, domain => domain

/-- A step key moves the volume its way, and an active player is sent the new volume. -/
structure Lawful (musicVol : Int) (call : VolumeCall) : Prop where
  up : call.key = .up → musicVol ≤ musicVolAfter musicVol call
  down : call.key = .down → musicVolAfter musicVol call ≤ musicVol
  sent : lastDomain call = some .musicplayer →
    (press musicVol call).sent =
      (playerSetVolume call.answers ⟨call.player, musicVol⟩ (musicVolAfter musicVol call)).effects

/-- The volume that is set lies in the range, the volume that is lowered is not below what the
key sets, and outside the player the volume that is raised is not above 80. -/
def Kept (musicVol : Int) (call : VolumeCall) : Prop :=
  match call.key, call.answers.domain with
  | _, none => True
  | .set setVol, _ => InRange setVol
  | .up, some .musicplayer => True
  | .up, some .other => call.again = none ∨ musicVol ≤ 80
  | .down, some .musicplayer => 60 ≤ musicVol
  | .down, some .other => if call.again = none then 60 ≤ musicVol else 80 ≤ musicVol

theorem step_fits {musicVol change : Int} (range : InRange musicVol)
    (small : -4 ≤ change ∧ change ≤ 4) : FitsInt (musicVol + change) := by
  obtain ⟨lower, upper⟩ := range
  unfold FitsInt
  omega

section OneCall

variable (answers : Answers) (again : Option MemoryDomain) (device : Device)

@[simp] theorem volume_set_music_vol (setVol : Int) :
    (volumeSet answers device setVol).device.musicVol =
      if answers.domain = none then device.musicVol else setVol := by
  rw [volumeSet, mozartVolumeSet]
  cases answers.domain with
  | none => rfl
  | some domain => cases domain <;> rfl

theorem volume_set_sent (setVol : Int) (active : answers.domain = some .musicplayer) :
    (volumeSet answers device setVol).sent =
      (playerSetVolume answers device setVol).effects := by
  rw [volumeSet, active]

theorem move_volume_music_vol (change : Int) :
    (moveVolume answers again device change).device.musicVol =
      match answers.domain with
      | none => device.musicVol
      | some .musicplayer => clampStep (wrapInt (device.musicVol + change))
      | some .other =>
          if again = none then clampStep (wrapInt (device.musicVol + change)) else 80 := by
  unfold moveVolume
  split
  · rfl
  · rfl
  · rw [volume_set_music_vol]

/-- Whatever step key is pressed, an active player is sent the volume that it leaves. -/
theorem move_volume_sent (change : Int)
    (active : (if answers.domain = some .other then again else answers.domain) =
      some .musicplayer) :
    (moveVolume answers again device change).sent =
      (playerSetVolume answers device
        (moveVolume answers again device change).device.musicVol).effects := by
  unfold moveVolume
  split
  · rename_i unread
    rw [unread] at active
    cases active
  · rfl
  · rename_i elsewhere
    rw [if_pos elsewhere] at active
    rw [volume_set_music_vol, volume_set_sent _ _ _ active, if_neg (by simp [active])]
    rfl

end OneCall

section Laws

variable {musicVol : Int} (call : VolumeCall)

theorem set_lawful_iff {setVol : Int} (set : call.key = .set setVol) (range : InRange musicVol) :
    InRange (musicVolAfter musicVol call) ∧ Lawful musicVol call ↔ Kept musicVol call := by
  have after : musicVolAfter musicVol call =
      if call.answers.domain = none then musicVol else setVol := by
    rw [musicVolAfter, press, set, volume_set_music_vol]
  have lawful : Lawful musicVol call := by
    constructor
    · simp [set]
    · simp [set]
    · intro active
      have domain : call.answers.domain = some .musicplayer := by
        rwa [lastDomain, set] at active
      rw [after, if_neg (by simp [domain]), press, set]
      exact volume_set_sent _ _ _ domain
  rw [after]
  unfold Kept
  rw [set]
  cases call.answers.domain with
  | none => simp [lawful, range]
  | some domain => simp [lawful]

/-- A step key sends what it leaves, so its laws are about the volume alone. -/
theorem step_sent {change : Int}
    (pressed : press musicVol call = moveVolume call.answers call.again ⟨call.player, musicVol⟩ change)
    (step : ∀ setVol, call.key ≠ .set setVol) (active : lastDomain call = some .musicplayer) :
    (press musicVol call).sent =
      (playerSetVolume call.answers ⟨call.player, musicVol⟩
        (musicVolAfter musicVol call)).effects := by
  rw [musicVolAfter, pressed]
  apply move_volume_sent
  unfold lastDomain at active
  cases key : call.key with
  | set setVol => exact absurd key (step setVol)
  | up | down =>
      rw [key] at active
      cases domain : call.answers.domain with
      | none => rw [domain] at active; cases active
      | some memory => cases memory <;> rw [domain] at active <;> exact active

theorem up_lawful_iff (up : call.key = .up) (range : InRange musicVol) :
    InRange (musicVolAfter musicVol call) ∧ Lawful musicVol call ↔ Kept musicVol call := by
  have pressed : press musicVol call =
      moveVolume call.answers call.again ⟨call.player, musicVol⟩ 4 := by
    rw [press, up]
    rfl
  have moved := move_volume_music_vol call.answers call.again ⟨call.player, musicVol⟩ 4
  rw [← pressed, wrap_int_fits (step_fits range (by decide))] at moved
  have lawful : Lawful musicVol call ↔ musicVol ≤ musicVolAfter musicVol call :=
    ⟨fun laws => laws.up up, fun rises =>
      ⟨fun _ => rises, by simp [up], step_sent call pressed (by simp [up])⟩⟩
  rw [lawful]
  unfold musicVolAfter Kept InRange clampStep at *
  rw [moved, up]
  cases call.answers.domain with
  | none => simp; omega
  | some domain =>
      cases domain with
      | musicplayer => grind
      | other => grind

theorem down_lawful_iff (down : call.key = .down) (range : InRange musicVol) :
    InRange (musicVolAfter musicVol call) ∧ Lawful musicVol call ↔ Kept musicVol call := by
  have pressed : press musicVol call =
      moveVolume call.answers call.again ⟨call.player, musicVol⟩ (-4) := by
    rw [press, down]
    rfl
  have moved := move_volume_music_vol call.answers call.again ⟨call.player, musicVol⟩ (-4)
  rw [← pressed, wrap_int_fits (step_fits range (by decide))] at moved
  have lawful : Lawful musicVol call ↔ musicVolAfter musicVol call ≤ musicVol :=
    ⟨fun laws => laws.down down, fun falls =>
      ⟨by simp [down], fun _ => falls, step_sent call pressed (by simp [down])⟩⟩
  rw [lawful]
  unfold musicVolAfter Kept InRange clampStep at *
  rw [moved, down]
  cases call.answers.domain with
  | none => simp; omega
  | some domain =>
      cases domain with
      | musicplayer => grind
      | other => grind

end Laws

/-- The volume stays in its range and every call is lawful exactly when the run never sets a
volume out of range, lowers one below 60, or steps outside the player from the wrong side of 80. -/
theorem volume_laws_iff (musicVol : Int) (range : InRange musicVol) (calls : List VolumeCall) :
    AlongRun musicVolAfter InRange musicVol calls ∧
        EveryStep musicVolAfter Lawful musicVol calls ↔
      EveryStep musicVolAfter Kept musicVol calls := by
  apply along_run_and_every_step_iff
  · intro before call within
    cases key : call.key with
    | set setVol => exact set_lawful_iff call key within
    | up => exact up_lawful_iff call key within
    | down => exact down_lawful_iff call key within
  · exact range

def ownerCall (key : VolumeKey) (domain : MemoryDomain) : VolumeCall where
  key := key
  player := clientWithTwoSongs.device.player
  answers := { quietAnswers with domain := some domain }
  again := some domain

theorem volume_laws_of_two_calls :
    InRange 60 ∧
      (AlongRun musicVolAfter InRange 60
          [ownerCall .up .musicplayer, ownerCall .down .musicplayer] ∧
        EveryStep musicVolAfter Lawful 60
          [ownerCall .up .musicplayer, ownerCall .down .musicplayer]) := by
  have range : InRange 60 := ⟨by decide, by decide⟩
  refine ⟨range, (volume_laws_iff 60 range _).mpr ⟨trivial, ?_, trivial⟩⟩
  change (60 : Int) ≤ 64
  decide

/-- Louder, outside the player, from the full volume: 80 is set. -/
theorem volume_up_lowers :
    ¬ ∀ (musicVol : Int) (calls : List VolumeCall), InRange musicVol →
      AlongRun musicVolAfter InRange musicVol calls ∧
        EveryStep musicVolAfter Lawful musicVol calls := by
  intro always
  have laws := (always 100 [ownerCall .up .other] ⟨by decide, by decide⟩).2.1
  have rises := laws.up rfl
  exact absurd rises (by decide)

end Gk7102.VolumeKeys
