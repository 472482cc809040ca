import Gk7102.AllocationLedger
import Gk7102.IngenicPlayer

/-!
# Inserting a song, with its memory

`ingenicplayer_insert_song` with its memory. `create_music_info_by_json` holds six
copies of its own, `mozart_musiclist_get_info` copies five of them into the song,
and an inserted song belongs to the queue. A block is named after the call and the
allocation it comes from; `succeeds` says which allocations of a call find memory.
The record of a call has its allocations and frees in their order.
-/

namespace Gk7102.SongMemory

open Gk7102.AllocationLedger
open Gk7102.IngenicPlayer
open Gk7102.JsonC
open Gk7102.MusicPlayer
open Gk7102.MusicQueue
open Gk7102.RecordedCalls

set_option autoImplicit false

inductive Field where
  | musicName
  | musicUrl
  | musicPicture
  | albumsName
  | artistsName
  | data
deriving DecidableEq, Repr

def Field.key : Field → String
  | .musicName => "song_name"
  | .musicUrl => "songurl"
  | .musicPicture => "picture"
  | .albumsName => "albumsname"
  | .artistsName => "artists_name"
  | .data => "data"

/-- The fields that the song gets copies of; `data` is handed over as it is. -/
def copiedFields : List Field := [.musicName, .musicUrl, .musicPicture, .albumsName, .artistsName]

def allFields : List Field := copiedFields ++ [.data]

/-- The `calloc` of the song, and the `strdup` calls of the two functions. -/
inductive Site where
  | info
  | callers (field : Field)
  | copies (field : Field)
deriving DecidableEq, Repr

structure Block where
  call : Nat
  site : Site
deriving DecidableEq, Repr

def Block.isString (block : Block) : Bool := block.site != .info

abbrev HeapEvent := LedgerEvent Block

structure HeapString where
  block : Block
  text : String
deriving DecidableEq, Repr

structure HeapInfo where
  block : Block
  id : Int
  strings : Field → Option HeapString

def HeapInfo.setString (info : HeapInfo) (field : Field) (string : Option HeapString) :
    HeapInfo :=
  { info with strings := Function.update info.strings field string }

/-- `freeData` tells whether there is a release function. The one of
`mozart_musicplayer.c` returns at once. -/
structure HeapList where
  list : List HeapInfo
  maxIndex : Int
  currentIndex : Int
  mode : PlayMode
  freeData : Bool

/-- The static variables of the player, and how many calls there were. -/
structure HeapState where
  currentUuid : String
  inMusicplayer : Int
  autoplayFlag : Bool
  musicplayerList : Option HeapList
  eventType : String
  calls : Nat

/-! ## The same without the blocks -/

def HeapInfo.read (info : HeapInfo) : MusicInfo where
  id := info.id
  musicName := (info.strings .musicName).map HeapString.text
  musicUrl := (info.strings .musicUrl).map HeapString.text
  musicPicture := (info.strings .musicPicture).map HeapString.text
  albumsName := (info.strings .albumsName).map HeapString.text
  artistsName := (info.strings .artistsName).map HeapString.text
  data := (info.strings .data).map HeapString.text

def HeapList.read (list : HeapList) : MusicList where
  list := list.list.map HeapInfo.read
  maxIndex := list.maxIndex
  currentIndex := list.currentIndex
  mode := list.mode
  freeData := list.freeData

def HeapState.read (state : HeapState) : PlayerState where
  currentUuid := state.currentUuid
  inMusicplayer := state.inMusicplayer
  autoplayFlag := state.autoplayFlag
  musicplayerList := state.musicplayerList.map HeapList.read
  eventType := state.eventType

/-! ## Making the song -/

structure Allocator where
  call : Nat
  succeeds : Site → Bool

def pointerTo (string : Option HeapString) : Option Block := string.map HeapString.block

def strdup (allocator : Allocator) (site : Site) (text : Option String) :
    Recorded HeapEvent (Option HeapString) :=
  match text with
  | none => fault
  | some text =>
      if allocator.succeeds site then do
        record (.alloc ⟨allocator.call, site⟩)
        pure (some ⟨⟨allocator.call, site⟩, text⟩)
      else pure none

def strdupMember (library : JsonLibrary) (allocator : Allocator) (object : JsonObject)
    (field : Field) : Recorded HeapEvent (Option HeapString) :=
  match jsonObjectObjectGetEx object field.key with
  | none => pure none
  | some value => strdup allocator (.callers field) (jsonObjectGetString library value)

def strdupMembers (library : JsonLibrary) (allocator : Allocator) (object : JsonObject) :
    List Field → (Field → Option HeapString) → Recorded HeapEvent (Field → Option HeapString)
  | [], strings => pure strings
  | field :: rest, strings => do
      let string ← strdupMember library allocator object field
      strdupMembers library allocator object rest (Function.update strings field string)

/-- NULL is passed over; the first copy without memory ends it. -/
def copyStrings (allocator : Allocator) (source : Field → Option HeapString) :
    List Field → HeapInfo → Recorded HeapEvent (Bool × HeapInfo)
  | [], info => pure (true, info)
  | field :: rest, info =>
      match source field with
      | none => copyStrings allocator source rest info
      | some string => do
          let copy ← strdup allocator (.copies field) (some string.text)
          match copy with
          | none => pure (false, info)
          | some copied => copyStrings allocator source rest (info.setString field (some copied))

/-- The label `err`. Album and artist are the parameters there, not the members. -/
def releaseFailed (source : Field → Option HeapString) (info : HeapInfo) :
    Recorded HeapEvent Unit :=
  freeEach [pointerTo (info.strings .musicName), pointerTo (info.strings .musicUrl),
    pointerTo (info.strings .musicPicture), pointerTo (source .albumsName),
    pointerTo (source .artistsName), some info.block]

def mozartMusiclistGetInfo (allocator : Allocator) (id : Int)
    (source : Field → Option HeapString) : Recorded HeapEvent (Option HeapInfo) :=
  if allocator.succeeds .info then do
    record (.alloc ⟨allocator.call, .info⟩)
    let (copied, info) ← copyStrings allocator source copiedFields
      { block := ⟨allocator.call, .info⟩, id := id, strings := fun _ => none }
    if copied then pure (some (info.setString .data (source .data)))
    else do
      releaseFailed source info
      pure none
  else pure none

def songId (library : JsonLibrary) (object : JsonObject) : Int :=
  match jsonObjectObjectGetEx object "song_id" with
  | none => 0
  | some value => jsonObjectGetInt library value

def createMusicInfoByJson (library : JsonLibrary) (allocator : Allocator) (object : JsonObject) :
    Recorded HeapEvent (Option HeapInfo) :=
  if object.isNull then pure none
  else do
    let strings ← strdupMembers library allocator object allFields fun _ => none
    let info ← mozartMusiclistGetInfo allocator (songId library object) strings
    freeEach (copiedFields.map fun field => pointerTo (strings field))
    pure info

/-! ## Handing it to the queue -/

def mozartMusiclistFreeMusicInfo (info : Option HeapInfo) : Recorded HeapEvent Unit :=
  match info with
  | none => pure ()
  | some info =>
      freeEach ((copiedFields.map fun field => pointerTo (info.strings field)) ++
        [some info.block])

def mozartMusiclistDeleteIndex (list : HeapList) (index : Int) :
    Recorded HeapEvent (Int × HeapList) :=
  if index ≥ list.list.length ∨ index < 0 then pure (-1, list)
  else do
    mozartMusiclistFreeMusicInfo list.list[index.toNat]?
    pure (0, { list with
      list := list.list.eraseIdx index.toNat
      currentIndex :=
        if index < list.currentIndex then list.currentIndex - 1 else list.currentIndex })

/-- The end of the insertion, once there is room. -/
def appendInfo (list : HeapList) (info : HeapInfo) : HeapList :=
  { list with
    list := list.list ++ [info]
    currentIndex := if list.currentIndex < 0 then 0 else list.currentIndex }

def mozartMusiclistInsert (list : Option HeapList) (info : HeapInfo) :
    Recorded HeapEvent (Int × Option HeapList) :=
  match list with
  | none => pure (-1, none)
  | some list =>
      if (info.strings .data).isSome ∧ list.freeData = false then pure (-1, some list)
      else if list.maxIndex ≥ 0 ∧ list.maxIndex ≤ list.list.length then do
        let (ret, shorter) ← mozartMusiclistDeleteIndex list 0
        if ret < 0 then pure (-1, some shorter)
        else pure (shorter.list.length, some (appendInfo shorter info))
      else pure (list.list.length, some (appendInfo list info))

def mozartMusicplayerMusiclistInsert (handler : Option MusicplayerHandler) (info : HeapInfo)
    (state : HeapState) : Recorded HeapEvent (Int × HeapState) :=
  if checkHandlerUuid state.read handler < 0 then pure (-1, state)
  else do
    let (ret, list) ← mozartMusiclistInsert state.musicplayerList info
    pure (ret, { state with musicplayerList := list })

def ingenicplayerInsertSong (library : JsonLibrary) (succeeds : Site → Bool)
    (handler : Option MusicplayerHandler) (array : JsonObject) (state : HeapState) :
    Recorded HeapEvent (Int × HeapState) :=
  let later := { state with calls := state.calls + 1 }
  if array.isNull then pure (-1, later)
  else do
    let info ← createMusicInfoByJson library ⟨state.calls, succeeds⟩ array
    match info with
    | none => pure (-1, later)
    | some info => mozartMusicplayerMusiclistInsert handler info later

/-! ## What the copies are -/

/-- What `create_music_info_by_json` holds of a field. -/
def heldString (library : JsonLibrary) (allocator : Allocator) (object : JsonObject)
    (field : Field) : Option HeapString :=
  ((jsonObjectObjectGetEx object field.key).bind (jsonObjectGetString library)).bind fun text =>
    if allocator.succeeds (.callers field) then some ⟨⟨allocator.call, .callers field⟩, text⟩
    else none

/-- What the song gets of it, when there is memory. -/
def copiedString (allocator : Allocator) (source : Field → Option HeapString) (field : Field) :
    Option HeapString :=
  (source field).bind fun string =>
    if allocator.succeeds (.copies field) then
      some ⟨⟨allocator.call, .copies field⟩, string.text⟩
    else none

def AllCopied (allocator : Allocator) (source : Field → Option HeapString)
    (fields : List Field) : Prop :=
  ∀ field ∈ fields, (source field).isSome → allocator.succeeds (.copies field) = true

section Specs

variable (library : JsonLibrary) (allocator : Allocator) (object : JsonObject)

structure Allocates {α : Type} (call : Recorded HeapEvent α) (value : α) (blocks : List Block) :
    Prop where
  result : call.result = some value
  allocated : allocatedBlocks call.events = blocks
  freed : freedBlocks call.events = []

theorem strdup_member_allocates (field : Field)
    (legible : ∀ value, jsonObjectObjectGetEx object field.key = some value →
      value.isNull = false) :
    Allocates (strdupMember library allocator object field)
      (heldString library allocator object field)
      (pointerTo (heldString library allocator object field)).toList := by
  simp only [strdupMember, heldString]
  cases found : jsonObjectObjectGetEx object field.key with
  | none => exact ⟨rfl, rfl, rfl⟩
  | some value =>
      have present := legible value found
      have printed : (jsonObjectGetString library value).isSome := by
        cases value <;> simp_all [jsonObjectGetString, JsonObject.isNull]
      obtain ⟨text, printed⟩ := Option.isSome_iff_exists.mp printed
      simp only [Option.bind_some, printed, strdup]
      split
      · exact ⟨rfl, rfl, rfl⟩
      · exact ⟨rfl, rfl, rfl⟩

theorem strdup_member_follows_null (field : Field) (value : JsonObject)
    (found : jsonObjectObjectGetEx object field.key = some value) (null : value.isNull = true) :
    (strdupMember library allocator object field).result = none := by
  cases value with
  | null => simp [strdupMember, found, jsonObjectGetString, strdup]
  | _ => simp [JsonObject.isNull] at null

theorem strdup_members_allocate (fields : List Field) (strings : Field → Option HeapString)
    (legible : ∀ field ∈ fields, ∀ value, jsonObjectObjectGetEx object field.key = some value →
      value.isNull = false) :
    Allocates (strdupMembers library allocator object fields strings)
      (fun field => if field ∈ fields then heldString library allocator object field
        else strings field)
      (heldBlocks fields fun field => pointerTo (heldString library allocator object field)) := by
  induction fields generalizing strings with
  | nil => exact ⟨by simp [strdupMembers], rfl, rfl⟩
  | cons field rest ih =>
      have first := strdup_member_allocates library allocator object field
        (legible field List.mem_cons_self)
      have later := ih (Function.update strings field (heldString library allocator object field))
        (fun other inside => legible other (List.mem_cons_of_mem field inside))
      constructor
      · rw [strdupMembers, bind_result, first.result, Option.bind_some, later.result,
          Option.some.injEq]
        funext other
        by_cases same : other = field
        · simp [same]
        · simp [same, Function.update_of_ne]
      · rw [strdupMembers, allocated_bind first.result, first.allocated, later.allocated,
          held_blocks_cons]
      · rw [strdupMembers, freed_bind first.result, first.freed, later.freed]
        rfl

theorem strdup_members_follow_null (fields : List Field) (strings : Field → Option HeapString)
    (illegible : ∃ field ∈ fields, ∃ value,
      jsonObjectObjectGetEx object field.key = some value ∧ value.isNull = true) :
    (strdupMembers library allocator object fields strings).result = none := by
  induction fields generalizing strings with
  | nil => simp at illegible
  | cons field rest ih =>
      rw [strdupMembers, bind_result]
      obtain ⟨other, inside, value, found, null⟩ := illegible
      cases List.mem_cons.mp inside with
      | inl same =>
          rw [same] at found
          rw [strdup_member_follows_null library allocator object field value found null]
          rfl
      | inr later =>
          cases (strdupMember library allocator object field).result with
          | none => rfl
          | some string => exact ih _ ⟨other, later, value, found, null⟩

theorem strdup_copy_allocates (source : Field → Option HeapString) (field : Field)
    (string : HeapString) (present : source field = some string) :
    Allocates (strdup allocator (.copies field) (some string.text))
      (copiedString allocator source field)
      (pointerTo (copiedString allocator source field)).toList := by
  simp only [strdup, copiedString, present, Option.bind_some]
  split
  · exact ⟨rfl, rfl, rfl⟩
  · exact ⟨rfl, rfl, rfl⟩

theorem all_copied_cons (source : Field → Option HeapString) (field : Field) (rest : List Field) :
    AllCopied allocator source (field :: rest) ↔
      ((source field).isSome → allocator.succeeds (.copies field) = true) ∧
        AllCopied allocator source rest := by
  simp [AllCopied]

theorem made_strings_cons (source : Field → Option HeapString) (field : Field) (made : List Field)
    (strings : Field → Option HeapString) :
    (fun other => if other ∈ made then copiedString allocator source other
      else Function.update strings field (copiedString allocator source field) other) =
    fun other => if other ∈ field :: made then copiedString allocator source other
      else strings other := by
  funext other
  by_cases same : other = field
  · by_cases again : field ∈ made
    · simp [same, again]
    · simp [same, again]
  · simp [same]

/-- The copies made before the first failure are held by the song, and nothing else
is allocated. -/
theorem copy_strings_allocate (source : Field → Option HeapString) (fields : List Field)
    (once : fields.Nodup) (info : HeapInfo) (blank : ∀ field ∈ fields, info.strings field = none) :
    ∃ copied made rest, fields = made ++ rest ∧
      Allocates (copyStrings allocator source fields info)
        (copied, { info with strings := fun field =>
          if field ∈ made then copiedString allocator source field else info.strings field })
        (heldBlocks made fun field => pointerTo (copiedString allocator source field)) ∧
      (copied = true ↔ AllCopied allocator source fields) ∧ (copied = true → rest = []) := by
  induction fields generalizing info with
  | nil =>
      refine ⟨true, [], [], rfl, ⟨?_, rfl, rfl⟩, ?_, fun _ => rfl⟩
      · simp [copyStrings]
      · simp [AllCopied]
  | cons field rest ih =>
      obtain ⟨fresh, later⟩ := List.nodup_cons.mp once
      have empty := blank field List.mem_cons_self
      have blanks : ∀ other ∈ rest, info.strings other = none := fun other inside =>
        blank other (List.mem_cons_of_mem field inside)
      cases present : source field with
      | none =>
          obtain ⟨copied, made, left, split, call, every, whole⟩ := ih later info blanks
          have nothing : copiedString allocator source field = none := by
            rw [copiedString, present]
            rfl
          refine ⟨copied, field :: made, left, by rw [split]; rfl, ⟨?_, ?_, ?_⟩, ?_, whole⟩
          · have kept : Function.update info.strings field (copiedString allocator source field) =
                info.strings := by
              rw [nothing, ← empty, Function.update_eq_self]
            rw [← made_strings_cons, kept]
            simp only [copyStrings, present, call.result]
          · simp only [copyStrings, present, call.allocated, held_blocks_cons, nothing]
            rfl
          · simp only [copyStrings, present, call.freed]
          · rw [all_copied_cons, every]
            simp [present]
      | some string =>
          have first := strdup_copy_allocates allocator source field string present
          cases memory : allocator.succeeds (.copies field) with
          | false =>
              have nothing : copiedString allocator source field = none := by
                simp [copiedString, present, memory]
              rw [nothing] at first
              refine ⟨false, [], field :: rest, rfl, ⟨?_, ?_, ?_⟩, ?_, by simp⟩
              · simp [copyStrings, present, first.result]
              · simp only [copyStrings, present]
                rw [allocated_bind first.result, first.allocated]
                rfl
              · simp only [copyStrings, present]
                rw [freed_bind first.result, first.freed]
                rfl
              · simp [all_copied_cons, present, memory]
          | true =>
              have copy : copiedString allocator source field =
                  some ⟨⟨allocator.call, .copies field⟩, string.text⟩ := by
                simp [copiedString, present, memory]
              rw [copy] at first
              have still : ∀ other ∈ rest,
                  (info.setString field
                    (some ⟨⟨allocator.call, .copies field⟩, string.text⟩)).strings other =
                      none := by
                intro other inside
                have distinct : other ≠ field := fun same => fresh (same ▸ inside)
                exact (Function.update_of_ne distinct _ _).trans (blanks other inside)
              obtain ⟨copied, made, left, split, call, every, whole⟩ :=
                ih later (info.setString field _) still
              refine ⟨copied, field :: made, left, by rw [split]; rfl, ⟨?_, ?_, ?_⟩, ?_, whole⟩
              · simp only [copyStrings, present, bind_result, first.result, Option.bind_some]
                rw [call.result, ← made_strings_cons, copy]
                rfl
              · simp only [copyStrings, present]
                rw [allocated_bind first.result, first.allocated, held_blocks_cons, copy]
                simp only [call.allocated]
              · simp only [copyStrings, present]
                rw [freed_bind first.result, first.freed]
                simp only [call.freed, List.nil_append]
              · rw [all_copied_cons, every]
                simp [memory]

def songInfo (allocator : Allocator) (id : Int) (source : Field → Option HeapString) :
    HeapInfo where
  block := ⟨allocator.call, .info⟩
  id := id
  strings := fun field =>
    if field = .data then source .data else copiedString allocator source field

/-- The members that `err` looks at, and the parameters it looks at in their place. -/
def releasedMembers : List Field := [.musicName, .musicUrl, .musicPicture]

def releasedParameters : List Field := [.albumsName, .artistsName]

theorem release_failed_frees (source : Field → Option HeapString) (info : HeapInfo) :
    (releaseFailed source info).result = some () ∧
      allocatedBlocks (releaseFailed source info).events = [] ∧
      freedBlocks (releaseFailed source info).events =
        heldBlocks releasedMembers (fun field => pointerTo (info.strings field)) ++
          heldBlocks releasedParameters (fun field => pointerTo (source field)) ++
          [info.block] := by
  refine ⟨free_each_result _, allocated_of_free_each _, ?_⟩
  rw [releaseFailed, freed_of_free_each, ← free_slots, ← free_slots]
  have split : [pointerTo (info.strings .musicName), pointerTo (info.strings .musicUrl),
        pointerTo (info.strings .musicPicture), pointerTo (source .albumsName),
        pointerTo (source .artistsName), some info.block] =
      releasedMembers.map (fun field => pointerTo (info.strings field)) ++
        releasedParameters.map (fun field => pointerTo (source field)) ++ [some info.block] := rfl
  rw [split, List.filterMap_append, List.filterMap_append]
  rfl

section GetInfo

variable {allocator : Allocator} (id : Int) {source : Field → Option HeapString}

theorem get_info_without_memory (memory : allocator.succeeds .info = false) :
    mozartMusiclistGetInfo allocator id source = pure none := by
  simp [mozartMusiclistGetInfo, memory]

theorem get_info_copied (memory : allocator.succeeds .info = true)
    (all : AllCopied allocator source copiedFields) :
    Allocates (mozartMusiclistGetInfo allocator id source) (some (songInfo allocator id source))
      (⟨allocator.call, .info⟩ ::
        heldBlocks copiedFields fun field => pointerTo (copiedString allocator source field)) := by
  obtain ⟨copied, made, rest, split, call, every, whole⟩ :=
    copy_strings_allocate allocator source copiedFields (by decide)
      { block := ⟨allocator.call, .info⟩, id := id, strings := fun _ => none } (by simp)
  have done := every.mpr all
  have complete : made = copiedFields := by
    rw [split, whole done, List.append_nil]
  rw [complete, done] at call
  constructor
  · simp only [mozartMusiclistGetInfo, memory, if_true, bind_result, record_result,
      Option.bind_some, call.result, pure_result, Option.some.injEq, HeapInfo.setString, songInfo,
      HeapInfo.mk.injEq, true_and]
    funext field
    cases field <;> simp [copiedFields, Function.update]
  · simp only [mozartMusiclistGetInfo, memory, if_true]
    rw [allocated_bind (record_result _), allocated_bind call.result, call.allocated]
    simp
  · simp only [mozartMusiclistGetInfo, memory, if_true]
    rw [freed_bind (record_result _), freed_bind call.result, call.freed]
    simp

theorem get_info_failed (memory : allocator.succeeds .info = true)
    (failing : ¬ AllCopied allocator source copiedFields) :
    ∃ made rest, copiedFields = made ++ rest ∧
      (mozartMusiclistGetInfo allocator id source).result = some none ∧
      allocatedBlocks (mozartMusiclistGetInfo allocator id source).events =
        ⟨allocator.call, .info⟩ ::
          heldBlocks made (fun field => pointerTo (copiedString allocator source field)) ∧
      freedBlocks (mozartMusiclistGetInfo allocator id source).events =
        heldBlocks releasedMembers (fun field => if field ∈ made then
            pointerTo (copiedString allocator source field) else none) ++
          heldBlocks releasedParameters (fun field => pointerTo (source field)) ++
          [⟨allocator.call, .info⟩] := by
  obtain ⟨copied, made, rest, split, call, every, _⟩ :=
    copy_strings_allocate allocator source copiedFields (by decide)
      { block := ⟨allocator.call, .info⟩, id := id, strings := fun _ => none } (by simp)
  have stopped : copied = false := by
    cases copied with
    | false => rfl
    | true => exact absurd (every.mp rfl) failing
  rw [stopped] at call
  have ⟨finished, allocated, freed⟩ := release_failed_frees source
    { block := ⟨allocator.call, .info⟩, id := id, strings := fun field =>
        if field ∈ made then copiedString allocator source field else none }
  refine ⟨made, rest, split, ?_, ?_, ?_⟩
  · simp only [mozartMusiclistGetInfo, memory, if_true, bind_result, record_result,
      Option.bind_some, call.result, Bool.false_eq_true, if_false, finished, pure_result]
  · simp only [mozartMusiclistGetInfo, memory, if_true]
    rw [allocated_bind (record_result _), allocated_bind call.result, call.allocated]
    simp only [Bool.false_eq_true, if_false]
    rw [allocated_bind finished, allocated]
    simp
  · simp only [mozartMusiclistGetInfo, memory, if_true]
    rw [freed_bind (record_result _), freed_bind call.result, call.freed]
    simp only [Bool.false_eq_true, if_false]
    rw [freed_bind finished, freed]
    have pointers : (fun field => pointerTo
          (if field ∈ made then copiedString allocator source field else none)) =
        fun field => if field ∈ made then pointerTo (copiedString allocator source field)
          else none := by
      funext field
      split_ifs
      · rfl
      · rfl
    simp [pointers]

theorem get_info_returns : ∃ info, (mozartMusiclistGetInfo allocator id source).result =
    some info := by
  cases memory : allocator.succeeds .info with
  | false =>
      rw [get_info_without_memory id memory]
      exact ⟨none, rfl⟩
  | true =>
      by_cases all : AllCopied allocator source copiedFields
      · exact ⟨_, (get_info_copied id memory all).result⟩
      · obtain ⟨_, _, _, result, _⟩ := get_info_failed id memory all
        exact ⟨none, result⟩

end GetInfo

theorem legible_iff_fields :
    Legible object ↔ ∀ field ∈ allFields, ∀ value,
      jsonObjectObjectGetEx object field.key = some value → value.isNull = false := by
  simp [Legible, allFields, copiedFields, Field.key]

theorem create_of_legible (present : object.isNull = false) (legible : Legible object) :
    (createMusicInfoByJson library allocator object).result =
        (mozartMusiclistGetInfo allocator (songId library object)
          (heldString library allocator object)).result ∧
      allocatedBlocks (createMusicInfoByJson library allocator object).events =
        heldBlocks allFields
            (fun field => pointerTo (heldString library allocator object field)) ++
          allocatedBlocks (mozartMusiclistGetInfo allocator (songId library object)
            (heldString library allocator object)).events ∧
      freedBlocks (createMusicInfoByJson library allocator object).events =
        freedBlocks (mozartMusiclistGetInfo allocator (songId library object)
            (heldString library allocator object)).events ++
          heldBlocks copiedFields
            (fun field => pointerTo (heldString library allocator object field)) := by
  have members := strdup_members_allocate library allocator object allFields (fun _ => none)
    ((legible_iff_fields object).mp legible)
  have held : (fun field => if field ∈ allFields then heldString library allocator object field
      else none) = heldString library allocator object := by
    funext field
    cases field <;> rfl
  rw [held] at members
  obtain ⟨info, made⟩ := @get_info_returns allocator (songId library object)
    (heldString library allocator object)
  have released : (copiedFields.map fun field =>
        pointerTo (heldString library allocator object field)).filterMap id =
      heldBlocks copiedFields fun field => pointerTo (heldString library allocator object field) :=
    free_slots copiedFields _
  simp only [createMusicInfoByJson, present, Bool.false_eq_true, if_false]
  refine ⟨?_, ?_, ?_⟩
  · rw [bind_result, members.result, Option.bind_some, bind_result, made, Option.bind_some,
      bind_result, free_each_result]
    rfl
  · rw [allocated_bind members.result, members.allocated, allocated_bind made,
      allocated_bind (free_each_result _), allocated_of_free_each]
    simp
  · rw [freed_bind members.result, members.freed, freed_bind made,
      freed_bind (free_each_result _), freed_of_free_each, released]
    simp

theorem create_of_illegible (illegible : ¬ Legible object) :
    (createMusicInfoByJson library allocator object).result = none := by
  rw [legible_iff_fields] at illegible
  push Not at illegible
  obtain ⟨field, inside, value, found, null⟩ := illegible
  have present : object.isNull = false := by
    cases object with
    | null => simp [jsonObjectObjectGetEx] at found
    | _ => rfl
  simp only [createMusicInfoByJson, present, Bool.false_eq_true, if_false]
  rw [bind_result, strdup_members_follow_null library allocator object allFields _
    ⟨field, inside, value, found, by simpa using null⟩]
  rfl

end Specs

/-! ## What the queue takes -/

def queueInfos (state : HeapState) : List HeapInfo :=
  (state.musicplayerList.map HeapList.list).getD []

def ownedStrings (info : HeapInfo) : List Block :=
  heldBlocks allFields fun field => pointerTo (info.strings field)

def ownedBlocks (info : HeapInfo) : List Block := info.block :: ownedStrings info

/-- What is freed of a song that leaves the queue: all but the data. -/
def freedWith (info : HeapInfo) : List Block :=
  heldBlocks copiedFields (fun field => pointerTo (info.strings field)) ++ [info.block]

/-- The insertion gets as far as the tail of the list. -/
def Accepts (handler : Option MusicplayerHandler) (state : HeapState) (withData : Prop) : Prop :=
  ¬ checkHandlerUuid state.read handler < 0 ∧ ∃ list, state.musicplayerList = some list ∧
    (withData → list.freeData = true) ∧ (list.maxIndex = 0 → list.list ≠ [])

section Insertion

variable (handler : Option MusicplayerHandler) (info : HeapInfo) (state : HeapState)

theorem free_music_info_frees (info : HeapInfo) :
    (mozartMusiclistFreeMusicInfo (some info)).result = some () ∧
      allocatedBlocks (mozartMusiclistFreeMusicInfo (some info)).events = [] ∧
      freedBlocks (mozartMusiclistFreeMusicInfo (some info)).events = freedWith info := by
  refine ⟨free_each_result _, allocated_of_free_each _, ?_⟩
  rw [mozartMusiclistFreeMusicInfo, freed_of_free_each, List.filterMap_append, free_slots]
  rfl

def withoutHead (list : HeapList) : HeapList :=
  { list with
    list := list.list.eraseIdx 0
    currentIndex := if 0 < list.currentIndex then list.currentIndex - 1 else list.currentIndex }

theorem delete_head_empty (list : HeapList) (empty : list.list = []) :
    mozartMusiclistDeleteIndex list 0 = pure (-1, list) := by
  simp [mozartMusiclistDeleteIndex, empty]

theorem delete_head_frees (list : HeapList) (head : HeapInfo) (rest : List HeapInfo)
    (filled : list.list = head :: rest) :
    (mozartMusiclistDeleteIndex list 0).result = some (0, withoutHead list) ∧
      allocatedBlocks (mozartMusiclistDeleteIndex list 0).events = [] ∧
      freedBlocks (mozartMusiclistDeleteIndex list 0).events = freedWith head := by
  have ⟨finished, allocated, freed⟩ := free_music_info_frees head
  have inside : ¬ ((0 : Int) ≥ list.list.length ∨ (0 : Int) < 0) := by
    rw [filled]
    simp only [List.length_cons]
    omega
  have first : list.list[(0 : Int).toNat]? = some head := by
    rw [filled]
    rfl
  simp only [mozartMusiclistDeleteIndex, if_neg inside, first]
  refine ⟨?_, ?_, ?_⟩
  · rw [bind_result, finished]
    rfl
  · rw [allocated_bind finished, allocated]
    rfl
  · rw [freed_bind finished, freed, pure_events, freed_nil, List.append_nil]

theorem list_insert_refused (list : HeapList)
    (refused : ¬ (((info.strings .data).isSome → list.freeData = true) ∧
      (list.maxIndex = 0 → list.list ≠ []))) :
    mozartMusiclistInsert (some list) info = pure (-1, some list) := by
  by_cases unowned : (info.strings .data).isSome ∧ list.freeData = false
  · simp only [mozartMusiclistInsert, if_pos unowned]
  · have headless : list.maxIndex = 0 ∧ list.list = [] := by
      simp only [not_and, Bool.not_eq_false] at unowned
      by_contra some_room
      apply refused
      refine ⟨unowned, ?_⟩
      intro bound empty
      exact some_room ⟨bound, empty⟩
    have full : list.maxIndex ≥ 0 ∧ list.maxIndex ≤ list.list.length := by
      simp [headless.1, headless.2]
    simp only [mozartMusiclistInsert, if_neg unowned, if_pos full,
      delete_head_empty list headless.2]
    rfl

theorem list_insert_accepted (list : HeapList)
    (owned : (info.strings .data).isSome → list.freeData = true)
    (room : list.maxIndex = 0 → list.list ≠ []) :
    ∃ ret after kept, (mozartMusiclistInsert (some list) info).result = some (ret, some after) ∧
      after.list = kept ++ [info] ∧
      allocatedBlocks (mozartMusiclistInsert (some list) info).events = [] ∧
      (kept = list.list ∧ freedBlocks (mozartMusiclistInsert (some list) info).events = [] ∨
        ∃ head, list.list = head :: kept ∧
          freedBlocks (mozartMusiclistInsert (some list) info).events = freedWith head) := by
  have taken : ¬ ((info.strings .data).isSome ∧ list.freeData = false) := by
    rintro ⟨held, missing⟩
    rw [owned held] at missing
    exact absurd missing (by simp)
  by_cases full : list.maxIndex ≥ 0 ∧ list.maxIndex ≤ list.list.length
  · cases filled : list.list with
    | nil =>
        rw [filled, List.length_nil] at full
        exact absurd filled (room (by omega))
    | cons head rest =>
        have ⟨finished, allocated, freed⟩ := delete_head_frees list head rest filled
        have erased : (withoutHead list).list = rest := by
          rw [withoutHead, filled]
          rfl
        refine ⟨(withoutHead list).list.length, appendInfo (withoutHead list) info, rest,
          ?_, ?_, ?_, Or.inr ⟨head, rfl, ?_⟩⟩
        · simp only [mozartMusiclistInsert, if_neg taken, if_pos full, bind_result, finished,
            Option.bind_some]
          rfl
        · rw [appendInfo, erased]
        · simp only [mozartMusiclistInsert, if_neg taken, if_pos full]
          rw [allocated_bind finished, allocated]
          rfl
        · simp only [mozartMusiclistInsert, if_neg taken, if_pos full]
          rw [freed_bind finished, freed]
          exact List.append_nil _
  · refine ⟨list.list.length, appendInfo list info, list.list, ?_, rfl, ?_, Or.inl ⟨rfl, ?_⟩⟩
    · simp only [mozartMusiclistInsert, if_neg taken, if_neg full]
      rfl
    · simp only [mozartMusiclistInsert, if_neg taken, if_neg full]
      rfl
    · simp only [mozartMusiclistInsert, if_neg taken, if_neg full]
      rfl

theorem insert_refused_leaves (refused : ¬ Accepts handler state (info.strings .data).isSome) :
    mozartMusicplayerMusiclistInsert handler info state = pure (-1, state) := by
  by_cases other : checkHandlerUuid state.read handler < 0
  · simp only [mozartMusicplayerMusiclistInsert, if_pos other]
  · simp only [mozartMusicplayerMusiclistInsert, if_neg other]
    cases present : state.musicplayerList with
    | none =>
        simp only [mozartMusiclistInsert]
        rw [← present]
        rfl
    | some list =>
        rw [list_insert_refused info list]
        · change pure (-1, { state with musicplayerList := some list }) = _
          rw [← present]
        · intro fits
          exact refused ⟨other, list, present, fits⟩

theorem insert_accepted_keeps (accepted : Accepts handler state (info.strings .data).isSome) :
    ∃ ret after kept, (mozartMusicplayerMusiclistInsert handler info state).result =
        some (ret, after) ∧
      queueInfos after = kept ++ [info] ∧ after.calls = state.calls ∧
      allocatedBlocks (mozartMusicplayerMusiclistInsert handler info state).events = [] ∧
      (kept = queueInfos state ∧
          freedBlocks (mozartMusicplayerMusiclistInsert handler info state).events = [] ∨
        ∃ head, queueInfos state = head :: kept ∧
          freedBlocks (mozartMusicplayerMusiclistInsert handler info state).events =
            freedWith head) := by
  obtain ⟨own, list, present, owned, room⟩ := accepted
  obtain ⟨ret, after, kept, result, tail, allocated, freed⟩ :=
    list_insert_accepted info list owned room
  have songs : queueInfos state = list.list := by
    rw [queueInfos, present]
    rfl
  refine ⟨ret, { state with musicplayerList := some after }, kept, ?_, tail, rfl, ?_, ?_⟩
  · simp only [mozartMusicplayerMusiclistInsert, if_neg own, present, bind_result, result]
    rfl
  · simp only [mozartMusicplayerMusiclistInsert, if_neg own, present]
    rw [allocated_bind result, allocated]
    rfl
  · simp only [mozartMusicplayerMusiclistInsert, if_neg own, present]
    rw [freed_bind result, songs]
    simpa using freed

end Insertion

/-! ## The same call without its memory -/

section Reading

variable (library : JsonLibrary) (object : JsonObject) (handler : Option MusicplayerHandler)

/-- The allocations as the model without blocks knows them: one for each key, and one
for the song with all its copies. -/
def allocatedKey (succeeds : Site → Bool) (complete : Bool) (key : String) : Bool :=
  if key = "info" then complete
  else (allFields.find? fun field => field.key == key).all fun field => succeeds (.callers field)

theorem allocated_key_field (succeeds : Site → Bool) (complete : Bool) (field : Field) :
    allocatedKey succeeds complete field.key = succeeds (.callers field) := by
  cases field <;> simp [allocatedKey, allFields, copiedFields, Field.key]

theorem strdup_field_reads (allocator : Allocator) (complete : Bool) (field : Field)
    (legible : ∀ value, jsonObjectObjectGetEx object field.key = some value →
      value.isNull = false) :
    strdupField library (allocatedKey allocator.succeeds complete) object field.key =
      some ((heldString library allocator object field).map HeapString.text) := by
  simp only [strdupField, heldString]
  cases found : jsonObjectObjectGetEx object field.key with
  | none => rfl
  | some value =>
      have present := legible value found
      cases printed : jsonObjectGetString library value with
      | none => cases value <;> simp_all [jsonObjectGetString, JsonObject.isNull]
      | some text =>
          simp only [Option.bind_some, printed, allocated_key_field]
          split_ifs
          · rfl
          · rfl

theorem copied_string_text (allocator : Allocator) (source : Field → Option HeapString)
    (field : Field) (memory : (source field).isSome → allocator.succeeds (.copies field) = true) :
    (copiedString allocator source field).map HeapString.text =
      (source field).map HeapString.text := by
  rw [copiedString]
  cases present : source field with
  | none => rfl
  | some string => simp [memory (by rw [present]; rfl)]

theorem song_info_reads (allocator : Allocator) (id : Int) (source : Field → Option HeapString)
    (all : AllCopied allocator source copiedFields) :
    (songInfo allocator id source).read =
      { id := id
        musicName := (source .musicName).map HeapString.text
        musicUrl := (source .musicUrl).map HeapString.text
        musicPicture := (source .musicPicture).map HeapString.text
        albumsName := (source .albumsName).map HeapString.text
        artistsName := (source .artistsName).map HeapString.text
        data := (source .data).map HeapString.text } := by
  have text := fun field inside =>
    copied_string_text allocator source field (all field inside)
  simp [HeapInfo.read, songInfo, text .musicName (by decide), text .musicUrl (by decide),
    text .musicPicture (by decide), text .albumsName (by decide), text .artistsName (by decide)]

theorem create_reads (allocator : Allocator) (present : object.isNull = false) :
    ∃ complete, (createMusicInfoByJson library allocator object).result.map
        (Option.map HeapInfo.read) =
      IngenicPlayer.createMusicInfoByJson library (allocatedKey allocator.succeeds complete)
        object := by
  by_cases legible : Legible object
  · have field := fun complete field => strdup_field_reads library object allocator complete field
      ((legible_iff_fields object).mp legible field (by cases field <;> decide))
    have fields : ∀ complete,
        IngenicPlayer.createMusicInfoByJson library (allocatedKey allocator.succeeds complete)
            object =
          some (MusicQueue.mozartMusiclistGetInfo complete (songId library object)
            ((heldString library allocator object .musicName).map HeapString.text)
            ((heldString library allocator object .musicUrl).map HeapString.text)
            ((heldString library allocator object .musicPicture).map HeapString.text)
            ((heldString library allocator object .albumsName).map HeapString.text)
            ((heldString library allocator object .artistsName).map HeapString.text)
            ((heldString library allocator object .data).map HeapString.text)) := by
      intro complete
      have whole : allocatedKey allocator.succeeds complete "info" = complete := rfl
      have name := field complete .musicName
      have url := field complete .musicUrl
      have picture := field complete .musicPicture
      have album := field complete .albumsName
      have artist := field complete .artistsName
      have data := field complete .data
      simp only [Field.key] at name url picture album artist data
      simp only [IngenicPlayer.createMusicInfoByJson, present, name, url, picture, album, artist,
        data, whole]
      rfl
    simp only [fields]
    rw [(create_of_legible library allocator object present legible).1]
    by_cases complete : allocator.succeeds .info = true ∧
        AllCopied allocator (heldString library allocator object) copiedFields
    · refine ⟨true, ?_⟩
      rw [(get_info_copied _ complete.1 complete.2).result, Option.map_some, Option.map_some,
        song_info_reads _ _ _ complete.2]
      rfl
    · refine ⟨false, ?_⟩
      have failed : (mozartMusiclistGetInfo allocator (songId library object)
          (heldString library allocator object)).result = some none := by
        cases memory : allocator.succeeds .info with
        | false =>
            rw [get_info_without_memory _ memory]
            rfl
        | true =>
            obtain ⟨_, _, _, result, _⟩ :=
              get_info_failed (songId library object) memory fun all => complete ⟨memory, all⟩
            exact result
      rw [failed]
      rfl
  · refine ⟨false, ?_⟩
    rw [create_of_illegible library allocator object legible,
      create_music_info_illegible library _ object legible]
    rfl

theorem list_insert_reads (list : Option HeapList) (info : HeapInfo) :
    (mozartMusiclistInsert list info).result.map (fun pair => (pair.1, pair.2.map HeapList.read)) =
      some (MusicQueue.mozartMusiclistInsert (list.map HeapList.read) (some info.read)) := by
  cases list with
  | none => rfl
  | some list =>
      have data : info.read.data.isSome ↔ (info.strings .data).isSome := by simp [HeapInfo.read]
      have length : (list.read.list.length : Int) = list.list.length := by simp [HeapList.read]
      by_cases unowned : (info.strings .data).isSome ∧ list.freeData = false
      · rw [Option.map_some, insert_refused list.read info.read ⟨data.mpr unowned.1, unowned.2⟩]
        simp only [mozartMusiclistInsert, if_pos unowned]
        rfl
      · have owned : ¬ (info.read.data.isSome ∧ list.read.freeData = false) := by
          rw [data]
          exact unowned
        by_cases full : list.maxIndex ≥ 0 ∧ list.maxIndex ≤ list.list.length
        · simp only [mozartMusiclistInsert, if_neg unowned, if_pos full]
          cases filled : list.list with
          | nil =>
              rw [filled, List.length_nil] at full
              have bound : list.maxIndex = 0 := by omega
              rw [Option.map_some, insert_without_head list.read info.read bound
                (by simp [HeapList.read, filled]), delete_head_empty list filled]
              rfl
          | cons head rest =>
              have ⟨finished, _, _⟩ := delete_head_frees list head rest filled
              rw [Option.map_some, insert_with_eviction list.read info.read owned
                (by rw [length]; exact full) (by simp [HeapList.read, filled]), bind_result,
                finished]
              simp [withoutHead, appendInfo, HeapList.read, evictHead, appendSong,
                listInsertAtTail, listDeleteAtIndex, filled]
        · simp only [mozartMusiclistInsert, if_neg unowned, if_neg full]
          rw [Option.map_some, insert_with_room list.read info.read owned
            (by rw [length]; simp only [HeapList.read]; omega), length]
          simp only [pure_result, Option.map_some, appendInfo, HeapList.read, appendSong,
            listInsertAtTail, List.map_append, List.map_cons, List.map_nil]
          rfl

theorem player_insert_reads (info : HeapInfo) (state : HeapState) :
    (mozartMusicplayerMusiclistInsert handler info state).result.map
        (fun pair => (pair.1, pair.2.read)) =
      let outcome := MusicPlayer.mozartMusicplayerMusiclistInsert handler (some info.read)
        state.read
      some (outcome.ret, outcome.state) := by
  simp only [mozartMusicplayerMusiclistInsert, MusicPlayer.mozartMusicplayerMusiclistInsert,
    guarded]
  by_cases other : checkHandlerUuid state.read handler < 0
  · simp [if_pos other]
  · rw [if_neg other, if_neg other]
    have list := list_insert_reads state.musicplayerList info
    obtain ⟨pair, result, same⟩ := Option.map_eq_some_iff.mp list
    have held : state.read.musicplayerList = state.musicplayerList.map HeapList.read := rfl
    rw [held, ← same, bind_result, result]
    rfl

/-- With its blocks left out the call is the one on texts, for the allocations that it
finds memory for. -/
theorem insert_song_reads (succeeds : Site → Bool) (state : HeapState) :
    ∃ allocated, (ingenicplayerInsertSong library succeeds handler object state).result.map
        (fun pair => (pair.1, pair.2.read)) =
      IngenicPlayer.ingenicplayerInsertSong library allocated handler object state.read := by
  cases null : object.isNull with
  | true =>
      refine ⟨fun _ => true, ?_⟩
      simp only [ingenicplayerInsertSong, IngenicPlayer.ingenicplayerInsertSong, null, if_true]
      rfl
  | false =>
      obtain ⟨complete, reads⟩ := create_reads library object ⟨state.calls, succeeds⟩ null
      refine ⟨allocatedKey succeeds complete, ?_⟩
      simp only [ingenicplayerInsertSong, IngenicPlayer.ingenicplayerInsertSong, null,
        Bool.false_eq_true, if_false, bind_result, ← reads]
      cases (createMusicInfoByJson library ⟨state.calls, succeeds⟩ object).result with
      | none => rfl
      | some made =>
          cases made with
          | none => rfl
          | some info => exact player_insert_reads handler info _

end Reading

end Gk7102.SongMemory
