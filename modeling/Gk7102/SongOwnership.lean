import Gk7102.SongMemory

/-!
# Who owns the strings of an inserted song

The ledger of one `ingenicplayer_insert_song`: a string that was allocated on the
way is freed once or is owned by one song of the queue, and what is freed was
allocated on the way or belonged to the song that made room. The songs of a queue
own different blocks, all of them from earlier calls.
-/

namespace Gk7102.SongOwnership

open Gk7102.AllocationLedger
open Gk7102.IngenicPlayer hiding ingenicplayerInsertSong createMusicInfoByJson
open Gk7102.JsonC
open Gk7102.MusicPlayer hiding mozartMusicplayerMusiclistInsert
open Gk7102.RecordedCalls
open Gk7102.SongMemory
open Gk7102.StepRuns

set_option autoImplicit false

def owners (infos : List HeapInfo) (block : Block) : Nat :=
  infos.countP fun info => decide (block ∈ ownedBlocks info)

structure Owned (state : HeapState) : Prop where
  earlier : ∀ info ∈ queueInfos state, ∀ block ∈ ownedBlocks info, block.call < state.calls
  distinct : ((queueInfos state).flatMap ownedBlocks).Nodup

/-- A player whose queue owns what it holds. -/
def OwnedState : Type := {state : HeapState // Owned state}

structure LedgerBalanced (before after : HeapState) (events : List HeapEvent) : Prop where
  settled : ∀ block ∈ allocatedBlocks events, block.isString = true →
    (freedBlocks events).count block = 1 ∧ owners (queueInfos after) block = 0 ∨
      block ∉ freedBlocks events ∧ owners (queueInfos after) block = 1
  nothing_else : ∀ block ∈ freedBlocks events,
    block ∈ allocatedBlocks events ∨ 0 < owners (queueInfos before) block
  once : ∀ block ∈ freedBlocks events,
    (freedBlocks events).count block = 1 ∧ owners (queueInfos after) block = 0

/-- The ledger of a call that returns; one that follows NULL does not. -/
def BalancedCall (library : JsonLibrary) (succeeds : Site → Bool)
    (handler : Option MusicplayerHandler) (array : JsonObject) (state : HeapState) : Prop :=
  ∀ ret after,
    (ingenicplayerInsertSong library succeeds handler array state).result = some (ret, after) →
      LedgerBalanced state after
        (ingenicplayerInsertSong library succeeds handler array state).events

/-! ## When the ledger is balanced -/

/-- The object has a text for the field, and there is memory for a first copy. -/
def Held (library : JsonLibrary) (succeeds : Site → Bool) (object : JsonObject) (field : Field) :
    Prop :=
  ((jsonObjectObjectGetEx object field.key).bind (jsonObjectGetString library)).isSome ∧
    succeeds (.callers field) = true

def OutOfMemory (library : JsonLibrary) (succeeds : Site → Bool) (object : JsonObject) : Prop :=
  succeeds .info = false ∨
    ∃ field ∈ copiedFields, Held library succeeds object field ∧ succeeds (.copies field) = false

/-- Without memory for the song there must be no data, and no album and no artist
either once the song itself has been allocated; a song that is made must be accepted
or have no text at all. -/
structure LedgerKept (library : JsonLibrary) (succeeds : Site → Bool)
    (handler : Option MusicplayerHandler) (object : JsonObject) (state : HeapState) : Prop where
  failed : OutOfMemory library succeeds object →
    ¬ Held library succeeds object .data ∧
      (succeeds .info = true → ¬ Held library succeeds object .albumsName ∧
        ¬ Held library succeeds object .artistsName)
  made : ¬ OutOfMemory library succeeds object →
    Accepts handler state (Held library succeeds object .data) ∨
      ∀ field, ¬ Held library succeeds object field

/-- A song object that can be read at all. -/
def Readable (object : JsonObject) : Prop := object.isNull = false ∧ Legible object

/-- The copies of `create_music_info_by_json`, and those of the song. -/
def firstCopies (library : JsonLibrary) (succeeds : Site → Bool) (object : JsonObject)
    (call : Nat) (field : Field) : Option Block :=
  pointerTo (heldString library ⟨call, succeeds⟩ object field)

def ownCopies (library : JsonLibrary) (succeeds : Site → Bool) (object : JsonObject)
    (call : Nat) (field : Field) : Option Block :=
  pointerTo (copiedString ⟨call, succeeds⟩ (heldString library ⟨call, succeeds⟩ object) field)

section Blocks

variable {library : JsonLibrary} {succeeds : Site → Bool} {object : JsonObject} {call : Nat}

theorem held_string_iff (call : Nat) (field : Field) :
    (heldString library ⟨call, succeeds⟩ object field).isSome ↔
      Held library succeeds object field := by
  simp only [heldString, Held]
  cases (jsonObjectObjectGetEx object field.key).bind (jsonObjectGetString library) with
  | none => simp
  | some text => cases succeeds (.callers field) <;> simp

theorem all_copied_iff : succeeds .info = true ∧
      AllCopied ⟨call, succeeds⟩ (heldString library ⟨call, succeeds⟩ object) copiedFields ↔
    ¬ OutOfMemory library succeeds object := by
  simp only [OutOfMemory, AllCopied, held_string_iff, not_or, Bool.not_eq_false, not_exists,
    not_and]

theorem first_copies_eq (field : Field) (block : Block) :
    firstCopies library succeeds object call field = some block ↔
      Held library succeeds object field ∧ block = ⟨call, .callers field⟩ := by
  rw [← held_string_iff call]
  simp only [firstCopies, pointerTo, heldString]
  cases (jsonObjectObjectGetEx object field.key).bind (jsonObjectGetString library) with
  | none => simp
  | some text => cases succeeds (.callers field) <;> simp [eq_comm]

theorem own_copies_eq (field : Field) (block : Block) :
    ownCopies library succeeds object call field = some block ↔
      Held library succeeds object field ∧ succeeds (.copies field) = true ∧
        block = ⟨call, .copies field⟩ := by
  rw [← held_string_iff call]
  simp only [ownCopies, pointerTo, copiedString]
  cases heldString library ⟨call, succeeds⟩ object field with
  | none => simp
  | some string => cases succeeds (.copies field) <;> simp [eq_comm]

theorem first_labelled : Labelled (firstCopies library succeeds object call)
    (fun field => ⟨call, .callers field⟩) := by
  intro field block held
  exact ((first_copies_eq field block).mp held).2

theorem own_labelled : Labelled (ownCopies library succeeds object call)
    (fun field => ⟨call, .copies field⟩) := by
  intro field block held
  exact ((own_copies_eq field block).mp held).2.2

theorem mem_first_copies {fields : List Field} {block : Block} :
    block ∈ heldBlocks fields (firstCopies library succeeds object call) ↔
      ∃ field ∈ fields, Held library succeeds object field ∧ block = ⟨call, .callers field⟩ := by
  simp only [mem_held_blocks, first_copies_eq]

theorem mem_own_copies {fields : List Field} {block : Block} :
    block ∈ heldBlocks fields (ownCopies library succeeds object call) ↔
      ∃ field ∈ fields, Held library succeeds object field ∧ succeeds (.copies field) = true ∧
        block = ⟨call, .copies field⟩ := by
  simp only [mem_held_blocks, own_copies_eq]

theorem callers_injective (call : Nat) :
    Function.Injective fun field => (⟨call, .callers field⟩ : Block) := by
  intro left right same
  simpa using same

theorem copies_injective (call : Nat) :
    Function.Injective fun field => (⟨call, .copies field⟩ : Block) := by
  intro left right same
  simpa using same

theorem first_copies_nodup {fields : List Field} (once : fields.Nodup) :
    (heldBlocks fields (firstCopies library succeeds object call)).Nodup :=
  held_blocks_nodup first_labelled (callers_injective call) once

theorem copied_or_data (field : Field) : field ∈ copiedFields ↔ field ≠ .data := by
  cases field <;> decide

theorem parameters_copied : ∀ field ∈ releasedParameters, field ∈ copiedFields := by decide

theorem every_field (field : Field) : field ∈ allFields := by
  cases field <;> decide

end Blocks

section Owners

variable {state : HeapState} {info : HeapInfo} {block : Block}

theorem owners_append (before after : List HeapInfo) :
    owners (before ++ after) block = owners before block + owners after block := by
  simp [owners, List.countP_append]

theorem owners_one : owners [info] block = if block ∈ ownedBlocks info then 1 else 0 := by
  simp [owners, List.countP_cons]

theorem owners_zero_iff (infos : List HeapInfo) :
    owners infos block = 0 ↔ ∀ info ∈ infos, block ∉ ownedBlocks info := by
  simp [owners, List.countP_eq_zero]

theorem owners_fresh (owned : Owned state) (fresh : state.calls ≤ block.call) :
    owners (queueInfos state) block = 0 := by
  rw [owners_zero_iff]
  intro info inside held
  have earlier := owned.earlier info inside block held
  omega

end Owners

/-- With nothing freed twice, it is enough to say what is freed. -/
theorem balanced_of_nodup {before after : HeapState} {events : List HeapEvent}
    (nodup : (freedBlocks events).Nodup)
    (settled : ∀ block ∈ allocatedBlocks events, block.isString = true →
      block ∈ freedBlocks events ∨
        block ∉ freedBlocks events ∧ owners (queueInfos after) block = 1)
    (others : ∀ block ∈ freedBlocks events,
      (block ∈ allocatedBlocks events ∨ 0 < owners (queueInfos before) block) ∧
        owners (queueInfos after) block = 0) : LedgerBalanced before after events := by
  constructor
  · intro block allocated string
    cases settled block allocated string with
    | inl freed => exact Or.inl ⟨List.count_eq_one_of_mem nodup freed, (others block freed).2⟩
    | inr kept => exact Or.inr kept
  · intro block freed
    exact (others block freed).1
  · intro block freed
    exact ⟨List.count_eq_one_of_mem nodup freed, (others block freed).2⟩

/-- A string that is neither freed nor owned afterwards is lost. -/
theorem lost_unbalanced {before after : HeapState} {events : List HeapEvent} (block : Block)
    (allocated : block ∈ allocatedBlocks events) (string : block.isString = true)
    (kept : block ∉ freedBlocks events) (unowned : owners (queueInfos after) block = 0) :
    ¬ LedgerBalanced before after events := by
  intro balanced
  rcases balanced.settled block allocated string with ⟨once, _⟩ | ⟨_, owned⟩
  · exact kept (List.count_pos_iff.mp (by omega))
  · omega

section Failing

variable {library : JsonLibrary} {succeeds : Site → Bool} {object : JsonObject}
  {state after : HeapState} {events : List HeapEvent}

/-- No memory for the song: only the data is not freed. -/
theorem balanced_without_song
    (allocated : allocatedBlocks events =
      heldBlocks allFields (firstCopies library succeeds object state.calls))
    (freed : freedBlocks events =
      heldBlocks copiedFields (firstCopies library succeeds object state.calls))
    (unowned : ∀ block : Block, block.call = state.calls →
      owners (queueInfos after) block = 0) :
    LedgerBalanced state after events ↔ ¬ Held library succeeds object .data := by
  constructor
  · intro balanced held
    apply lost_unbalanced ⟨state.calls, .callers .data⟩ _ rfl _ (unowned _ rfl) balanced
    · rw [allocated, mem_first_copies]
      exact ⟨.data, by decide, held, rfl⟩
    · rw [freed, mem_first_copies]
      rintro ⟨field, inside, _, same⟩
      rw [← callers_injective _ same] at inside
      exact absurd inside (by decide)
  · intro none_held
    apply balanced_of_nodup
    · rw [freed]
      exact first_copies_nodup (by decide)
    · intro block taken _
      rw [allocated, mem_first_copies] at taken
      obtain ⟨field, _, held, same⟩ := taken
      left
      rw [freed, mem_first_copies]
      refine ⟨field, (copied_or_data field).mpr ?_, held, same⟩
      rintro rfl
      exact none_held held
    · intro block released
      rw [freed, mem_first_copies] at released
      obtain ⟨field, _, held, rfl⟩ := released
      refine ⟨Or.inl ?_, unowned _ rfl⟩
      rw [allocated, mem_first_copies]
      exact ⟨field, every_field field, held, rfl⟩

/-- The copies made before the failure, as far as `err` looks at them. -/
theorem mem_released_copies {made : List Field} {block : Block} :
    block ∈ heldBlocks releasedMembers (fun field => if field ∈ made then
        ownCopies library succeeds object state.calls field else none) ↔
      ∃ field ∈ releasedMembers, field ∈ made ∧ Held library succeeds object field ∧
        succeeds (.copies field) = true ∧ block = ⟨state.calls, .copies field⟩ := by
  simp only [mem_held_blocks, Option.ite_none_right_eq_some, own_copies_eq]

theorem released_copies_nodup (made : List Field) :
    (heldBlocks releasedMembers (fun field => if field ∈ made then
      ownCopies library succeeds object state.calls field else none)).Nodup := by
  have labelled : Labelled (fun field => if field ∈ made then
      ownCopies library succeeds object state.calls field else none)
      (fun field => ⟨state.calls, .copies field⟩) := by
    intro field block held
    rw [Option.ite_none_right_eq_some] at held
    exact own_labelled field block held.2
  exact held_blocks_nodup labelled (copies_injective state.calls) (by decide)

/-- `err` and the caller both free a parameter that `err` looks at. -/
theorem twice_freed_unbalanced {made : List Field}
    (freed : freedBlocks events =
      heldBlocks releasedMembers (fun field => if field ∈ made then
          ownCopies library succeeds object state.calls field else none) ++
        heldBlocks releasedParameters (firstCopies library succeeds object state.calls) ++
        [⟨state.calls, .info⟩] ++
        heldBlocks copiedFields (firstCopies library succeeds object state.calls))
    {field : Field} (inside : field ∈ releasedParameters)
    (held : Held library succeeds object field) : ¬ LedgerBalanced state after events := by
  intro balanced
  have parameter : (⟨state.calls, .callers field⟩ : Block) ∈
      heldBlocks releasedParameters (firstCopies library succeeds object state.calls) :=
    mem_first_copies.mpr ⟨field, inside, held, rfl⟩
  have own : (⟨state.calls, .callers field⟩ : Block) ∈
      heldBlocks copiedFields (firstCopies library succeeds object state.calls) :=
    mem_first_copies.mpr ⟨field, parameters_copied field inside, held, rfl⟩
  have once := (balanced.once ⟨state.calls, .callers field⟩ (by rw [freed]; simp [own])).1
  rw [freed, List.count_append, List.count_append, List.count_append] at once
  have first := List.count_pos_iff.mpr parameter
  have second := List.count_pos_iff.mpr own
  omega

/-- Without an album, an artist and data, what `err` and the caller free is what was taken. -/
theorem balanced_of_unheld {made rest : List Field} (split : copiedFields = made ++ rest)
    (allocated : allocatedBlocks events =
      heldBlocks allFields (firstCopies library succeeds object state.calls) ++
        ⟨state.calls, .info⟩ :: heldBlocks made (ownCopies library succeeds object state.calls))
    (freed : freedBlocks events =
      heldBlocks releasedMembers (fun field => if field ∈ made then
          ownCopies library succeeds object state.calls field else none) ++
        [⟨state.calls, .info⟩] ++
        heldBlocks copiedFields (firstCopies library succeeds object state.calls))
    (unowned : ∀ block : Block, block.call = state.calls →
      owners (queueInfos after) block = 0)
    (no_data : ¬ Held library succeeds object .data)
    (no_album : ¬ Held library succeeds object .albumsName)
    (no_artist : ¬ Held library succeeds object .artistsName) :
    LedgerBalanced state after events := by
  apply balanced_of_nodup
  · rw [freed, List.append_assoc, List.nodup_append']
    refine ⟨released_copies_nodup made, ?_, ?_⟩
    · rw [List.singleton_append, List.nodup_cons]
      refine ⟨?_, first_copies_nodup (by decide)⟩
      simp [mem_first_copies]
    · intro block inside elsewhere
      obtain ⟨field, _, _, _, _, rfl⟩ := mem_released_copies.mp inside
      simp [mem_first_copies] at elsewhere
  · intro block taken string
    left
    rw [allocated, List.mem_append, List.mem_cons, mem_first_copies, mem_own_copies] at taken
    rw [freed, List.mem_append, List.mem_append, mem_released_copies, mem_first_copies]
    rcases taken with ⟨field, _, held, same⟩ | rfl | ⟨field, inside, held, memory, same⟩
    · refine Or.inr ⟨field, (copied_or_data field).mpr ?_, held, same⟩
      rintro rfl
      exact no_data held
    · exact absurd string (by simp [Block.isString])
    · refine Or.inl (Or.inl ⟨field, ?_, inside, held, memory, same⟩)
      have copied : field ∈ copiedFields := by simp [split, inside]
      cases field with
      | albumsName => exact absurd held no_album
      | artistsName => exact absurd held no_artist
      | data => exact absurd held no_data
      | _ => decide
  · intro block released
    rw [freed, List.mem_append, List.mem_append, mem_released_copies, mem_first_copies,
      List.mem_singleton] at released
    rw [allocated, List.mem_append, List.mem_cons, mem_first_copies, mem_own_copies]
    rcases released with (⟨field, _, inside, held, memory, rfl⟩ | rfl) | ⟨field, _, held, rfl⟩
    · exact ⟨Or.inl (Or.inr (Or.inr ⟨field, inside, held, memory, rfl⟩)), unowned _ rfl⟩
    · exact ⟨Or.inl (Or.inr (Or.inl rfl)), unowned _ rfl⟩
    · exact ⟨Or.inl (Or.inl ⟨field, every_field field, held, rfl⟩), unowned _ rfl⟩

/-- No memory for a copy of the song: `err` frees the album and the artist of the caller,
who frees them again. -/
theorem balanced_without_copy {made rest : List Field} (split : copiedFields = made ++ rest)
    (allocated : allocatedBlocks events =
      heldBlocks allFields (firstCopies library succeeds object state.calls) ++
        ⟨state.calls, .info⟩ :: heldBlocks made (ownCopies library succeeds object state.calls))
    (freed : freedBlocks events =
      heldBlocks releasedMembers (fun field => if field ∈ made then
          ownCopies library succeeds object state.calls field else none) ++
        heldBlocks releasedParameters (firstCopies library succeeds object state.calls) ++
        [⟨state.calls, .info⟩] ++
        heldBlocks copiedFields (firstCopies library succeeds object state.calls))
    (unowned : ∀ block : Block, block.call = state.calls →
      owners (queueInfos after) block = 0) :
    LedgerBalanced state after events ↔
      ¬ Held library succeeds object .data ∧ ¬ Held library succeeds object .albumsName ∧
        ¬ Held library succeeds object .artistsName := by
  constructor
  · intro balanced
    refine ⟨?_, fun held => twice_freed_unbalanced freed (by decide) held balanced,
      fun held => twice_freed_unbalanced freed (by decide) held balanced⟩
    intro held
    apply lost_unbalanced ⟨state.calls, .callers .data⟩ _ rfl _ (unowned _ rfl) balanced
    · rw [allocated]
      exact List.mem_append_left _ (mem_first_copies.mpr ⟨.data, by decide, held, rfl⟩)
    · rw [freed]
      simp only [List.mem_append, mem_released_copies, mem_first_copies]
      simp [releasedMembers, releasedParameters, copiedFields]
  · rintro ⟨no_data, no_album, no_artist⟩
    have no_parameter :
        heldBlocks releasedParameters (firstCopies library succeeds object state.calls) = [] := by
      rw [List.eq_nil_iff_forall_not_mem]
      intro block inside
      obtain ⟨field, parameter, held, _⟩ := mem_first_copies.mp inside
      simp only [releasedParameters, List.mem_cons, List.not_mem_nil, or_false] at parameter
      rcases parameter with rfl | rfl
      · exact no_album held
      · exact no_artist held
    rw [no_parameter, List.append_nil] at freed
    exact balanced_of_unheld split allocated freed unowned no_data no_album no_artist

end Failing

section Made

variable {library : JsonLibrary} {succeeds : Site → Bool} {object : JsonObject}
  {state after : HeapState} {events : List HeapEvent}

def madeSong (library : JsonLibrary) (succeeds : Site → Bool) (object : JsonObject)
    (call : Nat) : HeapInfo :=
  songInfo ⟨call, succeeds⟩ (songId library object) (heldString library ⟨call, succeeds⟩ object)

theorem made_song_data (call : Nat) :
    ((madeSong library succeeds object call).strings .data).isSome ↔
      Held library succeeds object .data := by
  rw [← held_string_iff call]
  rfl

theorem mem_made_song {call : Nat} {block : Block} :
    block ∈ ownedBlocks (madeSong library succeeds object call) ↔
      block = ⟨call, .info⟩ ∨
        (∃ field ∈ copiedFields, Held library succeeds object field ∧
          succeeds (.copies field) = true ∧ block = ⟨call, .copies field⟩) ∨
        Held library succeeds object .data ∧ block = ⟨call, .callers .data⟩ := by
  have strings : ∀ field, pointerTo ((madeSong library succeeds object call).strings field) =
      if field = .data then firstCopies library succeeds object call .data
      else ownCopies library succeeds object call field := by
    intro field
    simp only [madeSong, songInfo]
    split_ifs
    · rfl
    · rfl
  rw [ownedBlocks, List.mem_cons, ownedStrings, mem_held_blocks]
  apply or_congr Iff.rfl
  simp only [strings]
  constructor
  · rintro ⟨field, _, held⟩
    by_cases data : field = .data
    · rw [if_pos data] at held
      exact Or.inr ((first_copies_eq _ _).mp held)
    · rw [if_neg data] at held
      exact Or.inl ⟨field, (copied_or_data field).mpr data, (own_copies_eq _ _).mp held⟩
  · rintro (⟨field, copied, held⟩ | held)
    · refine ⟨field, every_field field, ?_⟩
      rw [if_neg ((copied_or_data field).mp copied)]
      exact (own_copies_eq _ _).mpr held
    · exact ⟨.data, every_field .data, (first_copies_eq _ _).mpr held⟩

theorem made_song_call {call : Nat} {block : Block}
    (owned : block ∈ ownedBlocks (madeSong library succeeds object call)) : block.call = call := by
  rcases mem_made_song.mp owned with rfl | ⟨_, _, _, _, rfl⟩ | ⟨_, rfl⟩
  · rfl
  · rfl
  · rfl

/-- A song that is not accepted is lost with all that it owns. -/
theorem balanced_refused (memory : ¬ OutOfMemory library succeeds object)
    (allocated : allocatedBlocks events =
      heldBlocks allFields (firstCopies library succeeds object state.calls) ++
        ⟨state.calls, .info⟩ ::
          heldBlocks copiedFields (ownCopies library succeeds object state.calls))
    (freed : freedBlocks events =
      heldBlocks copiedFields (firstCopies library succeeds object state.calls))
    (unowned : ∀ block : Block, block.call = state.calls →
      owners (queueInfos after) block = 0) :
    LedgerBalanced state after events ↔ ∀ field, ¬ Held library succeeds object field := by
  constructor
  · intro balanced field held
    by_cases data : field = .data
    · rw [data] at held
      apply lost_unbalanced ⟨state.calls, .callers .data⟩ _ rfl _ (unowned _ rfl) balanced
      · rw [allocated]
        exact List.mem_append_left _ (mem_first_copies.mpr ⟨.data, by decide, held, rfl⟩)
      · rw [freed, mem_first_copies]
        simp [copiedFields]
    · have copied := (copied_or_data field).mpr data
      have found : succeeds (.copies field) = true := by
        by_contra missing
        exact memory (Or.inr ⟨field, copied, held, by simpa using missing⟩)
      apply lost_unbalanced ⟨state.calls, .copies field⟩ _ rfl _ (unowned _ rfl) balanced
      · rw [allocated, List.mem_append, List.mem_cons, mem_own_copies]
        exact Or.inr (Or.inr ⟨field, copied, held, found, rfl⟩)
      · rw [freed, mem_first_copies]
        simp
  · intro none_held
    have nothing : freedBlocks events = [] := by
      rw [freed, List.eq_nil_iff_forall_not_mem]
      intro block inside
      obtain ⟨field, _, held, _⟩ := mem_first_copies.mp inside
      exact none_held field held
    apply balanced_of_nodup
    · rw [nothing]
      exact List.nodup_nil
    · intro block taken string
      rw [allocated, List.mem_append, List.mem_cons, mem_first_copies, mem_own_copies] at taken
      rcases taken with ⟨field, _, held, _⟩ | rfl | ⟨field, _, held, _⟩
      · exact absurd held (none_held field)
      · exact absurd string (by simp [Block.isString])
      · exact absurd held (none_held field)
    · intro block released
      rw [nothing] at released
      exact absurd released List.not_mem_nil

theorem owned_strings_split (info : HeapInfo) :
    ownedStrings info = heldBlocks copiedFields (fun field => pointerTo (info.strings field)) ++
      heldBlocks [.data] (fun field => pointerTo (info.strings field)) := by
  rw [ownedStrings, allFields, heldBlocks, List.filterMap_append]
  rfl

theorem freed_with_owned {info : HeapInfo} {block : Block} (freed : block ∈ freedWith info) :
    block ∈ ownedBlocks info := by
  rw [ownedBlocks, owned_strings_split]
  rcases List.mem_append.mp freed with string | whole
  · exact List.mem_cons_of_mem _ (List.mem_append_left _ string)
  · rw [List.mem_singleton.mp whole]
    exact List.mem_cons_self

theorem freed_with_nodup {info : HeapInfo} (distinct : (ownedBlocks info).Nodup) :
    (freedWith info).Nodup := by
  rw [ownedBlocks, owned_strings_split] at distinct
  obtain ⟨whole, strings⟩ := List.nodup_cons.mp distinct
  rw [freedWith, List.nodup_append']
  refine ⟨strings.of_append_left, List.nodup_singleton _, ?_⟩
  intro block string same
  rw [List.mem_singleton.mp same] at string
  exact whole (List.mem_append_left _ string)

theorem head_leaves (owned : Owned state) {head : HeapInfo} {kept : List HeapInfo}
    (songs : queueInfos state = head :: kept) :
    (freedWith head).Nodup ∧ ∀ block ∈ freedWith head, block.call < state.calls ∧
      0 < owners (queueInfos state) block ∧ owners kept block = 0 := by
  have distinct := owned.distinct
  rw [songs, List.flatMap_cons, List.nodup_append'] at distinct
  refine ⟨freed_with_nodup distinct.1, ?_⟩
  intro block freed
  have held := freed_with_owned freed
  refine ⟨owned.earlier head (by rw [songs]; exact List.mem_cons_self) block held, ?_, ?_⟩
  · rw [Nat.pos_iff_ne_zero, Ne, owners_zero_iff, songs]
    intro unowned
    exact unowned head List.mem_cons_self held
  · rw [owners_zero_iff]
    intro other inside again
    exact distinct.2.2 held (List.mem_flatMap.mpr ⟨other, inside, again⟩)

theorem evicted_blocks (owned : Owned state) {kept : List HeapInfo} {evicted : List Block}
    (left : kept = queueInfos state ∧ evicted = [] ∨
      ∃ head, queueInfos state = head :: kept ∧ evicted = freedWith head) :
    evicted.Nodup ∧ ∀ block ∈ evicted, block.call < state.calls ∧
      0 < owners (queueInfos state) block ∧ owners kept block = 0 := by
  rcases left with ⟨_, rfl⟩ | ⟨head, before, rfl⟩
  · exact ⟨List.nodup_nil, by simp⟩
  · exact head_leaves owned before

theorem kept_unowned (owned : Owned state) {kept : List HeapInfo} {evicted : List Block}
    (left : kept = queueInfos state ∧ evicted = [] ∨
      ∃ head, queueInfos state = head :: kept ∧ evicted = freedWith head)
    (block : Block) (new : block.call = state.calls) : owners kept block = 0 := by
  have fresh := owners_fresh owned (le_of_eq new.symm)
  rw [owners_zero_iff] at fresh ⊢
  intro info inside
  apply fresh info
  rcases left with ⟨same, _⟩ | ⟨head, before, _⟩
  · rwa [← same]
  · rw [before]
    exact List.mem_cons_of_mem head inside

/-- An accepted song is owned by the queue, whatever has to make room for it. -/
theorem balanced_accepted (owned : Owned state)
    {kept : List HeapInfo} {evicted : List Block}
    (allocated : allocatedBlocks events =
      heldBlocks allFields (firstCopies library succeeds object state.calls) ++
        ⟨state.calls, .info⟩ ::
          heldBlocks copiedFields (ownCopies library succeeds object state.calls))
    (freed : freedBlocks events =
      heldBlocks copiedFields (firstCopies library succeeds object state.calls) ++ evicted)
    (songs : queueInfos after = kept ++ [madeSong library succeeds object state.calls])
    (left : kept = queueInfos state ∧ evicted = [] ∨
      ∃ head, queueInfos state = head :: kept ∧ evicted = freedWith head) :
    LedgerBalanced state after events := by
  have gone := evicted_blocks owned left
  have stay := kept_unowned owned left
  have after_owners : ∀ block, owners (queueInfos after) block = owners kept block +
      if block ∈ ownedBlocks (madeSong library succeeds object state.calls) then 1 else 0 := by
    intro block
    rw [songs, owners_append, owners_one]
  apply balanced_of_nodup
  · rw [freed, List.nodup_append']
    refine ⟨first_copies_nodup (by decide), gone.1, ?_⟩
    intro block first old
    obtain ⟨field, _, _, rfl⟩ := mem_first_copies.mp first
    have earlier := (gone.2 _ old).1
    simp at earlier
  · intro block taken string
    rw [allocated, List.mem_append, List.mem_cons, mem_first_copies, mem_own_copies] at taken
    have new : block.call = state.calls := by
      rcases taken with ⟨_, _, _, rfl⟩ | rfl | ⟨_, _, _, _, rfl⟩
      · rfl
      · rfl
      · rfl
    have not_evicted : block ∉ evicted := by
      intro old
      have earlier := (gone.2 block old).1
      omega
    rw [freed, List.mem_append, mem_first_copies, after_owners, stay block new, Nat.zero_add]
    rcases taken with ⟨field, _, held, rfl⟩ | rfl | ⟨field, copied, held, found, rfl⟩
    · by_cases data : field = .data
      · right
        rw [data] at held ⊢
        refine ⟨?_, if_pos (mem_made_song.mpr (Or.inr (Or.inr ⟨held, rfl⟩)))⟩
        rintro (⟨other, inside, _, same⟩ | old)
        · rw [← callers_injective _ same] at inside
          exact absurd inside (by decide)
        · rw [data] at not_evicted
          exact not_evicted old
      · exact Or.inl (Or.inl ⟨field, (copied_or_data field).mpr data, held, rfl⟩)
    · exact absurd string (by simp [Block.isString])
    · right
      refine ⟨?_, if_pos (mem_made_song.mpr (Or.inr (Or.inl ⟨field, copied, held, found, rfl⟩)))⟩
      rintro (⟨other, _, _, same⟩ | old)
      · exact absurd same (by simp)
      · exact not_evicted old
  · intro block released
    rw [freed, List.mem_append] at released
    rw [after_owners]
    rcases released with first | old
    · obtain ⟨field, copied, held, rfl⟩ := mem_first_copies.mp first
      have other : (⟨state.calls, .callers field⟩ : Block) ∉
          ownedBlocks (madeSong library succeeds object state.calls) := by
        have data := (copied_or_data field).mp copied
        simp [mem_made_song, data]
      rw [stay _ rfl, if_neg other, allocated]
      exact ⟨Or.inl (List.mem_append_left _
        (mem_first_copies.mpr ⟨field, every_field field, held, rfl⟩)), rfl⟩
    · obtain ⟨earlier, before, unowned⟩ := gone.2 block old
      have other : block ∉ ownedBlocks (madeSong library succeeds object state.calls) := by
        intro inside
        have new := made_song_call inside
        omega
      rw [unowned, if_neg other]
      exact ⟨Or.inr before, rfl⟩

end Made

/-! ## The whole call -/

section Call

variable {library : JsonLibrary} {succeeds : Site → Bool} {handler : Option MusicplayerHandler}
  {array : JsonObject} {state : HeapState}

def later (state : HeapState) : HeapState := { state with calls := state.calls + 1 }

theorem new_unowned (owned : Owned state) (block : Block) (new : block.call = state.calls) :
    owners (queueInfos (later state)) block = 0 := by
  have fresh := @owners_fresh state block owned (le_of_eq new.symm)
  exact fresh

theorem insert_of_null (null : array.isNull = true) :
    ingenicplayerInsertSong library succeeds handler array state = pure (-1, later state) := by
  simp only [ingenicplayerInsertSong, if_pos null]
  rfl

theorem insert_of_none (present : array.isNull = false)
    (created : (createMusicInfoByJson library ⟨state.calls, succeeds⟩ array).result = some none) :
    (ingenicplayerInsertSong library succeeds handler array state).result =
        some (-1, later state) ∧
      (ingenicplayerInsertSong library succeeds handler array state).events =
        (createMusicInfoByJson library ⟨state.calls, succeeds⟩ array).events := by
  simp only [ingenicplayerInsertSong, present, Bool.false_eq_true, if_false]
  constructor
  · rw [bind_result, created]
    rfl
  · rw [bind_events_of_result created]
    exact List.append_nil _

theorem insert_of_song (present : array.isNull = false) {info : HeapInfo}
    (created : (createMusicInfoByJson library ⟨state.calls, succeeds⟩ array).result =
      some (some info)) :
    (ingenicplayerInsertSong library succeeds handler array state).result =
        (mozartMusicplayerMusiclistInsert handler info (later state)).result ∧
      (ingenicplayerInsertSong library succeeds handler array state).events =
        (createMusicInfoByJson library ⟨state.calls, succeeds⟩ array).events ++
          (mozartMusicplayerMusiclistInsert handler info (later state)).events := by
  simp only [ingenicplayerInsertSong, present, Bool.false_eq_true, if_false]
  constructor
  · rw [bind_result, created]
    rfl
  · rw [bind_events_of_result created]
    rfl

/-- A call on an object that cannot be read does nothing, if it returns at all. -/
theorem insert_unreadable (unreadable : ¬ Readable array) {ret : Int} {after : HeapState}
    (returned : (ingenicplayerInsertSong library succeeds handler array state).result =
      some (ret, after)) :
    (ingenicplayerInsertSong library succeeds handler array state).events = [] ∧
      after = later state := by
  cases null : array.isNull with
  | true =>
      rw [insert_of_null null] at returned ⊢
      simp only [pure_result, Option.some.injEq, Prod.mk.injEq] at returned
      exact ⟨rfl, returned.2.symm⟩
  | false =>
      have illegible : ¬ Legible array := fun legible => unreadable ⟨null, legible⟩
      simp only [ingenicplayerInsertSong, null, Bool.false_eq_true, if_false, bind_result,
        create_of_illegible library _ array illegible] at returned
      exact absurd returned (by simp)

theorem create_fails (readable : Readable array) (memory : OutOfMemory library succeeds array) :
    (createMusicInfoByJson library ⟨state.calls, succeeds⟩ array).result = some none := by
  rw [(create_of_legible library ⟨state.calls, succeeds⟩ array readable.1 readable.2).1]
  cases room : succeeds .info with
  | false =>
      rw [get_info_without_memory _ room]
      rfl
  | true =>
      obtain ⟨_, _, _, failed, _⟩ := get_info_failed (songId library array) room fun all =>
        all_copied_iff.mp ⟨room, all⟩ memory
      exact failed

theorem create_makes (readable : Readable array) (memory : ¬ OutOfMemory library succeeds array) :
    (createMusicInfoByJson library ⟨state.calls, succeeds⟩ array).result =
      some (some (madeSong library succeeds array state.calls)) := by
  have ⟨room, all⟩ := (@all_copied_iff library succeeds array state.calls).mpr memory
  rw [(create_of_legible library ⟨state.calls, succeeds⟩ array readable.1 readable.2).1]
  exact (get_info_copied (songId library array) room all).result

theorem unreadable_balanced (unreadable : ¬ Readable array) :
    BalancedCall library succeeds handler array state := by
  intro ret after returned
  rw [(insert_unreadable unreadable returned).1]
  apply balanced_of_nodup
  · simp
  · simp
  · simp

theorem balanced_call_of_result {ret : Int} {after : HeapState}
    (returned : (ingenicplayerInsertSong library succeeds handler array state).result =
      some (ret, after)) :
    BalancedCall library succeeds handler array state ↔
      LedgerBalanced state after
        (ingenicplayerInsertSong library succeeds handler array state).events := by
  constructor
  · intro balanced
    exact balanced ret after returned
  · intro balanced other final same
    rw [returned, Option.some.injEq, Prod.mk.injEq] at same
    rw [← same.2]
    exact balanced

theorem balanced_call_failed (owned : Owned state) (readable : Readable array)
    (memory : OutOfMemory library succeeds array) :
    BalancedCall library succeeds handler array state ↔
      ¬ Held library succeeds array .data ∧
        (succeeds .info = true → ¬ Held library succeeds array .albumsName ∧
          ¬ Held library succeeds array .artistsName) := by
  have ⟨_, allocated, freed⟩ :=
    create_of_legible library ⟨state.calls, succeeds⟩ array readable.1 readable.2
  have ⟨returned, events⟩ := @insert_of_none library succeeds handler array state readable.1
    (create_fails readable memory)
  have unowned := new_unowned owned
  cases room : succeeds .info with
  | false =>
      rw [get_info_without_memory _ room] at allocated freed
      rw [pure_events, allocated_nil, List.append_nil] at allocated
      rw [pure_events, freed_nil, List.nil_append] at freed
      rw [balanced_call_of_result returned, events,
        balanced_without_song allocated freed unowned]
      simp
  | true =>
      have failing : ¬ AllCopied ⟨state.calls, succeeds⟩
          (heldString library ⟨state.calls, succeeds⟩ array) copiedFields := fun all =>
        all_copied_iff.mp ⟨room, all⟩ memory
      obtain ⟨made, rest, split, _, more, less⟩ :=
        get_info_failed (songId library array) room failing
      rw [more] at allocated
      rw [less] at freed
      rw [balanced_call_of_result returned, events,
        balanced_without_copy split allocated freed unowned]
      simp

theorem balanced_call_made (owned : Owned state) (readable : Readable array)
    (memory : ¬ OutOfMemory library succeeds array) :
    BalancedCall library succeeds handler array state ↔
      Accepts handler state (Held library succeeds array .data) ∨
        ∀ field, ¬ Held library succeeds array field := by
  have ⟨_, allocated, freed⟩ :=
    create_of_legible library ⟨state.calls, succeeds⟩ array readable.1 readable.2
  have ⟨room, all⟩ := (@all_copied_iff library succeeds array state.calls).mpr memory
  have ⟨_, more, less⟩ := get_info_copied (songId library array) room all
  rw [more] at allocated
  rw [less, List.nil_append] at freed
  have ⟨result, events⟩ := @insert_of_song library succeeds handler array state readable.1
    (madeSong library succeeds array state.calls) (create_makes readable memory)
  have same : Accepts handler (later state)
        ((madeSong library succeeds array state.calls).strings .data).isSome ↔
      Accepts handler state (Held library succeeds array .data) := by
    rw [made_song_data]
    exact Iff.rfl
  by_cases accepted : Accepts handler state (Held library succeeds array .data)
  · obtain ⟨ret, after, kept, returned, songs, _, nothing, left⟩ :=
      insert_accepted_keeps handler (madeSong library succeeds array state.calls) (later state)
        (same.mpr accepted)
    have taken : allocatedBlocks
        (ingenicplayerInsertSong library succeeds handler array state).events =
      heldBlocks allFields (firstCopies library succeeds array state.calls) ++
        ⟨state.calls, .info⟩ ::
          heldBlocks copiedFields (ownCopies library succeeds array state.calls) := by
      rw [events, allocated_append, nothing, List.append_nil]
      exact allocated
    have released : freedBlocks
        (ingenicplayerInsertSong library succeeds handler array state).events =
      heldBlocks copiedFields (firstCopies library succeeds array state.calls) ++
        freedBlocks (mozartMusicplayerMusiclistInsert handler
          (madeSong library succeeds array state.calls) (later state)).events := by
      rw [events, freed_append, freed]
      rfl
    rw [balanced_call_of_result (result.trans returned)]
    have balanced := balanced_accepted owned taken released songs left
    simp only [balanced, accepted, true_or]
  · have refused := insert_refused_leaves handler (madeSong library succeeds array state.calls)
      (later state) (fun fits => accepted (same.mp fits))
    have returned := result.trans (congrArg Recorded.result refused)
    have quiet := congrArg Recorded.events refused
    rw [pure_events] at quiet
    rw [balanced_call_of_result returned, events, quiet, List.append_nil,
      balanced_refused memory allocated freed (new_unowned owned)]
    simp [accepted]

/-! ## The queue keeps owning its songs -/

theorem made_song_nodup (call : Nat) :
    (ownedBlocks (madeSong library succeeds array call)).Nodup := by
  have labelled : Labelled
      (fun field => pointerTo ((madeSong library succeeds array call).strings field))
      (fun field => ⟨call, if field = .data then .callers .data else .copies field⟩) := by
    intro field block held
    by_cases data : field = .data
    · rw [data] at held ⊢
      exact ((first_copies_eq .data block).mp held).2
    · simp only [madeSong, songInfo, if_neg data] at held ⊢
      exact ((own_copies_eq field block).mp held).2.2
  have distinct : Function.Injective fun field : Field =>
      (⟨call, if field = .data then .callers .data else .copies field⟩ : Block) := by
    intro left right same
    cases left <;> cases right <;> simp_all
  rw [ownedBlocks, List.nodup_cons]
  refine ⟨?_, held_blocks_nodup labelled distinct (by decide)⟩
  apply held_elsewhere labelled
  intro field _ same
  simp only [madeSong, songInfo, Block.mk.injEq, true_and] at same
  split_ifs at same

theorem later_owned (owned : Owned state) : Owned (later state) := by
  refine ⟨?_, owned.distinct⟩
  intro info inside block held
  exact Nat.lt_succ_of_lt (owned.earlier info inside block held)

theorem accepted_owned (owned : Owned state) {after : HeapState} {kept : List HeapInfo}
    (songs : queueInfos after = kept ++ [madeSong library succeeds array state.calls])
    (count : after.calls = state.calls + 1)
    (left : kept <:+ queueInfos state) : Owned after := by
  constructor
  · intro info inside block held
    rw [count]
    rw [songs, List.mem_append, List.mem_singleton] at inside
    rcases inside with old | rfl
    · exact Nat.lt_succ_of_lt (owned.earlier info (left.subset old) block held)
    · rw [made_song_call held]
      exact Nat.lt_succ_self _
  · rw [songs, List.flatMap_append, List.flatMap_cons, List.flatMap_nil, List.append_nil,
      List.nodup_append']
    refine ⟨?_, made_song_nodup state.calls, ?_⟩
    · obtain ⟨gone, split⟩ := left
      have distinct := owned.distinct
      rw [← split, List.flatMap_append] at distinct
      exact distinct.of_append_right
    · intro block old new
      obtain ⟨info, inside, held⟩ := List.mem_flatMap.mp old
      have earlier := owned.earlier info (left.subset inside) block held
      rw [made_song_call new] at earlier
      exact absurd earlier (Nat.lt_irrefl _)

theorem insert_song_keeps_owned (owned : Owned state) {ret : Int} {after : HeapState}
    (returned : (ingenicplayerInsertSong library succeeds handler array state).result =
      some (ret, after)) : Owned after := by
  by_cases readable : Readable array
  · by_cases memory : OutOfMemory library succeeds array
    · rw [(insert_of_none readable.1 (create_fails readable memory)).1, Option.some.injEq,
        Prod.mk.injEq] at returned
      rw [← returned.2]
      exact later_owned owned
    · rw [(insert_of_song readable.1 (create_makes readable memory)).1] at returned
      by_cases accepted : Accepts handler (later state)
          ((madeSong library succeeds array state.calls).strings .data).isSome
      · obtain ⟨_, reached, kept, result, songs, count, _, left⟩ :=
          insert_accepted_keeps handler _ (later state) accepted
        rw [result, Option.some.injEq, Prod.mk.injEq] at returned
        rw [← returned.2]
        apply accepted_owned owned songs count
        rcases left with ⟨same, _⟩ | ⟨head, before, _⟩
        · rw [same]
          exact List.suffix_rfl
        · change queueInfos state = head :: kept at before
          rw [before]
          exact List.suffix_cons head kept
      · rw [insert_refused_leaves handler _ (later state) accepted, pure_result, Option.some.injEq,
          Prod.mk.injEq] at returned
        rw [← returned.2]
        exact later_owned owned
  · rw [(insert_unreadable readable returned).2]
    exact later_owned owned

theorem balanced_call_iff (owned : Owned state) :
    BalancedCall library succeeds handler array state ↔
      (Readable array → LedgerKept library succeeds handler array state) := by
  by_cases readable : Readable array
  · by_cases memory : OutOfMemory library succeeds array
    · rw [balanced_call_failed owned readable memory]
      constructor
      · intro failed _
        exact ⟨fun _ => failed, fun found => absurd memory found⟩
      · intro kept
        exact (kept readable).failed memory
    · rw [balanced_call_made owned readable memory]
      constructor
      · intro made _
        exact ⟨fun missing => absurd missing memory, fun _ => made⟩
      · intro kept
        exact (kept readable).made memory
  · constructor
    · intro _ read
      exact absurd read readable
    · intro _
      exact unreadable_balanced readable

end Call

/-- Whatever the song object, the allocations that fail and the fate of the insertion:
the ledger of a call is balanced exactly under this condition. -/
theorem song_ledger_balanced_iff (library : JsonLibrary) (succeeds : Site → Bool)
    (handler : Option MusicplayerHandler) (array : JsonObject) (state : OwnedState) :
    BalancedCall library succeeds handler array state.val ↔
      (Readable array → LedgerKept library succeeds handler array state.val) :=
  balanced_call_iff state.property

/-! ## One song after the other -/

structure InsertCall where
  succeeds : Site → Bool
  handler : Option MusicplayerHandler
  array : JsonObject

/-- Nothing comes after a call that followed NULL. -/
def insertStep (library : JsonLibrary) (held : Option HeapState) (call : InsertCall) :
    Option HeapState :=
  held.bind fun state =>
    (ingenicplayerInsertSong library call.succeeds call.handler call.array state).result.map
      Prod.snd

def BalancedStep (library : JsonLibrary) (held : Option HeapState) (call : InsertCall) : Prop :=
  ∀ state, held = some state →
    BalancedCall library call.succeeds call.handler call.array state

def KeptStep (library : JsonLibrary) (held : Option HeapState) (call : InsertCall) : Prop :=
  ∀ state, held = some state → Readable call.array →
    LedgerKept library call.succeeds call.handler call.array state

/-- The songs of one command after the other, from any queue that owns its songs. -/
theorem ledgers_balanced_along_run (library : JsonLibrary) (state : OwnedState)
    (calls : List InsertCall) :
    EveryStep (insertStep library) (BalancedStep library) (some state.val) calls ↔
      EveryStep (insertStep library) (KeptStep library) (some state.val) calls := by
  have kept : ∀ held call, (∀ state, held = some state → Owned state) →
      ∀ after, insertStep library held call = some after → Owned after := by
    intro held call owned after stepped
    obtain ⟨before, here, returned⟩ := Option.bind_eq_some_iff.mp stepped
    obtain ⟨pair, result, rfl⟩ := Option.map_eq_some_iff.mp returned
    exact insert_song_keeps_owned (owned before here) result
  apply every_step_congr_within kept
  · intro held call owned
    apply forall₂_congr
    intro before here
    exact balanced_call_iff (owned before here)
  · intro before same
    rw [← Option.some.inj same]
    exact state.property

def createdPlayer : OwnedState :=
  ⟨{ currentUuid := "player", inMusicplayer := 0, autoplayFlag := false
     musicplayerList := some { list := [], maxIndex := -1, currentIndex := -1, mode := .order,
                               freeData := true }
     eventType := "", calls := 0 }, by
    constructor
    · simp [queueInfos]
    · simp [queueInfos]⟩

/-- A song with an album, for whose own copy of the album there is no memory: the
caller's copy is freed by `err` and once more by the caller. -/
theorem album_freed_twice :
    ¬ ∀ (library : JsonLibrary) (succeeds : Site → Bool) (handler : Option MusicplayerHandler)
      (array : JsonObject) (state : OwnedState),
      BalancedCall library succeeds handler array state.val := by
  intro always
  have balanced := always plainLibrary (fun site => site != .copies .albumsName)
    (some { playerHandler := some { uuid := "player" } }) (.object [("albumsname", .string "a")])
    createdPlayer (-1) (later createdPlayer.val) rfl
  have once := (balanced.once ⟨0, .callers .albumsName⟩ (by decide)).1
  exact absurd once (by decide)

end Gk7102.SongOwnership
