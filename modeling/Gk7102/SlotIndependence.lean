import Gk7102.SlotRelease

/-!
# What one response takes from the last one

Two calls of `slot_resolve` on the same response, one on the `asr_info` that the
responses before it left and one on a zeroed one. What `ray_module_vr.c` reads of
the two results differs where the release leaves a word that the response does not
give: the operation of a command is never released, and the music list only under
the music domain.
-/

namespace Gk7102.SlotResolve

open Gk7102.JsonC
open Gk7102.OwnedCells
open Gk7102.StepRuns

set_option autoImplicit false

structure Song where
  url : Word
  title : Word
  artist : Word
deriving DecidableEq, Repr

structure Extracted where
  operation : Word
  volume : Word
  domain : Domain
  number : Word
  songs : List Song
  output : Word
  errId : Int
deriving DecidableEq, Repr

def songAt (memory : Cell → Word) (i : Nat) : Song where
  url := memory (musicUrl i)
  title := memory (musicTitle i)
  artist := memory (musicArtist i)

/-- The number of songs, as far as the list has a place for them. -/
def listLength (info : AsrInfo) : Nat := min (listCount info).toNat musicMax

def extracted (info : AsrInfo) : Extracted where
  operation := info.memory commandOperation
  volume := info.memory commandVolume
  domain := info.domain
  number := info.memory listNumber
  songs := (List.range (listLength info)).map (songAt info.memory)
  output := info.memory .output
  errId := info.errId

def Independent (library : JsonLibrary) (held : Option AsrInfo) (response : JsonObject) : Prop :=
  ∀ info, held = some info →
    (slotResolve library info response).map extracted =
      (slotResolve library zeroed response).map extracted

/-- What the response does not give is not held either. -/
structure Untainted (library : JsonLibrary) (info : AsrInfo) (response : JsonObject) : Prop where
  clean : CleanRelease info
  operation : (givenCommand library response commandOperation).isSome ∨
    info.memory commandOperation = .null
  number : (givenCount library response).isSome ∨ info.domain = .music ∨ listCount info = 0
  songs : ∀ word < 3 * min (songCount library response) musicMax,
    (givenEntry library response word).isSome ∨ ¬ Held info (word + 1)

/-- The condition under which a response is not tainted by those before it. -/
def UntaintedCall (library : JsonLibrary) (held : Option AsrInfo) (response : JsonObject) : Prop :=
  ∀ info, held = some info → Resolvable library response → Untainted library info response

section Compared

variable {library : JsonLibrary} {info : AsrInfo} {response : JsonObject}

theorem slot_freed_zeroed : slotFreed zeroed = zeroedMemory := by
  funext cell
  simp only [slotFreed, released]
  split_ifs with inside
  · simp only [payloadReleased, zeroed, List.append_nil, List.mem_cons, List.not_mem_nil,
      or_false] at inside
    rcases inside with rfl | rfl | rfl | rfl
    · rfl
    · rfl
    · rfl
    · rfl
  · rfl

theorem cells_agree_iff (shape : Shape info) {next fresh : AsrInfo}
    (resolved : slotResolve library info response = some next)
    (restarted : slotResolve library zeroed response = some fresh) (cell : Cell) :
    next.memory cell = fresh.memory cell ↔
      given library response cell ≠ [] ∨ slotFreed info cell = zeroedMemory cell := by
  obtain ⟨_, assignments, read, same⟩ := slot_resolve_cases shape resolved
  obtain ⟨_, others, reread, same'⟩ := slot_resolve_cases zeroed_shape restarted
  rw [read, Option.some.injEq] at reread
  rw [same, same', ← reread, ← fill_values read, ← slot_freed_zeroed]
  exact stored_agree_iff (storesOf assignments) cell

theorem fields_agree {next fresh : AsrInfo} (shape : Shape info)
    (resolved : slotResolve library info response = some next)
    (restarted : slotResolve library zeroed response = some fresh) :
    next.domain = fresh.domain ∧ next.errId = fresh.errId := by
  obtain ⟨_, assignments, read, same⟩ := slot_resolve_cases shape resolved
  obtain ⟨_, others, reread, same'⟩ := slot_resolve_cases zeroed_shape restarted
  rw [read, Option.some.injEq] at reread
  rw [same, same', reread]
  exact ⟨rfl, rfl⟩

/-- Volume and output are always the response's own. -/
theorem volume_agrees {next fresh : AsrInfo} (shape : Shape info)
    (resolved : slotResolve library info response = some next)
    (restarted : slotResolve library zeroed response = some fresh) :
    next.memory commandVolume = fresh.memory commandVolume := by
  rw [cells_agree_iff shape resolved restarted, given_volume]
  exact Or.inl (List.cons_ne_nil _ _)

theorem output_agrees {next fresh : AsrInfo} (shape : Shape info)
    (resolved : slotResolve library info response = some next)
    (restarted : slotResolve library zeroed response = some fresh) :
    next.memory .output = fresh.memory .output := by
  rw [cells_agree_iff shape resolved restarted]
  exact Or.inr (single_freed (by simp))

theorem texts_ne_nil_iff (text : Option String) : texts text ≠ [] ↔ text.isSome := by
  cases text with
  | none => simp [texts]
  | some text => simp [texts]

theorem operation_agrees_iff {next fresh : AsrInfo} (shape : Shape info)
    (clean : CleanRelease info)
    (resolved : slotResolve library info response = some next)
    (restarted : slotResolve library zeroed response = some fresh) :
    next.memory commandOperation = fresh.memory commandOperation ↔
      (givenCommand library response commandOperation).isSome ∨
        info.memory commandOperation = .null := by
  rw [cells_agree_iff shape resolved restarted, given_operation, texts_ne_nil_iff,
    commandOperation, sem_kept clean]
  exact Iff.rfl

theorem number_released_iff (info : AsrInfo) :
    listNumber ∈ payloadReleased info ↔
      info.domain = .music ∨ info.domain = .weather ∨ info.domain = .chat := by
  simp only [payloadReleased]
  split
  · rename_i music
    simp [music]
  · rename_i weather
    simp [weather, listNumber]
  · rename_i chat
    simp [chat, listNumber]
  · rename_i music weather chat
    constructor
    · intro inside
      exact absurd inside List.not_mem_nil
    · rintro (other | other | other)
      · exact absurd other music
      · exact absurd other weather
      · exact absurd other chat

theorem number_freed_iff (shape : Shape info) (clean : CleanRelease info) :
    slotFreed info listNumber = .null ↔ info.domain = .music ∨ listCount info = 0 := by
  have head : listNumber ∉ [Cell.input, .error, .contextId, .output] := by simp [listNumber]
  by_cases inside : listNumber ∈ payloadReleased info
  · have freed : slotFreed info listNumber = .null :=
      released_member (List.mem_append_right _ inside)
    rcases (number_released_iff info).mp inside with music | words
    · simp [freed, music]
    · simp [freed, clean.2 words]
  · have kept : slotFreed info listNumber = info.memory listNumber := by
      apply released_other
      simp only [List.mem_append, head, inside, or_self, not_false_iff]
    have music : info.domain ≠ .music := by
      intro domain
      exact inside ((number_released_iff info).mpr (Or.inl domain))
    rw [kept, number_eq shape]
    simp [Word.null, music]

theorem number_agrees_iff {next fresh : AsrInfo} (shape : Shape info)
    (clean : CleanRelease info)
    (resolved : slotResolve library info response = some next)
    (restarted : slotResolve library zeroed response = some fresh) :
    next.memory listNumber = fresh.memory listNumber ↔
      (givenCount library response).isSome ∨ info.domain = .music ∨ listCount info = 0 := by
  rw [cells_agree_iff shape resolved restarted, given_number]
  have zero : zeroedMemory listNumber = .null := rfl
  rw [zero, number_freed_iff shape clean]
  cases givenCount library response with
  | none => simp
  | some number => simp

theorem songs_agree_iff {memory other : Cell → Word} (length : Nat) :
    (List.range length).map (songAt memory) = (List.range length).map (songAt other) ↔
      ∀ word < 3 * length, memory (.payload (word + 1)) = other (.payload (word + 1)) := by
  simp only [List.map_inj_left, List.mem_range, songAt, Song.mk.injEq, musicUrl, musicTitle,
    musicArtist]
  constructor
  · intro songs word below
    obtain ⟨url, title, artist⟩ := songs (word / 3) (by omega)
    have part : word + 1 = 1 + 3 * (word / 3) ∨ word + 1 = 2 + 3 * (word / 3) ∨
        word + 1 = 3 + 3 * (word / 3) := by omega
    rcases part with part | part | part
    · rw [part]
      exact url
    · rw [part]
      exact title
    · rw [part]
      exact artist
  · intro words i below
    refine ⟨?_, ?_, ?_⟩
    · rw [Nat.add_comm]
      exact words (3 * i) (by omega)
    · rw [Nat.add_comm]
      exact words (3 * i + 1) (by omega)
    · rw [Nat.add_comm]
      exact words (3 * i + 2) (by omega)

theorem entry_freed_iff (info : AsrInfo) (word : Nat) :
    slotFreed info (.payload (word + 1)) = .null ↔ ¬ Held info (word + 1) := by
  by_cases freed : .payload (word + 1) ∈ payloadReleased info
  · have gone : slotFreed info (.payload (word + 1)) = .null :=
      released_member (List.mem_append_right _ freed)
    simp [gone, Held, freed]
  · have kept : slotFreed info (.payload (word + 1)) = info.memory (.payload (word + 1)) := by
      apply released_other
      simp [freed]
    simp [kept, Held, freed]

theorem entry_agrees_iff {next fresh : AsrInfo} (shape : Shape info)
    (resolved : slotResolve library info response = some next)
    (restarted : slotResolve library zeroed response = some fresh) (word : Nat)
    (inside : word + 1 < payloadWords) :
    next.memory (.payload (word + 1)) = fresh.memory (.payload (word + 1)) ↔
      (givenEntry library response word).isSome ∨ ¬ Held info (word + 1) := by
  rw [cells_agree_iff shape resolved restarted]
  have zero : zeroedMemory (.payload (word + 1)) = .null := if_pos inside
  rw [zero, given_entry, texts_ne_nil_iff, entry_freed_iff]

/-- Where both calls have a result, they agree exactly on untainted responses. -/
theorem extracted_agree_iff {next fresh : AsrInfo} (shape : Shape info)
    (clean : CleanRelease info)
    (resolved : slotResolve library info response = some next)
    (restarted : slotResolve library zeroed response = some fresh) :
    extracted next = extracted fresh ↔ Untainted library info response := by
  have ⟨domain, errId⟩ := fields_agree shape resolved restarted
  have volume := volume_agrees shape resolved restarted
  have output := output_agrees shape resolved restarted
  have operation := operation_agrees_iff shape clean resolved restarted
  have number := number_agrees_iff shape clean resolved restarted
  have fresh_length : listLength fresh = min (songCount library response) musicMax := by
    have released : slotFreed zeroed listNumber = .null := by
      rw [slot_freed_zeroed]
      rfl
    rw [listLength, list_count_after zeroed_shape restarted (Or.inr released), songCount]
  have songs : next.memory listNumber = fresh.memory listNumber →
      ((List.range (listLength next)).map (songAt next.memory) =
          (List.range (listLength fresh)).map (songAt fresh.memory) ↔
        ∀ word < 3 * min (songCount library response) musicMax,
          (givenEntry library response word).isSome ∨ ¬ Held info (word + 1)) := by
    intro same
    have length : listLength next = listLength fresh := by
      simp only [listLength, listCount, same]
    rw [length, fresh_length, songs_agree_iff]
    apply forall₂_congr
    intro word below
    apply entry_agrees_iff shape resolved restarted
    simp only [payloadWords]
    omega
  simp only [extracted, Extracted.mk.injEq]
  constructor
  · rintro ⟨operation_same, _, _, number_same, songs_same, _, _⟩
    exact ⟨clean, operation.mp operation_same, number.mp number_same,
      (songs number_same).mp songs_same⟩
  · intro untainted
    have number_same := number.mpr untainted.number
    exact ⟨operation.mpr untainted.operation, volume, domain, number_same,
      (songs number_same).mpr untainted.songs, output, errId⟩

theorem independent_iff_untainted {held : Option AsrInfo} (shaped : Shaped held) :
    Independent library held response ↔ UntaintedCall library held response := by
  apply forall₂_congr
  intro info here
  have shape := shaped info here
  cases read : slotFill library response with
  | none =>
      have unresolvable : ¬ Resolvable library response := by
        rw [← fill_defined_iff, read]
        simp
      simp [slotResolve, read, unresolvable]
  | some assignments =>
      have resolvable : Resolvable library response := by
        rw [← fill_defined_iff, read]
        rfl
      have restarted := slot_resolve_eq zeroed_shape zeroed_clean read
      by_cases clean : CleanRelease info
      · have resolved := slot_resolve_eq shape clean read
        have agree := extracted_agree_iff shape clean resolved restarted
        rw [resolved, restarted, Option.map_some, Option.map_some, Option.some.injEq, agree]
        exact ⟨fun untainted _ => untainted, fun untainted => untainted resolvable⟩
      · have unresolved : slotResolve library info response = none := by
          simp [slotResolve, slot_free_undefined shape clean]
        rw [unresolved, restarted]
        constructor
        · intro same
          exact absurd same (by simp)
        · intro untainted
          exact absurd (untainted resolvable).clean clean

end Compared

/-- Along every run of responses from a zeroed `asr_info`, each yields what it
yields alone exactly when none of them is tainted by those before it. -/
theorem responses_independent_along_run (library : JsonLibrary) (responses : List JsonObject) :
    EveryStep (slotStep library) (Independent library) (some zeroed) responses ↔
      EveryStep (slotStep library) (UntaintedCall library) (some zeroed) responses := by
  apply every_step_congr_within (shaped_kept) _ _ shaped_start
  intro held response shaped
  exact independent_iff_untainted shaped

def commandResponse (text : String) : JsonObject :=
  .object [("skillId", .string "2018111600000003"),
    ("nlu", .object [("semantics", .object [("request", .object
      [("slots", .array [.object [("value", .string text)]])])])])]

/-- The wish for the next song is still there when more volume is asked for. -/
theorem next_song_asked_again :
    ¬ ∀ (library : JsonLibrary) (responses : List JsonObject),
      EveryStep (slotStep library) (Independent library) (some zeroed) responses := by
  intro always
  have second := (always plainLibrary [commandResponse "下一个", commandResponse "+"]).2.1
  have computed : ((slotStep plainLibrary (some zeroed) (commandResponse "下一个")).bind
        fun info => (slotResolve plainLibrary info (commandResponse "+")).map extracted) ≠
      (slotResolve plainLibrary zeroed (commandResponse "+")).map extracted := by
    decide
  have defined : (slotStep plainLibrary (some zeroed) (commandResponse "下一个")).isSome := by decide
  obtain ⟨info, stepped⟩ := Option.isSome_iff_exists.mp defined
  rw [stepped] at computed
  exact computed (second info stepped)

end Gk7102.SlotResolve
