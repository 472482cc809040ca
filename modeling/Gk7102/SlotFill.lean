import Gk7102.SlotResolve

/-!
# What a response gives

`slot_resolve` fills in only what the response has. `given` says which words a
response assigns to each cell, in their order, and `Resolvable` which responses
can be taken apart at all; neither looks at what `asr_info` held before.
-/

namespace Gk7102.SlotResolve

open Gk7102.JsonC
open Gk7102.OwnedCells

set_option autoImplicit false

def storesOf (assignments : List Assignment) : List (Cell × Word) :=
  assignments.filterMap fun assignment =>
    match assignment with
    | .store cell word => some (cell, word)
    | _ => none

/-! ## The parts of a response -/

def memberText (library : JsonLibrary) (object : JsonObject) (key : String) : Option String :=
  (jsonObjectObjectGetEx object key).bind (jsonObjectGetString library)

def listWidget (response : JsonObject) : Option JsonObject :=
  (jsonObjectObjectGetEx response "dm").bind fun dm => jsonObjectObjectGetEx dm "widget"

def givenContent (response : JsonObject) : Option JsonObject :=
  (listWidget response).bind fun widget => jsonObjectObjectGetEx widget "content"

def givenCount (library : JsonLibrary) (response : JsonObject) : Option Int :=
  ((listWidget response).bind fun widget => jsonObjectObjectGetEx widget "count").map
    (jsonObjectGetInt library)

def songCount (library : JsonLibrary) (response : JsonObject) : Nat :=
  ((givenCount library response).getD 0).toNat

def songKey (part : Nat) : String :=
  if part = 0 then "linkUrl" else if part = 1 then "title" else "subTitle"

/-- The text for a word of the list, counted from the url of the first song. -/
def songText (library : JsonLibrary) (content : JsonObject) (word : Nat) : Option String :=
  (jsonObjectArrayGetIdx content (word / 3)).bind fun song =>
    memberText library song (songKey (word % 3))

def givenEntry (library : JsonLibrary) (response : JsonObject) (word : Nat) : Option String :=
  if word / 3 < songCount library response then
    (givenContent response).bind fun content => songText library content word
  else none

def givenNlu (response : JsonObject) : JsonObject :=
  (jsonObjectObjectGetEx response "nlu").getD .null

def givenSlots (response : JsonObject) : Option JsonObject :=
  ((jsonObjectObjectGetEx (givenNlu response) "semantics").bind
    fun semantics => jsonObjectObjectGetEx semantics "request").bind
    fun request => jsonObjectObjectGetEx request "slots"

def givenCommand (library : JsonLibrary) (response : JsonObject) (cell : Cell) : Option String :=
  ((givenSlots response).bind fun slots =>
    (jsonObjectArrayGetIdx slots 0).bind fun slot => memberText library slot "value").filter
      fun text => commandCell text = some cell

def givenDomain (library : JsonLibrary) (response : JsonObject) : Domain :=
  ((memberText library response "skillId").bind skillDomain).getD .null

def texts (text : Option String) : List Word := text.toList.map Word.string

def given (library : JsonLibrary) (response : JsonObject) : Cell → List Word
  | listNumber => (givenCount library response).toList.map Word.int
  | .payload (word + 1) => texts (givenEntry library response word)
  | .output => texts ((memberText library response "speakUrl").map httpUrl)
  | .contextId =>
      texts (memberText library response "contextId") ++
        texts (memberText library (givenNlu response) "contextId")
  | .input => texts (memberText library (givenNlu response) "input")
  | commandOperation => texts (givenCommand library response commandOperation)
  | commandVolume => .null :: texts (givenCommand library response commandVolume)
  | _ => []

section Cells

variable (library : JsonLibrary) (response : JsonObject)

theorem given_number :
    given library response listNumber = (givenCount library response).toList.map Word.int := rfl

theorem given_entry (word : Nat) :
    given library response (.payload (word + 1)) = texts (givenEntry library response word) := rfl

theorem given_context :
    given library response .contextId =
      texts (memberText library response "contextId") ++
        texts (memberText library (givenNlu response) "contextId") := rfl

theorem given_operation :
    given library response commandOperation =
      texts (givenCommand library response commandOperation) := rfl

theorem given_volume :
    given library response commandVolume =
      .null :: texts (givenCommand library response commandVolume) := rfl

end Cells

/-- A member that `strdup` can copy: it is absent or has a text. -/
def Legible (object : JsonObject) (key : String) : Prop :=
  ∀ value, jsonObjectObjectGetEx object key = some value → value.isNull = false

/-- A response that is taken apart without following NULL and without writing past
an array or a buffer. -/
structure Resolvable (library : JsonLibrary) (response : JsonObject) : Prop where
  songs : ∀ content, givenContent response = some content →
    ∀ i < songCount library response, ∃ song, jsonObjectArrayGetIdx content i = some song ∧
      ∀ part < 3, Legible song (songKey part) ∧
        ((jsonObjectObjectGetEx song (songKey part)).isSome → i < musicMax)
  output : ∀ text, memberText library response "speakUrl" = some text →
    text.utf8ByteSize < urlBuffer
  input : Legible (givenNlu response) "input"
  slots : ∀ slots, givenSlots response = some slots →
    ∃ slot, jsonObjectArrayGetIdx slots 0 = some slot ∧ Legible slot "value"

section Parts

variable {library : JsonLibrary} {assignments : List Assignment}

@[simp] theorem stores_of_append (before after : List Assignment) :
    storesOf (before ++ after) = storesOf before ++ storesOf after := by
  simp [storesOf]

def textStores (target : Cell) (text : Option String) : List (Cell × Word) :=
  text.toList.map fun read => (target, .string read)

theorem values_at_text (cell target : Cell) (text : Option String) :
    valuesAt cell (textStores target text) = if cell = target then texts text else [] := by
  cases text with
  | none => simp [textStores, texts, valuesAt]
  | some read =>
      by_cases same : cell = target
      · simp [textStores, texts, valuesAt, same]
      · simp [textStores, valuesAt, same, Ne.symm same]

theorem member_of_null (key : String) : jsonObjectObjectGetEx .null key = none := rfl

theorem string_is_some_iff (library : JsonLibrary) {value : JsonObject} :
    (jsonObjectGetString library value).isSome ↔ value.isNull = false := by
  cases value <;> simp [jsonObjectGetString, JsonObject.isNull]

theorem strdup_text_stores (object : JsonObject) (key : String) (cell : Cell) :
    storesOf (strdupText library object key cell) =
      textStores cell (memberText library object key) := by
  simp only [strdupText, memberText]
  split
  · rename_i absent
    rw [absent]
    rfl
  · rename_i text present
    rw [present]
    rfl

theorem strdup_member_eq (object : JsonObject) (key : String) (cell : Cell) :
    strdupMember library object key cell =
      if (jsonObjectObjectGetEx object key).any JsonObject.isNull then none
      else some (strdupText library object key cell) := by
  simp only [strdupMember, strdupText]
  cases jsonObjectObjectGetEx object key with
  | none => rfl
  | some value => cases value <;> rfl

theorem legible_iff (object : JsonObject) (key : String) :
    (jsonObjectObjectGetEx object key).any JsonObject.isNull = false ↔ Legible object key := by
  simp only [Legible]
  cases jsonObjectObjectGetEx object key with
  | none => simp
  | some value => simp

theorem song_member_eq (song : JsonObject) (i : Nat) (key : String) (cell : Cell) :
    songMember library song i key cell =
      if (jsonObjectObjectGetEx song key).isSome ∧ ¬ i < musicMax then none
      else strdupMember library song key cell := by
  simp only [songMember, strdupMember]
  cases jsonObjectObjectGetEx song key with
  | none => simp
  | some value =>
      by_cases inside : i < musicMax
      · simp [inside]
      · simp [inside]

theorem song_member_stores {song : JsonObject} {i : Nat} {key : String} {cell : Cell}
    (read : songMember library song i key cell = some assignments) :
    storesOf assignments = textStores cell (memberText library song key) := by
  rw [song_member_eq, strdup_member_eq] at read
  split_ifs at read
  rw [← Option.some.inj read, strdup_text_stores]

theorem song_stores {content : JsonObject} {i : Nat}
    (read : resolveSong library content i = some assignments) :
    ∃ song, jsonObjectArrayGetIdx content i = some song ∧
      storesOf assignments = textStores (musicUrl i) (memberText library song "linkUrl") ++
        textStores (musicTitle i) (memberText library song "title") ++
        textStores (musicArtist i) (memberText library song "subTitle") := by
  simp only [resolveSong, Option.bind_eq_bind, Option.bind_eq_some_iff, Option.some.injEq] at read
  obtain ⟨song, element, url, url_read, title, title_read, artist, artist_read, rfl⟩ := read
  refine ⟨song, element, ?_⟩
  rw [stores_of_append, stores_of_append, song_member_stores url_read,
    song_member_stores title_read, song_member_stores artist_read]

theorem song_values {content : JsonObject} {i : Nat}
    (read : resolveSong library content i = some assignments) (word : Nat) :
    valuesAt (.payload (word + 1)) (storesOf assignments) =
      if word / 3 = i then texts (songText library content word) else [] := by
  obtain ⟨song, element, stores⟩ := song_stores read
  rw [stores, values_at_append, values_at_append, values_at_text, values_at_text, values_at_text]
  simp only [musicUrl, musicTitle, musicArtist, Cell.payload.injEq]
  have url : word + 1 = 1 + 3 * i ↔ word / 3 = i ∧ word % 3 = 0 := by omega
  have title : word + 1 = 2 + 3 * i ↔ word / 3 = i ∧ word % 3 = 1 := by omega
  have artist : word + 1 = 3 + 3 * i ↔ word / 3 = i ∧ word % 3 = 2 := by omega
  simp only [url, title, artist]
  by_cases own : word / 3 = i
  · have part : word % 3 = 0 ∨ word % 3 = 1 ∨ word % 3 = 2 := by omega
    rcases part with part | part | part
    · simp [own, part, songText, element, songKey]
    · simp [own, part, songText, element, songKey]
    · simp [own, part, songText, element, songKey]
  · simp [own]

theorem song_values_other {content : JsonObject} {i : Nat}
    (read : resolveSong library content i = some assignments) (cell : Cell)
    (other : ∀ word, cell ≠ .payload (word + 1)) : valuesAt cell (storesOf assignments) = [] := by
  obtain ⟨song, -, stores⟩ := song_stores read
  have url : cell ≠ musicUrl i := by
    rw [musicUrl, Nat.add_comm]
    exact other (3 * i)
  have title : cell ≠ musicTitle i := by
    rw [musicTitle, Nat.add_comm]
    exact other (3 * i + 1)
  have artist : cell ≠ musicArtist i := by
    rw [musicArtist, Nat.add_comm]
    exact other (3 * i + 2)
  rw [stores, values_at_append, values_at_append, values_at_text, values_at_text, values_at_text,
    if_neg url, if_neg title, if_neg artist]
  rfl

theorem resolve_content_succ (content : JsonObject) (count : Nat) :
    resolveContent library content (count + 1) =
      (resolveContent library content count).bind fun before =>
        (resolveSong library content count).map fun song => before ++ song := by
  simp only [resolveContent, List.range_succ, List.mapM_append]
  cases (List.range count).mapM (resolveSong library content) with
  | none => rfl
  | some before =>
      cases read : resolveSong library content count with
      | none => simp [read]
      | some song => simp [read]

theorem content_values {content : JsonObject} {count : Nat}
    (read : resolveContent library content count = some assignments) (word : Nat) :
    valuesAt (.payload (word + 1)) (storesOf assignments) =
      if word / 3 < count then texts (songText library content word) else [] := by
  induction count generalizing assignments with
  | zero =>
      have none_read : assignments = [] := by simpa [resolveContent] using read.symm
      simp [none_read, storesOf, valuesAt]
  | succ count ih =>
      rw [resolve_content_succ] at read
      obtain ⟨before, before_read, read⟩ := Option.bind_eq_some_iff.mp read
      obtain ⟨song, song_read, rfl⟩ := Option.map_eq_some_iff.mp read
      rw [stores_of_append, values_at_append, ih before_read, song_values song_read]
      by_cases own : word / 3 = count
      · simp [own]
      · have below : word / 3 < count + 1 ↔ word / 3 < count := by omega
        simp [own, below]

theorem content_values_other {content : JsonObject} {count : Nat}
    (read : resolveContent library content count = some assignments) (cell : Cell)
    (other : ∀ word, cell ≠ .payload (word + 1)) : valuesAt cell (storesOf assignments) = [] := by
  induction count generalizing assignments with
  | zero =>
      have none_read : assignments = [] := by simpa [resolveContent] using read.symm
      rw [none_read]
      rfl
  | succ count ih =>
      rw [resolve_content_succ] at read
      obtain ⟨before, before_read, read⟩ := Option.bind_eq_some_iff.mp read
      obtain ⟨song, song_read, rfl⟩ := Option.map_eq_some_iff.mp read
      rw [stores_of_append, values_at_append, ih before_read,
        song_values_other song_read cell other]
      rfl

/-! ## The whole response -/

theorem count_values (widget : JsonObject) (cell : Cell) :
    valuesAt cell (storesOf (resolveCount library widget)) =
      if cell = listNumber then
        ((jsonObjectObjectGetEx widget "count").map (jsonObjectGetInt library)).toList.map Word.int
      else [] := by
  simp only [resolveCount]
  cases jsonObjectObjectGetEx widget "count" with
  | none => simp [storesOf, valuesAt]
  | some count =>
      by_cases same : cell = listNumber
      · simp [storesOf, valuesAt, same]
      · simp [storesOf, valuesAt, same, Ne.symm same]

theorem widget_values {widget : JsonObject}
    (read : resolveWidget library widget = some assignments) (cell : Cell) :
    valuesAt cell (storesOf assignments) =
      match cell with
      | listNumber =>
          ((jsonObjectObjectGetEx widget "count").map
            (jsonObjectGetInt library)).toList.map Word.int
      | .payload (word + 1) =>
          if word / 3 < (widgetCount library widget).toNat then
            texts ((jsonObjectObjectGetEx widget "content").bind fun content =>
              songText library content word)
          else []
      | _ => [] := by
  simp only [resolveWidget] at read
  split at read
  · rename_i absent
    rw [← Option.some.inj read, count_values]
    cases cell with
    | payload word => cases word <;> simp [listNumber, absent, texts]
    | _ => simp [listNumber]
  · rename_i content present
    obtain ⟨entries, entries_read, read⟩ := Option.bind_eq_some_iff.mp read
    rw [← Option.some.inj read, stores_of_append, values_at_append, count_values]
    cases cell with
    | payload word =>
        cases word with
        | zero => simp [listNumber, content_values_other entries_read (.payload 0)]
        | succ word => simp [listNumber, present, content_values entries_read]
    | _ => simp [listNumber, content_values_other entries_read]

theorem song_count_of_widget {response widget : JsonObject}
    (present : listWidget response = some widget) :
    songCount library response = (widgetCount library widget).toNat := by
  simp only [songCount, givenCount, present, widgetCount, Option.bind_some]
  cases jsonObjectObjectGetEx widget "count" with
  | none => rfl
  | some count => rfl

def givenList (library : JsonLibrary) (response : JsonObject) : Cell → List Word
  | listNumber => (givenCount library response).toList.map Word.int
  | .payload (word + 1) => texts (givenEntry library response word)
  | _ => []

theorem session_values (dm : JsonObject) : storesOf (resolveSession library dm) = [] := by
  simp only [resolveSession]
  split
  · rfl
  · rfl

theorem given_list_absent {response : JsonObject} (absent : listWidget response = none)
    (cell : Cell) : givenList library response cell = [] := by
  simp only [givenList, givenCount, givenEntry, givenContent, absent]
  split <;> simp [texts]

theorem dm_values {response : JsonObject}
    (read : resolveDm library response = some assignments) (cell : Cell) :
    valuesAt cell (storesOf assignments) = givenList library response cell := by
  simp only [resolveDm] at read
  split at read
  · rename_i dm
    rw [← Option.some.inj read, given_list_absent (by simp [listWidget, dm])]
    rfl
  · rename_i held dm
    split at read
    · rename_i widget
      rw [← Option.some.inj read, given_list_absent (by simp [listWidget, dm, widget]),
        session_values]
      rfl
    · rename_i inner widget
      obtain ⟨music, music_read, read⟩ := Option.bind_eq_some_iff.mp read
      have present : listWidget response = some inner := by simp [listWidget, dm, widget]
      rw [← Option.some.inj read, stores_of_append, session_values, List.append_nil,
        widget_values music_read]
      simp only [givenList, givenCount, givenEntry, givenContent, present,
        song_count_of_widget present, Option.bind_some]
      split
      · rfl
      · split_ifs
        · rfl
        · rfl
      · rfl

theorem command_cell_cases {text : String} {cell : Cell} (chosen : commandCell text = some cell) :
    cell = commandOperation ∨ cell = commandVolume := by
  simp only [commandCell] at chosen
  split_ifs at chosen
  · exact Or.inl (Option.some.inj chosen).symm
  · exact Or.inr (Option.some.inj chosen).symm

theorem given_command_other (response : JsonObject) {cell : Cell}
    (operation : cell ≠ commandOperation) (volume : cell ≠ commandVolume) :
    givenCommand library response cell = none := by
  simp only [givenCommand, Option.filter_eq_none_iff, decide_eq_true_eq]
  intro text _ chosen
  rcases command_cell_cases chosen with same | same
  · exact operation same
  · exact volume same

theorem slot_values {slot : JsonObject} (read : resolveSlot library slot = some assignments)
    (cell : Cell) :
    valuesAt cell (storesOf assignments) =
      texts ((memberText library slot "value").filter fun text =>
        commandCell text = some cell) := by
  simp only [resolveSlot, memberText] at read ⊢
  cases value : jsonObjectObjectGetEx slot "value" with
  | none =>
      rw [value, Option.some.injEq] at read
      rw [← read]
      rfl
  | some held =>
      rw [value] at read
      obtain ⟨text, text_read, read⟩ := Option.bind_eq_some_iff.mp read
      rw [Option.bind_some, text_read]
      cases chosen : commandCell text with
      | none =>
          rw [chosen, Option.some.injEq] at read
          rw [← read]
          simp [storesOf, valuesAt, texts, Option.filter, chosen]
      | some target =>
          rw [chosen, Option.some.injEq] at read
          rw [← read]
          by_cases same : target = cell
          · simp [storesOf, valuesAt, texts, Option.filter, chosen, same]
          · simp [storesOf, valuesAt, texts, Option.filter, chosen, same]

theorem semantics_values {response : JsonObject}
    (read : resolveSemantics library (givenNlu response) = some assignments) (cell : Cell) :
    valuesAt cell (storesOf assignments) = texts (givenCommand library response cell) := by
  simp only [resolveSemantics] at read
  simp only [givenCommand, givenSlots]
  split at read
  · rename_i absent
    rw [absent, ← Option.some.inj read]
    rfl
  · rename_i slots present
    obtain ⟨slot, element, read⟩ := Option.bind_eq_some_iff.mp read
    rw [present, Option.bind_some, element]
    exact slot_values read cell

theorem nlu_values {response : JsonObject}
    (read : resolveNlu library response = some assignments) (cell : Cell) :
    valuesAt cell (storesOf assignments) =
      (if cell = .input then texts (memberText library (givenNlu response) "input") else []) ++
        (if cell = .contextId then texts (memberText library (givenNlu response) "contextId")
          else []) ++ texts (givenCommand library response cell) := by
  simp only [resolveNlu] at read
  split at read
  · rename_i absent
    have here : givenNlu response = .null := by simp [givenNlu, absent]
    rw [← Option.some.inj read]
    simp [here, member_of_null, givenCommand, givenSlots, memberText, texts, storesOf, valuesAt]
  · rename_i nlu present
    have here : givenNlu response = nlu := by simp [givenNlu, present]
    simp only [Option.bind_eq_bind, Option.bind_eq_some_iff, Option.some.injEq] at read
    obtain ⟨input, input_read, semantics, semantics_read, rfl⟩ := read
    rw [strdup_member_eq] at input_read
    split_ifs at input_read
    rw [here, stores_of_append, stores_of_append, values_at_append, values_at_append,
      ← Option.some.inj input_read, strdup_text_stores, strdup_text_stores, values_at_text,
      values_at_text]
    rw [← here] at semantics_read
    rw [semantics_values semantics_read]

theorem output_values {response : JsonObject}
    (read : resolveSpeakUrl library response = some assignments) (cell : Cell) :
    valuesAt cell (storesOf assignments) =
      if cell = .output then texts ((memberText library response "speakUrl").map httpUrl)
      else [] := by
  have stores : storesOf assignments =
      textStores .output ((memberText library response "speakUrl").map httpUrl) := by
    simp only [resolveSpeakUrl, memberText] at read ⊢
    split at read
    · rename_i absent
      rw [absent, ← Option.some.inj read]
      rfl
    · rename_i text present
      split_ifs at read
      rw [present, ← Option.some.inj read]
      rfl
  rw [stores, values_at_text]

theorem skill_values (library : JsonLibrary) (response : JsonObject) :
    storesOf (resolveSkill library response) = [] := by
  simp only [resolveSkill]
  split
  · rfl
  · split
    · rfl
    · rfl

theorem error_values (library : JsonLibrary) (response : JsonObject) :
    storesOf (resolveError library response) = [] := by
  simp only [resolveError]
  split
  · rfl
  · split
    · rfl
    · rfl

theorem fill_values {response : JsonObject}
    (read : slotFill library response = some assignments) (cell : Cell) :
    valuesAt cell (storesOf assignments) = given library response cell := by
  simp only [slotFill, Option.bind_eq_bind, Option.bind_eq_some_iff, Option.some.injEq] at read
  obtain ⟨dm, dm_read, output, output_read, nlu, nlu_read, rfl⟩ := read
  simp only [stores_of_append, values_at_append, skill_values, error_values, strdup_text_stores,
    values_at_text, dm_values dm_read, output_values output_read, nlu_values nlu_read]
  have volume : valuesAt cell (storesOf [Assignment.store commandVolume .null]) =
      if cell = commandVolume then [Word.null] else [] := by
    by_cases same : cell = commandVolume
    · simp [storesOf, valuesAt, same]
    · simp [storesOf, valuesAt, same, Ne.symm same]
  rw [volume]
  by_cases commanded : cell = commandOperation ∨ cell = commandVolume
  · rcases commanded with rfl | rfl
    · simp [given, givenList, commandOperation, commandVolume]
    · simp [given, givenList, commandVolume]
  · obtain ⟨operation, volume⟩ := not_or.mp commanded
    rw [given_command_other response operation volume, if_neg volume]
    cases cell with
    | payload word => cases word <;> simp [given, givenList, texts]
    | sem word =>
        have other : given library response (.sem word) = [] := by
          simp only [commandOperation, commandVolume, Cell.sem.injEq] at operation volume
          simp [given, operation, volume]
        rw [other]
        simp [givenList, texts]
    | _ => simp [given, givenList, texts]

/-! ## Which responses can be taken apart -/

theorem song_member_defined {song : JsonObject} {i : Nat} {key : String} {cell : Cell} :
    (songMember library song i key cell).isSome ↔
      Legible song key ∧ ((jsonObjectObjectGetEx song key).isSome → i < musicMax) := by
  rw [song_member_eq, strdup_member_eq, ← legible_iff]
  cases jsonObjectObjectGetEx song key with
  | none => simp
  | some value =>
      by_cases inside : i < musicMax
      · simp [inside]
      · simp [inside]

theorem resolve_song_defined {content : JsonObject} {i : Nat} :
    (resolveSong library content i).isSome ↔
      ∃ song, jsonObjectArrayGetIdx content i = some song ∧
        ∀ part < 3, Legible song (songKey part) ∧
          ((jsonObjectObjectGetEx song (songKey part)).isSome → i < musicMax) := by
  have parts : ∀ song, (∀ part < 3, Legible song (songKey part) ∧
        ((jsonObjectObjectGetEx song (songKey part)).isSome → i < musicMax)) ↔
      (songMember library song i "linkUrl" (musicUrl i)).isSome ∧
        (songMember library song i "title" (musicTitle i)).isSome ∧
        (songMember library song i "subTitle" (musicArtist i)).isSome := by
    intro song
    rw [song_member_defined, song_member_defined, song_member_defined]
    constructor
    · intro every
      exact ⟨every 0 (by decide), every 1 (by decide), every 2 (by decide)⟩
    · rintro ⟨url, title, artist⟩ part below
      have three : part = 0 ∨ part = 1 ∨ part = 2 := by omega
      rcases three with rfl | rfl | rfl
      · exact url
      · exact title
      · exact artist
  simp only [parts]
  simp only [Option.isSome_iff_exists]
  constructor
  · rintro ⟨assignments, read⟩
    simp only [resolveSong, Option.bind_eq_bind, Option.bind_eq_some_iff] at read
    obtain ⟨song, element, url, url_read, title, title_read, artist, artist_read, -⟩ := read
    exact ⟨song, element, ⟨url, url_read⟩, ⟨title, title_read⟩, ⟨artist, artist_read⟩⟩
  · rintro ⟨song, element, ⟨url, url_read⟩, ⟨title, title_read⟩, ⟨artist, artist_read⟩⟩
    exact ⟨url ++ title ++ artist, by
      simp [resolveSong, element, url_read, title_read, artist_read]⟩

theorem resolve_content_defined {content : JsonObject} {count : Nat} :
    (resolveContent library content count).isSome ↔
      ∀ i < count, (resolveSong library content i).isSome := by
  induction count with
  | zero => simp [resolveContent]
  | succ count ih =>
      have split : (∀ i < count + 1, (resolveSong library content i).isSome) ↔
          (resolveContent library content count).isSome ∧
            (resolveSong library content count).isSome := by
        rw [ih]
        constructor
        · intro every
          exact ⟨fun i below => every i (by omega), every count (by omega)⟩
        · rintro ⟨before, last⟩ i below
          cases Nat.lt_succ_iff_lt_or_eq.mp below with
          | inl earlier => exact before i earlier
          | inr same => rwa [same]
      rw [split, resolve_content_succ]
      cases resolveContent library content count with
      | none => simp
      | some before => simp

theorem resolve_widget_defined {widget : JsonObject} :
    (resolveWidget library widget).isSome ↔
      ∀ content, jsonObjectObjectGetEx widget "content" = some content →
        ∀ i < (widgetCount library widget).toNat, (resolveSong library content i).isSome := by
  simp only [resolveWidget]
  cases jsonObjectObjectGetEx widget "content" with
  | none => simp
  | some content =>
      simp only [Option.some.injEq, forall_eq', ← resolve_content_defined]
      cases resolveContent library content (widgetCount library widget).toNat with
      | none => simp
      | some entries => simp

theorem resolve_dm_defined {response : JsonObject} :
    (resolveDm library response).isSome ↔
      ∀ content, givenContent response = some content →
        ∀ i < songCount library response, (resolveSong library content i).isSome := by
  have inner : (resolveDm library response).isSome ↔
      ∀ widget, listWidget response = some widget → (resolveWidget library widget).isSome := by
    simp only [resolveDm, listWidget]
    cases jsonObjectObjectGetEx response "dm" with
    | none => simp
    | some dm =>
        simp only [Option.bind_some]
        cases jsonObjectObjectGetEx dm "widget" with
        | none => simp
        | some widget =>
            simp only [Option.some.injEq, forall_eq']
            cases resolveWidget library widget with
            | none => simp
            | some music => simp
  rw [inner]
  cases present : listWidget response with
  | none => simp [givenContent, present]
  | some widget =>
      simp only [Option.some.injEq, forall_eq', resolve_widget_defined,
        song_count_of_widget present, givenContent, present, Option.bind_some]

theorem resolve_speak_url_defined {response : JsonObject} :
    (resolveSpeakUrl library response).isSome ↔
      ∀ text, memberText library response "speakUrl" = some text →
        text.utf8ByteSize < urlBuffer := by
  simp only [resolveSpeakUrl, memberText]
  cases (jsonObjectObjectGetEx response "speakUrl").bind (jsonObjectGetString library) with
  | none => simp
  | some https =>
      by_cases fits : https.utf8ByteSize < urlBuffer
      · simp [fits]
      · simp [fits]

theorem resolve_slot_defined {slot : JsonObject} :
    (resolveSlot library slot).isSome ↔ Legible slot "value" := by
  simp only [resolveSlot, Legible]
  cases jsonObjectObjectGetEx slot "value" with
  | none => simp
  | some value =>
      simp only [Option.some.injEq, forall_eq', ← string_is_some_iff library]
      cases jsonObjectGetString library value with
      | none => simp
      | some text =>
          cases chosen : commandCell text with
          | none => simp [chosen]
          | some cell => simp [chosen]

theorem resolve_semantics_defined (library : JsonLibrary) {response : JsonObject} :
    (resolveSemantics library (givenNlu response)).isSome ↔
      ∀ slots, givenSlots response = some slots →
        ∃ slot, jsonObjectArrayGetIdx slots 0 = some slot ∧ Legible slot "value" := by
  simp only [resolveSemantics, givenSlots]
  split
  · rename_i absent
    simp [absent]
  · rename_i slots present
    simp only [present, Option.some.injEq, forall_eq']
    cases jsonObjectArrayGetIdx slots 0 with
    | none => simp
    | some slot => simp [resolve_slot_defined]

theorem resolve_nlu_defined {response : JsonObject} :
    (resolveNlu library response).isSome ↔
      Legible (givenNlu response) "input" ∧
        ∀ slots, givenSlots response = some slots →
          ∃ slot, jsonObjectArrayGetIdx slots 0 = some slot ∧ Legible slot "value" := by
  rw [← resolve_semantics_defined library, ← legible_iff]
  simp only [resolveNlu]
  split
  · rename_i absent
    have here : givenNlu response = .null := by simp [givenNlu, absent]
    simp [here, member_of_null, resolveSemantics]
  · rename_i nlu present
    have here : givenNlu response = nlu := by simp [givenNlu, present]
    rw [here, strdup_member_eq]
    cases (jsonObjectObjectGetEx nlu "input").any JsonObject.isNull with
    | true => simp
    | false =>
        cases resolveSemantics library nlu with
        | none => simp
        | some semantics => simp

theorem fill_defined_iff (library : JsonLibrary) (response : JsonObject) :
    (slotFill library response).isSome ↔ Resolvable library response := by
  have parts : (slotFill library response).isSome ↔
      (resolveDm library response).isSome ∧ (resolveSpeakUrl library response).isSome ∧
        (resolveNlu library response).isSome := by
    simp only [slotFill]
    cases resolveDm library response with
    | none => simp
    | some dm =>
        cases resolveSpeakUrl library response with
        | none => simp
        | some output =>
            cases resolveNlu library response with
            | none => simp
            | some nlu => simp
  rw [parts, resolve_dm_defined, resolve_speak_url_defined, resolve_nlu_defined]
  simp only [resolve_song_defined]
  constructor
  · rintro ⟨songs, output, input, slots⟩
    exact ⟨songs, output, input, slots⟩
  · intro resolvable
    exact ⟨resolvable.songs, resolvable.output, resolvable.input, resolvable.slots⟩

/-- A text for a word of the list finds its place there. -/
theorem entry_inside {response : JsonObject} (resolvable : Resolvable library response)
    {word : Nat} {text : String} (entry : givenEntry library response word = some text) :
    word + 1 < payloadWords := by
  simp only [givenEntry] at entry
  split_ifs at entry with counted
  obtain ⟨content, present, entry⟩ := Option.bind_eq_some_iff.mp entry
  obtain ⟨song, element, member⟩ := Option.bind_eq_some_iff.mp entry
  obtain ⟨other, same, parts⟩ := resolvable.songs content present _ counted
  rw [element, Option.some.injEq] at same
  have inside : word / 3 < musicMax := by
    apply (parts (word % 3) (by omega)).2
    obtain ⟨value, held, _⟩ := Option.bind_eq_some_iff.mp member
    rw [← same, held]
    rfl
  simp only [payloadWords]
  omega

/-! ## The domain of a response -/

/-- Nothing here selects a domain. -/
def Untagged (assignments : List Assignment) : Prop :=
  ∀ domain, Assignment.domain domain ∉ assignments

theorem untagged_append {before after : List Assignment} (first : Untagged before)
    (later : Untagged after) : Untagged (before ++ after) := by
  intro domain inside
  cases List.mem_append.mp inside with
  | inl early => exact first domain early
  | inr late => exact later domain late

/-- Neither a domain nor an error code. -/
def Neutral (assignments : List Assignment) : Prop :=
  Untagged assignments ∧ ∀ errId, Assignment.errId errId ∉ assignments

theorem neutral_append {before after : List Assignment} (first : Neutral before)
    (later : Neutral after) : Neutral (before ++ after) := by
  refine ⟨untagged_append first.1 later.1, ?_⟩
  intro errId inside
  cases List.mem_append.mp inside with
  | inl early => exact first.2 errId early
  | inr late => exact later.2 errId late

theorem strdup_text_neutral (library : JsonLibrary) (object : JsonObject) (key : String)
    (cell : Cell) : Neutral (strdupText library object key cell) := by
  simp only [strdupText]
  split
  · simp [Neutral, Untagged]
  · simp [Neutral, Untagged]

theorem strdup_member_neutral {object : JsonObject} {key : String} {cell : Cell}
    (read : strdupMember library object key cell = some assignments) : Neutral assignments := by
  rw [strdup_member_eq] at read
  split_ifs at read
  rw [← Option.some.inj read]
  exact strdup_text_neutral library object key cell

theorem song_member_neutral {song : JsonObject} {i : Nat} {key : String} {cell : Cell}
    (read : songMember library song i key cell = some assignments) : Neutral assignments := by
  rw [song_member_eq] at read
  split_ifs at read
  exact strdup_member_neutral read

theorem resolve_content_neutral {content : JsonObject} {count : Nat}
    (read : resolveContent library content count = some assignments) : Neutral assignments := by
  induction count generalizing assignments with
  | zero =>
      have none_read : assignments = [] := by simpa [resolveContent] using read.symm
      rw [none_read]
      simp [Neutral, Untagged]
  | succ count ih =>
      rw [resolve_content_succ] at read
      obtain ⟨before, before_read, read⟩ := Option.bind_eq_some_iff.mp read
      obtain ⟨last, last_read, rfl⟩ := Option.map_eq_some_iff.mp read
      apply neutral_append (ih before_read)
      simp only [resolveSong, Option.bind_eq_bind, Option.bind_eq_some_iff,
        Option.some.injEq] at last_read
      obtain ⟨song, _, url, url_read, title, title_read, artist, artist_read, rfl⟩ := last_read
      exact neutral_append (neutral_append (song_member_neutral url_read)
        (song_member_neutral title_read)) (song_member_neutral artist_read)

theorem resolve_dm_neutral {response : JsonObject}
    (read : resolveDm library response = some assignments) : Neutral assignments := by
  have session : ∀ dm, Neutral (resolveSession library dm) := by
    intro dm
    simp only [resolveSession]
    split
    · simp [Neutral, Untagged]
    · simp [Neutral, Untagged]
  have count : ∀ widget, Neutral (resolveCount library widget) := by
    intro widget
    simp only [resolveCount]
    split
    · simp [Neutral, Untagged]
    · simp [Neutral, Untagged]
  simp only [resolveDm] at read
  split at read
  · rw [← Option.some.inj read]
    simp [Neutral, Untagged]
  · split at read
    · rw [← Option.some.inj read]
      exact session _
    · obtain ⟨music, music_read, read⟩ := Option.bind_eq_some_iff.mp read
      rw [← Option.some.inj read]
      apply neutral_append _ (session _)
      simp only [resolveWidget] at music_read
      split at music_read
      · rw [← Option.some.inj music_read]
        exact count _
      · obtain ⟨entries, entries_read, music_read⟩ := Option.bind_eq_some_iff.mp music_read
        rw [← Option.some.inj music_read]
        exact neutral_append (count _) (resolve_content_neutral entries_read)

theorem resolve_speak_url_neutral {response : JsonObject}
    (read : resolveSpeakUrl library response = some assignments) : Neutral assignments := by
  simp only [resolveSpeakUrl] at read
  split at read
  · rw [← Option.some.inj read]
    simp [Neutral, Untagged]
  · split_ifs at read
    rw [← Option.some.inj read]
    simp [Neutral, Untagged]

theorem resolve_semantics_neutral {nlu : JsonObject}
    (read : resolveSemantics library nlu = some assignments) : Neutral assignments := by
  simp only [resolveSemantics] at read
  split at read
  · rw [← Option.some.inj read]
    simp [Neutral, Untagged]
  · obtain ⟨slot, _, read⟩ := Option.bind_eq_some_iff.mp read
    simp only [resolveSlot] at read
    split at read
    · rw [← Option.some.inj read]
      simp [Neutral, Untagged]
    · obtain ⟨text, _, read⟩ := Option.bind_eq_some_iff.mp read
      split at read
      · rw [← Option.some.inj read]
        simp [Neutral, Untagged]
      · rw [← Option.some.inj read]
        simp [Neutral, Untagged]

theorem resolve_nlu_neutral {response : JsonObject}
    (read : resolveNlu library response = some assignments) : Neutral assignments := by
  simp only [resolveNlu] at read
  split at read
  · rw [← Option.some.inj read]
    simp [Neutral, Untagged]
  · simp only [Option.bind_eq_bind, Option.bind_eq_some_iff, Option.some.injEq] at read
    obtain ⟨input, input_read, semantics, semantics_read, rfl⟩ := read
    apply neutral_append
    · exact neutral_append (strdup_member_neutral input_read) (strdup_text_neutral library _ _ _)
    · exact resolve_semantics_neutral semantics_read

theorem resolve_error_untagged (library : JsonLibrary) (response : JsonObject) :
    Untagged (resolveError library response) := by
  simp only [resolveError]
  split
  · simp [Untagged]
  · split
    · simp [Untagged]
    · simp [Untagged]

theorem untagged_domain {info : AsrInfo} (untagged : Untagged assignments) :
    (assignments.foldl AsrInfo.assign info).domain = info.domain := by
  induction assignments generalizing info with
  | nil => rfl
  | cons assignment rest ih =>
      have later : Untagged rest := fun domain inside =>
        untagged domain (List.mem_cons_of_mem _ inside)
      rw [List.foldl_cons, ih later]
      cases assignment with
      | domain value => exact absurd List.mem_cons_self (untagged value)
      | store cell word => rfl
      | isMultSds value => rfl
      | errId value => rfl

theorem skill_domain (response : JsonObject) (info : AsrInfo) :
    ((resolveSkill library response).foldl AsrInfo.assign info).domain =
      ((memberText library response "skillId").bind skillDomain).getD info.domain := by
  simp only [resolveSkill, memberText]
  cases (jsonObjectObjectGetEx response "skillId").bind (jsonObjectGetString library) with
  | none => rfl
  | some skillId =>
      cases skill : skillDomain skillId with
      | none => simp [skill]
      | some domain => simp [skill, AsrInfo.assign]

theorem fill_domain {response : JsonObject}
    (read : slotFill library response = some assignments) :
    (assignments.foldl AsrInfo.assign zeroed).domain = givenDomain library response := by
  simp only [slotFill, Option.bind_eq_bind, Option.bind_eq_some_iff, Option.some.injEq] at read
  obtain ⟨dm, dm_read, output, output_read, nlu, nlu_read, rfl⟩ := read
  have volume : Untagged [.store commandVolume .null] := by simp [Untagged]
  have before := @untagged_domain dm zeroed (resolve_dm_neutral dm_read).1
  rw [List.foldl_append, List.foldl_append, List.foldl_append, List.foldl_append,
    List.foldl_append, List.foldl_append, untagged_domain (resolve_error_untagged library response),
    untagged_domain (resolve_nlu_neutral nlu_read).1, untagged_domain volume,
    untagged_domain (strdup_text_neutral library response "contextId" .contextId).1,
    untagged_domain (resolve_speak_url_neutral output_read).1, skill_domain, before]
  rfl

theorem given_domain_skill (response : JsonObject) :
    givenDomain library response = .null ∨
      givenDomain library response ∈ skillDomains.map Prod.snd := by
  rw [givenDomain]
  cases selected : (memberText library response "skillId").bind skillDomain with
  | none => exact Or.inl rfl
  | some domain =>
      obtain ⟨skillId, _, found⟩ := Option.bind_eq_some_iff.mp selected
      rw [skillDomain, List.lookup_eq_some_iff] at found
      obtain ⟨before, after, split, _⟩ := found
      have inside : (skillId, domain) ∈ skillDomains := by simp [split]
      exact Or.inr (List.mem_map_of_mem inside)

/-! ## The error code of a response -/

def givenErrId (library : JsonLibrary) (response : JsonObject) : Int :=
  ((jsonObjectObjectGetEx response "error").bind fun error =>
    (jsonObjectObjectGetEx error "errId").map (jsonObjectGetInt library)).getD 0

theorem kept_err_id {info : AsrInfo} (kept : ∀ errId, Assignment.errId errId ∉ assignments) :
    (assignments.foldl AsrInfo.assign info).errId = info.errId := by
  induction assignments generalizing info with
  | nil => rfl
  | cons assignment rest ih =>
      have later : ∀ errId, Assignment.errId errId ∉ rest := fun errId inside =>
        kept errId (List.mem_cons_of_mem _ inside)
      rw [List.foldl_cons, ih later]
      cases assignment with
      | errId value => exact absurd List.mem_cons_self (kept value)
      | store cell word => rfl
      | isMultSds value => rfl
      | domain value => rfl

theorem skill_kept_err_id (library : JsonLibrary) (response : JsonObject) (errId : Int) :
    Assignment.errId errId ∉ resolveSkill library response := by
  simp only [resolveSkill]
  split
  · simp
  · split
    · simp
    · simp

theorem error_err_id (library : JsonLibrary) (response : JsonObject) {info : AsrInfo}
    (cleared : info.errId = 0) :
    ((resolveError library response).foldl AsrInfo.assign info).errId =
      givenErrId library response := by
  simp only [resolveError, givenErrId]
  cases jsonObjectObjectGetEx response "error" with
  | none => rfl
  | some error =>
      cases given : jsonObjectObjectGetEx error "errId" with
      | none => simp [given, cleared]
      | some errId => simp [given, AsrInfo.assign]

theorem fill_err_id {response : JsonObject}
    (read : slotFill library response = some assignments) :
    (assignments.foldl AsrInfo.assign zeroed).errId = givenErrId library response := by
  simp only [slotFill, Option.bind_eq_bind, Option.bind_eq_some_iff, Option.some.injEq] at read
  obtain ⟨dm, dm_read, output, output_read, nlu, nlu_read, rfl⟩ := read
  rw [List.foldl_append]
  apply error_err_id
  have volume : ∀ errId, Assignment.errId errId ∉ [.store commandVolume .null] := by simp
  rw [List.foldl_append, List.foldl_append, List.foldl_append, List.foldl_append,
    List.foldl_append, kept_err_id (resolve_nlu_neutral nlu_read).2, kept_err_id volume,
    kept_err_id (strdup_text_neutral library response "contextId" .contextId).2,
    kept_err_id (resolve_speak_url_neutral output_read).2,
    kept_err_id (skill_kept_err_id library response), kept_err_id (resolve_dm_neutral dm_read).2]
  rfl

end Parts

end Gk7102.SlotResolve
