import Mathlib.Data.List.Dedup
import Mathlib.Data.List.Perm.Subperm
import Gk7102.RecordedCalls
import Gk7102.SlotIndependence

/-!
# Where a response is written

`slot_resolve` first releases the list of the response before, as far as the stored
number says. It writes the songs of a response into a list of twenty, as many as
the response's own count says, and its url through two buffers. The record of a
call has all these writes in their order, those past the list or a buffer included,
up to the place where the call follows NULL. The player then takes every entry
below the stored number.
-/

namespace Gk7102.SlotResolve

open Gk7102.JsonC
open Gk7102.OwnedCells
open Gk7102.RecordedCalls
open Gk7102.StepRuns

set_option autoImplicit false

/-- A write with its place: a word of an entry that is released, the number, a word of an
entry that is filled, and how many bytes go into a buffer. -/
inductive Access where
  | released (i : Nat) (cell : Cell)
  | number (value : Int)
  | song (i : Nat) (cell : Cell)
  | https (size : Nat)
  | http (size : Nat)
deriving DecidableEq, Repr

def songMemberAccess (song : JsonObject) (i : Nat) (key : String) (cell : Cell) :
    Recorded Access Unit :=
  match jsonObjectObjectGetEx song key with
  | none => pure ()
  | some value => if value.isNull then fault else record (.song i cell)

def songAccess (content : JsonObject) (i : Nat) : Recorded Access Unit :=
  match jsonObjectArrayGetIdx content i with
  | none => fault
  | some song => do
      songMemberAccess song i "linkUrl" (musicUrl i)
      songMemberAccess song i "title" (musicTitle i)
      songMemberAccess song i "subTitle" (musicArtist i)

def countAccess (library : JsonLibrary) (widget : JsonObject) : Recorded Access Unit :=
  match jsonObjectObjectGetEx widget "count" with
  | none => pure ()
  | some count => record (.number (jsonObjectGetInt library count))

def widgetAccess (library : JsonLibrary) (widget : JsonObject) : Recorded Access Unit := do
  countAccess library widget
  match jsonObjectObjectGetEx widget "content" with
  | none => pure ()
  | some content => forEach (songAccess content) (widgetCount library widget).toNat

def dmAccess (library : JsonLibrary) (response : JsonObject) : Recorded Access Unit :=
  match listWidget response with
  | none => pure ()
  | some widget => widgetAccess library widget

/-- Both texts end in a NUL; a url of less than five bytes leaves nothing behind
the `http`. -/
def speakUrlAccess (library : JsonLibrary) (response : JsonObject) : Recorded Access Unit :=
  match memberText library response "speakUrl" with
  | none => pure ()
  | some https => do
      record (.https (https.utf8ByteSize + 1))
      record (.http (4 + (https.utf8ByteSize - 5) + 1))

/-- The rest of the response goes elsewhere, but may follow NULL. -/
def nluAccess (library : JsonLibrary) (response : JsonObject) : Recorded Access Unit :=
  match resolveNlu library response with
  | none => fault
  | some _ => pure ()

def fillAccess (library : JsonLibrary) (response : JsonObject) : Recorded Access Unit := do
  dmAccess library response
  speakUrlAccess library response
  nluAccess library response

def releaseEntryAccess (i : Nat) : Recorded Access Unit := do
  record (.released i (musicUrl i))
  record (.released i (musicArtist i))
  record (.released i (musicTitle i))

/-- The loop of `_free_sds_music` is followed to its end: what lies behind the list may
be NULL. -/
def releaseAccess (info : AsrInfo) : Recorded Access Unit :=
  match info.domain with
  | .music => forEach releaseEntryAccess (listCount info).toNat
  | _ => pure ()

/-- Nothing more is written when the release has gone wrong. -/
def slotResolveAccess (library : JsonLibrary) (info : AsrInfo) (response : JsonObject) :
    Recorded Access Unit := do
  releaseAccess info
  match slotFree info with
  | none => fault
  | some _ => fillAccess library response

/-! ## What the bounds are -/

/-- The entries that were written to, each one once. -/
def filledEntries (accesses : List Access) : List Nat :=
  (accesses.filterMap fun access =>
    match access with
    | .song i _ => some i
    | _ => none).dedup

/-- `process_vr_callback` and `process_vr_asr_callback` hand the list to the player. -/
def Played (info : AsrInfo) : Prop :=
  (info.errId = 0 ∨ info.errId = 10507) ∧ (info.domain = .music ∨ info.domain = .story)

/-- Every entry that the player takes is of this response, word by word. -/
def PlaysOwn (accesses : List Access) (next : AsrInfo) : Prop :=
  ∀ i : Nat, (i : Int) < listCount next → i ∈ filledEntries accesses ∧
    ∀ cell ∈ musicEntry i, .song i cell ∈ accesses ∨ next.memory cell = .null

structure WithinBounds (library : JsonLibrary) (info : AsrInfo) (response : JsonObject)
    (accesses : List Access) : Prop where
  /-- Only strings and NULL are freed. -/
  frees : (slotFree info).isSome
  released : ∀ i cell, .released i cell ∈ accesses → i < musicMax
  entries : ∀ i cell, .song i cell ∈ accesses → i < musicMax
  https : ∀ size, .https size ∈ accesses → size ≤ urlBuffer
  http : ∀ size, .http size ∈ accesses → size ≤ urlBuffer
  number : ∀ value : Int, .number value ∈ accesses → 0 ≤ value ∧ value ≤ musicMax
  filled : (slotResolve library info response).isSome →
    ∀ value : Int, .number value ∈ accesses → value ≤ (filledEntries accesses).length
  own : ∀ next, slotResolve library info response = some next → Played next →
    PlaysOwn accesses next

def BoundedCall (library : JsonLibrary) (held : Option AsrInfo) (response : JsonObject) : Prop :=
  ∀ info, held = some info →
    WithinBounds library info response (slotResolveAccess library info response).events

/-! ## Which responses stay inside -/

def SongsLegible (library : JsonLibrary) (response : JsonObject) : Prop :=
  ∀ content, givenContent response = some content → ∀ i < songCount library response,
    ∃ song, jsonObjectArrayGetIdx content i = some song ∧ ∀ part < 3, Legible song (songKey part)

def NluLegible (response : JsonObject) : Prop :=
  Legible (givenNlu response) "input" ∧
    ∀ slots, givenSlots response = some slots →
      ∃ slot, jsonObjectArrayGetIdx slots 0 = some slot ∧ Legible slot "value"

/-- The song has a url, a title or an artist. -/
def SongGiven (library : JsonLibrary) (response : JsonObject) (i : Nat) : Prop :=
  ∃ part < 3, (givenEntry library response (3 * i + part)).isSome

def GivenPlayed (library : JsonLibrary) (response : JsonObject) : Prop :=
  (givenErrId library response = 0 ∨ givenErrId library response = 10507) ∧
    (givenDomain library response = .music ∨ givenDomain library response = .story)

/-- The count fits the list and the content, the url its buffers, and nothing of an
earlier list is left where the player looks. -/
structure CountedCall (library : JsonLibrary) (info : AsrInfo) (response : JsonObject) : Prop where
  count : ∀ count, givenCount library response = some count → 0 ≤ count ∧ count ≤ musicMax
  output : SongsLegible library response →
    ∀ text, memberText library response "speakUrl" = some text → text.utf8ByteSize < urlBuffer
  songs : SongsLegible library response → NluLegible response →
    ∀ i < songCount library response, SongGiven library response i
  number : SongsLegible library response → NluLegible response → GivenPlayed library response →
    (givenCount library response).isSome ∨ info.domain = .music ∨ listCount info ≤ 0
  words : SongsLegible library response → NluLegible response → GivenPlayed library response →
    ∀ word < 3 * songCount library response,
      (givenEntry library response word).isSome ∨ ¬ Held info (word + 1)

/-- The list before is released as what it is, and the response fits. -/
def CountedStep (library : JsonLibrary) (held : Option AsrInfo) (response : JsonObject) : Prop :=
  ∀ info, held = some info → CleanRelease info ∧ CountedCall library info response

/-! ## The record of a response -/

section Recording

variable {library : JsonLibrary} {response : JsonObject}

theorem member_access_defined (song : JsonObject) (i : Nat) (key : String) (cell : Cell) :
    (songMemberAccess song i key cell).result.isSome ↔ Legible song key := by
  rw [← legible_iff]
  simp only [songMemberAccess]
  cases jsonObjectObjectGetEx song key with
  | none => simp
  | some value =>
      cases null : value.isNull with
      | true => simp [null]
      | false => simp [null]

theorem mem_member_access (library : JsonLibrary) {song : JsonObject} {i : Nat} {key : String}
    {cell : Cell} {access : Access} :
    access ∈ (songMemberAccess song i key cell).events ↔
      access = .song i cell ∧ (memberText library song key).isSome := by
  simp only [songMemberAccess, memberText]
  cases jsonObjectObjectGetEx song key with
  | none => simp
  | some value =>
      rw [Option.bind_some, string_is_some_iff]
      cases null : value.isNull with
      | true => simp [null]
      | false => simp [null]

theorem song_access_defined (content : JsonObject) (i : Nat) :
    (songAccess content i).result.isSome ↔
      ∃ song, jsonObjectArrayGetIdx content i = some song ∧
        ∀ part < 3, Legible song (songKey part) := by
  simp only [songAccess]
  cases jsonObjectArrayGetIdx content i with
  | none => simp
  | some song =>
      have parts : (∀ part < 3, Legible song (songKey part)) ↔
          Legible song "linkUrl" ∧ Legible song "title" ∧ Legible song "subTitle" := by
        constructor
        · intro every
          exact ⟨every 0 (by decide), every 1 (by decide), every 2 (by decide)⟩
        · rintro ⟨url, title, artist⟩ part below
          have three : part = 0 ∨ part = 1 ∨ part = 2 := by omega
          rcases three with rfl | rfl | rfl
          · exact url
          · exact title
          · exact artist
      simp only [Option.some.injEq, exists_eq_left', parts, then_defined, member_access_defined]

theorem mem_song_access (library : JsonLibrary) {content : JsonObject} {i : Nat} {access : Access}
    (inside : access ∈ (songAccess content i).events) :
    ∃ part < 3, access = .song i (.payload (3 * i + part + 1)) ∧
      (songText library content (3 * i + part)).isSome := by
  simp only [songAccess] at inside
  cases element : jsonObjectArrayGetIdx content i with
  | none => simp [element] at inside
  | some song =>
      simp only [element, mem_then_events, mem_member_access library] at inside
      have own : ∀ part < 3, (3 * i + part) / 3 = i ∧ (3 * i + part) % 3 = part := by
        intro part below
        omega
      rcases inside with ⟨same, given⟩ | ⟨_, ⟨same, given⟩ | ⟨_, same, given⟩⟩
      · refine ⟨0, by decide, ?_, ?_⟩
        · rw [same, musicUrl, Nat.add_comm]
        · rw [songText, (own 0 (by decide)).1, (own 0 (by decide)).2, element]
          exact given
      · refine ⟨1, by decide, ?_, ?_⟩
        · rw [same, musicTitle, Nat.add_comm]
        · rw [songText, (own 1 (by decide)).1, (own 1 (by decide)).2, element]
          exact given
      · refine ⟨2, by decide, ?_, ?_⟩
        · rw [same, musicArtist, Nat.add_comm]
        · rw [songText, (own 2 (by decide)).1, (own 2 (by decide)).2, element]
          exact given

theorem song_access_recorded {content : JsonObject} {word : Nat}
    (finished : (songAccess content (word / 3)).result.isSome)
    (given : (songText library content word).isSome) :
    .song (word / 3) (.payload (word + 1)) ∈ (songAccess content (word / 3)).events := by
  simp only [songText] at given
  simp only [songAccess] at finished ⊢
  cases element : jsonObjectArrayGetIdx content (word / 3) with
  | none => simp [element] at given
  | some song =>
      simp only [element] at finished
      rw [element, Option.bind_some] at given
      obtain ⟨url, rest⟩ := then_defined.mp finished
      obtain ⟨title, _⟩ := then_defined.mp rest
      simp only [mem_then_events, mem_member_access library]
      have part : word % 3 = 0 ∨ word % 3 = 1 ∨ word % 3 = 2 := by omega
      rcases part with part | part | part
      · refine Or.inl ⟨?_, by simpa [songKey, part] using given⟩
        rw [musicUrl]
        congr 2
        omega
      · refine Or.inr ⟨url, Or.inl ⟨?_, by simpa [songKey, part] using given⟩⟩
        rw [musicTitle]
        congr 2
        omega
      · refine Or.inr ⟨url, Or.inr ⟨title, ?_,
          by simpa [songKey, part] using given⟩⟩
        rw [musicArtist]
        congr 2
        omega

theorem content_access_defined (content : JsonObject) (count : Nat) :
    (forEach (songAccess content) count).result.isSome ↔
      ∀ i < count, ∃ song, jsonObjectArrayGetIdx content i = some song ∧
        ∀ part < 3, Legible song (songKey part) := by
  rw [for_each_defined]
  apply forall₂_congr
  intro i _
  exact song_access_defined content i

theorem count_access_defined (widget : JsonObject) :
    (countAccess library widget).result.isSome := by
  simp only [countAccess]
  cases jsonObjectObjectGetEx widget "count" with
  | none => rfl
  | some count => rfl

theorem dm_access_defined : (dmAccess library response).result.isSome ↔
    SongsLegible library response := by
  simp only [dmAccess, SongsLegible, givenContent]
  cases present : listWidget response with
  | none => simp
  | some widget =>
      simp only [widgetAccess, then_defined, count_access_defined, true_and, Option.bind_some,
        song_count_of_widget present]
      cases jsonObjectObjectGetEx widget "content" with
      | none => simp
      | some content => simp [content_access_defined]

theorem speak_url_access_defined : (speakUrlAccess library response).result.isSome := by
  simp only [speakUrlAccess]
  cases memberText library response "speakUrl" with
  | none => rfl
  | some https => rfl

theorem nlu_access_defined : (nluAccess library response).result.isSome ↔
    NluLegible response := by
  rw [NluLegible, ← @resolve_nlu_defined library response, nluAccess]
  cases resolveNlu library response with
  | none => simp
  | some assignments => simp

theorem fill_access_defined : (fillAccess library response).result.isSome ↔
    SongsLegible library response ∧ NluLegible response := by
  rw [fillAccess, then_defined, then_defined, dm_access_defined, nlu_access_defined]
  simp only [speak_url_access_defined, true_and]

theorem mem_count_access {widget : JsonObject} {access : Access} :
    access ∈ (countAccess library widget).events ↔
      ∃ value, access = .number value ∧
        (jsonObjectObjectGetEx widget "count").map (jsonObjectGetInt library) = some value := by
  simp only [countAccess]
  cases jsonObjectObjectGetEx widget "count" with
  | none => simp
  | some count => simp

theorem mem_dm_access {access : Access} :
    access ∈ (dmAccess library response).events ↔
      (∃ value, access = .number value ∧ givenCount library response = some value) ∨
        ∃ content, givenContent response = some content ∧
          access ∈ (forEach (songAccess content) (songCount library response)).events := by
  simp only [dmAccess, givenCount, givenContent]
  cases present : listWidget response with
  | none => simp
  | some widget =>
      simp only [widgetAccess, mem_then_events, count_access_defined, true_and, mem_count_access,
        Option.bind_some, song_count_of_widget present]
      cases jsonObjectObjectGetEx widget "content" with
      | none => simp
      | some content => simp

theorem mem_speak_url_access {access : Access} :
    access ∈ (speakUrlAccess library response).events ↔
      ∃ text, memberText library response "speakUrl" = some text ∧
        (access = .https (text.utf8ByteSize + 1) ∨
          access = .http (4 + (text.utf8ByteSize - 5) + 1)) := by
  simp only [speakUrlAccess]
  cases memberText library response "speakUrl" with
  | none => simp
  | some https => simp [mem_then_events]

theorem nlu_access_nothing : (nluAccess library response).events = [] := by
  simp only [nluAccess]
  cases resolveNlu library response with
  | none => rfl
  | some assignments => rfl

theorem mem_fill_access {access : Access} :
    access ∈ (fillAccess library response).events ↔
      access ∈ (dmAccess library response).events ∨
        SongsLegible library response ∧ access ∈ (speakUrlAccess library response).events := by
  rw [fillAccess, mem_then_events, mem_then_events, dm_access_defined, nlu_access_nothing]
  simp

theorem number_recorded (value : Int) :
    .number value ∈ (fillAccess library response).events ↔
      givenCount library response = some value := by
  rw [mem_fill_access, mem_dm_access, mem_speak_url_access]
  constructor
  · rintro ((⟨other, same, given⟩ | ⟨content, _, looped⟩) | ⟨_, _, _, https | http⟩)
    · rw [Access.number.injEq] at same
      rw [same, given]
    · obtain ⟨i, _, recorded⟩ := mem_of_for_each looped
      obtain ⟨part, _, same, _⟩ := mem_song_access library recorded
      exact absurd same (by simp)
    · exact absurd https (by simp)
    · exact absurd http (by simp)
  · intro given
    exact Or.inl (Or.inl ⟨value, rfl, given⟩)

theorem song_recorded {i : Nat} {cell : Cell}
    (inside : .song i cell ∈ (fillAccess library response).events) :
    ∃ part < 3, cell = .payload (3 * i + part + 1) ∧
      (givenEntry library response (3 * i + part)).isSome := by
  rw [mem_fill_access, mem_dm_access, mem_speak_url_access] at inside
  rcases inside with (⟨_, same, _⟩ | ⟨content, present, looped⟩) | ⟨_, _, _, https | http⟩
  · exact absurd same (by simp)
  · obtain ⟨j, below, recorded⟩ := mem_of_for_each looped
    obtain ⟨part, small, same, given⟩ := mem_song_access library recorded
    rw [Access.song.injEq] at same
    obtain ⟨rfl, rfl⟩ := same
    refine ⟨part, small, rfl, ?_⟩
    have counted : (3 * i + part) / 3 < songCount library response := by omega
    rw [givenEntry, if_pos counted, present]
    exact given
  · exact absurd https (by simp)
  · exact absurd http (by simp)

theorem given_entry_counted {word : Nat}
    (given : (givenEntry library response word).isSome) :
    word / 3 < songCount library response := by
  by_contra beyond
  simp [givenEntry, beyond] at given

theorem given_entry_recorded {word : Nat} (legible : SongsLegible library response)
    (given : (givenEntry library response word).isSome) :
    .song (word / 3) (.payload (word + 1)) ∈ (fillAccess library response).events := by
  have counted := given_entry_counted given
  simp only [givenEntry, if_pos counted] at given
  obtain ⟨content, present⟩ := Option.isSome_iff_exists.mp (Option.isSome_of_any
    (Option.isSome_bind .. ▸ given))
  rw [present, Option.bind_some] at given
  rw [mem_fill_access, mem_dm_access]
  refine Or.inl (Or.inr ⟨content, present, ?_⟩)
  have finished : (forEach (songAccess content) (songCount library response)).result.isSome := by
    rw [content_access_defined]
    exact legible content present
  rw [mem_for_each finished]
  refine ⟨word / 3, counted, song_access_recorded ?_ given⟩
  rw [for_each_defined] at finished
  exact finished _ counted

theorem dm_access_in_list {access : Access}
    (inside : access ∈ (dmAccess library response).events) :
    (∃ value, access = .number value) ∨ ∃ i cell, access = .song i cell := by
  rcases mem_dm_access.mp inside with ⟨value, same, _⟩ | ⟨content, _, looped⟩
  · exact Or.inl ⟨value, same⟩
  · obtain ⟨i, _, recorded⟩ := mem_of_for_each looped
    obtain ⟨part, _, same, _⟩ := mem_song_access library recorded
    exact Or.inr ⟨i, _, same⟩

theorem https_recorded (size : Nat) :
    .https size ∈ (fillAccess library response).events ↔
      SongsLegible library response ∧
        ∃ text, memberText library response "speakUrl" = some text ∧
          size = text.utf8ByteSize + 1 := by
  have elsewhere : Access.https size ∉ (dmAccess library response).events := by
    intro inside
    simpa using dm_access_in_list inside
  simp [mem_fill_access, elsewhere, mem_speak_url_access]

theorem http_recorded (size : Nat) :
    .http size ∈ (fillAccess library response).events ↔
      SongsLegible library response ∧
        ∃ text, memberText library response "speakUrl" = some text ∧
          size = 4 + (text.utf8ByteSize - 5) + 1 := by
  have elsewhere : Access.http size ∉ (dmAccess library response).events := by
    intro inside
    simpa using dm_access_in_list inside
  simp [mem_fill_access, elsewhere, mem_speak_url_access]

theorem present_entry_given {content song : JsonObject} {i part : Nat}
    (present : givenContent response = some content) (counted : i < songCount library response)
    (element : jsonObjectArrayGetIdx content i = some song) (small : part < 3)
    (legible : Legible song (songKey part))
    (member : (jsonObjectObjectGetEx song (songKey part)).isSome) :
    (givenEntry library response (3 * i + part)).isSome := by
  obtain ⟨value, held⟩ := Option.isSome_iff_exists.mp member
  have entry : (3 * i + part) / 3 = i ∧ (3 * i + part) % 3 = part := by omega
  rw [givenEntry, entry.1, if_pos counted, present, Option.bind_some, songText, entry.1, entry.2,
    element, Option.bind_some, memberText, held, Option.bind_some, string_is_some_iff]
  exact legible value held

/-- A response can be taken apart exactly when its record comes to its end and no write
in it is past the list or past the first buffer. -/
theorem fill_defined_iff_in_place :
    (slotFill library response).isSome ↔
      (fillAccess library response).result.isSome ∧
        (∀ i cell, .song i cell ∈ (fillAccess library response).events → i < musicMax) ∧
        ∀ size, .https size ∈ (fillAccess library response).events → size ≤ urlBuffer := by
  rw [fill_defined_iff, fill_access_defined]
  constructor
  · intro resolvable
    have songs : SongsLegible library response := by
      intro content present i below
      obtain ⟨song, element, parts⟩ := resolvable.songs content present i below
      exact ⟨song, element, fun part small => (parts part small).1⟩
    refine ⟨⟨songs, resolvable.input, resolvable.slots⟩, ?_, ?_⟩
    · intro i cell inside
      obtain ⟨part, small, _, given⟩ := song_recorded inside
      obtain ⟨text, entry⟩ := Option.isSome_iff_exists.mp given
      have place := entry_inside resolvable entry
      simp only [payloadWords] at place
      omega
    · intro size inside
      obtain ⟨_, text, given, rfl⟩ := (https_recorded size).mp inside
      exact resolvable.output text given
  · rintro ⟨⟨songs, input, slots⟩, entries, https⟩
    refine ⟨?_, ?_, input, slots⟩
    · intro content present i below
      obtain ⟨song, element, legible⟩ := songs content present i below
      refine ⟨song, element, fun part small => ⟨legible part small, ?_⟩⟩
      intro member
      have given := present_entry_given present below element small (legible part small) member
      have recorded := given_entry_recorded songs given
      have entry : (3 * i + part) / 3 = i := by omega
      rw [entry] at recorded
      exact entries i _ recorded
    · intro text given
      exact https _ ((https_recorded _).mpr ⟨songs, text, given, rfl⟩)

theorem mem_filled_entries {accesses : List Access} {i : Nat} :
    i ∈ filledEntries accesses ↔ ∃ cell, .song i cell ∈ accesses := by
  simp only [filledEntries, List.mem_dedup, List.mem_filterMap]
  constructor
  · rintro ⟨access, inside, same⟩
    cases access with
    | song j cell =>
        rw [← Option.some.inj same]
        exact ⟨cell, inside⟩
    | _ => simp at same
  · rintro ⟨cell, inside⟩
    exact ⟨_, inside, rfl⟩

theorem filled_of_given {i : Nat} (legible : SongsLegible library response)
    (given : SongGiven library response i) :
    i ∈ filledEntries (fillAccess library response).events := by
  obtain ⟨part, small, given⟩ := given
  have own : (3 * i + part) / 3 = i := by omega
  have recorded := given_entry_recorded legible given
  rw [own] at recorded
  exact mem_filled_entries.mpr ⟨_, recorded⟩

theorem given_of_filled {i : Nat}
    (filled : i ∈ filledEntries (fillAccess library response).events) :
    i < songCount library response ∧ SongGiven library response i := by
  obtain ⟨cell, inside⟩ := mem_filled_entries.mp filled
  obtain ⟨part, small, _, given⟩ := song_recorded inside
  have counted := given_entry_counted given
  exact ⟨by omega, part, small, given⟩

theorem filled_all_iff (legible : SongsLegible library response) :
    songCount library response ≤ (filledEntries (fillAccess library response).events).length ↔
      ∀ i < songCount library response, SongGiven library response i := by
  have distinct : (filledEntries (fillAccess library response).events).Nodup :=
    List.nodup_dedup _
  have within : filledEntries (fillAccess library response).events ⊆
      List.range (songCount library response) := by
    intro i filled
    exact List.mem_range.mpr (given_of_filled filled).1
  constructor
  · intro enough i below
    have same := (List.subperm_of_subset distinct within).perm_of_length_le (by
      rwa [List.length_range])
    exact (given_of_filled (same.mem_iff.mpr (List.mem_range.mpr below))).2
  · intro given
    have covers : List.range (songCount library response) ⊆
        filledEntries (fillAccess library response).events := by
      intro i below
      exact filled_of_given legible (given i (List.mem_range.mp below))
    have shorter := (List.subperm_of_subset List.nodup_range covers).length_le
    rwa [List.length_range] at shorter

end Recording

/-! ## One call -/

section Call

variable {library : JsonLibrary} {info next : AsrInfo} {response : JsonObject}

theorem release_access_runs (info : AsrInfo) : (releaseAccess info).result = some () := by
  have entries : (forEach releaseEntryAccess (listCount info).toNat).result.isSome := by
    rw [for_each_defined]
    exact fun _ _ => rfl
  rw [releaseAccess]
  split
  · rw [Option.isSome_iff_exists] at entries
    rcases entries with ⟨_, ended⟩
    exact ended
  · rfl

theorem access_of_clean (shape : Shape info) (clean : CleanRelease info) :
    (slotResolveAccess library info response).events =
      (releaseAccess info).events ++ (fillAccess library response).events := by
  rw [slotResolveAccess, slot_free_eq shape clean, bind_events_of_result (release_access_runs info)]

theorem mem_release_access {access : Access} (inside : access ∈ (releaseAccess info).events) :
    info.domain = .music ∧ ∃ i cell, access = .released i cell ∧ i < (listCount info).toNat := by
  rw [releaseAccess] at inside
  split at inside
  next music =>
    rcases mem_of_for_each inside with ⟨i, below, entry⟩
    simp only [releaseEntryAccess, mem_then_events, record_events, List.mem_singleton] at entry
    refine ⟨music, i, ?_⟩
    rcases entry with rfl | ⟨-, rfl | ⟨-, rfl⟩⟩
    · exact ⟨_, rfl, below⟩
    · exact ⟨_, rfl, below⟩
    · exact ⟨_, rfl, below⟩
  next => exact absurd inside List.not_mem_nil

theorem fill_releases_nothing (i : Nat) (cell : Cell) :
    .released i cell ∉ (fillAccess library response).events := by
  intro inside
  rcases mem_fill_access.mp inside with number | ⟨-, url⟩
  · rcases mem_dm_access.mp number with ⟨_, same, -⟩ | ⟨_, -, song⟩
    · cases same
    · rcases mem_of_for_each song with ⟨_, -, entry⟩
      rcases mem_song_access library entry with ⟨_, -, same, -⟩
      cases same
  · rcases mem_speak_url_access.mp url with ⟨_, -, same | same⟩
    · cases same
    · cases same

/-- Two logs of which one has at most releases besides the fillings of the other. -/
structure SameFills (events others : List Access) : Prop where
  written : ∀ access, (∀ i cell, access ≠ .released i cell) → (access ∈ events ↔ access ∈ others)
  entries : filledEntries events = filledEntries others

theorem SameFills.symm {events others : List Access} (same : SameFills events others) :
    SameFills others events :=
  ⟨fun access other => (same.written access other).symm, same.entries.symm⟩

theorem within_of_same_fills {events others : List Access} (same : SameFills events others)
    (within : WithinBounds library info response events)
    (released : ∀ i cell, .released i cell ∈ others → i < musicMax) :
    WithinBounds library info response others := by
  have songs := fun i cell => same.written (.song i cell) (by simp)
  have numbers := fun value => same.written (.number value) (by simp)
  have https := fun size => same.written (.https size) (by simp)
  have http := fun size => same.written (.http size) (by simp)
  refine ⟨within.frees, released, ?_, ?_, ?_, ?_, ?_, ?_⟩
  · exact fun i cell inside => within.entries i cell ((songs i cell).mpr inside)
  · exact fun size inside => within.https size ((https size).mpr inside)
  · exact fun size inside => within.http size ((http size).mpr inside)
  · exact fun value inside => within.number value ((numbers value).mpr inside)
  · intro resolves value inside
    rw [← same.entries]
    exact within.filled resolves value ((numbers value).mpr inside)
  · intro next resolved played i below
    have own := within.own next resolved played i below
    rw [same.entries] at own
    exact ⟨own.1, fun cell member => (own.2 cell member).imp_left (songs i cell).mp⟩

theorem release_same_fills :
    SameFills ((releaseAccess info).events ++ (fillAccess library response).events)
      (fillAccess library response).events := by
  constructor
  · intro access other
    rw [List.mem_append]
    refine or_iff_right ?_
    intro inside
    rcases (mem_release_access inside).2 with ⟨i, cell, same, -⟩
    exact other i cell same
  · rw [filledEntries, List.filterMap_append, List.filterMap_eq_nil_iff.mpr, List.nil_append]
    · rfl
    · intro access inside
      rcases (mem_release_access inside).2 with ⟨i, cell, rfl, -⟩
      rfl

theorem within_clean_iff (shape : Shape info) (clean : CleanRelease info) :
    WithinBounds library info response (slotResolveAccess library info response).events ↔
      WithinBounds library info response (fillAccess library response).events := by
  rw [access_of_clean shape clean]
  constructor
  · intro within
    apply within_of_same_fills release_same_fills within
    exact fun i cell inside => absurd inside (fill_releases_nothing i cell)
  · intro within
    apply within_of_same_fills release_same_fills.symm within
    intro i cell inside
    rcases List.mem_append.mp inside with released | fills
    · rcases mem_release_access released with ⟨music, _, _, same, below⟩
      have fits := clean.1 music
      cases same
      omega
    · exact absurd fills (fill_releases_nothing i cell)

theorem resolves_iff (shape : Shape info) (clean : CleanRelease info) :
    (slotResolve library info response).isSome ↔ (slotFill library response).isSome := by
  cases read : slotFill library response with
  | none => simp [slotResolve, read]
  | some assignments => simp [slot_resolve_eq shape clean read]

theorem resolves_of_legible (shape : Shape info) (clean : CleanRelease info)
    (songs : SongsLegible library response) (nlu : NluLegible response)
    (fits : songCount library response ≤ musicMax)
    (output : ∀ text, memberText library response "speakUrl" = some text →
      text.utf8ByteSize < urlBuffer) : (slotResolve library info response).isSome := by
  rw [resolves_iff shape clean, fill_defined_iff_in_place, fill_access_defined]
  refine ⟨⟨songs, nlu⟩, ?_, ?_⟩
  · intro i cell inside
    have below := (given_of_filled (mem_filled_entries.mpr ⟨cell, inside⟩)).1
    omega
  · intro size inside
    obtain ⟨_, text, given, rfl⟩ := (https_recorded size).mp inside
    exact output text given

theorem played_iff (shape : Shape info)
    (resolved : slotResolve library info response = some next) :
    Played next ↔ GivenPlayed library response := by
  rw [Played, GivenPlayed, err_id_after shape resolved, domain_after shape resolved]

theorem song_count_of_count {count : Int} (given : givenCount library response = some count) :
    songCount library response = count.toNat := by
  rw [songCount, given]
  rfl

theorem song_count_fits
    (bounded : ∀ count, givenCount library response = some count → 0 ≤ count ∧ count ≤ musicMax) :
    songCount library response ≤ musicMax := by
  cases given : givenCount library response with
  | none => simp [songCount, given]
  | some count =>
      have fits := bounded count given
      rw [song_count_of_count given]
      omega

theorem count_left (shape : Shape info) (clean : CleanRelease info)
    (resolved : slotResolve library info response = some next)
    (absent : givenCount library response = none) :
    listCount next ≤ 0 ↔ info.domain = .music ∨ listCount info ≤ 0 := by
  have after : next.memory listNumber = slotFreed info listNumber := by
    rw [cell_after shape resolved, given_number, absent]
    rfl
  by_cases freed : slotFreed info listNumber = .null
  · have none_left : listCount next = 0 := by
      rw [listCount, after, freed]
      rfl
    rcases (number_freed_iff shape clean).mp freed with music | none_held
    · simp [none_left, music]
    · simp [none_left, none_held]
  · have kept : slotFreed info listNumber = info.memory listNumber := by
      apply released_other
      intro inside
      exact freed (released_member inside)
    have same : listCount next = listCount info := by
      rw [listCount, listCount, after, kept]
    have other : info.domain ≠ .music := fun music =>
      freed ((number_freed_iff shape clean).mpr (Or.inl music))
    simp [same, other]

/-- A word below the count is the response's own, or it is NULL, or it is left over. -/
theorem word_own_iff (shape : Shape info)
    (resolved : slotResolve library info response = some next)
    (legible : SongsLegible library response) (word : Nat) :
    .song (word / 3) (.payload (word + 1)) ∈ (fillAccess library response).events ∨
        next.memory (.payload (word + 1)) = .null ↔
      (givenEntry library response word).isSome ∨ ¬ Held info (word + 1) := by
  rw [← entry_freed_iff]
  cases given : givenEntry library response word with
  | some text =>
      have recorded := given_entry_recorded legible (by rw [given]; rfl)
      simp [recorded]
  | none =>
      have absent : .song (word / 3) (.payload (word + 1)) ∉
          (fillAccess library response).events := by
        intro inside
        obtain ⟨part, _, same, own⟩ := song_recorded inside
        rw [Cell.payload.injEq] at same
        have here : 3 * (word / 3) + part = word := by omega
        rw [here, given] at own
        exact absurd own (by simp)
      have after : next.memory (.payload (word + 1)) = slotFreed info (.payload (word + 1)) := by
        rw [cell_after shape resolved, given_entry, given]
        rfl
      simp [absent, after]

theorem words_own_iff (shape : Shape info)
    (resolved : slotResolve library info response = some next)
    (legible : SongsLegible library response) (count : Nat) :
    (∀ i < count, ∀ cell ∈ musicEntry i,
        .song i cell ∈ (fillAccess library response).events ∨ next.memory cell = .null) ↔
      ∀ word < 3 * count, (givenEntry library response word).isSome ∨ ¬ Held info (word + 1) := by
  constructor
  · intro own word below
    rw [← word_own_iff shape resolved legible]
    apply own (word / 3) (by omega)
    simp only [musicEntry, musicUrl, musicArtist, musicTitle, List.mem_cons, List.not_mem_nil,
      or_false, Cell.payload.injEq]
    omega
  · intro words i below cell inside
    have place : ∃ word, word / 3 = i ∧ cell = .payload (word + 1) := by
      simp only [musicEntry, musicUrl, musicArtist, musicTitle, List.mem_cons, List.not_mem_nil,
        or_false] at inside
      rcases inside with rfl | rfl | rfl
      · exact ⟨3 * i, by omega, by rw [Nat.add_comm]⟩
      · exact ⟨3 * i + 2, by omega, by rw [Nat.add_comm]⟩
      · exact ⟨3 * i + 1, by omega, by rw [Nat.add_comm]⟩
    obtain ⟨word, rfl, rfl⟩ := place
    exact (word_own_iff shape resolved legible word).mpr (words word (by omega))

/-- The player finds only what the response gave when the number is its own, every
song up to it gives something, and nothing else is left there. -/
theorem plays_own_iff (shape : Shape info) (clean : CleanRelease info)
    (resolved : slotResolve library info response = some next)
    (legible : SongsLegible library response)
    (songs : ∀ i < songCount library response, SongGiven library response i) :
    PlaysOwn (fillAccess library response).events next ↔
      ((givenCount library response).isSome ∨ info.domain = .music ∨ listCount info ≤ 0) ∧
        ∀ word < 3 * songCount library response,
          (givenEntry library response word).isSome ∨ ¬ Held info (word + 1) := by
  rw [← words_own_iff shape resolved legible]
  cases given : givenCount library response with
  | none =>
      have uncounted : songCount library response = 0 := by simp [songCount, given]
      rw [← count_left shape clean resolved given, uncounted]
      constructor
      · intro own
        refine ⟨Or.inr ?_, by simp⟩
        by_contra positive
        have first := (given_of_filled (own 0 (by omega)).1).1
        omega
      · rintro ⟨stale, _⟩ i below
        simp at stale
        omega
  | some count =>
      have counted := song_count_of_count given
      have number : listCount next = count := by
        rw [list_count_after shape resolved (Or.inl (by rw [given]; rfl)), given]
        rfl
      rw [counted]
      constructor
      · intro own
        refine ⟨Or.inl rfl, ?_⟩
        intro i below
        exact (own i (by omega)).2
      · rintro ⟨_, own⟩ i below
        rw [number] at below
        have counted_in : i < count.toNat := by omega
        exact ⟨filled_of_given legible (songs i (by omega)), own i counted_in⟩

theorem counted_of_within (shape : Shape info) (clean : CleanRelease info)
    (within : WithinBounds library info response (fillAccess library response).events) :
    CountedCall library info response := by
  have count : ∀ count, givenCount library response = some count →
      0 ≤ count ∧ count ≤ musicMax := by
    intro count given
    exact within.number count ((number_recorded count).mpr given)
  have output : SongsLegible library response →
      ∀ text, memberText library response "speakUrl" = some text →
        text.utf8ByteSize < urlBuffer := by
    intro legible text given
    exact within.https _ ((https_recorded _).mpr ⟨legible, text, given, rfl⟩)
  have resolves : SongsLegible library response → NluLegible response →
      (slotResolve library info response).isSome := by
    intro legible nlu
    exact resolves_of_legible shape clean legible nlu (song_count_fits count) (output legible)
  have songs : SongsLegible library response → NluLegible response →
      ∀ i < songCount library response, SongGiven library response i := by
    intro legible nlu
    rw [← filled_all_iff legible]
    cases given : givenCount library response with
    | none => simp [songCount, given]
    | some value =>
        have enough := within.filled (resolves legible nlu) value
          ((number_recorded value).mpr given)
        rw [song_count_of_count given]
        omega
  have plays : SongsLegible library response → NluLegible response →
      GivenPlayed library response →
      ((givenCount library response).isSome ∨ info.domain = .music ∨ listCount info ≤ 0) ∧
        ∀ word < 3 * songCount library response,
          (givenEntry library response word).isSome ∨ ¬ Held info (word + 1) := by
    intro legible nlu played
    obtain ⟨next, resolved⟩ := Option.isSome_iff_exists.mp (resolves legible nlu)
    rw [← plays_own_iff shape clean resolved legible (songs legible nlu)]
    exact within.own next resolved ((played_iff shape resolved).mpr played)
  exact ⟨count, output, songs, fun legible nlu played => (plays legible nlu played).1,
    fun legible nlu played => (plays legible nlu played).2⟩

theorem within_of_counted (shape : Shape info) (clean : CleanRelease info)
    (counted : CountedCall library info response) :
    WithinBounds library info response (fillAccess library response).events := by
  have legible : (slotResolve library info response).isSome →
      SongsLegible library response ∧ NluLegible response := by
    intro resolves
    rw [resolves_iff shape clean, fill_defined_iff_in_place, fill_access_defined] at resolves
    exact resolves.1
  constructor
  · rw [slot_free_eq shape clean]
    rfl
  · exact fun i cell inside => absurd inside (fill_releases_nothing i cell)
  · intro i cell inside
    have below := (given_of_filled (mem_filled_entries.mpr ⟨cell, inside⟩)).1
    have fits := song_count_fits counted.count
    omega
  · intro size inside
    obtain ⟨songs, text, given, rfl⟩ := (https_recorded size).mp inside
    exact counted.output songs text given
  · intro size inside
    obtain ⟨songs, text, given, rfl⟩ := (http_recorded size).mp inside
    have fits := counted.output songs text given
    simp only [urlBuffer] at fits ⊢
    omega
  · intro value inside
    exact counted.count value ((number_recorded value).mp inside)
  · intro resolves value inside
    obtain ⟨songs, nlu⟩ := legible resolves
    have enough := (filled_all_iff songs).mpr (counted.songs songs nlu)
    rw [song_count_of_count ((number_recorded value).mp inside)] at enough
    omega
  · intro next resolved played
    obtain ⟨songs, nlu⟩ := legible (by rw [resolved]; rfl)
    have given := (played_iff shape resolved).mp played
    rw [plays_own_iff shape clean resolved songs (counted.songs songs nlu)]
    exact ⟨counted.number songs nlu given, counted.words songs nlu given⟩

theorem bounded_call_iff {held : Option AsrInfo} (shaped : Shaped held) :
    BoundedCall library held response ↔ CountedStep library held response := by
  apply forall₂_congr
  intro info here
  have shape := shaped info here
  by_cases clean : CleanRelease info
  · rw [within_clean_iff shape clean, and_iff_right clean]
    exact ⟨counted_of_within shape clean, within_of_counted shape clean⟩
  · refine iff_of_false ?_ fun both => clean both.1
    intro within
    have frees := within.frees
    rw [slot_free_undefined shape clean] at frees
    exact absurd frees Bool.false_ne_true

end Call

/-! ## One response after the other -/

/-- The errors that `process_vr_callback` takes for an empty answer. -/
def processVrCallback (info : AsrInfo) : AsrInfo :=
  if info.errId ∈ [80014, 80004, 10305, 10400] then { info with domain := .null } else info

theorem callback_keeps_shape {info : AsrInfo} (shape : Shape info) :
    Shape (processVrCallback info) := by
  rw [processVrCallback]
  split_ifs
  · exact ⟨shape.sem_null, Or.inl rfl, shape.env_null, shape.error_null, shape.input_own,
      shape.context_own, shape.output_own, shape.operation_own, shape.volume_own,
      shape.number_int, shape.entry_own, shape.past_end⟩
  · exact shape

/-- A response that was taken apart goes to the callback before the next one comes. -/
def heardStep (library : JsonLibrary) (held : Option AsrInfo) (response : JsonObject) :
    Option AsrInfo :=
  (slotStep library held response).map processVrCallback

theorem heard_shaped (library : JsonLibrary) (held : Option AsrInfo) (response : JsonObject)
    (shaped : Shaped held) : Shaped (heardStep library held response) := by
  intro next stepped
  obtain ⟨resolved, here, rfl⟩ := Option.map_eq_some_iff.mp stepped
  exact callback_keeps_shape (shaped_kept held response shaped resolved here)

/-- An `asr_info` as `slot_resolve` may find it, a zeroed one among them. -/
def ShapedInfo : Type := {info : AsrInfo // Shape info}

/-- Along every run of responses each stays inside the list and the buffers, its release
included, and is played from its own entries exactly when the list before is released as
what it is and its own count fits. -/
theorem responses_bounded_along_run (library : JsonLibrary) (start : ShapedInfo)
    (responses : List JsonObject) :
    EveryStep (heardStep library) (BoundedCall library) (some start.val) responses ↔
      EveryStep (heardStep library) (CountedStep library) (some start.val) responses := by
  apply every_step_congr_within (heard_shaped library)
  · intro held response shaped
    exact bounded_call_iff shaped
  · intro info same
    rw [← Option.some.inj same]
    exact start.property

def emptyListResponse : JsonObject :=
  .object [("skillId", .string "2018112200000065"),
    ("dm", .object [("widget", .object [("count", .int 1), ("content", .array [])])])]

/-- The number is 1 and the first entry, which the player takes, is not filled. -/
theorem counted_song_missing :
    ¬ ∀ (library : JsonLibrary) (start : ShapedInfo) (responses : List JsonObject),
      EveryStep (heardStep library) (BoundedCall library) (some start.val) responses := by
  intro always
  have within := (always plainLibrary ⟨zeroed, zeroed_shape⟩ [emptyListResponse]).1 zeroed rfl
  have resolved : (slotResolve plainLibrary zeroed emptyListResponse).isSome := by decide
  have stored : Access.number 1 ∈
      (slotResolveAccess plainLibrary zeroed emptyListResponse).events := by decide
  have filled : filledEntries
      (slotResolveAccess plainLibrary zeroed emptyListResponse).events = [] := by decide
  have enough := within.filled resolved 1 stored
  rw [filled] at enough
  exact absurd enough (by decide)

end Gk7102.SlotResolve
