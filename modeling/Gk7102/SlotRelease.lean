import Gk7102.SlotFill
import Gk7102.StepRuns

/-!
# What one call keeps of the last one

`slot_resolve` never sets the domain of the sem union, never sets `env` and
`error`, and puts nothing but a count into the first word of the sds union and
nothing but strings into the others. So the state `slot_free` finds has a known
shape, and what it releases depends only on the domain and on the count.
-/

namespace Gk7102.SlotResolve

open Gk7102.JsonC
open Gk7102.OwnedCells
open Gk7102.StepRuns

set_option autoImplicit false

/-- The domains that a skill can select, and the one `slot_free` leaves. -/
def Selected (domain : Domain) : Prop := domain = .null ∨ domain ∈ skillDomains.map Prod.snd

structure Shape (info : AsrInfo) : Prop where
  sem_null : info.semDomain = .null
  selected : Selected info.domain
  env_null : info.memory .env = .null
  error_null : info.memory .error = .null
  input_own : (info.memory .input).freeable = true
  context_own : (info.memory .contextId).freeable = true
  output_own : (info.memory .output).freeable = true
  operation_own : (info.memory commandOperation).freeable = true
  volume_own : (info.memory commandVolume).freeable = true
  number_int : ∃ number, info.memory listNumber = .int number
  entry_own : ∀ word, 0 < word → word < payloadWords →
    (info.memory (.payload word)).freeable = true
  past_end : ∀ word, payloadWords ≤ word → info.memory (.payload word) = .outside

def listCount (info : AsrInfo) : Int :=
  match info.memory listNumber with
  | .int number => number
  | _ => 0

theorem zeroed_shape : Shape zeroed := by
  constructor
  · rfl
  · exact Or.inl rfl
  · rfl
  · rfl
  · rfl
  · rfl
  · rfl
  · rfl
  · rfl
  · exact ⟨0, rfl⟩
  · intro word _ inside
    simp only [zeroed, zeroedMemory, if_pos inside]
    rfl
  · intro word past
    simp only [zeroed, zeroedMemory]
    exact if_neg (Nat.not_lt.mpr past)

/-! ## What `slot_free` releases -/

/-- The words of the sds union that are NULL after `slot_free`. -/
def payloadReleased (info : AsrInfo) : List Cell :=
  match info.domain with
  | .music => (List.range (listCount info).toNat).flatMap musicEntry ++ [listNumber]
  | .weather => [.payload 0, .payload 1, .payload 2, .payload 3]
  | .chat => [.payload 0]
  | _ => []

/-- The union is released as what it was filled with: a list no longer than there
is room for as music, and no count at all as weather or chat. -/
def CleanRelease (info : AsrInfo) : Prop :=
  (info.domain = .music → listCount info ≤ musicMax) ∧
    (info.domain = .weather ∨ info.domain = .chat → listCount info = 0)

/-- A word of the list that `slot_free` leaves alone. -/
def Held (info : AsrInfo) (word : Nat) : Prop :=
  info.memory (.payload word) ≠ .null ∧ .payload word ∉ payloadReleased info

def slotFreed (info : AsrInfo) : Cell → Word :=
  released info.memory ([.input, .error, .contextId, .output] ++ payloadReleased info)

theorem zeroed_clean : CleanRelease zeroed := by
  constructor
  · intro music
    exact absurd music (by decide)
  · intro words
    rcases words with weather | chat
    · exact absurd weather (by decide)
    · exact absurd chat (by decide)

def headOps (info : AsrInfo) : List (Op Cell) :=
  release [.input] ++ release [.error] ++ freeSemOne info.semDomain ++
    releaseIfSet info.memory .env ++ releaseIfSet info.memory .contextId ++
    releaseIfSet info.memory .output

section Release

variable {info : AsrInfo}

theorem slot_free_ops_eq (info : AsrInfo) :
    slotFreeOps info = headOps info ++ freeSdsPayload info.memory info.domain := by
  simp only [slotFreeOps, headOps, freeSds, List.append_assoc]

theorem release_if_set_runs {memory now : Cell → Word} {cell : Cell}
    (same : now cell = memory cell) (own : (memory cell).freeable = true) :
    Runs now (releaseIfSet memory cell) (released now [cell]) := by
  simp only [releaseIfSet]
  split
  · rename_i null
    rw [released_of_null (same.trans null)]
    exact runs_nil
  · apply runs_release
    intro other inside
    rw [List.mem_singleton.mp inside, same]
    exact own

theorem released_other {memory : Cell → Word} {cells : List Cell} {cell : Cell}
    (kept : cell ∉ cells) : released memory cells cell = memory cell := if_neg kept

theorem released_member {memory : Cell → Word} {cells : List Cell} {cell : Cell}
    (inside : cell ∈ cells) : released memory cells cell = .null := if_pos inside

theorem head_runs (shape : Shape info) :
    Runs info.memory (headOps info)
      (released info.memory [.input, .error, .contextId, .output]) := by
  have first : ∀ cell ∈ [Cell.input, Cell.error], (info.memory cell).freeable = true := by
    intro cell inside
    simp only [List.mem_cons, List.not_mem_nil, or_false] at inside
    rcases inside with rfl | rfl
    · exact shape.input_own
    · rw [shape.error_null]
      rfl
  have context : Runs (released info.memory [.input, .error])
      (releaseIfSet info.memory .contextId)
      (released (released info.memory [.input, .error]) [.contextId]) :=
    release_if_set_runs (released_other (by simp)) shape.context_own
  have output : Runs (released info.memory [.input, .error, .contextId])
      (releaseIfSet info.memory .output)
      (released (released info.memory [.input, .error, .contextId]) [.output]) :=
    release_if_set_runs (released_other (by simp)) shape.output_own
  rw [released_append] at context output
  have split : headOps info = release [.input, .error] ++
      releaseIfSet info.memory .contextId ++ releaseIfSet info.memory .output := by
    simp [headOps, shape.sem_null, freeSemOne, releaseIfSet, shape.env_null, release]
  rw [split]
  exact runs_append (runs_append (runs_release first) context) output

theorem number_eq (shape : Shape info) : info.memory listNumber = .int (listCount info) := by
  obtain ⟨number, int⟩ := shape.number_int
  rw [listCount, int]

theorem payload_before (info : AsrInfo) (word : Nat) :
    released info.memory [.input, .error, .contextId, .output] (.payload word) =
      info.memory (.payload word) :=
  released_other (by simp)

theorem entry_words {number : Nat} {cell : Cell} :
    cell ∈ (List.range number).flatMap musicEntry ↔
      ∃ word, cell = .payload word ∧ 0 < word ∧ word < 1 + 3 * number := by
  simp only [List.mem_flatMap, List.mem_range, musicEntry, musicUrl, musicArtist, musicTitle,
    List.mem_cons, List.not_mem_nil, or_false]
  constructor
  · rintro ⟨i, below, rfl | rfl | rfl⟩
    · exact ⟨1 + 3 * i, rfl, by omega, by omega⟩
    · exact ⟨3 + 3 * i, rfl, by omega, by omega⟩
    · exact ⟨2 + 3 * i, rfl, by omega, by omega⟩
  · rintro ⟨word, rfl, positive, below⟩
    refine ⟨(word - 1) / 3, by omega, ?_⟩
    simp only [Cell.payload.injEq]
    omega

theorem entries_freeable_iff (shape : Shape info) (number : Nat) :
    (∀ cell ∈ (List.range number).flatMap musicEntry,
        (released info.memory [.input, .error, .contextId, .output] cell).freeable = true) ↔
      number ≤ musicMax := by
  constructor
  · intro freeable
    by_contra beyond
    have past : (Cell.payload payloadWords) ∈ (List.range number).flatMap musicEntry :=
      entry_words.mpr ⟨payloadWords, rfl, by decide, by
        simp only [payloadWords] at beyond ⊢
        omega⟩
    have bad := freeable _ past
    rw [payload_before, shape.past_end payloadWords le_rfl] at bad
    exact absurd bad (by decide)
  · intro within cell inside
    obtain ⟨word, rfl, positive, below⟩ := entry_words.mp inside
    rw [payload_before]
    apply shape.entry_own word positive
    simp only [payloadWords]
    omega

theorem number_freeable_iff (shape : Shape info) :
    (info.memory listNumber).freeable = true ↔ listCount info = 0 := by
  rw [number_eq shape]
  simp [Word.freeable, Word.isString, Word.null]

theorem list_runs (shape : Shape info) (music : info.domain = .music)
    (within : listCount info ≤ musicMax) :
    Runs (released info.memory [.input, .error, .contextId, .output])
      (freeSdsPayload info.memory info.domain) (slotFreed info) := by
  have below : (listCount info).toNat ≤ musicMax := by omega
  have entries := runs_release ((entries_freeable_iff shape _).mpr below)
  have number : Runs (released (released info.memory [.input, .error, .contextId, .output])
        ((List.range (listCount info).toNat).flatMap musicEntry))
      [.store listNumber .null] (slotFreed info) := by
    have outside : listNumber ∉ (List.range (listCount info).toNat).flatMap musicEntry := by
      intro inside
      obtain ⟨word, same, positive, _⟩ := entry_words.mp inside
      rw [listNumber, Cell.payload.injEq] at same
      omega
    constructor
    · simp only [executeAll, execute, Option.bind_some, Option.some.injEq]
      rw [slotFreed, payloadReleased, music, released_one, released_append, released_append]
    · simp only [Disciplined, Proper]
      refine ⟨?_, fun _ _ => trivial⟩
      rw [released_other outside, listNumber, payload_before, ← listNumber, number_eq shape]
      rfl
  have ops : freeSdsPayload info.memory info.domain =
      release ((List.range (listCount info).toNat).flatMap musicEntry) ++
        [.store listNumber .null] := by
    rw [music]
    simp only [freeSdsPayload, freeSdsList, number_eq shape]
  rw [ops]
  exact runs_append entries number

theorem words_runs (cells : List Cell)
    (freeable : ∀ cell ∈ cells,
      (released info.memory [.input, .error, .contextId, .output] cell).freeable = true)
    (ops : freeSdsPayload info.memory info.domain = release cells)
    (same : payloadReleased info = cells) :
    Runs (released info.memory [.input, .error, .contextId, .output])
      (freeSdsPayload info.memory info.domain) (slotFreed info) := by
  rw [ops, slotFreed, same, ← released_append]
  exact runs_release freeable

theorem small_words_freeable (shape : Shape info) (none_held : listCount info = 0) (word : Nat)
    (small : word ≤ 3) :
    (released info.memory [.input, .error, .contextId, .output] (.payload word)).freeable =
      true := by
  rw [payload_before]
  cases word with
  | zero => exact (number_freeable_iff shape).mpr none_held
  | succ word => exact shape.entry_own _ (by omega) (by
      simp only [payloadWords, musicMax]
      omega)

theorem payload_runs (shape : Shape info) (clean : CleanRelease info) :
    Runs (released info.memory [.input, .error, .contextId, .output])
      (freeSdsPayload info.memory info.domain) (slotFreed info) := by
  have ⟨list, words⟩ := clean
  have selected := shape.selected
  cases domain : info.domain with
  | music =>
      rw [← domain]
      exact list_runs shape domain (list domain)
  | weather =>
      rw [← domain]
      apply words_runs [.payload 0, .payload 1, .payload 2, .payload 3]
      · have none_held := words (Or.inl domain)
        simp [small_words_freeable shape none_held]
      · rw [domain, freeSdsPayload]
      · rw [payloadReleased, domain]
  | chat =>
      rw [← domain]
      apply words_runs [.payload 0]
      · have none_held := words (Or.inr domain)
        simp [small_words_freeable shape none_held]
      · rw [domain, freeSdsPayload]
      · rw [payloadReleased, domain]
  | netfm =>
      simp [domain, Selected, skillDomains] at selected
  | reminder =>
      simp [domain, Selected, skillDomains] at selected
  | _ =>
      rw [← domain]
      apply words_runs []
      · simp
      · rw [domain]
        rfl
      · rw [payloadReleased, domain]

theorem payload_clean (shape : Shape info)
    (defined : (executeAll (released info.memory [.input, .error, .contextId, .output])
      (freeSdsPayload info.memory info.domain)).isSome) : CleanRelease info := by
  constructor
  · intro music
    rw [music] at defined
    simp only [freeSdsPayload, freeSdsList, number_eq shape] at defined
    rw [execute_all_append, Option.isSome_bind] at defined
    have entries : (executeAll (released info.memory [.input, .error, .contextId, .output])
        (release ((List.range (listCount info).toNat).flatMap musicEntry))).isSome :=
      Option.isSome_of_any defined
    have below := (entries_freeable_iff shape _).mp (release_defined.mp entries)
    omega
  · intro words
    rw [← number_freeable_iff shape]
    have number : (released info.memory [.input, .error, .contextId, .output]
        (.payload 0)).freeable = true := by
      rcases words with weather | chat
      · rw [weather] at defined
        exact release_defined.mp defined _ (by simp)
      · rw [chat] at defined
        exact release_defined.mp defined _ (by simp)
    rwa [payload_before] at number

theorem slot_free_runs (shape : Shape info) (clean : CleanRelease info) :
    Runs info.memory (slotFreeOps info) (slotFreed info) := by
  rw [slot_free_ops_eq]
  exact runs_append (head_runs shape) (payload_runs shape clean)

theorem slot_free_clean (shape : Shape info)
    (defined : (executeAll info.memory (slotFreeOps info)).isSome) : CleanRelease info := by
  rw [slot_free_ops_eq, execute_all_append, (head_runs shape).result, Option.bind_some] at defined
  exact payload_clean shape defined

/-- `slot_free` frees nothing but strings and NULL exactly when the union is
released as what it was filled with. -/
theorem slot_free_disciplined_iff (shape : Shape info) :
    Disciplined info.memory (slotFreeOps info) ↔ CleanRelease info := by
  constructor
  · intro disciplined
    exact slot_free_clean shape (disciplined_runs disciplined)
  · intro clean
    exact (slot_free_runs shape clean).disciplined

theorem slot_free_eq (shape : Shape info) (clean : CleanRelease info) :
    slotFree info = some { zeroed with memory := slotFreed info } := by
  rw [slotFree, (slot_free_runs shape clean).result]
  rfl

theorem slot_free_undefined (shape : Shape info) (unclean : ¬ CleanRelease info) :
    slotFree info = none := by
  rw [slotFree]
  cases executed : executeAll info.memory (slotFreeOps info) with
  | none => rfl
  | some next => exact absurd (slot_free_clean shape (by rw [executed]; rfl)) unclean

end Release

/-! ## What a call leaves -/

section Call

variable {library : JsonLibrary} {info next : AsrInfo} {response : JsonObject}

theorem fold_assign (info : AsrInfo) (memory : Cell → Word) (assignments : List Assignment) :
    assignments.foldl AsrInfo.assign { info with memory := memory } =
      { assignments.foldl AsrInfo.assign info with
        memory := stored memory (storesOf assignments) } := by
  induction assignments generalizing info memory with
  | nil => rfl
  | cons assignment rest ih =>
      rw [List.foldl_cons, List.foldl_cons]
      cases assignment with
      | store cell word =>
          have stores : storesOf (.store cell word :: rest) = (cell, word) :: storesOf rest := rfl
          have here := ih info (Function.update info.memory cell word)
          have there := ih info (Function.update memory cell word)
          simp only [AsrInfo.assign] at here there ⊢
          rw [here, there, stores, stored_cons]
      | isMultSds value => exact ih { info with isMultSds := value } memory
      | domain value => exact ih { info with domain := value } memory
      | errId value => exact ih { info with errId := value } memory

/-- The cells after a call are those that its log of frees and stores leaves. -/
theorem slot_resolve_log {assignments : List Assignment}
    (read : slotFill library response = some assignments) :
    (slotResolve library info response).map AsrInfo.memory =
      executeAll info.memory (slotFreeOps info ++ storeAll (storesOf assignments)) := by
  rw [execute_all_append]
  simp only [slotResolve, slotFree, read, Option.bind_eq_bind]
  cases executeAll info.memory (slotFreeOps info) with
  | none => rfl
  | some memory =>
      simp only [Option.map_some, Option.bind_some, execute_stores]
      exact congrArg (fun left => some (AsrInfo.memory left))
        (fold_assign zeroed memory assignments)

/-- What the response alone decides: everything but the cells. -/
theorem slot_resolve_eq (shape : Shape info) (clean : CleanRelease info)
    {assignments : List Assignment} (read : slotFill library response = some assignments) :
    slotResolve library info response =
      some { assignments.foldl AsrInfo.assign zeroed with
        memory := stored (slotFreed info) (storesOf assignments) } := by
  simp only [slotResolve, slot_free_eq shape clean, read, Option.bind_eq_bind, Option.bind_some]
  rw [fold_assign]

theorem slot_resolve_cases (shape : Shape info)
    (resolved : slotResolve library info response = some next) :
    CleanRelease info ∧ ∃ assignments, slotFill library response = some assignments ∧
      next = { assignments.foldl AsrInfo.assign zeroed with
        memory := stored (slotFreed info) (storesOf assignments) } := by
  by_cases clean : CleanRelease info
  · refine ⟨clean, ?_⟩
    cases read : slotFill library response with
    | none => simp [slotResolve, read] at resolved
    | some assignments =>
        rw [slot_resolve_eq shape clean read, Option.some.injEq] at resolved
        exact ⟨assignments, rfl, resolved.symm⟩
  · simp [slotResolve, slot_free_undefined shape clean] at resolved

/-- A cell holds the last word it was given, and what the release left otherwise. -/
theorem cell_after (shape : Shape info)
    (resolved : slotResolve library info response = some next) (cell : Cell) :
    next.memory cell = (given library response cell).getLast?.getD (slotFreed info cell) := by
  obtain ⟨_, assignments, read, rfl⟩ := slot_resolve_cases shape resolved
  exact congrArg (fun values => List.getLast? values |>.getD (slotFreed info cell))
    (fill_values read cell)

theorem list_count_after (shape : Shape info)
    (resolved : slotResolve library info response = some next)
    (none_held : (givenCount library response).isSome ∨ slotFreed info listNumber = .null) :
    listCount next = (givenCount library response).getD 0 := by
  have after := cell_after shape resolved listNumber
  rw [given_number] at after
  cases count : givenCount library response with
  | none =>
      rw [count] at after none_held
      have zero : next.memory listNumber = .int 0 := after.trans (none_held.resolve_left (by simp))
      simp [listCount, zero]
  | some number =>
      rw [count] at after
      have same : next.memory listNumber = .int number := after
      simp [listCount, same]

theorem sem_domain_kept (info : AsrInfo) (assignments : List Assignment) :
    (assignments.foldl AsrInfo.assign info).semDomain = info.semDomain := by
  induction assignments generalizing info with
  | nil => rfl
  | cons assignment rest ih =>
      rw [List.foldl_cons, ih]
      cases assignment <;> rfl

theorem domain_after (shape : Shape info)
    (resolved : slotResolve library info response = some next) :
    next.domain = givenDomain library response := by
  obtain ⟨_, assignments, read, rfl⟩ := slot_resolve_cases shape resolved
  exact fill_domain read

theorem err_id_after (shape : Shape info)
    (resolved : slotResolve library info response = some next) :
    next.errId = givenErrId library response := by
  obtain ⟨_, assignments, read, rfl⟩ := slot_resolve_cases shape resolved
  exact fill_err_id read

theorem freed_freeable {cell : Cell} (own : (info.memory cell).freeable = true) :
    (slotFreed info cell).freeable = true := by
  simp only [slotFreed, released]
  split_ifs
  · rfl
  · exact own

theorem text_freeable (text : Option String) {word : Word} (own : word.freeable = true) :
    ((texts text).getLast?.getD word).freeable = true := by
  cases text with
  | none => exact own
  | some text => rfl

theorem released_inside (clean : CleanRelease info) {cell : Cell}
    (inside : cell ∈ payloadReleased info) :
    ∃ word, cell = .payload word ∧ word < payloadWords := by
  simp only [payloadReleased] at inside
  split at inside
  · rename_i music
    rcases List.mem_append.mp inside with entry | number
    · obtain ⟨word, same, _, below⟩ := entry_words.mp entry
      have within := clean.1 music
      refine ⟨word, same, ?_⟩
      simp only [payloadWords]
      omega
    · exact ⟨0, List.mem_singleton.mp number, by decide⟩
  · simp only [List.mem_cons, List.not_mem_nil, or_false] at inside
    rcases inside with rfl | rfl | rfl | rfl
    · exact ⟨0, rfl, by decide⟩
    · exact ⟨1, rfl, by decide⟩
    · exact ⟨2, rfl, by decide⟩
    · exact ⟨3, rfl, by decide⟩
  · exact ⟨0, List.mem_singleton.mp inside, by decide⟩
  · exact absurd inside List.not_mem_nil

theorem cell_kept (clean : CleanRelease info) {cell : Cell}
    (single : cell ∉ [Cell.input, .error, .contextId, .output])
    (outside : ∀ word < payloadWords, cell ≠ .payload word) :
    slotFreed info cell = info.memory cell := by
  apply released_other
  intro inside
  rcases List.mem_append.mp inside with head | payload
  · exact single head
  · obtain ⟨word, same, below⟩ := released_inside clean payload
    exact outside word below same

theorem single_freed {cell : Cell} (single : cell ∈ [Cell.input, .error, .contextId, .output]) :
    slotFreed info cell = .null := released_member (List.mem_append_left _ single)

theorem sem_kept (clean : CleanRelease info) (word : Nat) :
    slotFreed info (.sem word) = info.memory (.sem word) :=
  cell_kept clean (by simp) (by simp)

theorem number_freed (shape : Shape info) : ∃ number, slotFreed info listNumber = .int number := by
  simp only [slotFreed, released]
  split_ifs
  · exact ⟨0, rfl⟩
  · exact shape.number_int

theorem shape_kept (shape : Shape info)
    (resolved : slotResolve library info response = some next) : Shape next := by
  have after := cell_after shape resolved
  obtain ⟨clean, assignments, read, value⟩ := slot_resolve_cases shape resolved
  have resolvable : Resolvable library response :=
    (fill_defined_iff library response).mp (by rw [read]; rfl)
  constructor
  · rw [value]
    exact sem_domain_kept zeroed assignments
  · rw [domain_after shape resolved]
    exact given_domain_skill response
  · have kept : slotFreed info .env = info.memory .env := cell_kept clean (by simp) (by simp)
    rw [after, kept, shape.env_null]
    rfl
  · rw [after, single_freed (by simp)]
    rfl
  · rw [after]
    exact text_freeable _ (freed_freeable shape.input_own)
  · rw [after, given_context]
    cases memberText library (givenNlu response) "contextId" with
    | none =>
        have nothing : texts none = [] := rfl
        rw [nothing, List.append_nil]
        exact text_freeable _ (freed_freeable shape.context_own)
    | some text =>
        have last : texts (some text) = [.string text] := rfl
        rw [last, List.getLast?_concat]
        rfl
  · rw [after]
    exact text_freeable _ (freed_freeable shape.output_own)
  · rw [after]
    exact text_freeable _ (freed_freeable shape.operation_own)
  · rw [after, given_volume]
    cases givenCommand library response commandVolume with
    | none => rfl
    | some text => rfl
  · rw [after, given_number]
    cases givenCount library response with
    | none => exact number_freed shape
    | some number => exact ⟨number, rfl⟩
  · intro word positive below
    rw [after]
    cases word with
    | zero => omega
    | succ word => exact text_freeable _ (freed_freeable (shape.entry_own _ positive below))
  · intro word past
    have kept : slotFreed info (.payload word) = info.memory (.payload word) := by
      apply cell_kept clean (by simp)
      intro other below same
      rw [Cell.payload.injEq] at same
      omega
    rw [after]
    cases word with
    | zero => simp [payloadWords] at past
    | succ word =>
        rw [given_entry]
        cases entry : givenEntry library response word with
        | none => exact kept.trans (shape.past_end _ past)
        | some text =>
            have below := entry_inside resolvable entry
            omega

/-- The shape of what `asr_info` holds, as long as the calls have a result. -/
def Shaped (held : Option AsrInfo) : Prop := ∀ info, held = some info → Shape info

theorem shaped_kept (held : Option AsrInfo) (response : JsonObject) (shaped : Shaped held) :
    Shaped (slotStep library held response) := by
  intro next stepped
  obtain ⟨info, before, resolved⟩ := Option.bind_eq_some_iff.mp stepped
  exact shape_kept (shaped info before) resolved

theorem shaped_start : Shaped (some zeroed) := by
  intro info same
  rw [← Option.some.inj same]
  exact zeroed_shape

end Call

end Gk7102.SlotResolve
