import Gk7102.SlotRelease

/-!
# Who owns the strings of a response

The sds union is filled as a music list only, whatever the skill of the response
says, and the next call releases it as what the skill says. What one response
leaves is released properly when its list came with a music skill and fitted, and
when it asked for no volume; an operation is never released at all.
-/

namespace Gk7102.SlotResolve

open Gk7102.JsonC
open Gk7102.OwnedCells
open Gk7102.StepRuns

set_option autoImplicit false

/-- A union that holds anything is released as the list it was filled with. -/
def Tagged (info : AsrInfo) : Prop :=
  info.domain = .music ∨ ∀ word < payloadWords, info.memory (.payload word) = .null

/-- The call has a result, it releases the union under the right domain, it frees
nothing but NULL and strings of its own, and no string is overwritten. -/
def DisciplinedCall (library : JsonLibrary) (held : Option AsrInfo) (response : JsonObject) :
    Prop :=
  ∀ info, held = some info → Tagged info ∧
    ∃ assignments, slotFill library response = some assignments ∧
      Disciplined info.memory (slotFreeOps info ++ storeAll (storesOf assignments))

def OneContext (library : JsonLibrary) (response : JsonObject) : Prop :=
  memberText library response "contextId" = none ∨
    memberText library (givenNlu response) "contextId" = none

/-- What the response leaves is released by the next call: no volume, and a list
only under a music skill and as long as there is room. -/
def Releasable (library : JsonLibrary) (response : JsonObject) : Prop :=
  givenCommand library response commandVolume = none ∧
    ((givenCount library response).getD 0 = 0 ∨
      givenDomain library response = .music ∧
        (givenCount library response).getD 0 ≤ musicMax)

def givesOperation (library : JsonLibrary) (response : JsonObject) : Bool :=
  (givenCommand library response commandOperation).isSome

/-- Responses that can be taken apart one after the other without a fault. -/
structure Harmless (library : JsonLibrary) (responses : List JsonObject) : Prop where
  resolvable : ∀ response ∈ responses, Resolvable library response
  context : ∀ response ∈ responses, OneContext library response
  released : ∀ response ∈ responses.dropLast, Releasable library response
  operation : responses.countP (givesOperation library) ≤ 1

/-- What a call must find: the release of the union is a clean one under the right
domain, and no volume is held. -/
structure Ready (info : AsrInfo) : Prop where
  tagged : Tagged info
  clean : CleanRelease info
  volume : info.memory commandVolume = .null

/-- Every word of the list lies below the number. -/
def BelowNumber (info : AsrInfo) : Prop :=
  ∀ word, word + 1 < payloadWords → info.memory (.payload (word + 1)) ≠ .null →
    (word / 3 : Int) < listCount info

section Owned

variable {library : JsonLibrary} {info next : AsrInfo} {response : JsonObject}

theorem own_not_string_iff {word : Word} (own : word.freeable = true) :
    word.isString = false ↔ word = .null := by
  rcases freeable_cases own with rfl | ⟨text, rfl⟩
  · exact ⟨fun _ => rfl, fun _ => rfl⟩
  · simp [Word.isString, Word.null]

theorem freed_of_null {cell : Cell} (null : info.memory cell = .null) :
    slotFreed info cell = .null := by
  simp only [slotFreed, released]
  split_ifs
  · rfl
  · exact null

theorem payload_cleared (tagged : Tagged info) (below : BelowNumber info) {word : Nat}
    (inside : word < payloadWords) : slotFreed info (.payload word) = .null := by
  rcases tagged with music | empty
  · have all : payloadReleased info =
        (List.range (listCount info).toNat).flatMap musicEntry ++ [listNumber] := by
      rw [payloadReleased, music]
    cases word with
    | zero =>
        apply released_member
        rw [all]
        simp [listNumber]
    | succ word =>
        by_cases null : info.memory (.payload (word + 1)) = .null
        · exact freed_of_null null
        · have counted := below word inside null
          apply released_member
          rw [all]
          apply List.mem_append_right
          apply List.mem_append_left
          exact entry_words.mpr ⟨word + 1, rfl, by omega, by omega⟩
  · exact freed_of_null (empty word inside)

theorem overwritten_first {first : Word} {values : List Word} (short : values.length ≤ 1)
    (plain : first.isString = false) :
    ∀ word ∈ (first :: values).dropLast, word.isString = false := by
  intro word inside
  cases values with
  | nil => exact absurd inside List.not_mem_nil
  | cons value rest =>
      have none_more : rest = [] := List.eq_nil_of_length_eq_zero (by
        simp only [List.length_cons] at short
        omega)
      rw [none_more] at inside
      rw [List.mem_singleton.mp inside]
      exact plain

theorem overwritten_none {first : Word} {values : List Word} (nothing : values = []) :
    ∀ word ∈ (first :: values).dropLast, word.isString = false := by
  intro word inside
  rw [nothing] at inside
  exact absurd inside List.not_mem_nil

theorem texts_length (text : Option String) : (texts text).length ≤ 1 := by
  cases text <;> simp [texts]

theorem null_plain : Word.null.isString = false := rfl

theorem context_short (one : OneContext library response) :
    (given library response .contextId).length ≤ 1 := by
  rw [given_context, List.length_append]
  rcases one with absent | absent
  · have other := texts_length (memberText library (givenNlu response) "contextId")
    simp only [absent, texts, Option.toList_none, List.map_nil, List.length_nil] at other ⊢
    omega
  · have other := texts_length (memberText library response "contextId")
    simp only [absent, texts, Option.toList_none, List.map_nil, List.length_nil] at other ⊢
    omega

theorem one_context_of_plain
    (plain : ∀ word ∈ (slotFreed info .contextId :: given library response .contextId).dropLast,
      word.isString = false) : OneContext library response := by
  rw [given_context] at plain
  simp only [OneContext]
  cases first : memberText library response "contextId" with
  | none => exact Or.inl rfl
  | some text =>
      cases second : memberText library (givenNlu response) "contextId" with
      | none => exact Or.inr rfl
      | some other =>
          rw [first, second] at plain
          have lost := plain (.string text) (by simp [texts])
          exact absurd lost (by simp [Word.isString])

theorem other_plain (resolvable : Resolvable library response)
    (cleared : ∀ word < payloadWords, slotFreed info (.payload word) = .null)
    (one : OneContext library response) {cell : Cell} (operation : cell ≠ commandOperation)
    (volume : cell ≠ commandVolume) :
    ∀ word ∈ (slotFreed info cell :: given library response cell).dropLast,
      word.isString = false := by
  cases cell with
  | payload word =>
      cases word with
      | zero =>
          rw [cleared 0 (by decide)]
          apply overwritten_first _ null_plain
          rw [← listNumber, given_number]
          cases givenCount library response <;> simp
      | succ word =>
          by_cases inside : word + 1 < payloadWords
          · rw [cleared (word + 1) inside]
            exact overwritten_first (texts_length _) null_plain
          · apply overwritten_none
            have absent : givenEntry library response word = none := by
              cases entry : givenEntry library response word with
              | none => rfl
              | some text => exact absurd (entry_inside resolvable entry) inside
            rw [given_entry, absent]
            rfl
  | contextId =>
      rw [single_freed (by simp)]
      exact overwritten_first (context_short one) null_plain
  | output =>
      rw [single_freed (by simp)]
      exact overwritten_first (texts_length _) null_plain
  | input =>
      rw [single_freed (by simp)]
      exact overwritten_first (texts_length _) null_plain
  | sem word =>
      apply overwritten_none
      simp only [commandOperation, commandVolume, ne_eq, Cell.sem.injEq] at operation volume
      simp [given, operation, volume]
  | error => exact overwritten_none rfl
  | env => exact overwritten_none rfl

theorem stores_plain_iff (shape : Shape info) (clean : CleanRelease info)
    (resolvable : Resolvable library response)
    (cleared : ∀ word < payloadWords, slotFreed info (.payload word) = .null) :
    (∀ cell, ∀ word ∈ (slotFreed info cell :: given library response cell).dropLast,
        word.isString = false) ↔
      info.memory commandVolume = .null ∧ OneContext library response ∧
        (givesOperation library response → info.memory commandOperation = .null) := by
  have volume_kept : slotFreed info commandVolume = info.memory commandVolume := sem_kept clean 10
  have operation_kept : slotFreed info commandOperation = info.memory commandOperation :=
    sem_kept clean 2
  constructor
  · intro plain
    refine ⟨?_, one_context_of_plain (plain .contextId), ?_⟩
    · have lost := plain commandVolume (info.memory commandVolume) (by
        rw [volume_kept, given_volume, List.dropLast_cons_cons]
        exact List.mem_cons_self)
      exact (own_not_string_iff shape.volume_own).mp lost
    · intro gives
      obtain ⟨text, operation⟩ := Option.isSome_iff_exists.mp gives
      have lost := plain commandOperation (info.memory commandOperation) (by
        rw [operation_kept, given_operation, operation]
        exact List.mem_cons_self)
      exact (own_not_string_iff shape.operation_own).mp lost
  · rintro ⟨volume, one, operation⟩ cell
    by_cases volume_cell : cell = commandVolume
    · rw [volume_cell, volume_kept, volume, given_volume, List.dropLast_cons_cons]
      intro word inside
      rcases List.mem_cons.mp inside with rfl | later
      · exact null_plain
      · exact overwritten_first (texts_length _) null_plain word later
    · by_cases operation_cell : cell = commandOperation
      · rw [operation_cell, operation_kept, given_operation]
        cases gives : givenCommand library response commandOperation with
        | none => exact overwritten_none rfl
        | some text =>
            rw [operation (by rw [givesOperation, gives]; rfl)]
            exact overwritten_first (texts_length _) null_plain
      · exact other_plain resolvable cleared one operation_cell volume_cell

theorem disciplined_call_iff (shape : Shape info) (below : BelowNumber info) :
    DisciplinedCall library (some info) response ↔
      Ready info ∧ Resolvable library response ∧ OneContext library response ∧
        (givesOperation library response → info.memory commandOperation = .null) := by
  have split : ∀ assignments, slotFill library response = some assignments →
      (Disciplined info.memory (slotFreeOps info ++ storeAll (storesOf assignments)) ↔
        CleanRelease info ∧ ∀ cell,
          ∀ word ∈ (slotFreed info cell :: given library response cell).dropLast,
            word.isString = false) := by
    intro assignments read
    rw [disciplined_append, slot_free_disciplined_iff shape]
    apply and_congr_right
    intro clean
    rw [(slot_free_runs shape clean).result]
    simp only [Option.some.injEq, forall_eq', disciplined_stores, fill_values read]
  constructor
  · intro disciplined
    obtain ⟨tagged, assignments, read, proper⟩ := disciplined info rfl
    obtain ⟨clean, plain⟩ := (split assignments read).mp proper
    have resolvable : Resolvable library response :=
      (fill_defined_iff library response).mp (by rw [read]; rfl)
    obtain ⟨volume, rest⟩ := (stores_plain_iff shape clean resolvable
      (fun word => payload_cleared tagged below)).mp plain
    exact ⟨⟨tagged, clean, volume⟩, resolvable, rest⟩
  · rintro ⟨ready, resolvable, rest⟩ held same
    rw [← Option.some.inj same]
    obtain ⟨assignments, read⟩ :=
      Option.isSome_iff_exists.mp ((fill_defined_iff library response).mpr resolvable)
    refine ⟨ready.tagged, assignments, read, (split assignments read).mpr ⟨ready.clean, ?_⟩⟩
    exact (stores_plain_iff shape ready.clean resolvable
      (fun word => payload_cleared ready.tagged below)).mpr ⟨ready.volume, rest⟩

/-! ## From one call to the next -/

theorem count_after (shape : Shape info) (below : BelowNumber info) (ready : Ready info)
    (resolved : slotResolve library info response = some next) :
    listCount next = (givenCount library response).getD 0 :=
  list_count_after shape resolved
    (Or.inr (payload_cleared ready.tagged below (by decide : 0 < payloadWords)))

theorem entry_after (shape : Shape info) (below : BelowNumber info) (ready : Ready info)
    (resolved : slotResolve library info response = some next) {word : Nat}
    (inside : word + 1 < payloadWords) (absent : givenEntry library response word = none) :
    next.memory (.payload (word + 1)) = .null := by
  rw [cell_after shape resolved, payload_cleared ready.tagged below inside, given_entry, absent]
  rfl

theorem below_number_after (shape : Shape info) (below : BelowNumber info) (ready : Ready info)
    (resolved : slotResolve library info response = some next) : BelowNumber next := by
  intro word inside filled
  rw [count_after shape below ready resolved]
  by_contra past
  have absent : givenEntry library response word = none := by
    rw [givenEntry, if_neg]
    rw [songCount]
    omega
  exact filled (entry_after shape below ready resolved inside absent)

theorem tagged_after (shape : Shape info) (below : BelowNumber info) (ready : Ready info)
    (resolved : slotResolve library info response = some next) :
    Tagged next ↔ givenDomain library response = .music ∨
      (givenCount library response).getD 0 = 0 := by
  have count := count_after shape below ready resolved
  have number := number_eq (shape_kept shape resolved)
  rw [Tagged, domain_after shape resolved]
  apply or_congr_right
  constructor
  · intro empty
    have zero := empty 0 (by decide)
    rw [← listNumber, number, Word.null, Word.int.injEq] at zero
    rw [← count, zero]
  · intro none_given word inside
    cases word with
    | zero =>
        rw [← listNumber, number, count, none_given]
        rfl
    | succ word =>
        apply entry_after shape below ready resolved inside
        rw [givenEntry, if_neg]
        rw [songCount, none_given]
        exact Nat.not_lt_zero _

theorem volume_after (shape : Shape info)
    (resolved : slotResolve library info response = some next) :
    next.memory commandVolume = .null ↔ givenCommand library response commandVolume = none := by
  rw [cell_after shape resolved, given_volume]
  cases givenCommand library response commandVolume with
  | none => simp [texts]
  | some text => simp [texts, Word.null]

theorem ready_after (shape : Shape info) (below : BelowNumber info) (ready : Ready info)
    (resolved : slotResolve library info response = some next) :
    Ready next ↔ Releasable library response := by
  have count := count_after shape below ready resolved
  have domain := domain_after shape resolved
  have tagged := tagged_after shape below ready resolved
  have volume := volume_after shape resolved
  constructor
  · intro next_ready
    refine ⟨volume.mp next_ready.volume, ?_⟩
    rcases tagged.mp next_ready.tagged with music | none_given
    · refine Or.inr ⟨music, ?_⟩
      rw [← count]
      exact next_ready.clean.1 (domain.trans music)
    · exact Or.inl none_given
  · rintro ⟨silent, none_given | ⟨music, within⟩⟩
    · refine ⟨tagged.mpr (Or.inr none_given), ⟨?_, ?_⟩, volume.mpr silent⟩
      · intro _
        rw [count, none_given]
        decide
      · intro _
        rw [count, none_given]
    · refine ⟨tagged.mpr (Or.inl music), ⟨?_, ?_⟩, volume.mpr silent⟩
      · intro _
        rw [count]
        exact within
      · rw [domain, music]
        intro words
        rcases words with weather | chat
        · exact absurd weather (by decide)
        · exact absurd chat (by decide)

theorem operation_after (shape : Shape info) (clean : CleanRelease info)
    (resolved : slotResolve library info response = some next) :
    next.memory commandOperation = .null ↔
      givesOperation library response = false ∧ info.memory commandOperation = .null := by
  rw [cell_after shape resolved, given_operation, commandOperation, sem_kept clean,
    givesOperation, commandOperation]
  cases givenCommand library response (.sem 2) with
  | none => simp [texts]
  | some text => simp [texts, Word.null]

/-! ## Whole runs -/

/-- The condition on the responses that are still to come. -/
structure HarmlessFrom (library : JsonLibrary) (info : AsrInfo) (responses : List JsonObject) :
    Prop where
  ready : responses ≠ [] → Ready info
  resolvable : ∀ response ∈ responses, Resolvable library response
  context : ∀ response ∈ responses, OneContext library response
  released : ∀ response ∈ responses.dropLast, Releasable library response
  operation : info.memory commandOperation = .null ∧
      responses.countP (givesOperation library) ≤ 1 ∨
    responses.countP (givesOperation library) = 0

/-- All but the last response: the first one counts where another one follows. -/
theorem forall_mem_drop_last_cons {holds : JsonObject → Prop} {rest : List JsonObject} :
    (∀ other ∈ (response :: rest).dropLast, holds other) ↔
      (rest ≠ [] → holds response) ∧ ∀ other ∈ rest.dropLast, holds other := by
  cases rest with
  | nil => simp
  | cons next later => simp [List.dropLast_cons_of_ne_nil]

theorem harmless_cons {rest : List JsonObject} (shape : Shape info) (below : BelowNumber info)
    (ready : Ready info) (resolvable : Resolvable library response)
    (one : OneContext library response)
    (operation : givesOperation library response → info.memory commandOperation = .null)
    (resolved : slotResolve library info response = some next) :
    HarmlessFrom library info (response :: rest) ↔ HarmlessFrom library next rest := by
  have ready_next := ready_after shape below ready resolved
  have operation_next := operation_after shape ready.clean resolved
  constructor
  · intro harmless
    constructor
    · intro more
      exact ready_next.mpr ((forall_mem_drop_last_cons.mp harmless.released).1 more)
    · exact (List.forall_mem_cons.mp harmless.resolvable).2
    · exact (List.forall_mem_cons.mp harmless.context).2
    · exact (forall_mem_drop_last_cons.mp harmless.released).2
    · have before := harmless.operation
      rw [List.countP_cons] at before
      cases gives : givesOperation library response with
      | true =>
          rw [gives, if_pos rfl] at before
          exact Or.inr (by omega)
      | false =>
          simp only [gives, Bool.false_eq_true, if_false, Nat.add_zero] at before
          rw [operation_next]
          simpa [gives] using before
  · intro harmless
    constructor
    · exact fun _ => ready
    · exact List.forall_mem_cons.mpr ⟨resolvable, harmless.resolvable⟩
    · exact List.forall_mem_cons.mpr ⟨one, harmless.context⟩
    · exact forall_mem_drop_last_cons.mpr
        ⟨fun more => ready_next.mp (harmless.ready more), harmless.released⟩
    · have after := harmless.operation
      rw [operation_next] at after
      rw [List.countP_cons]
      cases gives : givesOperation library response with
      | true =>
          refine Or.inl ⟨operation gives, ?_⟩
          rw [if_pos rfl]
          have none_later : rest.countP (givesOperation library) = 0 := by simpa [gives] using after
          omega
      | false =>
          simp only [Bool.false_eq_true, if_false, Nat.add_zero]
          simpa [gives] using after

theorem disciplined_from_iff (shape : Shape info) (below : BelowNumber info)
    (responses : List JsonObject) :
    EveryStep (slotStep library) (DisciplinedCall library) (some info) responses ↔
      HarmlessFrom library info responses := by
  induction responses generalizing info with
  | nil =>
      constructor
      · intro _
        exact ⟨fun more => absurd rfl more, by simp, by simp, by simp, Or.inr rfl⟩
      · intro _
        trivial
  | cons response rest ih =>
      have call : DisciplinedCall library (some info) response ↔ _ :=
        disciplined_call_iff shape below
      by_cases disciplined : DisciplinedCall library (some info) response
      · obtain ⟨ready, resolvable, one, operation⟩ := call.mp disciplined
        obtain ⟨assignments, read⟩ :=
          Option.isSome_iff_exists.mp ((fill_defined_iff library response).mpr resolvable)
        have resolved := slot_resolve_eq shape ready.clean read
        have step : slotStep library (some info) response = _ := resolved
        rw [EveryStep, step, ih (shape_kept shape resolved)
          (below_number_after shape below ready resolved),
          harmless_cons shape below ready resolvable one operation resolved]
        exact and_iff_right disciplined
      · constructor
        · intro every
          exact absurd every.1 disciplined
        · intro harmless
          have here : response ∈ response :: rest := List.mem_cons_self
          refine absurd (call.mpr ⟨harmless.ready (List.cons_ne_nil _ _),
            harmless.resolvable response here, harmless.context response here, ?_⟩) disciplined
          intro gives
          have once := harmless.operation
          rw [List.countP_cons, if_pos gives] at once
          exact (once.resolve_right (Nat.succ_ne_zero _)).1

end Owned

theorem zeroed_ready : Ready zeroed := by
  refine ⟨Or.inr ?_, zeroed_clean, rfl⟩
  intro word inside
  exact if_pos inside

theorem zeroed_below_number : BelowNumber zeroed := by
  intro word inside filled
  exact absurd (if_pos inside) filled

/-- Along every run from a zeroed `asr_info`, every release is of the member last
filled, every pointer freed is NULL or an own string, and no string is overwritten,
exactly when the responses are harmless. -/
theorem releases_disciplined_along_run (library : JsonLibrary) (responses : List JsonObject) :
    EveryStep (slotStep library) (DisciplinedCall library) (some zeroed) responses ↔
      Harmless library responses := by
  rw [disciplined_from_iff zeroed_shape zeroed_below_number]
  constructor
  · intro harmless
    refine ⟨harmless.resolvable, harmless.context, harmless.released, ?_⟩
    have once := harmless.operation
    omega
  · intro harmless
    exact ⟨fun _ => zeroed_ready, harmless.resolvable, harmless.context, harmless.released,
      Or.inl ⟨rfl, harmless.operation⟩⟩

def weatherResponse : JsonObject :=
  .object [("skillId", .string "2018112200000023"),
    ("dm", .object [("widget", .object [("count", .int 1)])])]

/-- The count of the list is released as the string of the weather. -/
theorem weather_count_is_released :
    ¬ ∀ (library : JsonLibrary) (responses : List JsonObject),
      EveryStep (slotStep library) (DisciplinedCall library) (some zeroed) responses := by
  intro always
  have second := (always plainLibrary [weatherResponse, .object []]).2.1
  have defined : (slotStep plainLibrary (some zeroed) weatherResponse).isSome := by decide
  obtain ⟨info, stepped⟩ := Option.isSome_iff_exists.mp defined
  obtain ⟨_, assignments, _, disciplined⟩ := second info stepped
  have freed : (executeAll info.memory (slotFreeOps info)).isSome :=
    disciplined_runs ((disciplined_append _ _).mp disciplined).1
  have computed : ((slotStep plainLibrary (some zeroed) weatherResponse).bind
      fun info => executeAll info.memory (slotFreeOps info)).isSome = false := by
    decide
  rw [stepped, Option.bind_some, freed] at computed
  exact absurd computed (by decide)

end Gk7102.SlotResolve
