import Gk7102.MqttPacket

/-!
# Topics and subscriptions

A subscription is compared with a topic byte by byte, in one pass over it. What it means is
said level by level.
-/

namespace Gk7102.MqttTopics

open ByteBlocks MqttPacket

set_option autoImplicit false

def SLASH : Byte := 0x2F
def PLUS : Byte := 0x2B
def HASH : Byte := 0x23
def DOLLAR : Byte := 0x24

section Checks

/-- `mosquitto_pub_topic_check` behind `len` bytes of the topic. -/
def pubTopicScan (len : Nat) : List Byte → MosqErr
  | [] => if len > 65535 then .inval else .success
  | byte :: str =>
      if byte = PLUS ∨ byte = HASH then .inval else pubTopicScan (len + 1) str

def pubTopicCheck (str : List Byte) : MosqErr := pubTopicScan 0 str

/-- `mosquitto_sub_topic_check` behind `len` bytes of the subscription, the last of which is
`c`; `str[1]` is the NUL behind the last one. -/
def subTopicScan (c : Byte) (len : Nat) : List Byte → MosqErr
  | [] => if len > 65535 then .inval else .success
  | byte :: str =>
      let next := str.headD 0
      if byte = PLUS then
        if (c ≠ 0 ∧ c ≠ SLASH) ∨ (next ≠ 0 ∧ next ≠ SLASH) then .inval
        else subTopicScan byte (len + 1) str
      else if byte = HASH then
        if (c ≠ 0 ∧ c ≠ SLASH) ∨ next ≠ 0 then .inval
        else subTopicScan byte (len + 1) str
      else subTopicScan byte (len + 1) str

def subTopicCheck (str : List Byte) : MosqErr := subTopicScan 0 0 str

end Checks

section Matching

/-- The loop of `mosquitto_topic_matches_sub` at `sub[spos]` and `topic[tpos]`, given what is
left of both and the byte before `sub[spos]`. `result` is what `*result` holds. -/
def matchLoop (result : Bool) (before : Option Byte) : List Byte → List Byte → MosqErr × Bool
  | [], topic => (.success, if topic = [] then result else false)
  | byte :: sub, topic =>
      if topic.head? = some byte then
        let topic := topic.tail
        if topic = [] ∧ sub = [SLASH, HASH] then (.success, true)
        else if topic = [] ∧ sub = [] then (.success, true)
        else if topic = [] ∧ sub = [PLUS] then
          if byte ≠ SLASH then (.inval, false) else (.success, true)
        else matchLoop result (some byte) sub topic
      else if byte = PLUS then
        -- bad "+foo", "a/+foo", "foo+" and "foo+/a"
        if before.any (· ≠ SLASH) then (.inval, false)
        else if sub.head?.any (· ≠ SLASH) then (.inval, false)
        else
          let topic := topic.dropWhile (· ≠ SLASH)
          if topic = [] ∧ sub = [] then (.success, true)
          else matchLoop result (some byte) sub topic
      else if byte = HASH then
        if before.any (· ≠ SLASH) then (.inval, false)
        else if sub ≠ [] then (.inval, false)
        else (.success, true)
      else (.success, false)

def topicMatchesSub (sub topic : List Byte) (result : Bool) : MosqErr × Bool :=
  if sub = [] ∨ topic = [] then (.inval, false)
  else if (sub.head? = some DOLLAR ∧ topic.head? ≠ some DOLLAR) ∨
      (topic.head? = some DOLLAR ∧ sub.head? ≠ some DOLLAR) then (.success, false)
  else matchLoop result none sub topic

end Matching

section Tokens

def hierCount (subtopic : List Byte) : Nat := 1 + subtopic.count SLASH

/-- An empty level gets no memory. -/
def token (level : List Byte) : Option (List Byte) := if level = [] then none else some level

/-- The second loop of `mosquitto_sub_topic_tokenise`, behind the bytes of a level: what it
stores from `topics[hier]` on. -/
def tokenLoop (level : List Byte) : List Byte → List (Option (List Byte))
  | [] => [token level]
  | byte :: rest =>
      if byte = SLASH then token level :: tokenLoop [] rest
      else tokenLoop (level ++ [byte]) rest

def subTopicTokenise (subtopic : List Byte) : List (Option (List Byte)) × Nat :=
  (tokenLoop [] subtopic, hierCount subtopic)

end Tokens

section Levels

def levels (text : List Byte) : List (List Byte) := text.splitOn SLASH

/-- What a subscription means. `#` stands for the level above it too, but only where that
level is named. -/
def levelsMatch : List (List Byte) → List (List Byte) → Bool
  | [], topic => topic.isEmpty
  | _ :: _, [] => false
  | level :: sub, name :: topic =>
      (level = [HASH] && sub.isEmpty) ||
        (level = [PLUS] && levelsMatch sub topic) ||
        (level = name && (levelsMatch sub topic || (sub = [[HASH]] && topic.isEmpty)))

def Literal (level : List Byte) : Prop := PLUS ∉ level ∧ HASH ∉ level

/-- A wildcard stands alone in its level, and `#` in the last one. -/
def LevelsValid : List (List Byte) → Prop
  | [] => True
  | level :: sub => (Literal level ∨ level = [PLUS] ∨ (level = [HASH] ∧ sub = [])) ∧ LevelsValid sub

@[simp] theorem levels_nil : levels [] = [[]] := List.splitOn_nil SLASH

theorem levels_cons (byte : Byte) (text : List Byte) :
    levels (byte :: text) =
      if byte = SLASH then [] :: levels text else (levels text).modifyHead (byte :: ·) := by
  rw [levels, List.splitOn_cons_eq_if_modifyHead]
  by_cases slash : byte = SLASH
  · rw [if_pos (beq_iff_eq.mpr slash), if_pos slash, levels]
  · rw [if_neg (mt beq_iff_eq.mp slash), if_neg slash, levels]

theorem levels_ne_nil (text : List Byte) : levels text ≠ [] := List.splitOn_ne_nil SLASH text

@[simp] theorem levels_slash (text : List Byte) : levels (SLASH :: text) = [] :: levels text := by
  rw [levels_cons, if_pos rfl]

theorem levels_plain {byte : Byte} (plain : byte ≠ SLASH) (text : List Byte) :
    ∃ level rest, levels text = level :: rest ∧
      levels (byte :: text) = (byte :: level) :: rest := by
  rcases List.exists_cons_of_ne_nil (levels_ne_nil text) with ⟨level, rest, split⟩
  refine ⟨level, rest, split, ?_⟩
  rw [levels_cons, if_neg plain, split]
  rfl

end Levels

section Validity

/-- The rest of a level that began without wildcards, and the levels behind it. -/
def Continued : List (List Byte) → Prop
  | [] => False
  | level :: sub => Literal level ∧ LevelsValid sub

theorem literal_nil : Literal [] := ⟨List.not_mem_nil, List.not_mem_nil⟩

theorem literal_cons {byte : Byte} {level : List Byte} :
    Literal (byte :: level) ↔ (byte ≠ PLUS ∧ byte ≠ HASH) ∧ Literal level := by
  simp only [Literal, List.mem_cons, not_or, ne_eq, eq_comm (b := byte)]
  tauto

theorem continued_slash (str : List Byte) :
    Continued (levels (SLASH :: str)) ↔ LevelsValid (levels str) := by
  rw [levels_slash, Continued]
  exact and_iff_right literal_nil

theorem levels_valid_slash (str : List Byte) :
    LevelsValid (levels (SLASH :: str)) ↔ LevelsValid (levels str) := by
  rw [levels_slash, LevelsValid]
  exact and_iff_right (Or.inl literal_nil)

theorem continued_plain {byte : Byte} (plain : byte ≠ SLASH) (str : List Byte) :
    Continued (levels (byte :: str)) ↔
      (byte ≠ PLUS ∧ byte ≠ HASH) ∧ Continued (levels str) := by
  rcases levels_plain plain str with ⟨level, rest, split, longer⟩
  rw [longer, split, Continued, Continued, literal_cons, and_assoc]

theorem levels_valid_plain {byte : Byte} (plain : byte ≠ SLASH) (plus : byte ≠ PLUS)
    (hash : byte ≠ HASH) (str : List Byte) :
    LevelsValid (levels (byte :: str)) ↔ Continued (levels str) := by
  rcases levels_plain plain str with ⟨level, rest, split, longer⟩
  rw [longer, split, Continued, LevelsValid, literal_cons]
  have none : byte :: level ≠ [PLUS] ∧ byte :: level ≠ [HASH] := by
    constructor
    · intro same
      exact plus (List.cons.inj same).1
    · intro same
      exact hash (List.cons.inj same).1
  simp only [none.1, none.2, plus, hash, false_and, or_false, ne_eq, not_false_eq_true, true_and]

theorem levels_valid_plus (str : List Byte) :
    LevelsValid (levels (PLUS :: str)) ↔
      (str = [] ∨ str.head? = some SLASH) ∧ Continued (levels str) := by
  rcases levels_plain (show PLUS ≠ SLASH by decide) str with ⟨level, rest, split, longer⟩
  cases str with
  | nil =>
      rw [levels_nil] at split
      rw [longer, ← (List.cons.inj split).1, ← (List.cons.inj split).2]
      simp [LevelsValid, Continued, literal_nil]
  | cons byte str =>
      by_cases slash : byte = SLASH
      · rw [slash, levels_slash] at split
        rw [longer, ← (List.cons.inj split).1, ← (List.cons.inj split).2, slash, continued_slash]
        simp [LevelsValid]
      · rcases levels_plain slash str with ⟨inner, rest', split', longer'⟩
        rw [longer'] at split
        rw [longer, ← (List.cons.inj split).1, LevelsValid, literal_cons]
        have alone : PLUS :: byte :: inner ≠ [PLUS] ∧ PLUS :: byte :: inner ≠ [HASH] := by
          constructor
          · intro same
            exact List.cons_ne_nil _ _ (List.cons.inj same).2
          · intro same
            exact List.cons_ne_nil _ _ (List.cons.inj same).2
        simp only [alone.1, alone.2, ne_eq, not_true_eq_false, false_and, or_false,
          List.head?_cons, Option.some.injEq, slash, reduceCtorEq]

theorem levels_valid_hash (str : List Byte) : LevelsValid (levels (HASH :: str)) ↔ str = [] := by
  rcases levels_plain (show HASH ≠ SLASH by decide) str with ⟨level, rest, split, longer⟩
  cases str with
  | nil =>
      rw [levels_nil] at split
      rw [longer, ← (List.cons.inj split).1, ← (List.cons.inj split).2]
      simp [LevelsValid]
  | cons byte str =>
      rw [longer, LevelsValid, literal_cons]
      have more : ¬ (HASH :: level = [HASH] ∧ rest = []) := by
        rintro ⟨alone, last⟩
        by_cases slash : byte = SLASH
        · rw [slash, levels_slash, last] at split
          exact levels_ne_nil str (List.cons.inj split).2
        · rcases levels_plain slash str with ⟨inner, rest', split', longer'⟩
          rw [longer', (List.cons.inj alone).2] at split
          exact List.cons_ne_nil _ _ (List.cons.inj split).1
      have plus : HASH :: level ≠ [PLUS] := by
        intro same
        exact absurd (List.cons.inj same).1 (by decide)
      simp only [more, plus, ne_eq, not_true_eq_false, and_false, false_and, or_false,
        reduceCtorEq]

theorem head_is_nul {str : List Byte} (free : 0 ∉ str) : str.headD 0 = 0 ↔ str = [] := by
  cases str with
  | nil => simp
  | cons byte str =>
      have nonzero : byte ≠ 0 := fun zero => free (zero ▸ List.mem_cons_self)
      simp only [List.headD_cons, nonzero, reduceCtorEq]

theorem head_is_slash (str : List Byte) : str.headD 0 = SLASH ↔ str.head? = some SLASH := by
  cases str with
  | nil => decide
  | cons byte str => simp

theorem sub_topic_scan_iff {str : List Byte} (free : 0 ∉ str) (c : Byte) (len : Nat) :
    subTopicScan c len str = .success ↔
      (if c = 0 ∨ c = SLASH then LevelsValid (levels str) else Continued (levels str)) ∧
        len + str.length ≤ 65535 := by
  induction str generalizing c len with
  | nil =>
      have valid :
          if c = 0 ∨ c = SLASH then LevelsValid (levels []) else Continued (levels []) := by
        split <;> simp [LevelsValid, Continued, literal_nil]
      rw [subTopicScan, and_iff_right valid]
      split <;> simp <;> omega
  | cons byte str induction =>
      rw [List.mem_cons, not_or] at free
      have later := induction free.2 byte (len + 1)
      have count : len + 1 + str.length = len + (byte :: str).length := by
        rw [List.length_cons]
        omega
      have nonzero : byte ≠ 0 := Ne.symm free.1
      rw [count] at later
      rw [subTopicScan]
      by_cases plus : byte = PLUS
      · rw [if_pos plus]
        rw [plus, if_neg (by decide)] at later
        rw [plus]
        by_cases start : c = 0 ∨ c = SLASH
        · rw [if_pos start, levels_valid_plus str, and_assoc, ← later, ← head_is_nul free.2,
            ← head_is_slash]
          by_cases ends : str.headD 0 = 0 ∨ str.headD 0 = SLASH
          · rw [if_neg (by tauto), and_iff_right ends]
          · rw [if_pos (by tauto)]
            simp only [ends, reduceCtorEq, false_and]
        · rw [if_neg start, if_pos (by tauto), continued_plain (by decide)]
          simp
      · rw [if_neg plus]
        by_cases hash : byte = HASH
        · rw [if_pos hash]
          rw [hash, if_neg (by decide)] at later
          rw [hash]
          by_cases start : c = 0 ∨ c = SLASH
          · have only : str = [] → Continued (levels str) := by
              intro ends
              rw [ends, levels_nil]
              exact ⟨literal_nil, trivial⟩
            rw [if_pos start, levels_valid_hash str, ← and_iff_left_of_imp only, and_assoc,
              ← later, ← head_is_nul free.2]
            by_cases ends : str.headD 0 = 0
            · rw [if_neg (by tauto), and_iff_right ends]
            · rw [if_pos (by tauto)]
              simp only [ends, reduceCtorEq, false_and]
          · rw [if_neg start, if_pos (by tauto), continued_plain (by decide)]
            simp
        · rw [if_neg hash, later]
          by_cases slash : byte = SLASH
          · rw [slash, if_pos (Or.inr rfl), continued_slash, levels_valid_slash, ite_self]
          · have inside : ¬ (byte = 0 ∨ byte = SLASH) := by tauto
            have named : byte ≠ PLUS ∧ byte ≠ HASH := ⟨plus, hash⟩
            rw [if_neg inside, levels_valid_plain slash plus hash, continued_plain slash]
            simp only [named, ne_eq, not_false_eq_true, and_self, true_and, ite_self]

theorem sub_topic_check_iff {str : List Byte} (free : 0 ∉ str) :
    subTopicCheck str = .success ↔ LevelsValid (levels str) ∧ str.length ≤ 65535 := by
  rw [subTopicCheck, sub_topic_scan_iff free, if_pos (Or.inl rfl), Nat.zero_add]

theorem pub_topic_scan_iff (str : List Byte) (len : Nat) :
    pubTopicScan len str = .success ↔ Literal str ∧ len + str.length ≤ 65535 := by
  induction str generalizing len with
  | nil =>
      rw [pubTopicScan, and_iff_right literal_nil]
      split <;> simp <;> omega
  | cons byte str induction =>
      have count : len + 1 + str.length = len + (byte :: str).length := by
        rw [List.length_cons]
        omega
      rw [pubTopicScan, literal_cons, and_assoc, ← count, ← induction]
      split
      next wild =>
          have not_plain : ¬ (byte ≠ PLUS ∧ byte ≠ HASH) := by tauto
          simp [not_plain]
      next plain => exact (and_iff_right (by tauto)).symm

theorem pub_topic_check_iff (str : List Byte) :
    pubTopicCheck str = .success ↔ Literal str ∧ str.length ≤ 65535 := by
  rw [pubTopicCheck, pub_topic_scan_iff, Nat.zero_add]

end Validity

section Meaning

/-- What a subscription means in the middle of a level without wildcards. -/
def inside : List (List Byte) → List (List Byte) → Bool
  | level :: sub, name :: topic =>
      level = name && (levelsMatch sub topic || (sub = [[HASH]] && topic.isEmpty))
  | _, _ => false

theorem levels_match_literal {level : List Byte} (literal : Literal level)
    (sub names : List (List Byte)) :
    levelsMatch (level :: sub) names = inside (level :: sub) names := by
  have hash : level ≠ [HASH] := by
    intro same
    rw [same] at literal
    exact literal.2 (List.mem_singleton.mpr rfl)
  have plus : level ≠ [PLUS] := by
    intro same
    rw [same] at literal
    exact literal.1 (List.mem_singleton.mpr rfl)
  cases names with
  | nil => rfl
  | cons name names => simp [levelsMatch, inside, hash, plus]

theorem levels_match_names {names : List (List Byte)} (sub : List Byte) (none : names = []) :
    levelsMatch (levels sub) names = false := by
  rcases List.exists_cons_of_ne_nil (levels_ne_nil sub) with ⟨level, rest, split⟩
  rw [split, none, levelsMatch]

theorem inside_slash (sub topic : List Byte) :
    inside (levels (SLASH :: sub)) (levels (SLASH :: topic)) =
      levelsMatch (levels sub) (levels topic) := by
  rcases List.exists_cons_of_ne_nil (levels_ne_nil topic) with ⟨name, rest, split⟩
  rw [levels_slash, levels_slash, inside, split]
  simp

theorem inside_plain {byte : Byte} (plain : byte ≠ SLASH) (sub topic : List Byte) :
    inside (levels (byte :: sub)) (levels (byte :: topic)) =
      inside (levels sub) (levels topic) := by
  rcases levels_plain plain sub with ⟨level, rest, split, longer⟩
  rcases levels_plain plain topic with ⟨name, names, split', longer'⟩
  rw [longer, longer', split, split', inside, inside]
  simp

theorem levels_eq_hash {sub : List Byte} : levels sub = [[HASH]] ↔ sub = [HASH] := by
  constructor
  · intro alone
    cases sub with
    | nil => exact absurd alone (by simp)
    | cons byte sub =>
        by_cases slash : byte = SLASH
        · rw [slash, levels_slash] at alone
          exact absurd (List.cons.inj alone).1 (List.cons_ne_nil _ _).symm
        · rcases levels_plain slash sub with ⟨level, rest, split, longer⟩
          rw [longer] at alone
          rcases List.cons.inj alone with ⟨first, last⟩
          rw [(List.cons.inj first).2, last] at split
          cases sub with
          | nil => rw [(List.cons.inj first).1]
          | cons next sub =>
              by_cases slash' : next = SLASH
              · rw [slash', levels_slash] at split
                exact absurd (List.cons.inj split).2 (levels_ne_nil sub)
              · rcases levels_plain slash' sub with ⟨inner, rest', split', longer'⟩
                rw [longer'] at split
                exact absurd (List.cons.inj split).1 (List.cons_ne_nil _ _)
  · intro same
    rw [same]
    decide

/-- The pass stops at a byte that differs; `#` has had its chance at the last byte of the
topic. -/
theorem inside_differs {byte : Byte} {sub topic : List Byte} (differs : topic.head? ≠ some byte)
    (still : topic = [] → byte :: sub ≠ [SLASH, HASH]) :
    inside (levels (byte :: sub)) (levels topic) = false := by
  by_cases slash : byte = SLASH
  · rw [slash, levels_slash]
    cases topic with
    | nil =>
        have more : levels sub ≠ [[HASH]] := by
          intro last
          exact still rfl (by rw [slash, levels_eq_hash.mp last])
        rw [levels_nil, inside, levels_match_names sub rfl]
        simp [more]
    | cons next topic =>
        have plain : next ≠ SLASH := by
          intro same
          exact differs (by rw [same, slash]; rfl)
        rcases levels_plain plain topic with ⟨name, names, split, longer⟩
        rw [longer, inside]
        simp
  · rcases levels_plain slash sub with ⟨level, rest, split, longer⟩
    rw [longer]
    cases topic with
    | nil => simp [inside]
    | cons next topic =>
        by_cases slash' : next = SLASH
        · rw [slash', levels_slash, inside]
          simp
        · rcases levels_plain slash' topic with ⟨name, names, split', longer'⟩
          have other : byte ≠ next := by
            intro same
            exact differs (by rw [same]; rfl)
          rw [longer', inside]
          simp [other]

theorem levels_first (topic : List Byte) :
    (topic.dropWhile (· ≠ SLASH) = [] ∧ levels topic = [topic]) ∨
      ∃ name more, topic.dropWhile (· ≠ SLASH) = SLASH :: more ∧
        levels topic = name :: levels more := by
  induction topic with
  | nil => exact Or.inl ⟨rfl, levels_nil⟩
  | cons byte topic induction =>
      by_cases slash : byte = SLASH
      · right
        refine ⟨[], topic, ?_, ?_⟩
        · rw [slash]
          rfl
        · rw [slash, levels_slash]
      · rcases levels_plain slash topic with ⟨level, rest, split, longer⟩
        rw [List.dropWhile_cons_of_pos (by simpa using slash), longer]
        rcases induction with ⟨all, single⟩ | ⟨name, more, found, cut⟩
        · left
          rw [split] at single
          exact ⟨all, by rw [(List.cons.inj single).1, (List.cons.inj single).2]⟩
        · right
          rw [split] at cut
          exact ⟨byte :: level, more, found, by rw [(List.cons.inj cut).2]⟩

/-- Where the pass goes on behind the topic, there is more than `/#` of the subscription
left. -/
def Open (sub topic : List Byte) : Prop := topic = [] → sub ≠ [] ∧ sub ≠ [SLASH, HASH]

variable {result : Bool}

theorem match_loop_same {byte : Byte} {sub topic : List Byte} {before : Option Byte}
    (valid : Continued (levels (byte :: sub)))
    (inner : byte ≠ SLASH → Continued (levels sub) → Open sub topic →
      matchLoop result (some byte) sub topic = (.success, inside (levels sub) (levels topic)))
    (next : byte = SLASH → LevelsValid (levels sub) → Open sub topic →
      matchLoop result (some byte) sub topic =
        (.success, levelsMatch (levels sub) (levels topic))) :
    matchLoop result before (byte :: sub) (byte :: topic) =
      (.success, inside (levels (byte :: sub)) (levels (byte :: topic))) := by
  have meaning : inside (levels (byte :: sub)) (levels (byte :: topic)) =
      if byte = SLASH then levelsMatch (levels sub) (levels topic)
      else inside (levels sub) (levels topic) := by
    by_cases slash : byte = SLASH
    · rw [if_pos slash, slash, inside_slash]
    · rw [if_neg slash, inside_plain slash]
  rw [matchLoop, List.head?_cons, if_pos rfl, List.tail_cons, meaning]
  by_cases parent : topic = [] ∧ sub = [SLASH, HASH]
  · rw [if_pos parent, parent.1, parent.2]
    split <;> decide
  · rw [if_neg parent]
    by_cases both : topic = [] ∧ sub = []
    · rw [if_pos both, both.1, both.2]
      split <;> decide
    · rw [if_neg both]
      have still : Open sub topic := fun none => ⟨fun ends => both ⟨none, ends⟩,
        fun last => parent ⟨none, last⟩⟩
      by_cases slash : byte = SLASH
      · rw [slash, continued_slash] at valid
        have later := next slash valid still
        rw [if_pos slash]
        by_cases plus : topic = [] ∧ sub = [PLUS]
        · rw [if_pos plus, if_neg (not_not.mpr slash), plus.1, plus.2]
          decide
        · rw [if_neg plus, later]
      · rw [continued_plain slash] at valid
        have plus : ¬ (topic = [] ∧ sub = [PLUS]) := by
          intro alone
          rw [alone.2, continued_plain (by decide)] at valid
          exact valid.2.1.1 rfl
        rw [if_neg slash, if_neg plus]
        exact inner slash valid.2 still

theorem literal_of_suffix {topic more : List Byte} (plain : Literal topic)
    (found : topic.dropWhile (· ≠ SLASH) = SLASH :: more) : Literal (SLASH :: more) := by
  have within : SLASH :: more ⊆ topic := by
    rw [← found]
    exact (List.dropWhile_suffix _).subset
  exact ⟨fun member => plain.1 (within member), fun member => plain.2 (within member)⟩

theorem levels_match_plus (sub : List (List Byte)) (name : List Byte) {names : List (List Byte)}
    (more : names ≠ []) :
    levelsMatch ([PLUS] :: sub) (name :: names) = levelsMatch sub names := by
  rcases List.exists_cons_of_ne_nil more with ⟨next, rest, split⟩
  rw [split]
  simp only [levelsMatch]
  cases levelsMatch sub (next :: rest) <;> simp [show PLUS ≠ HASH by decide]

/-- `+` passes over one level, whatever it is. -/
theorem match_loop_plus {sub topic : List Byte} (plain : Literal topic)
    (ends : sub = [] ∨ sub.head? = some SLASH)
    (later : ∀ more, topic.dropWhile (· ≠ SLASH) = SLASH :: more →
      matchLoop result (some PLUS) sub (SLASH :: more) =
        (.success, inside (levels sub) (levels (SLASH :: more)))) :
    (if topic.dropWhile (· ≠ SLASH) = [] ∧ sub = [] then (MosqErr.success, true)
      else matchLoop result (some PLUS) sub (topic.dropWhile (· ≠ SLASH))) =
        (.success, levelsMatch (levels (PLUS :: sub)) (levels topic)) := by
  cases sub with
  | nil =>
      have single : levels [PLUS] = [[PLUS]] := by decide
      rw [single]
      rcases levels_first topic with ⟨all, whole⟩ | ⟨name, more, found, cut⟩
      · rw [if_pos ⟨all, rfl⟩, whole]
        simp [levelsMatch]
      · rcases List.exists_cons_of_ne_nil (levels_ne_nil more) with ⟨next, rest, split⟩
        rw [found, if_neg (by simp), cut, levels_match_plus [] name (levels_ne_nil more), split]
        rfl
  | cons byte sub =>
      have slash : byte = SLASH := by
        rcases ends with none | slash
        · exact absurd none (List.cons_ne_nil _ _)
        · exact Option.some.inj slash
      rw [slash] at later ⊢
      have split : levels (PLUS :: SLASH :: sub) = [PLUS] :: levels sub := by
        rw [levels_cons, if_neg (by decide), levels_slash]
        rfl
      rw [split, if_neg fun both => List.cons_ne_nil _ _ both.2]
      rcases levels_first topic with ⟨all, whole⟩ | ⟨name, more, found, cut⟩
      · rcases List.exists_cons_of_ne_nil (levels_ne_nil sub) with ⟨level, rest, deeper⟩
        have named : [PLUS] ≠ topic := by
          intro same
          rw [← same] at plain
          exact plain.1 (List.mem_singleton.mpr rfl)
        rw [all, whole, matchLoop, if_neg (by simp), if_neg (by decide), if_neg (by decide),
          deeper]
        simp [levelsMatch, show PLUS ≠ HASH by decide, named]
      · rw [found, later more found, inside_slash, cut,
          levels_match_plus _ name (levels_ne_nil more)]

theorem match_loop_meaning (sub : List Byte) {topic : List Byte} (plain : Literal topic)
    (before : Option Byte) (still : Open sub topic) :
    (Continued (levels sub) →
        matchLoop result before sub topic = (.success, inside (levels sub) (levels topic))) ∧
      (LevelsValid (levels sub) → before.any (· ≠ SLASH) = false →
        matchLoop result before sub topic =
          (.success, levelsMatch (levels sub) (levels topic))) := by
  induction sub generalizing topic before with
  | nil =>
      have some : topic ≠ [] := fun none => (still none).1 rfl
      have nothing : matchLoop result before [] topic = (.success, false) := by
        rw [matchLoop, if_neg some]
      have meaning : inside (levels []) (levels topic) = false := by
        cases topic with
        | nil => exact absurd rfl some
        | cons next topic =>
            by_cases slash : next = SLASH
            · rw [slash, levels_slash, levels_nil, inside]
              rcases List.exists_cons_of_ne_nil (levels_ne_nil topic) with ⟨name, rest, split⟩
              rw [split]
              rfl
            · rcases levels_plain slash topic with ⟨name, names, split, longer⟩
              rw [longer, levels_nil, inside]
              simp
      rw [nothing, meaning]
      refine ⟨fun _ => rfl, fun _ _ => ?_⟩
      rw [levels_nil, levels_match_literal literal_nil, ← levels_nil, meaning]
  | cons byte sub induction =>
      have same : Continued (levels (byte :: sub)) → topic.head? = some byte →
          matchLoop result before (byte :: sub) topic =
            (.success, inside (levels (byte :: sub)) (levels topic)) := by
        intro valid head
        cases topic with
        | nil => exact absurd head (by simp)
        | cons next topic =>
            rw [List.head?_cons, Option.some.injEq] at head
            rw [head] at plain ⊢
            rw [literal_cons] at plain
            apply match_loop_same valid
            · intro _ valid' still'
              exact (induction plain.2 _ still').1 valid'
            · intro slash valid' still'
              exact (induction plain.2 _ still').2 valid' (by rw [slash]; decide)
      have inner : Continued (levels (byte :: sub)) →
          matchLoop result before (byte :: sub) topic =
            (.success, inside (levels (byte :: sub)) (levels topic)) := by
        intro valid
        by_cases head : topic.head? = some byte
        · exact same valid head
        · have wild : byte ≠ PLUS ∧ byte ≠ HASH := by
            by_cases slash : byte = SLASH
            · rw [slash]
              decide
            · exact ((continued_plain slash sub).mp valid).1
          rw [matchLoop, if_neg head, if_neg wild.1, if_neg wild.2,
            inside_differs head fun none => (still none).2]
      refine ⟨inner, ?_⟩
      intro valid clear
      by_cases plus : byte = PLUS
      · rw [plus] at valid
        rcases (levels_valid_plus sub).mp valid with ⟨ends, rest⟩
        have head : topic.head? ≠ some byte := by
          intro here
          rw [plus] at here
          exact plain.1 (List.mem_of_mem_head? here)
        have follows : sub.head?.any (· ≠ SLASH) = false := by
          rcases ends with none | slash
          · rw [none]
            rfl
          · rw [slash]
            decide
        rw [matchLoop, if_neg head, if_pos plus, if_neg (by rw [clear]; decide),
          if_neg (by rw [follows]; decide), plus]
        exact match_loop_plus plain ends fun more found =>
          (induction (literal_of_suffix plain found) _ (fun none => absurd none (by simp))).1 rest
      · by_cases hash : byte = HASH
        · have head : topic.head? ≠ some byte := by
            intro here
            rw [hash] at here
            exact plain.2 (List.mem_of_mem_head? here)
          have alone : sub = [] := (levels_valid_hash sub).mp (hash ▸ valid)
          rw [matchLoop, if_neg head, if_neg plus, if_pos hash, if_neg (by rw [clear]; decide),
            if_neg (not_not.mpr alone), alone, hash]
          rcases List.exists_cons_of_ne_nil (levels_ne_nil topic) with ⟨name, rest, split⟩
          rw [split, levels_eq_hash.mpr rfl, levelsMatch]
          simp
        · have literal : Continued (levels (byte :: sub)) := by
            by_cases slash : byte = SLASH
            · rw [slash, levels_valid_slash] at valid
              rw [slash, continued_slash]
              exact valid
            · rw [levels_valid_plain slash plus hash] at valid
              rw [continued_plain slash]
              exact ⟨⟨plus, hash⟩, valid⟩
          rw [inner literal]
          rcases List.exists_cons_of_ne_nil (levels_ne_nil (byte :: sub)) with ⟨level, rest, split⟩
          rw [split] at literal ⊢
          rw [levels_match_literal literal.1]

/-- A subscription and a topic that pass their checks are compared by what they mean, level
by level; one that begins with `$` matches only topics that do so too. -/
theorem topic_matches_meaning (sub topic : List Byte) (result : Bool)
    (given : sub ≠ [] ∧ topic ≠ []) (free : 0 ∉ sub) (checked : subTopicCheck sub = .success)
    (named : pubTopicCheck topic = .success) :
    topicMatchesSub sub topic result =
      (.success, decide (sub.head? = some DOLLAR ↔ topic.head? = some DOLLAR) &&
        levelsMatch (levels sub) (levels topic)) := by
  have valid := ((sub_topic_check_iff free).mp checked).1
  have plain := ((pub_topic_check_iff topic).mp named).1
  have loop : matchLoop result none sub topic = _ := (match_loop_meaning sub plain none
    fun none => absurd none given.2).2 valid rfl
  rw [topicMatchesSub, if_neg (by tauto), loop]
  by_cases special : sub.head? = some DOLLAR ↔ topic.head? = some DOLLAR
  · rw [if_neg (by tauto), decide_eq_true special, Bool.true_and]
  · rw [if_pos (by tauto), decide_eq_false special, Bool.false_and]

/-- "a/+/#" and "a/b/c". -/
theorem topic_matches_meaning_levels :
    topicMatchesSub [0x61, SLASH, PLUS, SLASH, HASH] [0x61, SLASH, 0x62, SLASH, 0x63] false =
      (.success, true) :=
  topic_matches_meaning [0x61, SLASH, PLUS, SLASH, HASH] [0x61, SLASH, 0x62, SLASH, 0x63] false
    (by decide) (by decide) (by decide) (by decide)

theorem token_loop_eq (level rest : List Byte) :
    tokenLoop level rest = ((levels rest).modifyHead (level ++ ·)).map token := by
  induction rest generalizing level with
  | nil => simp [tokenLoop]
  | cons byte rest induction =>
      rw [tokenLoop]
      by_cases slash : byte = SLASH
      · rw [if_pos slash, slash, levels_slash, induction]
        rcases List.exists_cons_of_ne_nil (levels_ne_nil rest) with ⟨name, names, split⟩
        simp [split]
      · rcases levels_plain slash rest with ⟨name, names, split, longer⟩
        rw [if_neg slash, induction, split, longer]
        simp

theorem levels_length (text : List Byte) : (levels text).length = hierCount text := by
  induction text with
  | nil => rfl
  | cons byte text induction =>
      rw [hierCount] at induction
      by_cases slash : byte = SLASH
      · rw [slash, levels_slash, List.length_cons, induction, hierCount, List.count_cons_self]
        omega
      · rcases levels_plain slash text with ⟨level, rest, split, longer⟩
        rw [longer, List.length_cons, hierCount, List.count_cons_of_ne slash, ← induction, split,
          List.length_cons]

/-- The tokens of a subscription are its levels. They fill the array to its end, and behind
the separators they are the subscription again. -/
theorem tokens_are_levels (subtopic : List Byte) :
    (subTopicTokenise subtopic).1 = (levels subtopic).map token ∧
      (subTopicTokenise subtopic).1.length = (subTopicTokenise subtopic).2 ∧
      [SLASH].intercalate ((subTopicTokenise subtopic).1.map (·.getD [])) = subtopic := by
  have tokens : (subTopicTokenise subtopic).1 = (levels subtopic).map token := by
    rw [subTopicTokenise, token_loop_eq]
    rcases List.exists_cons_of_ne_nil (levels_ne_nil subtopic) with ⟨level, rest, split⟩
    simp [split]
  have back : (fun level => (token level).getD []) = (id : List Byte → List Byte) := by
    funext level
    rw [token]
    split
    next none => exact none.symm
    next => rfl
  refine ⟨tokens, ?_, ?_⟩
  · rw [tokens, List.length_map, levels_length]
    rfl
  · rw [tokens, List.map_map]
    change [SLASH].intercalate ((levels subtopic).map fun level => (token level).getD []) = _
    rw [back, List.map_id, levels, List.intercalate_splitOn]

end Meaning

end Gk7102.MqttTopics
