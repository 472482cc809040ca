import Gk7102.XmlReader
import Mathlib.Data.List.TakeWhile

/-!
# The parser reads what the reader reads

The parser writes NUL bytes into the text it has passed and keeps pointers into it.
Every string it still needs lies wholly in front of its pointer, with its NUL, and
the parser writes nowhere but at the pointer and beyond: so the strings stay. From
there each function of the parser does to its buffer what the reader does to the text.
-/

namespace Gk7102.Xml

open Gk7102.ByteBlocks
open Gk7102.TextScan

set_option autoImplicit false

section Strings

/-- A C string in the buffer that ends, with its NUL, in front of `limit`. -/
structure StringBefore (buffer : List Byte) (limit pointer : Nat) (text : List Byte) : Prop where
  bytes : ∀ i, i < text.length → buffer[pointer + i]? = text[i]?
  ends : buffer[pointer + text.length]? = some 0
  no_nul : 0 ∉ text
  inside : pointer + text.length < limit

variable {buffer text : List Byte} {limit pointer : Nat}

theorem string_before_reads (string : StringBefore buffer limit pointer text) :
    cString (buffer.drop pointer) = text := by
  have split : buffer.drop pointer = text ++ 0 :: buffer.drop (pointer + text.length + 1) := by
    apply List.ext_getElem?
    intro i
    rw [List.getElem?_drop]
    rcases Nat.lt_trichotomy i text.length with within | here | beyond
    · rw [string.bytes i within, List.getElem?_append_left within]
    · subst here
      rw [string.ends, List.getElem?_append_right (Nat.le_refl _), Nat.sub_self]
      rfl
    · rw [List.getElem?_append_right (Nat.le_of_lt beyond)]
      have behind : i - text.length = (i - text.length - 1) + 1 := by omega
      have shift : pointer + i = pointer + text.length + 1 + (i - text.length - 1) := by omega
      rw [behind, List.getElem?_cons_succ, List.getElem?_drop, shift]
  rw [split]
  exact cstring_of_terminated string.no_nul _

theorem string_before_stays {other : List Byte} {later : Nat}
    (string : StringBefore buffer limit pointer text)
    (same : ∀ i, i < limit → other[i]? = buffer[i]?) (grows : limit ≤ later) :
    StringBefore other later pointer text where
  bytes i within := by
    rw [same _ (by have := string.inside; omega)]
    exact string.bytes i within
  ends := by
    rw [same _ string.inside]
    exact string.ends
  no_nul := string.no_nul
  inside := Nat.lt_of_lt_of_le string.inside grows

theorem cstring_length_le (raw : List Byte) : (cString raw).length ≤ raw.length :=
  (List.takeWhile_sublist _).length_le

theorem cstring_get {raw : List Byte} {i : Nat} (within : i < (cString raw).length) :
    (cString raw)[i]? = raw[i]? := by
  rw [List.getElem?_eq_getElem within]
  exact (List.prefix_iff_getElem?.mp (List.takeWhile_prefix _) i within).symm

/-- Behind what a C string function sees of some bytes comes a NUL, or nothing. -/
theorem cstring_stops (raw : List Byte) :
    (cString raw).length = raw.length ∨ raw[(cString raw).length]? = some 0 := by
  induction raw with
  | nil => exact Or.inl rfl
  | cons byte rest ih =>
      by_cases nul : byte = 0
      · subst nul
        exact Or.inr rfl
      · have first : cString (byte :: rest) = byte :: cString rest :=
          List.takeWhile_cons_of_pos (decide_eq_true nul)
        rw [first, List.length_cons, List.length_cons, List.getElem?_cons_succ]
        rcases ih with whole | stops
        · exact Or.inl (congrArg Nat.succ whole)
        · exact Or.inr stops

theorem cstring_no_nul (raw : List Byte) : 0 ∉ cString raw := by
  intro member
  have kept := List.mem_takeWhile_imp member
  exact absurd rfl (of_decide_eq_true kept)

theorem string_before_cut {raw rest : List Byte} (passed : buffer.drop pointer = raw ++ rest)
    (more : rest ≠ []) :
    StringBefore (buffer.set (pointer + raw.length) 0) (pointer + raw.length + 1) pointer
      (cString raw) := by
  have get : ∀ i, buffer[pointer + i]? = (raw ++ rest)[i]? := by
    intro i
    rw [← passed, List.getElem?_drop]
  have short := cstring_length_le raw
  refine ⟨fun i within => ?_, ?_, cstring_no_nul raw, by omega⟩
  · rw [List.getElem?_set_ne (by omega), get, List.getElem?_append_left (by omega),
      cstring_get within]
  · rcases cstring_stops raw with whole | stops
    · have inside : pointer + raw.length < buffer.length := by
        have size := congrArg List.length passed
        have positive := List.length_pos_iff.mpr more
        rw [List.length_drop, List.length_append] at size
        omega
      rw [whole, List.getElem?_set_self inside]
    · have within : (cString raw).length < raw.length :=
        (List.getElem?_eq_some_iff.mp stops).1
      rw [List.getElem?_set_ne (by omega), get, List.getElem?_append_left within, stops]

end Strings

section Views

/-- The strings that a row of an array of pointers leads to, and NULL behind them. -/
def RowBefore (buffer : List Byte) (limit : Nat) (row : Nat → Option Nat)
    (texts : List (List Byte)) : Prop :=
  ∀ i, match texts[i]? with
    | none => row i = none
    | some text => ∃ pointer, row i = some pointer ∧ StringBefore buffer limit pointer text

/-- The stack of names: the innermost on top, and NULL at the bottom. -/
def NamesBefore (buffer : List Byte) (limit : Nat) (eStack : Nat → Option Nat) :
    List (List Byte) → Prop
  | [] => eStack 0 = none
  | name :: outer => (∃ pointer, eStack (outer.length + 1) = some pointer ∧
      StringBefore buffer limit pointer name) ∧ NamesBefore buffer limit eStack outer

def attrTexts (attrs : List (List Byte × List Byte)) : List (List Byte) :=
  attrs.flatMap fun attr => [attr.1, attr.2]

/-- The parser's state read as a reader's, with the attributes of the tag so far. -/
structure Views (parse : Parser) (reader : Reader) (attrs : List (List Byte × List Byte)) :
    Prop where
  inside : parse.ptr ≤ parse.buffer.length
  rest : reader.rest = parse.here
  index : parse.eStackIndex = reader.names.length
  names : NamesBefore parse.buffer parse.ptr parse.eStack reader.names
  attr : RowBefore parse.buffer parse.ptr parse.attr (attrTexts attrs)
  nodes : reader.nodes = parse.nodes
  shallow : reader.names.length < maxStackDepth

variable {parse : Parser} {reader : Reader} {attrs : List (List Byte × List Byte)}

theorem row_before_stays {buffer other : List Byte} {limit later : Nat} {row : Nat → Option Nat}
    {texts : List (List Byte)} (before : RowBefore buffer limit row texts)
    (same : ∀ i, i < limit → other[i]? = buffer[i]?) (grows : limit ≤ later) :
    RowBefore other later row texts := by
  intro i
  have here := before i
  cases found : texts[i]? with
  | none =>
      rw [found] at here
      exact here
  | some text =>
      rw [found] at here
      rcases here with ⟨pointer, points, string⟩
      exact ⟨pointer, points, string_before_stays string same grows⟩

theorem names_before_stays {buffer other : List Byte} {limit later : Nat}
    {eStack : Nat → Option Nat} {names : List (List Byte)}
    (before : NamesBefore buffer limit eStack names)
    (same : ∀ i, i < limit → other[i]? = buffer[i]?) (grows : limit ≤ later) :
    NamesBefore other later eStack names := by
  induction names with
  | nil => exact before
  | cons name outer ih =>
      rcases before with ⟨⟨pointer, points, string⟩, others⟩
      exact ⟨⟨pointer, points, string_before_stays string same grows⟩, ih others⟩

theorem here_length (parse : Parser) :
    parse.here.length = parse.buffer.length - parse.ptr :=
  List.length_drop

def Parser.moved (parse : Parser) (count : Nat) : Parser :=
  { parse with ptr := parse.ptr + count }

/-- A NUL at the pointer, and the pointer moved on. -/
def Parser.cut (parse : Parser) (count : Nat) : Parser :=
  { parse with buffer := parse.buffer.set parse.ptr 0, ptr := parse.ptr + count }

theorem advance_eq (parse : Parser) {count : Nat}
    (within : parse.ptr + count ≤ parse.buffer.length) :
    parse.advance count = .ok (parse.moved count) :=
  if_pos within

theorem terminate_advance_eq (parse : Parser) {count : Nat}
    (within : parse.ptr + count ≤ parse.buffer.length) :
    parse.terminate.advance count = .ok (parse.cut count) := by
  have same : parse.terminate.ptr + count ≤ parse.terminate.buffer.length := by
    rw [Parser.terminate, List.length_set]
    exact within
  rw [advance_eq _ same]
  rfl

theorem skip_until_eq {parse : Parser} (stop : List Byte → Bool)
    (inside : parse.ptr ≤ parse.buffer.length) :
    parse.skipUntil stop = .ok (parse.moved (takeUntil stop parse.here).length) := by
  rw [Parser.skipUntil, scan_loop_arrives inside (by omega)]
  rfl

theorem views_moved (views : Views parse reader attrs) {count : Nat}
    (within : parse.ptr + count ≤ parse.buffer.length) :
    Views (parse.moved count) { reader with rest := reader.rest.drop count } attrs where
  inside := within
  rest := by
    rw [views.rest]
    exact List.drop_drop
  index := views.index
  names := names_before_stays views.names (fun _ _ => rfl) (Nat.le_add_right _ _)
  attr := row_before_stays views.attr (fun _ _ => rfl) (Nat.le_add_right _ _)
  nodes := views.nodes
  shallow := views.shallow

theorem views_cut (views : Views parse reader attrs) {count : Nat} (positive : 0 < count)
    (within : parse.ptr + count ≤ parse.buffer.length) :
    Views (parse.cut count) { reader with rest := reader.rest.drop count } attrs := by
  have same : ∀ i, i < parse.ptr → (parse.buffer.set parse.ptr 0)[i]? = parse.buffer[i]? := by
    intro i before
    exact List.getElem?_set_ne (Nat.ne_of_gt before)
  constructor
  · show parse.ptr + count ≤ (parse.buffer.set parse.ptr 0).length
    rw [List.length_set]
    exact within
  · rw [views.rest]
    show (parse.buffer.drop parse.ptr).drop count =
      (parse.buffer.set parse.ptr 0).drop (parse.ptr + count)
    rw [List.drop_drop, List.drop_set_of_lt (by omega)]
  · exact views.index
  · exact names_before_stays views.names same (Nat.le_add_right _ _)
  · exact row_before_stays views.attr same (Nat.le_add_right _ _)
  · exact views.nodes
  · exact views.shallow

theorem taken_within (views : Views parse reader attrs) (stop : List Byte → Bool) :
    parse.ptr + (takeUntil stop parse.here).length ≤ parse.buffer.length := by
  have whole := congrArg List.length (take_until_append_drop_until stop parse.here)
  rw [List.length_append, here_length] at whole
  have inside := views.inside
  omega

/-- A scan of the parser passes over what a scan of the text passes over. -/
theorem views_skip (views : Views parse reader attrs) (stop : List Byte → Bool) :
    parse.skipUntil stop = .ok (parse.moved (takeUntil stop parse.here).length) ∧
      Views (parse.moved (takeUntil stop parse.here).length)
        { reader with rest := dropUntil stop reader.rest } attrs := by
  refine ⟨skip_until_eq stop views.inside, ?_⟩
  have moved := views_moved views (taken_within views stop)
  rw [drop_until_eq_drop, views.rest]
  rw [views.rest] at moved
  exact moved

theorem fail_at_end_eq (views : Views parse reader attrs) :
    parse.failAtEnd = if reader.rest = [] then .error .failed else .ok () := by
  have size := here_length parse
  have inside := views.inside
  rw [views.rest, Parser.failAtEnd, Parser.atEnd]
  by_cases atEnd : parse.ptr = parse.buffer.length
  · have nothing : parse.here = [] := List.eq_nil_of_length_eq_zero (by omega)
    rw [if_pos (beq_iff_eq.mpr atEnd), if_pos nothing]
  · have something : parse.here ≠ [] := by
      intro nothing
      rw [nothing, List.length_nil] at size
      omega
    rw [if_neg (by rw [beq_iff_eq]; exact atEnd), if_neg something]

end Views

section Attributes

variable {parse : Parser} {reader : Reader} {attrs : List (List Byte × List Byte)}

theorem ok_bind {Value Result : Type} (value : Value) (next : Value → Except Fault Result) :
    ((Except.ok value : Except Fault Value) >>= next) = next value := rfl

theorem close_tag_none (found : tagEnd parse.here = none) : closeTag parse = .ok (parse, none) := by
  rw [tagEnd] at found
  rw [closeTag]
  split at found
  · cases found
  · rename_i notOpen
    split at found
    · cases found
    · rename_i notEmpty
      rw [if_neg notOpen, if_neg notEmpty]

theorem close_tag_some {ret : TagEnd} {rest : List Byte}
    (found : tagEnd parse.here = some (ret, rest)) :
    ∃ count, 0 < count ∧ parse.ptr + count ≤ parse.buffer.length ∧
      rest = parse.here.drop count ∧ closeTag parse = .ok (parse.cut count, some ret) := by
  have size := here_length parse
  rw [tagEnd] at found
  split at found
  · rename_i closes
    cases found
    have long := starts_with_length closes
    rw [List.length_singleton] at long
    have within : parse.ptr + 1 ≤ parse.buffer.length := by omega
    refine ⟨1, Nat.one_pos, within, rfl, ?_⟩
    rw [closeTag, if_pos closes, terminate_advance_eq parse within]
    rfl
  · rename_i notOpen
    split at found
    · rename_i closes
      cases found
      have long := starts_with_length closes
      rw [List.length_cons, List.length_singleton] at long
      have within : parse.ptr + 2 ≤ parse.buffer.length := by omega
      refine ⟨2, Nat.two_pos, within, rfl, ?_⟩
      rw [closeTag, if_neg notOpen, if_pos closes, terminate_advance_eq parse within]
      rfl
    · cases found

theorem string_of_scan (stop : List Byte → Bool) (more : dropUntil stop parse.here ≠ [])
    {count : Nat} (positive : 0 < count) :
    StringBefore ((parse.moved (takeUntil stop parse.here).length).cut count).buffer
      ((parse.moved (takeUntil stop parse.here).length).cut count).ptr parse.ptr
      (cString (takeUntil stop parse.here)) := by
  have passed : parse.buffer.drop parse.ptr =
      takeUntil stop parse.here ++ dropUntil stop parse.here :=
    (take_until_append_drop_until stop parse.here).symm
  apply string_before_stays (string_before_cut passed more) (fun _ _ => rfl)
  exact Nat.add_le_add_left positive _

theorem string_moved {pointer : Nat} {text : List Byte}
    (string : StringBefore parse.buffer parse.ptr pointer text) (count : Nat) :
    StringBefore (parse.moved count).buffer (parse.moved count).ptr pointer text :=
  string_before_stays string (fun _ _ => rfl) (Nat.le_add_right _ _)

theorem string_cut {pointer : Nat} {text : List Byte}
    (string : StringBefore parse.buffer parse.ptr pointer text) (count : Nat) :
    StringBefore (parse.cut count).buffer (parse.cut count).ptr pointer text := by
  apply string_before_stays string _ (Nat.le_add_right _ _)
  intro i before
  exact List.getElem?_set_ne (Nat.ne_of_gt before)

theorem one_more {c : Byte} {text : List Byte} (views : Views parse reader attrs)
    (ahead : reader.rest = c :: text) : parse.ptr + 1 ≤ parse.buffer.length := by
  have size := here_length parse
  rw [← views.rest, ahead, List.length_cons] at size
  omega

/-- The parser goes on to some rest of the text; the strings in front of it stay. -/
structure StepsTo (parse : Parser) (reader : Reader) (attrs : List (List Byte × List Byte))
    (rest : List Byte) (after : Parser) : Prop where
  views : Views after { reader with rest := rest } attrs
  eStack : after.eStack = parse.eStack
  strings : ∀ pointer text, StringBefore parse.buffer parse.ptr pointer text →
    StringBefore after.buffer after.ptr pointer text

theorem steps_to_moved (views : Views parse reader attrs) {count : Nat}
    (within : parse.ptr + count ≤ parse.buffer.length) :
    StepsTo parse reader attrs (reader.rest.drop count) (parse.moved count) :=
  ⟨views_moved views within, rfl, fun _ _ string => string_moved string count⟩

theorem steps_to_cut (views : Views parse reader attrs) {count : Nat} (positive : 0 < count)
    (within : parse.ptr + count ≤ parse.buffer.length) :
    StepsTo parse reader attrs (reader.rest.drop count) (parse.cut count) :=
  ⟨views_cut views positive within, rfl, fun _ _ string => string_cut string count⟩

theorem steps_to_skip (views : Views parse reader attrs) (stop : List Byte → Bool) :
    StepsTo parse reader attrs (dropUntil stop reader.rest)
      (parse.moved (takeUntil stop parse.here).length) :=
  ⟨(views_skip views stop).2, rfl, fun _ _ string => string_moved string _⟩

theorem steps_to_spaces (views : Views parse reader attrs) :
    StepsTo parse reader attrs (spacesOff reader.rest)
      (parse.moved (takeUntil notSpace parse.here).length) :=
  steps_to_skip views notSpace

theorem skip_spaces_eq (views : Views parse reader attrs) :
    parse.skipSpaces = .ok (parse.moved (takeUntil notSpace parse.here).length) :=
  (views_skip views notSpace).1

theorem steps_to_trans {middle after : Parser} {rest rest' : List Byte}
    (first : StepsTo parse reader attrs rest middle)
    (second : StepsTo middle { reader with rest := rest } attrs rest' after) :
    StepsTo parse reader attrs rest' after :=
  ⟨second.views, second.eStack.trans first.eStack,
    fun pointer text string => second.strings pointer text (first.strings pointer text string)⟩

def ValueFound (parse : Parser) (reader : Reader) (attrs : List (List Byte × List Byte))
    (name : List Byte) : AttrStep → Prop
  | .failed => attrValue parse = .error .failed
  | .closed _ _ => False
  | .attr name' value ret rest => name' = name ∧ ∃ after pointer,
      attrValue parse = .ok (after, pointer, ret) ∧ StepsTo parse reader attrs rest after ∧
        StringBefore after.buffer after.ptr pointer value

theorem quoted_value_reads (views : Views parse reader attrs) (name : List Byte)
    (quoted : startsWith [34] reader.rest = true) :
    ValueFound parse reader attrs name (readValue name reader.rest) := by
  have size := here_length parse
  have long := starts_with_length quoted
  rw [← views.rest] at size
  rw [List.length_singleton] at long
  have first := steps_to_moved views (show parse.ptr + 1 ≤ parse.buffer.length by omega)
  have second := steps_to_skip first.views (startsWith [34])
  have ahead : (parse.moved 1).here = reader.rest.drop 1 := first.views.rest.symm
  have value : attrValue parse = (do
      let scanned ← (parse.moved 1).skipUntil (startsWith [34])
      scanned.failAtEnd
      let after ← scanned.terminate.advance 1
      .ok (after, (parse.moved 1).ptr, none)) := by
    rw [attrValue, ← views.rest, if_pos quoted, advance_eq parse (by omega), ok_bind]
  rw [(views_skip first.views (startsWith [34])).1, ok_bind, fail_at_end_eq second.views]
    at value
  rw [readValue, if_pos quoted]
  simp only at second value
  cases found : dropUntil (startsWith [34]) (reader.rest.drop 1) with
  | nil =>
      rw [found] at value
      exact value
  | cons c rest =>
      rw [found] at second
      have room := one_more second.views rfl
      have third := steps_to_cut second.views Nat.one_pos room
      rw [found, if_neg (List.cons_ne_nil _ _), ok_bind, terminate_advance_eq _ room, ok_bind]
        at value
      refine ⟨rfl, _, _, value, steps_to_trans first (steps_to_trans second third), ?_⟩
      have string := @string_of_scan (parse.moved 1) (startsWith [34])
        (by rw [ahead, found]; exact List.cons_ne_nil _ _) 1 Nat.one_pos
      rw [ahead] at string ⊢
      exact string

theorem bare_value_reads (views : Views parse reader attrs) (name : List Byte)
    (bare : ¬startsWith [34] reader.rest = true) :
    ValueFound parse reader attrs name (readValue name reader.rest) := by
  have second := steps_to_skip views nameEnd
  have ahead : parse.here = reader.rest := views.rest.symm
  have value : attrValue parse = (do
      let scanned ← parse.skipUntil nameEnd
      scanned.failAtEnd
      if atSpace scanned.here then do
        let after ← scanned.terminate.advance 1
        .ok (after, parse.ptr, none)
      else do
        let closed ← closeTag scanned
        .ok (closed.1, parse.ptr, closed.2)) := by
    rw [attrValue, ← views.rest, if_neg bare]
    rfl
  rw [(views_skip views nameEnd).1, ok_bind, fail_at_end_eq second.views] at value
  rw [readValue, if_neg bare]
  simp only at value
  cases found : dropUntil nameEnd reader.rest with
  | nil =>
      rw [found] at value
      exact value
  | cons c rest =>
      rw [found] at second
      rw [found, if_neg (List.cons_ne_nil _ _), ok_bind, ← second.views.rest] at value
      have more : dropUntil nameEnd parse.here ≠ [] := by
        rw [ahead, found]
        exact List.cons_ne_nil _ _
      simp only at value ⊢
      by_cases space : atSpace (c :: rest) = true
      · have room := one_more second.views rfl
        have third := steps_to_cut second.views Nat.one_pos room
        rw [if_pos space, terminate_advance_eq _ room, ok_bind] at value
        rw [if_pos space]
        refine ⟨rfl, _, _, value, steps_to_trans second third, ?_⟩
        rw [← ahead]
        exact string_of_scan nameEnd more Nat.one_pos
      · have stops : nameEnd (c :: rest) = true := by
          rw [← found]
          exact drop_until_stops nameEnd reader.rest (by rw [found]; exact List.cons_ne_nil _ _)
        rw [if_neg space] at value
        rw [if_neg space]
        cases ends : tagEnd (c :: rest) with
        | none =>
            rw [nameEnd, tag_end_none_iff.mp ends, Bool.or_false] at stops
            exact absurd stops space
        | some closed =>
            rcases closed with ⟨ret, rest'⟩
            rw [show c :: rest = (parse.moved (takeUntil nameEnd parse.here).length).here from
              second.views.rest] at ends
            rcases close_tag_some ends with ⟨count, positive, within, rfl, done⟩
            have third := steps_to_cut second.views positive within
            rw [done, ok_bind] at value
            rw [← second.views.rest]
            refine ⟨rfl, _, _, value, steps_to_trans second third, ?_⟩
            rw [← ahead]
            exact string_of_scan nameEnd more positive

theorem attr_value_reads (views : Views parse reader attrs) (name : List Byte) :
    ValueFound parse reader attrs name (readValue name reader.rest) := by
  by_cases quoted : startsWith [34] reader.rest = true
  · exact quoted_value_reads views name quoted
  · exact bare_value_reads views name quoted

def RoundFound (parse : Parser) (reader : Reader) (attrs : List (List Byte × List Byte))
    (outcome : Except Fault (Parser × AttrFound)) : AttrStep → Prop
  | .failed => outcome = .error .failed
  | .closed ret rest => ∃ after, outcome = .ok (after, .closed ret) ∧
      StepsTo parse reader attrs rest after
  | .attr name value ret rest => ∃ after namePtr valuePtr,
      outcome = .ok (after, .attr namePtr valuePtr ret) ∧
        StepsTo parse reader attrs rest after ∧
        StringBefore after.buffer after.ptr namePtr name ∧
        StringBefore after.buffer after.ptr valuePtr value

theorem round_found_behind {middle : Parser} {rest : List Byte} {step : AttrStep}
    {outcome : Except Fault (Parser × AttrFound)}
    (first : StepsTo parse reader attrs rest middle)
    (found : RoundFound middle { reader with rest := rest } attrs outcome step) :
    RoundFound parse reader attrs outcome step := by
  cases step with
  | failed => exact found
  | closed ret rest' =>
      rcases found with ⟨after, done, steps⟩
      exact ⟨after, done, steps_to_trans first steps⟩
  | attr name value ret rest' =>
      rcases found with ⟨after, namePtr, valuePtr, done, steps, strings⟩
      exact ⟨after, namePtr, valuePtr, done, steps_to_trans first steps, strings⟩

theorem closed_round_found (views : Views parse reader attrs) {ret : TagEnd} {rest : List Byte}
    (ends : tagEnd reader.rest = some (ret, rest))
    {next : Parser → Except Fault (Parser × AttrFound)} :
    RoundFound parse reader attrs
      (do
        match ← closeTag parse with
        | (parse, some ret) => .ok (parse, .closed ret)
        | (parse, none) => next parse)
      (.closed ret rest) := by
  have ahead : parse.here = reader.rest := views.rest.symm
  rw [← ahead] at ends
  rcases close_tag_some ends with ⟨count, positive, within, rfl, done⟩
  rw [done, ok_bind, ahead]
  exact ⟨_, rfl, steps_to_cut views positive within⟩

/-- What a round does behind the name. -/
def attrRest (namePtr : Nat) (parse : Parser) : Except Fault (Parser × AttrFound) := do
  match ← closeTag parse with
  | (parse, some ret) => .ok (parse, .closed ret)
  | (parse, none) => do
      let parse ← parse.terminate.advance 1
      let (parse, value, ret) ← attrValue parse
      .ok (parse, .attr namePtr value ret)

theorem attr_rest_reads {d : Byte} {rest name : List Byte} {namePtr : Nat}
    (views : Views parse { reader with rest := d :: rest } attrs)
    (named : StringBefore (parse.cut 1).buffer (parse.cut 1).ptr namePtr name) :
    RoundFound parse { reader with rest := d :: rest } attrs (attrRest namePtr parse)
      (match tagEnd (d :: rest) with
        | some (ret, rest) => .closed ret rest
        | none => readValue name rest) := by
  cases ends : tagEnd (d :: rest) with
  | some closed => exact closed_round_found views ends
  | none =>
      have room := one_more views rfl
      have cut := steps_to_cut views Nat.one_pos room
      have value := attr_value_reads cut.views name
      have ahead : parse.here = d :: rest := views.rest.symm
      rw [← ahead] at ends
      rw [attrRest, close_tag_none ends, ok_bind]
      simp only [List.drop_one, List.tail_cons] at cut value ⊢
      rw [terminate_advance_eq _ room, ok_bind]
      cases read : readValue name rest with
      | failed =>
          rw [read, ValueFound] at value
          rw [value]
          rfl
      | closed ret rest' =>
          rw [read] at value
          exact absurd value id
      | attr name' value' ret rest' =>
          rw [read] at value
          rcases value with ⟨rfl, after, pointer, done, steps, valued⟩
          rw [done]
          exact ⟨after, namePtr, pointer, rfl, steps_to_trans cut steps,
            steps.strings _ _ named, valued⟩

theorem parse_attr_round_reads (views : Views parse reader attrs) :
    RoundFound parse reader attrs (parseAttrRound parse) (readAttr reader.rest) := by
  have first := steps_to_spaces views
  rw [readAttr, parseAttrRound, skip_spaces_eq views, ok_bind, fail_at_end_eq first.views]
  simp only
  generalize parse.moved (takeUntil notSpace parse.here).length = spaced at first
  cases found : spacesOff reader.rest with
  | nil => rfl
  | cons c text =>
      rw [found] at first
      rw [if_neg (List.cons_ne_nil _ _), ok_bind]
      have ahead : spaced.here = c :: text := first.views.rest.symm
      simp only
      cases ends : tagEnd (c :: text) with
      | some closed => exact round_found_behind first (closed_round_found first.views ends)
      | none =>
          have second := steps_to_skip first.views attrNameEnd
          have skip := (views_skip first.views attrNameEnd).1
          rw [← ahead] at ends
          rw [close_tag_none ends, ok_bind]
          simp only
          rw [show (fun text => startsWith [61] text || isElemsEnd text) = attrNameEnd from rfl,
            skip, ok_bind, fail_at_end_eq second.views]
          simp only
          cases named : dropUntil attrNameEnd (c :: text) with
          | nil => rfl
          | cons d rest =>
              have more : dropUntil attrNameEnd spaced.here ≠ [] := by
                rw [ahead, named]
                exact List.cons_ne_nil _ _
              have string := @string_of_scan spaced attrNameEnd more 1 Nat.one_pos
              rw [named] at second
              rw [ahead] at string second
              rw [if_neg (List.cons_ne_nil _ _), ok_bind, ahead]
              exact round_found_behind first
                (round_found_behind second (attr_rest_reads second.views string))

@[simp] theorem attr_texts_length (attrs : List (List Byte × List Byte)) :
    (attrTexts attrs).length = 2 * attrs.length := by
  induction attrs with
  | nil => rfl
  | cons attr rest ih =>
      have split : attrTexts (attr :: rest) = attr.1 :: attr.2 :: attrTexts rest := rfl
      rw [split, List.length_cons, List.length_cons, ih, List.length_cons]
      omega

theorem attr_texts_concat (attrs : List (List Byte × List Byte)) (name value : List Byte) :
    attrTexts (attrs ++ [(name, value)]) = attrTexts attrs ++ [name] ++ [value] := by
  rw [attrTexts, List.flatMap_append, List.append_assoc]
  rfl

theorem row_before_put {buffer : List Byte} {limit pointer : Nat} {row : Nat → Option Nat}
    {texts : List (List Byte)} {text : List Byte} (before : RowBefore buffer limit row texts)
    (string : StringBefore buffer limit pointer text) :
    RowBefore buffer limit (Function.update row texts.length (some pointer))
      (texts ++ [text]) := by
  intro i
  have here := before i
  rcases Nat.lt_trichotomy i texts.length with within | same | beyond
  · rw [List.getElem?_append_left within, Function.update_of_ne (Nat.ne_of_lt within)]
    exact here
  · subst same
    rw [List.getElem?_concat_length, Function.update_self]
    exact ⟨pointer, rfl, string⟩
  · rw [List.getElem?_eq_none (by rw [List.length_append, List.length_singleton]; exact beyond),
      Function.update_of_ne (Nat.ne_of_gt beyond)]
    rw [List.getElem?_eq_none (Nat.le_of_lt beyond)] at here
    exact here

theorem views_put (views : Views parse reader attrs) {namePtr valuePtr : Nat}
    {name value : List Byte} (named : StringBefore parse.buffer parse.ptr namePtr name)
    (valued : StringBefore parse.buffer parse.ptr valuePtr value)
    (room : 2 * attrs.length < maxAttrNum) :
    ∃ first after, parse.putAttr (2 * attrs.length) namePtr = .ok first ∧
      first.putAttr (2 * attrs.length + 1) valuePtr = .ok after ∧
      Views after reader (attrs ++ [(name, value)]) ∧ after.eStack = parse.eStack := by
  have room' : 2 * attrs.length + 1 < maxAttrNum := by
    simp only [maxAttrNum] at room ⊢
    omega
  refine ⟨_, _, if_pos room, if_pos room', ?_, rfl⟩
  have put := row_before_put (row_before_put views.attr named) valued
  rw [List.length_append, attr_texts_length, List.length_singleton] at put
  refine ⟨views.inside, views.rest, views.index, views.names, ?_, views.nodes, views.shallow⟩
  rw [attr_texts_concat]
  exact put

def AttrsEntered (parse : Parser) (reader : Reader) (attrs : List (List Byte × List Byte))
    (outcome : Except Fault (Parser × TagEnd))
    (read : List (List Byte × List Byte) × Option (TagEnd × List Byte)) : Prop :=
  if 2 * (attrs.length + read.1.length) ≤ maxAttrNum then
    match read.2 with
    | none => outcome = .error .failed
    | some (ret, rest) => ∃ after, outcome = .ok (after, ret) ∧
        Views after { reader with rest := rest } (attrs ++ read.1) ∧
        after.eStack = parse.eStack
  else outcome = .error .outOfBounds

theorem attrs_entered_failed {outcome : Except Fault (Parser × TagEnd)}
    (room : 2 * attrs.length ≤ maxAttrNum) (fails : outcome = .error .failed) :
    AttrsEntered parse reader attrs outcome ([], none) := by
  unfold AttrsEntered
  split
  · exact fails
  · rename_i full
    exact absurd room full

theorem attrs_entered_closed {outcome : Except Fault (Parser × TagEnd)} {after : Parser}
    {read : List (List Byte × List Byte)} {ret : TagEnd} {rest : List Byte}
    (room : 2 * (attrs.length + read.length) ≤ maxAttrNum) (done : outcome = .ok (after, ret))
    (views : Views after { reader with rest := rest } (attrs ++ read))
    (eStack : after.eStack = parse.eStack) :
    AttrsEntered parse reader attrs outcome (read, some (ret, rest)) := by
  unfold AttrsEntered
  split
  · exact ⟨after, done, views, eStack⟩
  · rename_i full
    exact absurd room full

theorem attrs_entered_more {outcome : Except Fault (Parser × TagEnd)} {after : Parser}
    {name value rest : List Byte}
    {read : List (List Byte × List Byte) × Option (TagEnd × List Byte)}
    (later : AttrsEntered after { reader with rest := rest } (attrs ++ [(name, value)]) outcome
      read) (eStack : after.eStack = parse.eStack) :
    AttrsEntered parse reader attrs outcome ((name, value) :: read.1, read.2) := by
  unfold AttrsEntered at later ⊢
  have count : (attrs ++ [(name, value)]).length + read.1.length =
      attrs.length + ((name, value) :: read.1).length := by
    rw [List.length_append, List.length_singleton, List.length_cons]
    omega
  rw [count] at later
  split
  · rename_i room
    rw [if_pos room] at later
    cases closed : read.2 with
    | none =>
        rw [closed] at later
        exact later
    | some ending =>
        rw [closed] at later
        rcases later with ⟨final, done, views, same⟩
        rw [List.append_assoc, List.singleton_append] at views
        exact ⟨final, done, views, same.trans eStack⟩
  · rename_i full
    rw [if_neg full] at later
    exact later

theorem stream_parse_attr_reads {rounds : Nat} (enough : reader.rest.length < rounds)
    (views : Views parse reader attrs) (room : 2 * attrs.length ≤ maxAttrNum) :
    AttrsEntered parse reader attrs (streamParseAttr rounds attrs.length parse)
      (readAttrs reader.rest) := by
  induction rounds generalizing parse reader attrs with
  | zero => exact absurd enough (Nat.not_lt_zero _)
  | succ fewer ih =>
      have round := parse_attr_round_reads views
      rw [streamParseAttr]
      cases step : readAttr reader.rest with
      | failed =>
          rw [step] at round
          rw [read_attrs_failed step, round]
          exact attrs_entered_failed room rfl
      | closed ret rest =>
          rw [step] at round
          rcases round with ⟨after, done, steps⟩
          have views' := steps.views
          rw [← List.append_nil attrs] at views'
          rw [read_attrs_closed step, done]
          exact attrs_entered_closed room rfl views' steps.eStack
      | attr name value ret rest =>
          rw [step] at round
          rcases round with ⟨after, namePtr, valuePtr, done, steps, named, valued⟩
          rw [done, ok_bind]
          simp only
          by_cases fits : 2 * attrs.length < maxAttrNum
          · rcases views_put steps.views named valued fits with
              ⟨first, put, entered, entered', views', eStack⟩
            have room' : 2 * (attrs.length + 1) ≤ maxAttrNum := by
              simp only [maxAttrNum] at fits ⊢
              omega
            rw [entered, ok_bind, entered', ok_bind]
            cases ret with
            | some ret =>
                rw [read_attrs_last step]
                exact attrs_entered_closed room' rfl views' (eStack.trans steps.eStack)
            | none =>
                have shorter := read_attr_shorter step
                have count : (attrs ++ [(name, value)]).length = attrs.length + 1 := by
                  rw [List.length_append, List.length_singleton]
                have later := ih (Nat.lt_of_lt_of_le shorter (Nat.le_of_lt_succ enough)) views'
                  (by rw [count]; exact room')
                rw [count] at later
                rw [read_attrs_more step]
                exact attrs_entered_more later (eStack.trans steps.eStack)
          · have positive : 0 < (readAttrs reader.rest).1.length := by
              cases ret with
              | some ret =>
                  rw [read_attrs_last step]
                  exact Nat.one_pos
              | none =>
                  rw [read_attrs_more step]
                  exact Nat.succ_pos _
            have full : ¬ 2 * (attrs.length + (readAttrs reader.rest).1.length) ≤ maxAttrNum := by
              omega
            rw [AttrsEntered, if_neg full, Parser.putAttr, if_neg fits]
            rfl

end Attributes

end Gk7102.Xml
