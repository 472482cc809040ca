import Gk7102.XmlInPlace

/-!
# The parser and the reader side by side

Function by function: the parser on its buffer and the reader on the text ahead fail
alike, overrun alike, or go on in states that show the same text, the same open
elements and the same tree. Two whole runs then end with the same tree.
-/

namespace Gk7102.Xml

open Gk7102.ByteBlocks
open Gk7102.TextScan

set_option autoImplicit false

section Elements

variable {parse : Parser} {reader : Reader} {attrs : List (List Byte × List Byte)}

/-- The parser and the reader fail alike, or end in states that are related. -/
inductive Alike {Left Right : Type} (related : Left → Right → Prop) :
    Except Fault Left → Except Fault Right → Prop
  | error (fault : Fault) : Alike related (.error fault) (.error fault)
  | ok {left : Left} {right : Right} (holds : related left right) :
      Alike related (.ok left) (.ok right)

theorem alike_bind {Left Right Left' Right' : Type} {related : Left → Right → Prop}
    {related' : Left' → Right' → Prop} {left : Except Fault Left} {right : Except Fault Right}
    {next : Left → Except Fault Left'} {next' : Right → Except Fault Right'}
    (alike : Alike related left right)
    (each : ∀ one other, related one other → Alike related' (next one) (next' other)) :
    Alike related' (left >>= next) (right >>= next') := by
  cases alike with
  | error fault => exact Alike.error fault
  | ok holds => exact each _ _ holds

theorem attr_texts_at (front back : List (List Byte × List Byte)) (name value : List Byte) :
    (attrTexts (front ++ (name, value) :: back))[2 * front.length]? = some name ∧
      (attrTexts (front ++ (name, value) :: back))[2 * front.length + 1]? = some value := by
  have split : attrTexts (front ++ (name, value) :: back) =
      attrTexts front ++ name :: value :: attrTexts back := by
    rw [attrTexts, List.flatMap_append]
    rfl
  rw [split, ← attr_texts_length]
  constructor
  · rw [List.getElem?_append_right (Nat.le_refl _), Nat.sub_self]
    rfl
  · rw [List.getElem?_append_right (Nat.le_add_right _ 1), Nat.add_sub_cancel_left]
    rfl

/-- The callback adds every attribute, but looks one entry too far when the row is full. -/
theorem attrs_loop_adds (views : Views parse reader attrs)
    (room : 2 * attrs.length ≤ maxAttrNum) {front back : List (List Byte × List Byte)}
    (split : attrs = front ++ back) {rounds : Nat} (enough : back.length < rounds)
    (nodes : List OpenNode) :
    attrsLoop parse rounds (2 * front.length) nodes =
      if 2 * attrs.length < maxAttrNum then .ok (addAttrs nodes back)
      else .error .outOfBounds := by
  induction back generalizing front rounds nodes with
  | nil =>
      cases rounds with
      | zero => exact absurd enough (Nat.not_lt_zero _)
      | succ fewer =>
          rw [List.append_nil] at split
          subst split
          rw [attrsLoop]
          by_cases full : 2 * attrs.length < maxAttrNum
          · have behind := views.attr (2 * attrs.length)
            rw [List.getElem?_eq_none (by rw [attr_texts_length])] at behind
            rw [if_neg (Nat.not_le.mpr full), if_pos full, behind]
            rfl
          · rw [if_pos (Nat.not_lt.mp full), if_neg full]
  | cons attr others ih =>
      cases rounds with
      | zero => exact absurd enough (Nat.not_lt_zero _)
      | succ fewer =>
          rcases attr with ⟨name, value⟩
          have count : attrs.length = front.length + (others.length + 1) := by
            rw [split, List.length_append, List.length_cons]
          have texts := attr_texts_at front others name value
          rw [← split] at texts
          have first := views.attr (2 * front.length)
          have second := views.attr (2 * front.length + 1)
          rw [texts.1] at first
          rw [texts.2] at second
          rcases first with ⟨namePtr, nameAt, named⟩
          rcases second with ⟨valuePtr, valueAt, valued⟩
          have within : ¬ maxAttrNum ≤ 2 * front.length := by omega
          have within' : ¬ maxAttrNum ≤ 2 * front.length + 1 := by omega
          have split' : attrs = (front ++ [(name, value)]) ++ others := by
            rw [split, List.append_assoc]
            rfl
          have later := ih split' (Nat.lt_of_succ_lt_succ enough) (xmlAttrAdd nodes name value)
          rw [List.length_append, List.length_singleton] at later
          rw [attrsLoop, if_neg within, nameAt]
          simp only
          rw [if_neg within', valueAt]
          simp only [Parser.stringAt]
          rw [string_before_reads named, string_before_reads valued]
          exact later

theorem stream_start_element_adds (views : Views parse reader attrs)
    (room : 2 * attrs.length ≤ maxAttrNum) {pointer : Nat} {name : List Byte}
    (named : StringBefore parse.buffer parse.ptr pointer name) :
    streamStartElement parse pointer =
      if 2 * attrs.length < maxAttrNum then
        .ok { parse with nodes := addAttrs (xmlNodeAddNew reader.nodes name) attrs }
      else .error .outOfBounds := by
  have short : attrs.length < maxAttrNum + 1 := by omega
  have added := @attrs_loop_adds _ _ _ views room [] attrs rfl _ short
    (xmlNodeAddNew parse.nodes (parse.stringAt pointer))
  rw [streamStartElement]
  rw [show 2 * ([] : List (List Byte × List Byte)).length = 0 from rfl] at added
  rw [added, Parser.stringAt, string_before_reads named, ← views.nodes]
  split <;> rfl

def Parser.pushed (parse : Parser) (pointer : Nat) : Parser := { parse with
  eStackIndex := parse.eStackIndex + 1,
  eStack := Function.update parse.eStack (parse.eStackIndex + 1) (some pointer) }

theorem names_before_update {buffer : List Byte} {limit k : Nat} {eStack : Nat → Option Nat}
    {names : List (List Byte)} (before : NamesBefore buffer limit eStack names)
    (above : names.length < k) (entry : Option Nat) :
    NamesBefore buffer limit (Function.update eStack k entry) names := by
  induction names with
  | nil =>
      have different : 0 ≠ k := Nat.ne_of_lt above
      show Function.update eStack k entry 0 = none
      rw [Function.update_of_ne different]
      exact before
  | cons name outer ih =>
      rcases before with ⟨⟨pointer, points, string⟩, others⟩
      rw [List.length_cons] at above
      refine ⟨⟨pointer, ?_, string⟩, ih others (Nat.lt_of_succ_lt above)⟩
      rw [Function.update_of_ne (Nat.ne_of_lt above)]
      exact points

theorem views_pushed (views : Views parse reader attrs) {pointer : Nat} {name : List Byte}
    (named : StringBefore parse.buffer parse.ptr pointer name)
    (room : reader.names.length + 1 < maxStackDepth) :
    Views (parse.pushed pointer) { reader with names := name :: reader.names } attrs where
  inside := views.inside
  rest := views.rest
  index := congrArg Nat.succ views.index
  names := by
    refine ⟨⟨pointer, ?_, named⟩, ?_⟩
    · rw [Parser.pushed, views.index]
      exact Function.update_self _ _ _
    · apply names_before_update views.names
      rw [views.index]
      exact Nat.lt_succ_self _
  attr := views.attr
  nodes := views.nodes
  shallow := room

theorem views_ended {name : List Byte} {outer : List (List Byte)}
    (views : Views parse reader attrs) (open_ : reader.names = name :: outer) :
    ∃ after, parse.endElement.popName = .ok after ∧
      Views after ⟨reader.rest, outer, streamEndElement reader.nodes⟩ attrs := by
  have index := views.index
  rw [open_, List.length_cons] at index
  have names := views.names
  rw [open_] at names
  have shallow := views.shallow
  rw [open_, List.length_cons] at shallow
  have allowed : ¬ (parse.endElement.eStackIndex = 0 ∨
      maxStackDepth ≤ parse.endElement.eStackIndex - 1) := by
    show ¬ (parse.eStackIndex = 0 ∨ maxStackDepth ≤ parse.eStackIndex - 1)
    omega
  refine ⟨_, if_neg allowed, ?_⟩
  refine ⟨views.inside, views.rest, ?_, ?_, views.attr, ?_, Nat.lt_of_succ_lt shallow⟩
  · show parse.eStackIndex - 1 = outer.length
    omega
  · apply names_before_update names.2
    show outer.length < parse.eStackIndex
    omega
  · rw [views.nodes]
    rfl

theorem views_nodes (views : Views parse reader attrs) (nodes : List OpenNode) :
    Views { parse with nodes := nodes } { reader with nodes := nodes } attrs :=
  ⟨views.inside, views.rest, views.index, views.names, views.attr, rfl, views.shallow⟩

theorem views_cleared (views : Views parse reader attrs) :
    Views { parse with attr := fun _ => none } reader [] :=
  ⟨views.inside, views.rest, views.index, views.names, fun _ => rfl, views.nodes, views.shallow⟩

theorem push_name_eq (views : Views parse reader attrs) (pointer : Nat) :
    parse.pushName pointer =
      if maxStackDepth ≤ reader.names.length + 1 then .error .outOfBounds
      else .ok (parse.pushed pointer) := by
  rw [Parser.pushName, views.index]
  by_cases deep : maxStackDepth ≤ reader.names.length + 1
  · rw [if_pos deep, if_neg (Nat.not_lt.mpr deep)]
  · rw [if_neg deep, if_pos (Nat.not_le.mp deep), Parser.pushed, views.index]

/-- What is related when a start tag has been read: the states, and how the tag ended. -/
def TagRelated (after : Parser × TagEnd) (read : Reader × TagEnd) : Prop :=
  Views after.1 read.1 [] ∧ after.2 = read.2

theorem ended_at_once {rest name : List Byte}
    (views : Views parse ⟨rest, name :: reader.names,
      addAttrs (xmlNodeAddNew reader.nodes name) attrs⟩ []) :
    Alike TagRelated (parse.endElement.popName >>= fun parse => .ok (parse, .eleeEnd))
      (.ok (reader.start name attrs .eleeEnd rest, .eleeEnd)) := by
  rcases views_ended views rfl with ⟨after, done, views'⟩
  rw [done]
  exact Alike.ok ⟨views', rfl⟩

theorem bare_start_tag_alike {rest name : List Byte} {ret : TagEnd} {pointer : Nat}
    (views : Views parse ⟨rest, name :: reader.names, reader.nodes⟩ [])
    (named : StringBefore parse.buffer parse.ptr pointer name) :
    Alike TagRelated
      (do
        let parse ← streamStartElement parse pointer
        match ret with
        | .elesEnd => .ok (parse, .elesEnd)
        | .eleeEnd => do
            let parse ← parse.endElement.popName
            .ok (parse, .eleeEnd))
      (.ok (reader.start name [] ret rest, ret)) := by
  have added := stream_start_element_adds views (Nat.zero_le _) named
  have started := views_nodes views (addAttrs (xmlNodeAddNew reader.nodes name) [])
  rw [if_pos (show 2 * ([] : List (List Byte × List Byte)).length < maxAttrNum by decide)] at added
  rw [added, ok_bind]
  cases ret with
  | elesEnd => exact Alike.ok ⟨started, rfl⟩
  | eleeEnd => exact ended_at_once started

theorem read_start_tag_alike {name : List Byte} {pointer : Nat}
    {outcome : Except Fault (Parser × TagEnd)}
    {read : List (List Byte × List Byte) × Option (TagEnd × List Byte)} {text : List Byte}
    (entered : AttrsEntered parse ⟨text, name :: reader.names, reader.nodes⟩ [] outcome read)
    (pushed : parse.eStack (reader.names.length + 1) = some pointer) :
    Alike TagRelated
      (do
        let (parse, ret) ← outcome
        let parse ← streamStartElement parse pointer
        let parse := { parse with attr := fun _ => none }
        match ret with
        | .elesEnd => .ok (parse, .elesEnd)
        | .eleeEnd => do
            let parse ← parse.endElement.popName
            .ok (parse, .eleeEnd))
      (if attrsFit read.1 read.2.isSome then
        match read.2 with
        | none => .error .failed
        | some (ret, rest) => .ok (reader.start name read.1 ret rest, ret)
      else .error .outOfBounds) := by
  rcases read with ⟨attrs, closed⟩
  simp only [AttrsEntered, List.length_nil, Nat.zero_add, List.nil_append] at entered
  simp only
  by_cases fits : 2 * attrs.length ≤ maxAttrNum
  · rw [if_pos fits] at entered
    cases closed with
    | none =>
        have fits' : attrsFit attrs false := ⟨fits, fun impossible => by cases impossible⟩
        simp only [Option.isSome_none] at entered ⊢
        rw [entered, if_pos fits']
        exact Alike.error _
    | some ending =>
        rcases ending with ⟨ret, rest⟩
        simp only [Option.isSome_some] at entered ⊢
        rcases entered with ⟨after, done, views, eStack⟩
        have named : StringBefore after.buffer after.ptr pointer name := by
          rcases views.names.1 with ⟨top, points, string⟩
          rw [eStack, pushed] at points
          rw [Option.some.inj points]
          exact string
        rw [done, ok_bind]
        simp only
        rw [stream_start_element_adds views fits named]
        by_cases roomy : 2 * attrs.length < maxAttrNum
        · have fits' : attrsFit attrs true := ⟨fits, fun _ => roomy⟩
          have started := views_cleared
            (views_nodes views (addAttrs (xmlNodeAddNew reader.nodes name) attrs))
          rw [if_pos roomy, if_pos fits', ok_bind]
          cases ret with
          | elesEnd => exact Alike.ok ⟨started, rfl⟩
          | eleeEnd => exact ended_at_once started
        · have overfull : ¬ attrsFit attrs true := fun fit => roomy (fit.2 rfl)
          rw [if_neg roomy, if_neg overfull]
          exact Alike.error _
  · have overfull : ¬ attrsFit attrs closed.isSome := fun fit => fits fit.1
    rw [if_neg fits] at entered
    rw [entered, if_neg overfull]
    exact Alike.error _

theorem start_tag_rest_alike (views : Views parse reader []) (more : reader.rest ≠ [])
    {pointer : Nat} {name : List Byte} (shallow : reader.names.length + 1 < maxStackDepth)
    (named : ∀ count, 0 < count →
      StringBefore (parse.cut count).buffer (parse.cut count).ptr pointer name) :
    Alike TagRelated (startTagRest pointer (parse.pushed pointer)) (readStartTag reader name) := by
  have ahead : (parse.pushed pointer).here = reader.rest := views.rest.symm
  rw [startTagRest, readStartTag, readTagRest]
  cases ends : tagEnd reader.rest with
  | some closed =>
      rcases closed with ⟨ret, rest⟩
      have fits : attrsFit [] true := by decide
      rw [← ahead] at ends
      rcases close_tag_some ends with ⟨count, positive, within, rest_eq, done⟩
      have cut : Views ((parse.pushed pointer).cut count)
          ⟨rest, name :: reader.names, reader.nodes⟩ [] := by
        rw [rest_eq, ahead]
        exact views_pushed (views_cut views positive within) (named count positive) shallow
      have alike := @bare_start_tag_alike _ reader _ _ ret _ cut (named count positive)
      rw [done, ok_bind]
      simp only [Option.isSome_some]
      rw [if_pos fits]
      cases ret with
      | elesEnd => exact alike
      | eleeEnd => exact alike
  | none =>
      have room : parse.ptr + 1 ≤ parse.buffer.length := by
        have size := here_length parse
        have positive := List.length_pos_iff.mpr more
        rw [views.rest] at positive
        omega
      have cut : Views ((parse.pushed pointer).cut 1)
          ⟨reader.rest.drop 1, name :: reader.names, reader.nodes⟩ [] :=
        views_pushed (views_cut views Nat.one_pos room) (named 1 Nat.one_pos) shallow
      have enough : (reader.rest.drop 1).length <
          ((parse.pushed pointer).cut 1).buffer.length + 1 := by
        have size := here_length ((parse.pushed pointer).cut 1)
        rw [← cut.rest] at size
        simp only at size
        omega
      have pushed : ((parse.pushed pointer).cut 1).eStack (reader.names.length + 1) =
          some pointer := by
        rw [← views.index]
        exact Function.update_self _ _ _
      rw [← ahead] at ends
      rw [close_tag_none ends, ok_bind]
      simp only
      rw [terminate_advance_eq (parse.pushed pointer) room, ok_bind]
      exact read_start_tag_alike (stream_parse_attr_reads enough cut (Nat.zero_le _)) pushed

theorem scan_name_reads (views : Views parse reader attrs) (stop : List Byte → Bool) :
    match readName stop reader.rest with
    | none => parse.scanName stop = .error .failed
    | some (name, text) => ∃ after pointer, parse.scanName stop = .ok (after, pointer) ∧
        StepsTo parse reader attrs text after ∧ text ≠ [] ∧
        ∀ count, 0 < count →
          StringBefore (after.cut count).buffer (after.cut count).ptr pointer name := by
  have first := steps_to_spaces views
  rw [Parser.scanName, readName, skip_spaces_eq views, ok_bind, fail_at_end_eq first.views]
  simp only
  generalize parse.moved (takeUntil notSpace parse.here).length = spaced at first
  cases found : spacesOff reader.rest with
  | nil => rfl
  | cons c text =>
      rw [found] at first
      rw [if_neg (List.cons_ne_nil _ _), ok_bind]
      have ahead : spaced.here = c :: text := first.views.rest.symm
      have second := steps_to_skip first.views stop
      have skip := (views_skip first.views stop).1
      rw [skip, ok_bind, fail_at_end_eq second.views]
      simp only
      cases scannedTo : dropUntil stop (c :: text) with
      | nil => rfl
      | cons d rest =>
          have more : dropUntil stop spaced.here ≠ [] := by
            rw [ahead, scannedTo]
            exact List.cons_ne_nil _ _
          have string := fun count => @string_of_scan spaced stop more count
          rw [scannedTo] at second
          rw [ahead] at string second
          rw [if_neg (List.cons_ne_nil _ _), ok_bind, ahead]
          exact ⟨_, _, rfl, steps_to_trans first second, List.cons_ne_nil _ _, string⟩

theorem stream_parse_element_start_alike (views : Views parse reader []) :
    Alike TagRelated (streamParseElementStart parse) (readElementStart reader) := by
  have scan := scan_name_reads views nameEnd
  rw [streamParseElementStart, readElementStart,
    show (fun text => atSpace text || isElemsEnd text) = nameEnd from rfl]
  cases read : readName nameEnd reader.rest with
  | none =>
      rw [read] at scan
      rw [scan]
      exact Alike.error _
  | some named =>
      rcases named with ⟨name, text⟩
      rw [read] at scan
      rcases scan with ⟨after, pointer, done, steps, more, string⟩
      rw [done, ok_bind]
      simp only
      rw [push_name_eq steps.views]
      by_cases deep : maxStackDepth ≤ reader.names.length + 1
      · rw [if_pos deep, if_pos deep]
        exact Alike.error _
      · rw [if_neg deep, if_neg deep, ok_bind]
        exact start_tag_rest_alike steps.views more (Nat.not_le.mp deep) string

/-- The states when no attribute is on its way. -/
def Related (parse : Parser) (reader : Reader) : Prop := Views parse reader []

theorem end_tag_rest_alike {behind stackName endName : List Byte} {outer : List (List Byte)}
    {nodes : List OpenNode} (views : Views parse ⟨behind, stackName :: outer, nodes⟩ [])
    {endPtr stackPtr : Nat} (ended : ∀ count, 0 < count →
      StringBefore (parse.cut count).buffer (parse.cut count).ptr endPtr endName)
    (stacked : StringBefore parse.buffer parse.ptr stackPtr stackName) :
    Alike Related (endTagRest endPtr stackPtr parse)
      (match (if startsWith [62] behind && strcasecmpEq endName stackName
          then some (behind.drop 1) else none) with
        | none => .error .failed
        | some rest => .ok ⟨rest, outer, streamEndElement nodes⟩) := by
  have ahead : parse.here = behind := views.rest.symm
  rw [endTagRest, ahead]
  by_cases closes : startsWith [62] behind = true
  · have long := starts_with_length closes
    have size := here_length parse
    rw [ahead] at size
    rw [List.length_singleton] at long
    have room : parse.ptr + 1 ≤ parse.buffer.length := by omega
    have cut := views_cut views Nat.one_pos room
    have names : (parse.cut 1).stringAt endPtr = endName :=
      string_before_reads (ended 1 Nat.one_pos)
    have stack : (parse.cut 1).stringAt stackPtr = stackName :=
      string_before_reads (string_cut stacked 1)
    rw [if_pos closes, terminate_advance_eq parse room, ok_bind, names, stack, closes,
      Bool.true_and]
    by_cases same : strcasecmpEq endName stackName = true
    · rcases views_ended cut rfl with ⟨after, done, views'⟩
      rw [if_pos same, if_pos same, done]
      exact Alike.ok views'
    · rw [if_neg same, if_neg same]
      exact Alike.error _
  · have notCloses : startsWith [62] behind = false := Bool.not_eq_true _ ▸ closes
    rw [if_neg closes, notCloses, Bool.false_and]
    exact Alike.error _

theorem stream_parse_element_end_alike (views : Views parse reader []) :
    Alike Related (streamParseElementEnd parse) (readElementEnd reader) := by
  rw [streamParseElementEnd, readElementEnd, views.index]
  cases stack : reader.names with
  | nil =>
      have bottom := views.names
      rw [stack] at bottom
      have bottom' : parse.eStack 0 = none := bottom
      rw [List.length_nil, bottom']
      exact Alike.error _
  | cons stackName outer =>
      have names := views.names
      rw [stack] at names
      rcases names.1 with ⟨stackPtr, points, stacked⟩
      have scan := scan_name_reads views endNameEnd
      rw [List.length_cons, points]
      simp only
      rw [show (fun text => atSpace text || startsWith [62] text) = endNameEnd from rfl, readEndTag]
      cases read : readName endNameEnd reader.rest with
      | none =>
          rw [read] at scan
          rw [scan]
          exact Alike.error _
      | some named =>
          rcases named with ⟨endName, text⟩
          rw [read] at scan
          rcases scan with ⟨after, pointer, done, steps, more, string⟩
          have outer' : reader.names = stackName :: outer := stack
          have views' := steps.views
          have stacked' := steps.strings _ _ stacked
          rw [done, ok_bind]
          simp only
          rw [← views'.rest]
          simp only
          by_cases space : atSpace text = true
          · have room : after.ptr + 1 ≤ after.buffer.length := by
              rcases List.exists_cons_of_ne_nil more with ⟨c, rest, rfl⟩
              exact one_more views' rfl
            have cut := steps_to_cut views' Nat.one_pos room
            have spaced := steps_to_spaces cut.views
            have ended := string_moved (string 1 Nat.one_pos)
              (takeUntil notSpace (after.cut 1).here).length
            have stacked'' := spaced.strings _ _ (cut.strings _ _ stacked')
            rw [if_pos space, if_pos space, terminate_advance_eq _ room, ok_bind,
              skip_spaces_eq cut.views, ok_bind, fail_at_end_eq spaced.views]
            simp only at spaced ⊢
            by_cases nothing : spacesOff (text.drop 1) = []
            · rw [if_pos nothing, nothing]
              exact Alike.error _
            · rw [outer'] at spaced
              rw [if_neg nothing, ok_bind]
              exact end_tag_rest_alike spaced.views (fun count _ => string_cut ended count)
                stacked''
          · rw [outer'] at views'
            rw [if_neg space, if_neg space]
            exact end_tag_rest_alike views' string stacked'

theorem room_of_mark {mark : List Byte} (views : Views parse reader attrs)
    (starts : startsWith mark reader.rest = true) :
    parse.ptr + mark.length ≤ parse.buffer.length := by
  have long := starts_with_length starts
  have size := here_length parse
  have inside := views.inside
  rw [← views.rest] at size
  omega

theorem char_data_views (views : Views parse reader attrs) (text : List Byte) :
    Views (parse.charData text)
      { reader with nodes := streamCharData text reader.nodes } attrs := by
  have filled := views_nodes views (streamCharData text reader.nodes)
  rw [Parser.charData, ← views.nodes]
  exact filled

theorem parse_char_data_alike (views : Views parse reader []) :
    Alike Related (parseCharData parse) (readCharData reader) := by
  have ahead : parse.here = reader.rest := views.rest.symm
  have scanned := steps_to_skip views (startsWith [60])
  rw [parseCharData, readCharData, (views_skip views (startsWith [60])).1, ok_bind,
    fail_at_end_eq scanned.views, ahead]
  rw [ahead] at scanned
  simp only
  cases found : dropUntil (startsWith [60]) reader.rest with
  | nil => exact Alike.error _
  | cons c rest =>
      have more : dropUntil (startsWith [60]) parse.here ≠ [] := by
        rw [ahead, found]
        exact List.cons_ne_nil _ _
      have string := @string_of_scan parse (startsWith [60]) more 1 Nat.one_pos
      rw [ahead] at string
      rw [found] at scanned
      rw [if_neg (List.cons_ne_nil _ _), ok_bind]
      generalize parse.moved (takeUntil (startsWith [60]) reader.rest).length = middle
        at scanned string
      have room := one_more scanned.views rfl
      have cut : Views (middle.cut 1) { reader with rest := rest } [] :=
        views_cut scanned.views Nat.one_pos room
      have data : (middle.cut 1).stringAt parse.ptr =
          cString (takeUntil (startsWith [60]) reader.rest) := string_before_reads string
      have texted := char_data_views cut (cString (takeUntil (startsWith [60]) reader.rest))
      rw [terminate_advance_eq _ room, ok_bind, data]
      simp only
      generalize (middle.cut 1).charData (cString (takeUntil (startsWith [60]) reader.rest)) =
        filled at texted
      have ahead' : filled.here = rest := texted.rest.symm
      rw [ahead']
      by_cases slash : startsWith [47] rest = true
      · have room' : filled.ptr + 1 ≤ filled.buffer.length := room_of_mark texted slash
        rw [if_pos slash, if_pos slash, advance_eq _ room', ok_bind]
        exact stream_parse_element_end_alike (views_moved texted room')
      · rw [if_neg slash, if_neg slash]
        exact Alike.error _

end Elements

section Passes

variable {parse : Parser} {reader : Reader}

inductive PassRelated : Pass → ReadPass → Prop
  | again {parse : Parser} {reader : Reader} (views : Views parse reader []) :
      PassRelated (.again parse) (.again reader)
  | finished {parse : Parser} {reader : Reader} (views : Views parse reader []) :
      PassRelated (.finished parse) (.finished reader)

theorem bottom_iff (views : Views parse reader []) : parse.eStackIndex = 0 ↔ reader.names = [] := by
  rw [views.index]
  exact List.length_eq_zero_iff

theorem finish_at_bottom_alike (views : Views parse reader []) :
    Alike PassRelated (finishAtBottom parse) reader.finishAtBottom := by
  rw [finishAtBottom, Reader.finishAtBottom]
  by_cases bottom : reader.names = []
  · rw [if_pos bottom, if_pos ((bottom_iff views).mpr bottom)]
    exact Alike.ok (PassRelated.finished views)
  · rw [if_neg bottom, if_neg (fun zero => bottom ((bottom_iff views).mp zero))]
    exact Alike.error _

theorem finish_or_again_related (views : Views parse reader []) :
    PassRelated (finishOrAgain parse) reader.finishOrAgain := by
  rw [finishOrAgain, Reader.finishOrAgain]
  by_cases bottom : reader.names = []
  · rw [if_pos bottom, if_pos ((bottom_iff views).mpr bottom)]
    exact PassRelated.finished views
  · rw [if_neg bottom, if_neg (fun zero => bottom ((bottom_iff views).mp zero))]
    exact PassRelated.again views

theorem at_end_iff (views : Views parse reader []) : parse.atEnd = true ↔ reader.rest = [] := by
  have size := here_length parse
  have inside := views.inside
  rw [views.rest, Parser.atEnd, beq_iff_eq, ← List.length_eq_zero_iff, size]
  omega

theorem parse_content_alike (views : Views parse reader []) :
    Alike PassRelated (parseContent parse) (readContent reader) := by
  have spaced := (steps_to_spaces views).views
  rw [parseContent, readContent, skip_spaces_eq views, ok_bind, fail_at_end_eq spaced]
  have ahead := spaced.rest
  simp only at ahead ⊢
  cases found : spacesOff reader.rest with
  | nil => exact Alike.error _
  | cons c text =>
      rw [found] at spaced ahead
      rw [if_neg (List.cons_ne_nil _ _), ok_bind, ← ahead]
      simp only
      by_cases markup : startsWith [60] (c :: text) = true
      · rw [if_pos markup, if_pos markup]
        exact Alike.ok (PassRelated.again spaced)
      · rw [if_neg markup, if_neg markup]
        apply alike_bind (parse_char_data_alike spaced)
        intro after read views'
        exact Alike.ok (PassRelated.again views')

theorem parse_closing_alike (views : Views parse reader []) :
    Alike PassRelated (parseClosing parse) (readClosing reader) := by
  have spaced := (steps_to_spaces views).views
  have atEnd := at_end_iff spaced
  rw [parseClosing, readClosing, skip_spaces_eq views, ok_bind]
  simp only at atEnd ⊢
  cases found : spacesOff reader.rest with
  | nil =>
      rw [found] at spaced atEnd
      rw [if_pos (atEnd.mpr rfl)]
      exact finish_at_bottom_alike spaced
  | cons c text =>
      rw [found] at spaced atEnd
      rw [if_neg (fun ended => List.cons_ne_nil _ _ (atEnd.mp ended))]
      apply alike_bind (stream_parse_element_end_alike spaced)
      intro after read views'
      exact Alike.ok (finish_or_again_related views')

theorem parse_opening_alike (views : Views parse reader []) :
    Alike PassRelated (parseOpening parse) (readOpening reader) := by
  have spaced := (steps_to_spaces views).views
  have atEnd := at_end_iff spaced
  rw [parseOpening, readOpening, skip_spaces_eq views, ok_bind]
  simp only at atEnd ⊢
  cases found : spacesOff reader.rest with
  | nil =>
      rw [found] at spaced atEnd
      rw [if_pos (atEnd.mpr rfl)]
      exact finish_at_bottom_alike spaced
  | cons c text =>
      rw [found] at spaced atEnd
      rw [if_neg (fun ended => List.cons_ne_nil _ _ (atEnd.mp ended))]
      apply alike_bind (stream_parse_element_start_alike spaced)
      rintro ⟨after, ret⟩ ⟨read, ret'⟩ ⟨views', same⟩
      have same' : ret = ret' := same
      subst same'
      cases ret with
      | elesEnd => exact parse_content_alike views'
      | eleeEnd => exact Alike.ok (finish_or_again_related views')

theorem comment_loop_arrives {buffer : List Byte} {ptr rounds : Nat}
    (inside : ptr ≤ buffer.length) (enough : buffer.length - ptr < rounds) :
    commentLoop buffer rounds ptr =
      if dropUntil isXmlCommentEnd (buffer.drop ptr) = [] then none
      else some (ptr + (takeUntil isXmlCommentEnd (buffer.drop ptr)).length) := by
  induction rounds generalizing ptr with
  | zero => exact absurd enough (Nat.not_lt_zero _)
  | succ fewer ih =>
      rw [commentLoop]
      by_cases atEnd : ptr = buffer.length
      · have nothing : buffer.drop ptr = [] := List.drop_of_length_le (by omega)
        rw [nothing, if_neg (by decide), if_pos atEnd]
        rfl
      · have within : ptr < buffer.length := by omega
        have later := @ih (ptr + 1) (by omega) (by omega)
        have split := List.drop_eq_getElem_cons within
        by_cases closes : isXmlCommentEnd (buffer.drop ptr) = true
        · have more : dropUntil isXmlCommentEnd (buffer.drop ptr) ≠ [] := by
            rw [drop_until_here closes, split]
            exact List.cons_ne_nil _ _
          rw [if_pos closes, if_neg more, take_until_here closes]
          rfl
        · have dropped : dropUntil isXmlCommentEnd (buffer.drop ptr) =
              dropUntil isXmlCommentEnd (buffer.drop (ptr + 1)) := by
            rw [split, dropUntil, if_neg (by rw [← split]; exact closes)]
          have taken : (takeUntil isXmlCommentEnd (buffer.drop ptr)).length =
              (takeUntil isXmlCommentEnd (buffer.drop (ptr + 1))).length + 1 := by
            rw [split, takeUntil, if_neg (by rw [← split]; exact closes), List.length_cons]
          rw [if_neg closes, if_neg atEnd, later, dropped, taken, Nat.add_assoc, Nat.add_comm 1]

/-- A comment that is not closed takes the pointer past the end of the buffer. -/
theorem skip_comment_reads (views : Views parse reader []) :
    match commentOff reader.rest with
    | none => skipComment parse = .error .outOfBounds
    | some rest => ∃ after, skipComment parse = .ok after ∧
        Views after { reader with rest := rest } [] := by
  have ahead : parse.here = reader.rest := views.rest.symm
  rw [commentOff, skipComment, ahead]
  by_cases starts : isXmlCommentStart reader.rest = true
  · have room : parse.ptr + 4 ≤ parse.buffer.length := room_of_mark views starts
    have moved := views_moved views room
    have ahead' : (parse.moved 4).buffer.drop (parse.moved 4).ptr = reader.rest.drop 4 :=
      moved.rest.symm
    rw [if_pos starts, if_pos starts, advance_eq _ room, ok_bind,
      comment_loop_arrives moved.inside (by omega), ahead']
    cases found : dropUntil isXmlCommentEnd (reader.rest.drop 4) with
    | nil => rw [if_pos rfl]
    | cons c rest =>
        have scanned := (steps_to_skip moved isXmlCommentEnd).views
        have stops := drop_until_stops isXmlCommentEnd (reader.rest.drop 4) (by
          rw [found]
          exact List.cons_ne_nil _ _)
        simp only [found] at scanned
        rw [found] at stops
        rw [show (parse.moved 4).here = reader.rest.drop 4 from ahead'] at scanned
        have room' := room_of_mark scanned stops
        refine ⟨_, ?_, views_moved scanned room'⟩
        rw [if_neg (List.cons_ne_nil _ _)]
        exact advance_eq _ room'
  · rw [if_neg starts, if_neg starts]
    exact ⟨parse, rfl, views⟩

theorem stream_parse_pass_alike (views : Views parse reader []) :
    Alike PassRelated (streamParsePass parse) (readPass reader) := by
  have spaced := (steps_to_spaces views).views
  have atEnd := at_end_iff spaced
  rw [streamParsePass, readPass, skip_spaces_eq views, ok_bind]
  simp only at atEnd ⊢
  cases found : spacesOff reader.rest with
  | nil =>
      rw [found] at spaced atEnd
      rw [if_pos (atEnd.mpr rfl)]
      exact finish_at_bottom_alike spaced
  | cons c text =>
      rw [found] at spaced atEnd
      rw [if_neg (fun ended => List.cons_ne_nil _ _ (atEnd.mp ended))]
      have comment := skip_comment_reads spaced
      simp only at comment ⊢
      cases off : commentOff (c :: text) with
      | none =>
          rw [off] at comment
          rw [comment]
          exact Alike.error _
      | some text' =>
          rw [off] at comment
          rcases comment with ⟨behind, done, views'⟩
          have spaced' := (steps_to_spaces views').views
          have atEnd' := at_end_iff spaced'
          rw [done, ok_bind]
          simp only
          rw [readMarkup, skip_spaces_eq views', ok_bind]
          simp only at atEnd' ⊢
          generalize behind.moved (takeUntil notSpace behind.here).length = ready
            at spaced' atEnd'
          cases found' : spacesOff text' with
          | nil =>
              rw [found'] at spaced' atEnd'
              rw [if_pos (atEnd'.mpr rfl)]
              exact finish_at_bottom_alike spaced'
          | cons d text'' =>
              rw [found'] at spaced' atEnd'
              have ahead : ready.here = d :: text'' := spaced'.rest.symm
              rw [if_neg (fun ended => List.cons_ne_nil _ _ (atEnd'.mp ended)), ahead]
              simp only
              by_cases closing : startsWith [60, 47] (d :: text'') = true
              · have room := room_of_mark spaced' closing
                rw [if_pos closing, if_pos closing]
                have moved := views_moved spaced' room
                rw [show ready.advance 2 = _ from advance_eq ready room, ok_bind]
                exact parse_closing_alike moved
              · rw [if_neg closing, if_neg closing]
                by_cases opening : startsWith [60] (d :: text'') = true
                · have room := room_of_mark spaced' opening
                  rw [if_pos opening, if_pos opening]
                  have moved := views_moved spaced' room
                  rw [show ready.advance 1 = _ from advance_eq ready room, ok_bind]
                  exact parse_opening_alike moved
                · rw [if_neg opening, if_neg opening]
                  exact Alike.error _

end Passes

section Runs

variable {parse : Parser} {reader : Reader}

theorem stream_parse_element_alike {rounds : Nat} (views : Views parse reader [])
    (enough : reader.rest.length < rounds) :
    Alike Related (streamParseElement rounds parse) (readElements reader) := by
  induction rounds generalizing parse reader with
  | zero => exact absurd enough (Nat.not_lt_zero _)
  | succ fewer ih =>
      have pass := stream_parse_pass_alike views
      rw [streamParseElement]
      cases read : readPass reader with
      | error fault =>
          rw [read] at pass
          rw [read_elements_error read]
          generalize streamParsePass parse = outcome at pass
          cases pass
          exact Alike.error fault
      | ok ending =>
          rw [read] at pass
          generalize streamParsePass parse = outcome at pass
          cases pass with
          | ok related =>
              cases related with
              | finished views' =>
                  rw [read_elements_finished read]
                  exact Alike.ok views'
              | again views' =>
                  rw [read_elements_again read]
                  exact ih views' (Nat.lt_of_lt_of_le (read_pass_shorter read)
                    (Nat.le_of_lt_succ enough))

theorem new_parser_views (xml : List Byte) : Views (newParser xml) ⟨xml, [], []⟩ [] where
  inside := Nat.zero_le _
  rest := rfl
  index := rfl
  names := rfl
  attr _ := rfl
  nodes := rfl
  shallow := Nat.succ_pos _

theorem stream_parse_header_reads (views : Views parse reader []) {c : Byte} {ahead : List Byte}
    (found : spacesOff reader.rest = c :: ahead) (starts : isXmlhStart (c :: ahead) = true) :
    match dropUntil isXmlhEnd ((c :: ahead).drop 2) with
    | [] => streamParseHeader parse = .error .failed
    | d :: rest => ∃ after, streamParseHeader parse = .ok after ∧
        Views after { reader with rest := (d :: rest).drop 2 } [] := by
  have spaced := (steps_to_spaces views).views
  rw [streamParseHeader, skip_spaces_eq views, ok_bind, fail_at_end_eq spaced]
  rw [found] at spaced
  simp only
  rw [if_neg (by rw [found]; exact List.cons_ne_nil _ _), ok_bind]
  generalize parse.moved (takeUntil notSpace parse.here).length = ready at spaced
  have here : ready.here = c :: ahead := spaced.rest.symm
  have room : ready.ptr + 2 ≤ ready.buffer.length := room_of_mark spaced starts
  have moved := views_moved spaced room
  have here' : (ready.moved 2).here = (c :: ahead).drop 2 := moved.rest.symm
  have scanned := (steps_to_skip moved isXmlhEnd).views
  rw [here, if_pos starts, advance_eq _ room, ok_bind, (views_skip moved isXmlhEnd).1, ok_bind,
    fail_at_end_eq scanned]
  rw [here'] at scanned ⊢
  simp only at scanned ⊢
  cases ended : dropUntil isXmlhEnd ((c :: ahead).drop 2) with
  | nil => rfl
  | cons d rest =>
      have stops := drop_until_stops isXmlhEnd ((c :: ahead).drop 2) (by
        rw [ended]
        exact List.cons_ne_nil _ _)
      rw [ended] at scanned stops
      rw [if_neg (List.cons_ne_nil _ _), ok_bind]
      have room' := room_of_mark scanned stops
      exact ⟨_, advance_eq _ room', views_moved scanned room'⟩

theorem stream_parse_alike (views : Views parse ⟨reader.rest, [], []⟩ []) :
    match headerOff reader.rest with
    | none => streamParse parse = .error .failed
    | some text => Alike Related (streamParse parse) (readElements ⟨text, [], []⟩) := by
  have spaced := (steps_to_spaces views).views
  rw [headerOff, streamParse, skip_spaces_eq views, ok_bind, fail_at_end_eq spaced]
  simp only at spaced ⊢
  cases found : spacesOff reader.rest with
  | nil => rfl
  | cons c ahead =>
      rw [found] at spaced
      have here : (parse.moved (takeUntil notSpace parse.here).length).here = c :: ahead :=
        spaced.rest.symm
      rw [if_neg (List.cons_ne_nil _ _), ok_bind, here]
      simp only
      by_cases starts : isXmlhStart (c :: ahead) = true
      · have header := stream_parse_header_reads views found starts
        rw [if_pos starts, if_pos starts]
        cases ended : dropUntil isXmlhEnd ((c :: ahead).drop 2) with
        | nil =>
            rw [ended] at header
            simp only at header ⊢
            rw [header]
            rfl
        | cons d rest =>
            rw [ended] at header
            rcases header with ⟨after, done, views'⟩
            simp only
            rw [done, ok_bind]
            apply stream_parse_element_alike views'
            have size := here_length after
            rw [← views'.rest] at size
            omega
      · rw [if_neg starts, if_neg starts, ok_bind]
        apply stream_parse_element_alike views
        have size := here_length parse
        rw [← views.rest] at size
        simp only at size ⊢
        omega

/-- What the parser makes of a buffer is what the reader makes of its text. -/
theorem xml_stream_parse_eq (xml : List Byte) : xmlStreamParse xml = readDocument xml := by
  have alike := @stream_parse_alike (newParser xml) ⟨xml, [], []⟩ (new_parser_views xml)
  rw [xmlStreamParse, readDocument]
  simp only at alike
  cases off : headerOff xml with
  | none =>
      rw [off] at alike
      simp only at alike ⊢
      rw [alike]
  | some text =>
      rw [off] at alike
      simp only at alike ⊢
      generalize streamParse (newParser xml) = outcome at alike
      generalize readElements ⟨text, [], []⟩ = outcome' at alike
      cases alike with
      | error fault => cases fault <;> rfl
      | ok related =>
          have nodes := related.nodes
          simp only [nodes]

end Runs

end Gk7102.Xml
