import Mathlib.Data.List.TakeWhile
import Gk7102.PercentCoding

/-!
# Escaping urls

`url_escape_string` keeps the reserved characters of a url and percent-codes what stands
between them, after decoding it. An address in brackets behind the scheme is copied as it
is. A string is the list of its bytes without the NUL that ends it.
-/

namespace Gk7102.UrlEscape

open ByteBlocks PercentCoding

set_option autoImplicit false

def byte (c : Char) : Byte := BitVec.ofNat 8 c.toNat

/-! ## The two directions on a part of a url -/

def toupper (c : Byte) : Byte := if byte 'a' ≤ c ∧ c ≤ byte 'z' then c - 32 else c

def isHex (c : Byte) : Bool :=
  (byte '0' ≤ c && c ≤ byte '9') || (byte 'A' ≤ c && c ≤ byte 'F')

def fromHex (c : Byte) : Byte :=
  if byte '0' ≤ c ∧ c ≤ byte '9' then c - byte '0' else c - (byte 'A' - 10)

/-- A `%` is looked at only when two characters follow it. -/
def urlUnescapeString : List Byte → List Byte
  | [] => []
  | [c] => [c]
  | [c, next] => [c, next]
  | c :: first :: second :: rest =>
      let c1 := toupper first
      let c2 := toupper second
      if c = byte '%' then
        if isHex c1 && isHex c2 then
          ((fromHex c1 <<< 4) + fromHex c2) :: urlUnescapeString rest
        else c :: urlUnescapeString (first :: second :: rest)
      else c :: urlUnescapeString (first :: second :: rest)

def isAlnum (c : Byte) : Bool :=
  (byte 'A' ≤ c && c ≤ byte 'Z') || (byte 'a' ≤ c && c ≤ byte 'z') ||
    (byte '0' ≤ c && c ≤ byte '9')

def toHex (c : Byte) : Byte := if c < 10 then c + byte '0' else c + (byte 'A' - 10)

def escapeByte (c : Byte) : List Byte :=
  if isAlnum c then [c] else [byte '%', toHex ((c &&& 0xf0) >>> 4), toHex (c &&& 0x0f)]

def urlEscapeStringPart (inbuf : List Byte) : List Byte := inbuf.flatMap escapeByte

/-! ## The whole url -/

def keptCharacters : String := "-_.!~*'();/?:@&=+$,"

def isKept (c : Byte) : Bool := (keptCharacters.toList.map byte).contains c

/-- A part between kept characters; the C string behind `unesc` ends at a decoded NUL. -/
def escapePiece (piece : List Byte) : List Byte :=
  urlEscapeStringPart (cString (urlUnescapeString piece))

/-- The loop over the url, with the part read since the last kept character. -/
def escapeLoop (piece : List Byte) : List Byte → List Byte
  | [] => escapePiece piece
  | c :: rest =>
      if isKept c then escapePiece piece ++ c :: escapeLoop [] rest
      else escapeLoop (piece ++ [c]) rest

/-- The string from the first place where the text stands. -/
def strstr (text : List Byte) : List Byte → Option (List Byte)
  | [] => if text.isEmpty then some [] else none
  | c :: rest => if text.isPrefixOf (c :: rest) then some (c :: rest) else strstr text rest

def strchr (c : Byte) : List Byte → Option (List Byte)
  | [] => none
  | first :: rest => if first = c then some (first :: rest) else strchr c rest

def schemeBracket : List Byte := [byte ':', byte '/', byte '/', byte '[']

/-- What may stand behind the closing bracket. -/
def behindBracket (after : List Byte) : Bool :=
  match after with
  | [] => true
  | c :: _ => c == byte '/' || c == byte ':'

/-- How many bytes are copied for an ip6 address in brackets. -/
def ip6Length (inbuf : List Byte) : Nat :=
  match strstr schemeBracket inbuf with
  | none => 0
  | some tmp =>
      match strchr (byte ']') (tmp.drop 4) with
      | none => 0
      | some tmp =>
          if behindBracket tmp.tail then inbuf.length - tmp.length + 1 else 0

def urlEscapeString (inbuf : List Byte) : List Byte :=
  let i := ip6Length inbuf
  inbuf.take i ++ escapeLoop [] (inbuf.drop i)

/-! ## The parts are percent-coded -/

theorem hex_value_of_upper (c : Byte) :
    hexValue c = if isHex (toupper c) then some ((fromHex (toupper c)).setWidth 4) else none := by
  revert c
  decide

theorem from_hex_small {c : Byte} (hex : isHex c = true) :
    ((fromHex c).setWidth 4).setWidth 8 = fromHex c := by
  revert c
  decide

theorem append_nibbles (high low : BitVec 4) :
    high ++ low = ((high.setWidth 8 <<< 4) + low.setWidth 8 : Byte) := by
  revert high low
  decide

theorem triple_value_of_upper (first second : Byte) :
    tripleValue first second =
      if isHex (toupper first) && isHex (toupper second) then
        some ((fromHex (toupper first) <<< 4) + fromHex (toupper second))
      else none := by
  rw [tripleValue, hex_value_of_upper, hex_value_of_upper]
  cases upper : isHex (toupper first) with
  | false => simp
  | true =>
      cases lower : isHex (toupper second) with
      | false => simp
      | true => simp [append_nibbles, from_hex_small upper, from_hex_small lower]

theorem percent_byte : byte '%' = percent := by decide

theorem url_unescape_decodes (inbuf : List Byte) : urlUnescapeString inbuf = decode inbuf := by
  induction inbuf using decode.induct with
  | case1 => rfl
  | case2 first => rfl
  | case3 first second => rfl
  | case4 second third rest value triple induction =>
      rw [decode_triple triple, urlUnescapeString]
      rw [triple_value_of_upper] at triple
      by_cases hex : (isHex (toupper second) && isHex (toupper third)) = true
      · rw [if_pos hex, Option.some.injEq] at triple
        simp only [percent_byte, if_true, if_pos hex, triple, induction]
      · rw [if_neg hex] at triple
        cases triple
  | case5 second third rest triple induction =>
      rw [decode_no_triple triple, urlUnescapeString]
      rw [triple_value_of_upper] at triple
      by_cases hex : (isHex (toupper second) && isHex (toupper third)) = true
      · rw [if_pos hex] at triple
        cases triple
      · simp only [percent_byte, if_true, if_neg hex, induction]
  | case6 first second third rest other induction =>
      rw [decode_plain other, urlUnescapeString]
      simp only [percent_byte, if_neg other, induction]

theorem escape_byte_encodes (c : Byte) : escapeByte c = encodeByte isAlnum c := by
  revert c
  decide

theorem url_escape_part_encodes (inbuf : List Byte) :
    urlEscapeStringPart inbuf = encode isAlnum inbuf := by
  rw [urlEscapeStringPart, encode]
  exact List.flatMap_congr fun c _ => escape_byte_encodes c

/-! ## The loop -/

/-- Bytes that the loop writes as they are, or that stand in a triple. -/
def isAllowed (c : Byte) : Bool := isAlnum c || isKept c

theorem kept_facts (c : Byte) :
    isKept c = true → hexValue c = none ∧ c ≠ percent ∧ isAlnum c = false := by
  revert c
  decide

theorem piece_bytes_not_kept (c : Byte) :
    (isAlnum c = true ∨ c = percent ∨ upperDigit c = true) → isKept c = false ∧ c ≠ 0 := by
  revert c
  decide

theorem alnum_not_percent : isAlnum percent = false := by decide

theorem escape_piece_encodes (piece : List Byte) :
    escapePiece piece = encode isAlnum (cString (decode piece)) := by
  rw [escapePiece, url_escape_part_encodes, url_unescape_decodes]

/-- No decoded NUL ends the piece early. -/
theorem escape_piece_whole {piece : List Byte} (no_zero : 0 ∉ piece)
    (free : NoZeroTriple piece) : escapePiece piece = encode isAlnum (decode piece) := by
  have whole : cString (decode piece) = decode piece := by
    rw [cString, List.takeWhile_eq_self_iff]
    intro c member
    apply decide_eq_true
    rintro rfl
    exact decode_no_zero no_zero free member
  rw [escape_piece_encodes, whole]

theorem escape_piece_bytes {piece : List Byte} :
    ∀ c ∈ escapePiece piece, isKept c = false ∧ c ≠ 0 := by
  intro c member
  rw [escape_piece_encodes] at member
  exact piece_bytes_not_kept c (mem_encode member)

/-- A text without kept characters joins the part being read. -/
theorem escape_loop_joins {text : List Byte} (free : ∀ c ∈ text, isKept c = false)
    (piece rest : List Byte) :
    escapeLoop piece (text ++ rest) = escapeLoop (piece ++ text) rest := by
  induction text generalizing piece with
  | nil => rw [List.nil_append, List.append_nil]
  | cons c text induction =>
      have here : ¬ isKept c = true := by
        rw [free c (by simp)]
        decide
      rw [List.cons_append, escapeLoop, if_neg here,
        induction (fun other member => free other (by simp [member])), List.append_assoc]
      rfl

theorem escape_loop_decodes {rest : List Byte} (piece : List Byte) (no_zero : 0 ∉ piece ++ rest)
    (free : NoZeroTriple (piece ++ rest)) :
    decode (escapeLoop piece rest) = decode (piece ++ rest) := by
  induction rest generalizing piece with
  | nil =>
      rw [List.append_nil] at no_zero free ⊢
      rw [escapeLoop, escape_piece_whole no_zero free]
      have decoded := decode_encode alnum_not_percent (decode piece) []
      rw [List.append_nil] at decoded
      rw [decoded]
      exact List.append_nil _
  | cons c rest induction =>
      rw [escapeLoop]
      by_cases kept : isKept c = true
      · obtain ⟨digit, other, _⟩ := kept_facts c kept
        have front : [] ++ rest <:+: piece ++ c :: rest :=
          (List.suffix_append (piece ++ [c]) rest).isInfix.trans (by simp)
        have later := induction [] (fun member => no_zero (front.subset member))
          (no_zero_triple_within front free)
        have before : piece <:+: piece ++ c :: rest := (List.prefix_append _ _).isInfix
        rw [if_pos kept, escape_piece_whole (fun member => no_zero (before.subset member))
          (no_zero_triple_within before free), decode_encode alnum_not_percent, decode_plain other,
          later, decode_split digit other, List.nil_append]
      · rw [if_neg kept, induction (piece ++ [c])]
        · rw [List.append_assoc, List.singleton_append]
        · rw [List.append_assoc, List.singleton_append]
          exact no_zero
        · rw [List.append_assoc, List.singleton_append]
          exact free

theorem escape_piece_again {piece : List Byte} (no_zero : 0 ∉ piece)
    (free : NoZeroTriple piece) : escapePiece (escapePiece piece) = escapePiece piece := by
  have decoded := decode_encode alnum_not_percent (decode piece) []
  rw [List.append_nil] at decoded
  rw [escape_piece_encodes (escapePiece piece), escape_piece_whole no_zero free, decoded,
    show decode piece ++ decode [] = decode piece from List.append_nil _]
  rw [← escape_piece_encodes, escape_piece_whole no_zero free]

theorem escape_loop_again {rest : List Byte} (piece : List Byte) (no_zero : 0 ∉ piece ++ rest)
    (free : NoZeroTriple (piece ++ rest)) :
    escapeLoop [] (escapeLoop piece rest) = escapeLoop piece rest := by
  induction rest generalizing piece with
  | nil =>
      rw [List.append_nil] at no_zero free
      have joined := @escape_loop_joins (escapePiece piece)
        (fun c member => (escape_piece_bytes c member).1) [] []
      rw [List.append_nil] at joined
      rw [escapeLoop, joined, escapeLoop, List.nil_append, escape_piece_again no_zero free]
  | cons c rest induction =>
      rw [escapeLoop]
      by_cases kept : isKept c = true
      · have front : [] ++ rest <:+: piece ++ c :: rest :=
          (List.suffix_append (piece ++ [c]) rest).isInfix.trans (by simp)
        have later := induction [] (fun member => no_zero (front.subset member))
          (no_zero_triple_within front free)
        have before : piece <:+: piece ++ c :: rest := (List.prefix_append _ _).isInfix
        rw [if_pos kept, escape_loop_joins (fun c member => (escape_piece_bytes c member).1),
          escapeLoop, if_pos kept, List.nil_append, later,
          escape_piece_again (fun member => no_zero (before.subset member))
            (no_zero_triple_within before free)]
      · rw [if_neg kept]
        apply induction (piece ++ [c])
        · rw [List.append_assoc, List.singleton_append]
          exact no_zero
        · rw [List.append_assoc, List.singleton_append]
          exact free

/-- Whatever is decoded, only the characters allowed are written. -/
theorem escape_loop_encoded (piece rest : List Byte) :
    Encoded isAllowed (escapeLoop piece rest) := by
  have part : ∀ text, Encoded isAllowed (escapePiece text) := by
    intro text
    rw [escape_piece_encodes]
    apply encode_encoded
    intro c alnum
    rw [isAllowed, alnum, Bool.true_or]
  induction rest generalizing piece with
  | nil => exact part piece
  | cons c rest induction =>
      rw [escapeLoop]
      by_cases kept : isKept c = true
      · rw [if_pos kept]
        apply encoded_append (part piece)
        apply Encoded.plain c _ _ (induction [])
        rw [isAllowed, kept, Bool.or_true]
      · rw [if_neg kept]
        exact induction (piece ++ [c])

/-! ## The address in brackets -/

theorem strstr_split {text whole found : List Byte} (at_place : strstr text whole = some found) :
    ∃ before, whole = before ++ found ∧ text <+: found := by
  induction whole with
  | nil =>
      rw [strstr] at at_place
      by_cases empty : text.isEmpty = true
      · rw [if_pos empty, Option.some.injEq] at at_place
        rw [← at_place, List.isEmpty_iff.mp empty]
        exact ⟨[], rfl, List.prefix_refl _⟩
      · rw [if_neg empty] at at_place
        cases at_place
  | cons c rest induction =>
      rw [strstr] at at_place
      by_cases here : text.isPrefixOf (c :: rest) = true
      · rw [if_pos here, Option.some.injEq] at at_place
        rw [← at_place]
        exact ⟨[], rfl, List.isPrefixOf_iff_prefix.mp here⟩
      · rw [if_neg here] at at_place
        obtain ⟨before, rfl, front⟩ := induction at_place
        exact ⟨c :: before, rfl, front⟩

/-- Where a text is found first does not depend on what follows it. -/
theorem strstr_same_place {text before tail : List Byte}
    (first : strstr text (before ++ (text ++ tail)) = some (text ++ tail)) (other : List Byte) :
    strstr text (before ++ (text ++ other)) = some (text ++ other) := by
  induction before with
  | nil =>
      cases text with
      | nil => cases other <;> rfl
      | cons c text =>
          have here : (c :: text).isPrefixOf (c :: text ++ other) = true :=
            List.isPrefixOf_iff_prefix.mpr (List.prefix_append _ _)
          rw [List.nil_append, List.cons_append, strstr, ← List.cons_append, if_pos here]
  | cons c before induction =>
      have local_iff : ∀ rest : List Byte, text <+: c :: (before ++ (text ++ rest)) ↔
          text <+: c :: (before ++ text) := by
        intro rest
        have longer : c :: (before ++ (text ++ rest)) = (c :: (before ++ text)) ++ rest := by
          rw [List.cons_append, List.append_assoc]
        constructor
        · intro front
          apply List.prefix_of_prefix_length_le front (longer ▸ List.prefix_append _ _)
          simp only [List.length_cons, List.length_append]
          omega
        · intro front
          exact front.trans (longer ▸ List.prefix_append _ _)
      have away : ¬ text <+: c :: (before ++ text) := by
        intro here
        have early := List.isPrefixOf_iff_prefix.mpr ((local_iff tail).mpr here)
        rw [List.cons_append, strstr, if_pos early, Option.some.injEq] at first
        have lengths := congrArg List.length first
        simp only [List.length_cons, List.length_append] at lengths
        omega
      have step : ∀ rest : List Byte, strstr text (c :: before ++ (text ++ rest)) =
          strstr text (before ++ (text ++ rest)) := by
        intro rest
        have late := mt List.isPrefixOf_iff_prefix.mp (mt (local_iff rest).mp away)
        rw [List.cons_append, strstr, if_neg late]
      rw [step] at first ⊢
      exact induction first

theorem strchr_split {c : Byte} {whole found : List Byte} (at_place : strchr c whole = some found) :
    ∃ before after, whole = before ++ c :: after ∧ found = c :: after ∧ c ∉ before := by
  induction whole with
  | nil => cases at_place
  | cons first rest induction =>
      rw [strchr] at at_place
      by_cases here : first = c
      · rw [if_pos here, Option.some.injEq] at at_place
        subst here
        exact ⟨[], rest, rfl, at_place.symm, List.not_mem_nil⟩
      · rw [if_neg here] at at_place
        obtain ⟨before, after, rfl, same, absent⟩ := induction at_place
        refine ⟨first :: before, after, rfl, same, ?_⟩
        rw [List.mem_cons, not_or]
        exact ⟨fun equal => here equal.symm, absent⟩

theorem strchr_first {c : Byte} {before : List Byte} (absent : c ∉ before) (after : List Byte) :
    strchr c (before ++ c :: after) = some (c :: after) := by
  induction before with
  | nil => rw [List.nil_append, strchr, if_pos rfl]
  | cons first before induction =>
      rw [List.mem_cons, not_or] at absent
      rw [List.cons_append, strchr, if_neg fun equal => absent.1 equal.symm, induction absent.2]

/-- The parts of a url with an address that is copied. -/
structure Address (inbuf before host after : List Byte) : Prop where
  parts : inbuf = before ++ (schemeBracket ++ (host ++ byte ']' :: after))
  first : strstr schemeBracket inbuf = some (schemeBracket ++ (host ++ byte ']' :: after))
  closed : byte ']' ∉ host
  behind : behindBracket after = true

def addressText (before host : List Byte) : List Byte :=
  before ++ (schemeBracket ++ (host ++ [byte ']']))

theorem address_parts {inbuf before host after : List Byte}
    (address : Address inbuf before host after) : inbuf = addressText before host ++ after := by
  rw [address.parts, addressText]
  simp only [List.append_assoc, List.singleton_append]

theorem ip6_length_of_address {inbuf before host after : List Byte}
    (address : Address inbuf before host after) :
    ip6Length inbuf = (addressText before host).length := by
  have behind := address.behind
  have bracket : (schemeBracket ++ (host ++ byte ']' :: after)).drop 4 =
      host ++ byte ']' :: after := List.drop_left' rfl
  have whole := congrArg List.length (address_parts address)
  rw [List.length_append] at whole
  simp only [ip6Length, address.first, bracket, strchr_first address.closed, List.tail_cons,
    behind, if_true, List.length_cons, whole]
  simp only [addressText, List.length_append, List.length_singleton]
  omega

theorem address_of_ip6_length {inbuf : List Byte} (copied : ip6Length inbuf ≠ 0) :
    ∃ before host after, Address inbuf before host after := by
  rw [ip6Length] at copied
  cases found : strstr schemeBracket inbuf with
  | none => simp [found] at copied
  | some tmp =>
      obtain ⟨before, parts, rest, rfl⟩ := strstr_split found
      have bracket : (schemeBracket ++ rest).drop 4 = rest := List.drop_left' rfl
      simp only [found, bracket] at copied
      cases closed : strchr (byte ']') rest with
      | none => simp [closed] at copied
      | some last =>
          obtain ⟨host, after, rfl, rfl, absent⟩ := strchr_split closed
          simp only [closed, List.tail_cons] at copied
          refine ⟨before, host, after, parts, found, absent, ?_⟩
          by_contra other
          exact copied (if_neg other)

theorem address_with_rest {inbuf before host after other : List Byte}
    (address : Address inbuf before host after) (behind : behindBracket other = true) :
    Address (addressText before host ++ other) before host other where
  parts := by
    rw [addressText]
    simp only [List.append_assoc, List.singleton_append]
  first := by
    have first := address.first
    rw [address.parts] at first
    have same := strstr_same_place first (host ++ byte ']' :: other)
    rw [addressText]
    simp only [List.append_assoc, List.singleton_append]
    exact same
  closed := address.closed
  behind := behind

/-! ## The whole url -/

theorem encoded_bytes {text : List Byte} (encoded : Encoded isAllowed text) :
    ∀ c ∈ text, isAllowed c = true ∨ c = percent ∨ upperDigit c = true := by
  induction encoded with
  | nil => exact fun c member => absurd member List.not_mem_nil
  | plain byte rest allowed _ induction =>
      intro c member
      rcases List.mem_cons.mp member with rfl | later
      · exact .inl allowed
      · exact induction c later
  | triple high low rest upperHigh upperLow _ induction =>
      intro c member
      simp only [List.mem_cons] at member
      rcases member with rfl | rfl | rfl | later
      · exact .inr (.inl rfl)
      · exact .inr (.inr upperHigh)
      · exact .inr (.inr upperLow)
      · exact induction c later

theorem written_byte_facts (c : Byte) :
    (isAllowed c = true ∨ c = percent ∨ upperDigit c = true) → c ≠ 0 ∧ c ≠ byte '[' := by
  revert c
  decide

/-- The output of the loop has no address. -/
theorem no_address_in_encoded {text : List Byte} (encoded : Encoded isAllowed text) :
    ip6Length text = 0 := by
  by_contra copied
  obtain ⟨before, host, after, address⟩ := address_of_ip6_length copied
  have member : byte '[' ∈ text := by
    rw [address.parts]
    simp [schemeBracket]
  exact (written_byte_facts _ (encoded_bytes encoded _ member)).2 rfl

/-- What stands behind the bracket still does in the output. -/
theorem behind_bracket_escaped {after : List Byte} (behind : behindBracket after = true) :
    behindBracket (escapeLoop [] after) = true := by
  cases after with
  | nil => rfl
  | cons c rest =>
      have follower : ∀ c : Byte, (c == byte '/' || c == byte ':') = true → isKept c = true := by
        decide
      have kept : isKept c = true := follower c behind
      rw [escapeLoop, if_pos kept]
      exact behind

theorem url_escape_address {inbuf before host after : List Byte}
    (address : Address inbuf before host after) :
    urlEscapeString inbuf = addressText before host ++ escapeLoop [] after := by
  rw [urlEscapeString, ip6_length_of_address address]
  conv_lhs => rw [address_parts address]
  rw [List.take_left' rfl, List.drop_left' rfl]

/-- A url is escaped from its beginning, or from behind its address. -/
theorem url_escape_cases (inbuf : List Byte) :
    (ip6Length inbuf = 0 ∧ urlEscapeString inbuf = escapeLoop [] inbuf) ∨
      ∃ before host after, Address inbuf before host after ∧
        urlEscapeString inbuf = addressText before host ++ escapeLoop [] after := by
  by_cases copied : ip6Length inbuf = 0
  · left
    refine ⟨copied, ?_⟩
    rw [urlEscapeString, copied]
    rfl
  · right
    obtain ⟨before, host, after, address⟩ := address_of_ip6_length copied
    exact ⟨before, host, after, address, url_escape_address address⟩

theorem after_address_infix {inbuf before host after : List Byte}
    (address : Address inbuf before host after) : after <:+: inbuf := by
  rw [address_parts address]
  exact (List.suffix_append _ _).isInfix

theorem url_escape_again {inbuf : List Byte} (no_nul : 0 ∉ inbuf) (free : NoZeroTriple inbuf) :
    urlEscapeString (urlEscapeString inbuf) = urlEscapeString inbuf := by
  rcases url_escape_cases inbuf with ⟨_, whole⟩ | ⟨before, host, after, address, whole⟩
  · have start := no_address_in_encoded (escape_loop_encoded [] inbuf)
    rw [whole, urlEscapeString, start]
    exact escape_loop_again [] no_nul free
  · have inside := after_address_infix address
    have again := address_with_rest address (behind_bracket_escaped address.behind)
    rw [whole, url_escape_address again,
      escape_loop_again [] (fun member => no_nul (inside.subset member))
        (no_zero_triple_within inside free)]

theorem url_escape_decodes {inbuf : List Byte} (no_nul : 0 ∉ inbuf) (free : NoZeroTriple inbuf) :
    decode (urlEscapeString inbuf) = decode inbuf := by
  rcases url_escape_cases inbuf with ⟨_, whole⟩ | ⟨before, host, after, address, whole⟩
  · rw [whole]
    exact escape_loop_decodes [] no_nul free
  · have inside := after_address_infix address
    have rest := @escape_loop_decodes after []
      (fun member => no_nul (inside.subset member)) (no_zero_triple_within inside free)
    have split : ∀ text : List Byte, decode (addressText before host ++ text) =
        decode (before ++ (schemeBracket ++ host)) ++ byte ']' :: decode text := by
      intro text
      have parts : addressText before host ++ text =
          (before ++ (schemeBracket ++ host)) ++ byte ']' :: text := by
        rw [addressText]
        simp only [List.append_assoc, List.singleton_append]
      rw [parts, decode_split (by decide) (by decide)]
    rw [whole, split, rest]
    conv_rhs => rw [address_parts address, split]
    rfl

/-- Everything behind the copied address is coded, and the address is copied. -/
theorem url_escape_encoded (inbuf : List Byte) :
    ∃ body, urlEscapeString inbuf = inbuf.take (ip6Length inbuf) ++ body ∧
      Encoded isAllowed body :=
  ⟨escapeLoop [] (inbuf.drop (ip6Length inbuf)), rfl, escape_loop_encoded [] _⟩

theorem url_escape_no_nul {inbuf : List Byte} (no_nul : 0 ∉ inbuf) :
    0 ∉ urlEscapeString inbuf := by
  obtain ⟨body, whole, encoded⟩ := url_escape_encoded inbuf
  intro member
  rw [whole] at member
  rcases List.mem_append.mp member with copied | written
  · exact no_nul (List.mem_of_mem_take copied)
  · exact (written_byte_facts 0 (encoded_bytes encoded 0 written)).1 rfl

/-- Escaping twice is escaping once, what is written is coded, and it decodes to what the
url does, unless the url spells a NUL. -/
theorem url_escape_stable (inbuf : CString) :
    (NoZeroTriple inbuf.bytes →
      urlEscapeString (urlEscapeString inbuf.bytes) = urlEscapeString inbuf.bytes) ∧
    (0 ∉ urlEscapeString inbuf.bytes ∧
      ∃ body, urlEscapeString inbuf.bytes =
          inbuf.bytes.take (ip6Length inbuf.bytes) ++ body ∧ Encoded isAllowed body) ∧
    (NoZeroTriple inbuf.bytes →
      urlUnescapeString (urlEscapeString inbuf.bytes) = urlUnescapeString inbuf.bytes) := by
  refine ⟨?_, ⟨url_escape_no_nul inbuf.no_nul, url_escape_encoded inbuf.bytes⟩, ?_⟩
  · intro free
    exact url_escape_again inbuf.no_nul free
  · intro free
    rw [url_unescape_decodes, url_unescape_decodes]
    exact url_escape_decodes inbuf.no_nul free

/-- Without the proviso a part is cut at the NUL it spells. -/
example : urlEscapeString ("a%00b/c".toList.map byte) = "a/c".toList.map byte := by decide

end Gk7102.UrlEscape
