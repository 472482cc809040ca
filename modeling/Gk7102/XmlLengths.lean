import Gk7102.BoundedPrint
import Gk7102.XmlWrite

/-!
# How long a written tree is

`xml_calc_buf_len` measures what `xml_write_buf` prints, and `xml_nwrite_buf` prints into a
buffer of a given size. All lengths are within an `int`, so that a negative size is, as a
`size_t`, above every length. A loop over the children is written over the chain of siblings.
-/

namespace Gk7102.Xml

open Gk7102.ByteBlocks Gk7102.BoundedPrint

set_option autoImplicit false

section Measure

/-- The loop over `f_attrib` with what follows it. -/
def calcBufAttribs (name : List Byte) (behind : Nat → Nat) : List Attrib → Nat → Nat
  | [], xmlLen => behind xmlLen
  | ⟨.attrib, attrName, attrData⟩ :: others, xmlLen =>
      calcBufAttribs name behind others (xmlLen + (attrName.length + 4 + attrData.length))
  | ⟨.cdata, _, text⟩ :: _, xmlLen => xmlLen + (1 + text.length + 2 + name.length + 1)
  | ⟨.tag, _, _⟩ :: others, xmlLen => calcBufAttribs name behind others xmlLen

def calcBufNodes : Xmln → Nat
  | .null => 0
  | .node name attribs _ fChild next =>
      calcBufAttribs name (fun xmlLen =>
          if fChild = .null then xmlLen + 2
          else xmlLen + 1 + calcBufNodes fChild + (2 + name.length + 1))
        attribs (1 + name.length) + calcBufNodes next

/-- `xml_calc_buf_len` reads the name of its node unchecked. -/
def xmlCalcBufLen : Xmln → Option Nat
  | .null => none
  | .node name attribs data fChild _ => some (calcBufNodes (.node name attribs data fChild .null))

end Measure

section Bounded

/-- `xml_len += snprintf(xmlBuf+xml_len, bufLen-xml_len, ...)`, with `xmlBuf` by its offset. -/
def snprintfAt (xmlBuf : Nat) (bufLen : Int) (text : List Byte) (xmlLen : Nat) :
    Walk Byte :=
  ([⟨xmlBuf + xmlLen, printed 0 (bufLen - xmlLen) text⟩], some (xmlLen + text.length))

/-- `length >= bufLen`, where `length` is a `size_t` and `bufLen` an `int`. -/
def reaches (length : Nat) (bufLen : Int) : Bool := decide (0 ≤ bufLen ∧ bufLen ≤ length)

/-- `length > bufLen` -/
def exceeds (length : Nat) (bufLen : Int) : Bool := decide (0 ≤ bufLen ∧ bufLen < length)

def attribText (attrName attrData : List Byte) : List Byte :=
  [32] ++ attrName ++ [61, 34] ++ attrData ++ [34]

def cdataText (name text : List Byte) : List Byte := [62] ++ text ++ [60, 47] ++ name ++ [62]

/-- The loop over `f_attrib` with what follows it. A text that begins with a newline is
passed over. -/
def nwriteBufAttribs (xmlBuf : Nat) (bufLen : Int) (name : List Byte) (behind : Nat → Walk Byte) :
    List Attrib → Nat → Walk Byte
  | [], xmlLen => behind xmlLen
  | ⟨.attrib, attrName, attrData⟩ :: others, xmlLen =>
      if exceeds (attrName.length + attrData.length + xmlLen) bufLen then .refusal
      else (snprintfAt xmlBuf bufLen (attribText attrName attrData) xmlLen).andThen
        (nwriteBufAttribs xmlBuf bufLen name behind others)
  | ⟨.cdata, _, text⟩ :: others, xmlLen =>
      if startsWith [10] text then nwriteBufAttribs xmlBuf bufLen name behind others xmlLen
      else if reaches (text.length + name.length + xmlLen) bufLen then .refusal
      else snprintfAt xmlBuf bufLen (cdataText name text) xmlLen
  | ⟨.tag, _, _⟩ :: others, xmlLen => nwriteBufAttribs xmlBuf bufLen name behind others xmlLen

/-- `xml_nwrite_buf` on each of the nodes in turn, each behind what is written. -/
def nwriteBufNodes : Xmln → Nat → Int → Walk Byte
  | .null, _, _ => ([], some 0)
  | .node name attribs _ fChild next, xmlBuf, bufLen =>
      let written : Walk Byte :=
        if reaches name.length bufLen then .refusal
        else (snprintfAt xmlBuf bufLen ([60] ++ name) 0).andThen
          (nwriteBufAttribs xmlBuf bufLen name (fun xmlLen =>
            if fChild = .null then snprintfAt xmlBuf bufLen [47, 62] xmlLen
            else
              (snprintfAt xmlBuf bufLen [62] xmlLen).andThen fun xmlLen =>
              (nwriteBufNodes fChild (xmlBuf + xmlLen) (bufLen - xmlLen)).andThen fun ret =>
              snprintfAt xmlBuf bufLen ([60, 47] ++ name ++ [62]) (xmlLen + ret)) attribs)
      written.andThen fun ret =>
        (nwriteBufNodes next (xmlBuf + ret) (bufLen - ret)).andThen fun others =>
          ([], some (ret + others))

def xmlNwriteBuf : Xmln → Nat → Walk Byte
  | .null, _ => .refusal
  | .node name attribs data fChild _, bufLen =>
      nwriteBufNodes (.node name attribs data fChild .null) 0 bufLen

end Bounded

section Pieces

/-- What `nwriteBufAttribs` prints, piece by piece. Its checks go by the size of the node's own
buffer, which is the room at a piece with what the node has printed before. -/
def attribPieces (name : List Byte) (behind : List (Piece Byte)) :
    List Attrib → Nat → List (Piece Byte)
  | [], _ => behind
  | ⟨.attrib, attrName, attrData⟩ :: others, xmlLen =>
      ⟨attribText attrName attrData,
        fun room => exceeds (attrName.length + attrData.length + xmlLen) (room + xmlLen)⟩ ::
        attribPieces name behind others (xmlLen + (attribText attrName attrData).length)
  | ⟨.cdata, _, text⟩ :: others, xmlLen =>
      if startsWith [10] text then attribPieces name behind others xmlLen
      else [⟨cdataText name text,
        fun room => reaches (text.length + name.length + xmlLen) (room + xmlLen)⟩]
  | ⟨.tag, _, _⟩ :: others, xmlLen => attribPieces name behind others xmlLen

def unchecked (text : List Byte) : Piece Byte := ⟨text, fun _ => false⟩

def nodePieces : Xmln → List (Piece Byte)
  | .null => []
  | .node name attribs _ fChild next =>
      ⟨[60] ++ name, reaches name.length⟩ ::
        attribPieces name
          (if fChild = .null then [unchecked [47, 62]]
            else unchecked [62] :: nodePieces fChild ++ [unchecked ([60, 47] ++ name ++ [62])])
          attribs (1 + name.length) ++ nodePieces next

end Pieces

/-! ## Measuring -/

section Measured

theorem calc_buf_attribs {name back : List Byte} {behind : Nat → Nat}
    (measured : ∀ xmlLen, behind xmlLen = xmlLen + back.length) (attribs : List Attrib)
    (xmlLen : Nat) :
    calcBufAttribs name behind attribs xmlLen =
      xmlLen + (writeBufAttribs name back attribs).length := by
  induction attribs generalizing xmlLen with
  | nil => exact measured xmlLen
  | cons entry others ih =>
      obtain ⟨type, entryName, entryData⟩ := entry
      cases type with
      | tag => exact ih xmlLen
      | attrib =>
          rw [calcBufAttribs, ih, writeBufAttribs]
          simp only [List.length_append, List.length_cons, List.length_nil]
          omega
      | cdata =>
          rw [calcBufAttribs, writeBufAttribs]
          simp only [List.length_append, List.length_cons, List.length_nil]

theorem calc_buf_nodes (nodes : Xmln) : calcBufNodes nodes = (writeBufNodes nodes).length := by
  induction nodes with
  | null => rfl
  | node name attribs data fChild next children siblings =>
      have ending : ∀ xmlLen,
          (if fChild = .null then xmlLen + 2
            else xmlLen + 1 + calcBufNodes fChild + (2 + name.length + 1)) =
          xmlLen + (if fChild = .null then [47, 62]
            else [62] ++ writeBufNodes fChild ++ [60, 47] ++ name ++ [62] : List Byte).length := by
        intro xmlLen
        split
        · rfl
        · rw [children]
          simp only [List.length_append, List.length_cons, List.length_nil]
          omega
      rw [calcBufNodes, writeBufNodes, siblings, calc_buf_attribs ending]
      simp only [List.length_append, List.length_cons, List.length_nil, Nat.zero_add]

end Measured

/-! ## Printing piece by piece -/

section Printing

variable {limit xmlBuf : Nat} {bufLen : Int}

/-- A walk of the source, whose lengths count from `xmlBuf`, prints these pieces. -/
def Prints (limit xmlBuf start : Nat) (walk : Walk Byte) (pieces : List (Piece Byte)) : Prop :=
  (walk.1, walk.2.map (xmlBuf + ·)) = printPieces 0 limit start pieces

theorem prints_and_then {offset start : Nat} {walk : Walk Byte} {next : Nat → Walk Byte}
    {front back : List (Piece Byte)} (first : Prints limit (xmlBuf + offset) start walk front)
    (second : ∀ ret, walk.2 = some ret →
      Prints limit xmlBuf (xmlBuf + (offset + ret)) (next ret) back) :
    Prints limit xmlBuf start (walk.andThen next) (front ++ back) := by
  obtain ⟨puts, ret⟩ := walk
  rw [Prints, print_append, ← first]
  cases ret with
  | none => rfl
  | some ret =>
      simp only [Walk.andThen, Option.map_some, Nat.add_assoc]
      rw [← second ret rfl]

theorem prints_snprintf (room : bufLen = (limit : Int) - xmlBuf) (text : List Byte)
    (xmlLen : Nat) :
    Prints limit xmlBuf (xmlBuf + xmlLen) (snprintfAt xmlBuf bufLen text xmlLen)
      [unchecked text] := by
  rw [Prints, print_pieces_cons 0 [] (by simp [unchecked]), snprintfAt, room, Int.sub_sub,
    ← Int.natCast_add, Nat.add_assoc]
  rfl

theorem prints_checked (room : bufLen = (limit : Int) - xmlBuf) {text : List Byte}
    {check : Int → Bool} {refused : Bool} {xmlLen : Nat}
    (agree : check (bufLen - xmlLen) = refused) :
    Prints limit xmlBuf (xmlBuf + xmlLen)
      (if refused = true then .refusal else snprintfAt xmlBuf bufLen text xmlLen)
      [⟨text, check⟩] := by
  rw [room, Int.sub_sub, ← Int.natCast_add] at agree
  rw [Prints]
  split
  · rename_i bad
    rw [print_pieces_refused 0 [] (agree.trans bad)]
    rfl
  · rename_i good
    have accepted : ¬ check ((limit : Int) - (xmlBuf + xmlLen : Nat)) = true := by
      rwa [agree]
    rw [print_pieces_cons 0 [] accepted, snprintfAt, room, Int.sub_sub, ← Int.natCast_add,
      Nat.add_assoc]
    rfl

theorem prints_checked_and_then (room : bufLen = (limit : Int) - xmlBuf) {text : List Byte}
    {check : Int → Bool} {refused : Bool} {xmlLen : Nat} {next : Nat → Walk Byte}
    {back : List (Piece Byte)} (agree : check (bufLen - xmlLen) = refused)
    (behind : Prints limit xmlBuf (xmlBuf + (xmlLen + text.length))
      (next (xmlLen + text.length)) back) :
    Prints limit xmlBuf (xmlBuf + xmlLen)
      (if refused = true then .refusal
        else (snprintfAt xmlBuf bufLen text xmlLen).andThen next)
      (⟨text, check⟩ :: back) := by
  have same : (if refused = true then .refusal
      else (snprintfAt xmlBuf bufLen text xmlLen).andThen next) =
      (if refused = true then .refusal
        else snprintfAt xmlBuf bufLen text xmlLen).andThen next := by
    split <;> rfl
  rw [same, ← List.singleton_append]
  apply @prints_and_then limit xmlBuf 0 _ _ _ _ _ (prints_checked room agree)
  intro ret reached
  rw [Nat.zero_add]
  split at reached
  · cases reached
  · obtain rfl := Option.some.inj reached
    exact behind

theorem prints_attribs (room : bufLen = (limit : Int) - xmlBuf) {name : List Byte}
    {behind : Nat → Walk Byte} {back : List (Piece Byte)}
    (ends : ∀ xmlLen, Prints limit xmlBuf (xmlBuf + xmlLen) (behind xmlLen) back)
    (attribs : List Attrib) (xmlLen : Nat) :
    Prints limit xmlBuf (xmlBuf + xmlLen)
      (nwriteBufAttribs xmlBuf bufLen name behind attribs xmlLen)
      (attribPieces name back attribs xmlLen) := by
  induction attribs generalizing xmlLen with
  | nil => exact ends xmlLen
  | cons entry others ih =>
      obtain ⟨type, entryName, entryData⟩ := entry
      cases type with
      | tag => exact ih xmlLen
      | attrib =>
          rw [nwriteBufAttribs, attribPieces]
          apply prints_checked_and_then room _ (ih _)
          rw [Int.sub_add_cancel]
      | cdata =>
          rw [nwriteBufAttribs, attribPieces]
          split
          · exact ih xmlLen
          · apply prints_checked room
            rw [Int.sub_add_cancel]

theorem prints_children (room : bufLen = (limit : Int) - xmlBuf)
    {children : Nat → Int → Walk Byte} {inner : List (Piece Byte)} (closing : List Byte)
    (printed : ∀ xmlLen : Nat, Prints limit (xmlBuf + xmlLen) (xmlBuf + xmlLen)
      (children (xmlBuf + xmlLen) (bufLen - xmlLen)) inner) (xmlLen : Nat) :
    Prints limit xmlBuf (xmlBuf + xmlLen)
      ((snprintfAt xmlBuf bufLen [62] xmlLen).andThen fun xmlLen =>
        (children (xmlBuf + xmlLen) (bufLen - xmlLen)).andThen fun ret =>
          snprintfAt xmlBuf bufLen closing (xmlLen + ret))
      (unchecked [62] :: inner ++ [unchecked closing]) := by
  apply @prints_and_then limit xmlBuf 0 _ _ _ [unchecked [62]] _ (prints_snprintf room [62] xmlLen)
  intro reached _
  rw [Nat.zero_add]
  apply prints_and_then (printed reached)
  intro ret _
  exact prints_snprintf room closing (reached + ret)

theorem prints_nodes (nodes : Xmln) (room : bufLen = (limit : Int) - xmlBuf) :
    Prints limit xmlBuf xmlBuf (nwriteBufNodes nodes xmlBuf bufLen) (nodePieces nodes) := by
  induction nodes generalizing xmlBuf bufLen with
  | null => rfl
  | node name attribs data fChild next children siblings =>
      have moved : ∀ xmlLen : Nat,
          bufLen - xmlLen = (limit : Int) - (xmlBuf + xmlLen : Nat) := by omega
      have ends : ∀ xmlLen, Prints limit xmlBuf (xmlBuf + xmlLen)
          (if fChild = .null then snprintfAt xmlBuf bufLen [47, 62] xmlLen
            else
              (snprintfAt xmlBuf bufLen [62] xmlLen).andThen fun xmlLen =>
              (nwriteBufNodes fChild (xmlBuf + xmlLen) (bufLen - xmlLen)).andThen fun ret =>
              snprintfAt xmlBuf bufLen ([60, 47] ++ name ++ [62]) (xmlLen + ret))
          (if fChild = .null then [unchecked [47, 62]]
            else unchecked [62] :: nodePieces fChild ++
              [unchecked ([60, 47] ++ name ++ [62])]) := by
        intro xmlLen
        split
        · exact prints_snprintf room [47, 62] xmlLen
        · exact prints_children room _ (fun reached => children (moved reached)) xmlLen
      rw [nwriteBufNodes, nodePieces]
      apply @prints_and_then limit xmlBuf 0 xmlBuf
      · apply @prints_checked_and_then limit xmlBuf bufLen room ([60] ++ name) _ _ 0
        · rw [Int.natCast_zero, Int.sub_zero]
        · have reached : 0 + ([60] ++ name).length = 1 + name.length := by
            rw [List.length_append, List.length_singleton, Nat.zero_add]
          rw [← reached]
          exact prints_attribs room ends attribs _
      · intro ret _
        rw [Nat.zero_add, ← List.append_nil (nodePieces next)]
        apply prints_and_then (siblings (moved ret))
        intro others _
        rfl

theorem xml_nwrite_buf_prints (name : List Byte) (attribs : List Attrib)
    (data : Option (List Byte)) (fChild next : Xmln) (limit : Nat) :
    xmlNwriteBuf (.node name attribs data fChild next) limit =
      printPieces 0 limit 0 (nodePieces (.node name attribs data fChild .null)) := by
  have printed := @prints_nodes limit 0 limit (.node name attribs data fChild .null)
    (Int.sub_zero _).symm
  rw [← printed, xmlNwriteBuf]
  simp only [Nat.zero_add, Option.map_id']

/-- No check turns away a piece that there is room for. -/
theorem attrib_pieces_lenient {name : List Byte} {back : List (Piece Byte)}
    (ends : ∀ piece ∈ back, piece.Lenient) (attribs : List Attrib) (xmlLen : Nat) :
    ∀ piece ∈ attribPieces name back attribs xmlLen, piece.Lenient := by
  induction attribs generalizing xmlLen with
  | nil => exact ends
  | cons entry others ih =>
      obtain ⟨type, entryName, entryData⟩ := entry
      cases type with
      | tag => exact ih xmlLen
      | attrib =>
          rw [attribPieces, List.forall_mem_cons]
          refine ⟨fun room refused => ?_, ih _⟩
          simp only [exceeds, decide_eq_true_eq] at refused
          simp only [attribText, List.length_append]
          omega
      | cdata =>
          rw [attribPieces]
          split
          · exact ih xmlLen
          · rw [List.forall_mem_singleton]
            intro room refused
            simp only [reaches, decide_eq_true_eq] at refused
            simp only [cdataText, List.length_append]
            omega

theorem unchecked_lenient (text : List Byte) : (unchecked text).Lenient := by
  intro room refused
  cases refused

theorem node_pieces_lenient (nodes : Xmln) : ∀ piece ∈ nodePieces nodes, piece.Lenient := by
  induction nodes with
  | null => exact fun piece inside => absurd inside List.not_mem_nil
  | node name attribs data fChild next children siblings =>
      rw [nodePieces, List.forall_mem_append, List.forall_mem_cons]
      refine ⟨⟨?_, ?_⟩, siblings⟩
      · intro room refused
        simp only [reaches, decide_eq_true_eq] at refused
        simp only [List.length_append]
        omega
      · apply attrib_pieces_lenient
        split
        · rw [List.forall_mem_singleton]
          exact unchecked_lenient _
        · rw [List.forall_mem_append, List.forall_mem_cons, List.forall_mem_singleton]
          exact ⟨⟨unchecked_lenient _, children⟩, unchecked_lenient _⟩

end Printing

/-! ## Texts that are passed over -/

section Texts

/-- The text that ends the loop over the attributes of `xml_write_buf`. -/
def firstText (attribs : List Attrib) : Option (List Byte) :=
  (attribs.find? fun entry => entry.type = .cdata).map Attrib.data

/-- `xml_write_buf` prints a text that begins with a newline. -/
def newlineMet : Xmln → Bool
  | .null => false
  | .node _ attribs _ fChild next =>
      (match firstText attribs with
        | some text => startsWith [10] text
        | none => newlineMet fChild) || newlineMet next

/-- The texts differ at a place that both reach. -/
def Parted (first second : List Byte) : Prop :=
  ∃ front one two rest other, one ≠ two ∧ first = front ++ one :: rest ∧
    second = front ++ two :: other

/-- Parted if something parts them, else equal. -/
def Compared (met : Bool) (first second : List Byte) : Prop :=
  if met then Parted first second else first = second

theorem parted_is_no_front {first second : List Byte} (parted : Parted first second) :
    ¬ first <+: second := by
  obtain ⟨front, one, two, rest, other, differ, rfl, rfl⟩ := parted
  intro start
  have tails := (List.prefix_append_right_inj front).mp start
  exact differ (List.cons_prefix_cons.mp tails).1

theorem compared_behind {met : Bool} {first second : List Byte} (front : List Byte)
    (compared : Compared met first second) :
    Compared met (front ++ first) (front ++ second) := by
  cases met with
  | false => exact congrArg (front ++ ·) compared
  | true =>
      obtain ⟨before, one, two, rest, other, differ, rfl, rfl⟩ := compared
      exact ⟨front ++ before, one, two, rest, other, differ, by rw [List.append_assoc],
        by rw [List.append_assoc]⟩

theorem compared_append {met later : Bool} {first second behind beyond : List Byte}
    (compared : Compared met first second) (rest : Compared later behind beyond) :
    Compared (met || later) (first ++ behind) (second ++ beyond) := by
  cases met with
  | false =>
      obtain rfl : first = second := compared
      exact compared_behind first rest
  | true =>
      obtain ⟨before, one, two, tail, other, differ, rfl, rfl⟩ := compared
      exact ⟨before, one, two, tail ++ behind, other ++ beyond, differ, by simp, by simp⟩

theorem passed_over_parted {name : List Byte} {back : List (Piece Byte)} (text : List Byte)
    (ends : (∃ rest, wholeText back = 47 :: rest) ∨ ∃ rest, wholeText back = 62 :: 60 :: rest)
    (attribs : List Attrib) (xmlLen : Nat) :
    Parted (62 :: 10 :: text) (wholeText (attribPieces name back attribs xmlLen)) := by
  induction attribs generalizing xmlLen with
  | nil =>
      rw [attribPieces]
      rcases ends with ⟨rest, closed⟩ | ⟨rest, opened⟩
      · exact ⟨[], 62, 47, 10 :: text, rest, by decide, rfl, closed⟩
      · exact ⟨[62], 10, 60, text, rest, by decide, rfl, opened⟩
  | cons entry others ih =>
      obtain ⟨type, entryName, entryData⟩ := entry
      cases type with
      | tag => exact ih xmlLen
      | attrib => exact ⟨[], 62, 32, 10 :: text, _, by decide, rfl, rfl⟩
      | cdata =>
          rw [attribPieces]
          split
          · exact ih xmlLen
          · rename_i other
            cases entryData with
            | nil => exact ⟨[62], 10, 60, text, _, by decide, rfl, rfl⟩
            | cons byte rest =>
                refine ⟨[62], 10, byte, text, _, ?_, rfl, rfl⟩
                rintro rfl
                exact other rfl

theorem compared_attribs {name behind : List Byte} {back : List (Piece Byte)} {met : Bool}
    (ends : (∃ rest, wholeText back = 47 :: rest) ∨ ∃ rest, wholeText back = 62 :: 60 :: rest)
    (ended : Compared met behind (wholeText back)) (attribs : List Attrib) (xmlLen : Nat) :
    Compared
      (match firstText attribs with
        | some text => startsWith [10] text
        | none => met)
      (writeBufAttribs name behind attribs)
      (wholeText (attribPieces name back attribs xmlLen)) := by
  induction attribs generalizing xmlLen with
  | nil => exact ended
  | cons entry others ih =>
      obtain ⟨type, entryName, entryData⟩ := entry
      cases type with
      | tag => exact ih xmlLen
      | attrib => exact compared_behind (attribText entryName entryData) (ih _)
      | cdata =>
          have first : firstText (⟨.cdata, entryName, entryData⟩ :: others) = some entryData := rfl
          rw [first, writeBufAttribs, attribPieces]
          cases newline : startsWith [10] entryData with
          | true =>
              rw [if_pos rfl]
              cases entryData with
              | nil => cases newline
              | cons byte rest =>
                  have same : (10 : Byte) = byte := by
                    simpa [startsWith, List.isPrefixOf] using newline
                  rw [← same]
                  exact passed_over_parted _ ends others xmlLen
          | false =>
              rw [if_neg Bool.false_ne_true]
              change Compared (startsWith [10] entryData) _ _
              rw [newline]
              exact (List.append_nil _).symm

theorem children_shape (name : List Byte) (fChild : Xmln) :
    (∃ rest, wholeText (if fChild = .null then [unchecked [47, 62]]
      else unchecked [62] :: nodePieces fChild ++ [unchecked ([60, 47] ++ name ++ [62])]) =
        47 :: rest) ∨
    ∃ rest, wholeText (if fChild = .null then [unchecked [47, 62]]
      else unchecked [62] :: nodePieces fChild ++ [unchecked ([60, 47] ++ name ++ [62])]) =
        62 :: 60 :: rest := by
  cases fChild with
  | null => exact Or.inl ⟨[62], rfl⟩
  | node childName attribs data fChild next => exact Or.inr ⟨_, rfl⟩

/-- What is printed piece by piece against what `xml_write_buf` prints. -/
theorem compared_nodes (nodes : Xmln) :
    Compared (newlineMet nodes) (writeBufNodes nodes) (wholeText (nodePieces nodes)) := by
  induction nodes with
  | null => exact rfl
  | node name attribs data fChild next children siblings =>
      have ended : Compared (newlineMet fChild)
          (if fChild = .null then [47, 62]
            else [62] ++ writeBufNodes fChild ++ [60, 47] ++ name ++ [62])
          (wholeText (if fChild = .null then [unchecked [47, 62]]
            else unchecked [62] :: nodePieces fChild ++
              [unchecked ([60, 47] ++ name ++ [62])])) := by
        split
        · rename_i leaf
          rw [leaf]
          exact rfl
        · have closed := compared_append (compared_behind [62] children)
            (show Compared false ([60, 47] ++ name ++ [62]) ([60, 47] ++ name ++ [62]) from rfl)
          rw [Bool.or_false] at closed
          simpa [wholeText, unchecked] using closed
      have opened := compared_behind ([60] ++ name)
        (@compared_attribs name _ _ _ (children_shape name fChild) ended attribs (1 + name.length))
      have both := compared_append opened siblings
      rw [writeBufNodes, newlineMet, nodePieces]
      simpa [wholeText] using both

theorem newline_met_iff (nodes : Xmln) :
    wholeText (nodePieces nodes) = writeBufNodes nodes ↔ newlineMet nodes = false := by
  have compared := compared_nodes nodes
  cases met : newlineMet nodes with
  | false =>
      rw [met] at compared
      exact ⟨fun _ => rfl, fun _ => compared.symm⟩
  | true =>
      rw [met] at compared
      constructor
      · intro same
        rw [same] at compared
        exact absurd (List.prefix_refl _) (parted_is_no_front compared)
      · intro absent
        cases absent

theorem written_start (nodes : Xmln) :
    writeBufNodes nodes <+: wholeText (nodePieces nodes) →
      writeBufNodes nodes = wholeText (nodePieces nodes) := by
  intro start
  have compared := compared_nodes nodes
  cases met : newlineMet nodes with
  | false => rwa [met] at compared
  | true =>
      rw [met] at compared
      exact absurd start (parted_is_no_front compared)

end Texts

/-- The measure is the written length, and the bounded writer stays within its buffer and,
unless it fails, leaves there what `xml_write_buf` does. -/
structure LengthsSound (tree : Xmln) (bufLen : Nat) : Prop where
  measured : xmlCalcBufLen tree = (xmlWriteBuf tree).map List.length
  within : Within bufLen (xmlNwriteBuf tree bufLen).1
  same : ∀ text xmlLen, xmlWriteBuf tree = some text →
    (xmlNwriteBuf tree bufLen).2 = some xmlLen →
    found (xmlNwriteBuf tree bufLen).1 = found [⟨0, text ++ [0]⟩]

/-- The text fits with its NUL and has no element text that is passed over, or a check turns
the tree away before a piece starts behind the buffer. -/
theorem lengths_sound_iff (name : List Byte) (attribs : List Attrib) (data : Option (List Byte))
    (fChild next : Xmln) (bufLen : Nat) :
    LengthsSound (.node name attribs data fChild next) bufLen ↔
      ((writeBufNodes (.node name attribs data fChild .null)).length < bufLen ∧
        newlineMet (.node name attribs data fChild .null) = false) ∨
      turnedAway bufLen 0 (nodePieces (.node name attribs data fChild .null)) = true := by
  have some_piece : nodePieces (.node name attribs data fChild .null) ≠ [] := List.cons_ne_nil _ _
  have printed := @print_sound_iff Byte 0 bufLen _ _ some_piece (node_pieces_lenient _)
    (written_start (.node name attribs data fChild .null))
  rw [newline_met_iff, and_comm] at printed
  rw [← printed, ← xml_nwrite_buf_prints name attribs data fChild next]
  constructor
  · intro sound
    exact ⟨sound.within, fun xmlLen returned => sound.same _ xmlLen rfl returned⟩
  · intro sound
    refine ⟨?_, sound.within, ?_⟩
    · rw [xmlCalcBufLen, xmlWriteBuf, Option.map_some, calc_buf_nodes]
    · intro text xmlLen written returned
      obtain rfl := Option.some.inj written
      exact sound.same xmlLen returned

/-- `<a n="v"/>` into four bytes: the attribute passes its check, and the end of the element
is written behind the buffer. -/
theorem attribute_overruns :
    ¬ LengthsSound (.node [97] [⟨.attrib, [110], [118]⟩] none .null .null) 4 := by
  intro sound
  have written : (⟨8, [47, 62, 0]⟩ : Put Byte) ∈
      (xmlNwriteBuf (.node [97] [⟨.attrib, [110], [118]⟩] none .null .null) 4).1 := by
    decide
  have inside := sound.within _ written
  simp at inside

/-- A text that begins with a newline is left out. -/
example : (xmlNwriteBuf (.node [97] [⟨.cdata, [], [10]⟩] none .null .null) 100).2 = some 4 ∧
    xmlCalcBufLen (.node [97] [⟨.cdata, [], [10]⟩] none .null .null) = some 8 := by
  decide

end Gk7102.Xml
