import Gk7102.XmlMarkup

/-!
# Reading a tree back

Each tag the parser meets in the text of a tree is one pass. The passes over the text
of some nodes hang these nodes below the innermost open element and leave what follows;
this is by induction on the nodes, whatever elements are open.
-/

namespace Gk7102.Xml

open Gk7102.ByteBlocks
open Gk7102.TextScan

set_option autoImplicit false

section StartTags

def attrPairs (attribs : List Attrib) : List (List Byte × List Byte) :=
  attribs.map fun attr => (attr.name, attr.data)

theorem file_write_attribs_cons (attr : Attrib) (others : List Attrib) (behind : List Byte) :
    fileWriteAttribs (attr :: others) ++ behind =
      32 :: (attr.name ++ [61, 34] ++ attr.data ++ [34] ++
        (fileWriteAttribs others ++ behind)) := by
  simp only [fileWriteAttribs, List.flatMap_cons, List.append_assoc, List.cons_append,
    List.nil_append]

variable {attribs : List Attrib}

theorem read_attrs_written (names : ∀ attr ∈ attribs, isIdentifier attr.name)
    (values : ∀ attr ∈ attribs, 34 ∉ attr.data ∧ 0 ∉ attr.data) (ret : TagEnd)
    (rest : List Byte) :
    readAttrs (fileWriteAttribs attribs ++ (tagEndText ret ++ rest)) =
      (attrPairs attribs, some (ret, rest)) := by
  induction attribs with
  | nil => exact read_attrs_closed (read_attr_end ret rest)
  | cons attr others ih =>
      have name := names attr List.mem_cons_self
      have value := values attr List.mem_cons_self
      have later := ih (fun other member => names other (List.mem_cons_of_mem _ member))
        (fun other member => values other (List.mem_cons_of_mem _ member))
      rw [file_write_attribs_cons]
      generalize fileWriteAttribs others ++ (tagEndText ret ++ rest) = behind at later
      have step : readAttr (32 :: (attr.name ++ [61, 34] ++ attr.data ++ [34] ++ behind)) =
          .attr attr.name attr.data none behind := by
        rw [read_attr_after_space, read_attr_written name value.1 value.2]
      rw [read_attrs_more step, later]
      rfl

theorem read_tag_rest_written (names : ∀ attr ∈ attribs, isIdentifier attr.name)
    (values : ∀ attr ∈ attribs, 34 ∉ attr.data ∧ 0 ∉ attr.data) (ret : TagEnd)
    (rest : List Byte) :
    readTagRest (fileWriteAttribs attribs ++ (tagEndText ret ++ rest)) =
      (attrPairs attribs, some (ret, rest)) := by
  cases attribs with
  | nil =>
      have closed := tag_end_text ret rest
      rw [readTagRest, fileWriteAttribs, List.flatMap_nil, List.nil_append, closed]
      rfl
  | cons attr others =>
      have name := names attr List.mem_cons_self
      have value := values attr List.mem_cons_self
      have later := read_attrs_written
        (fun other member => names other (List.mem_cons_of_mem _ member))
        (fun other member => values other (List.mem_cons_of_mem _ member)) ret rest
      rw [file_write_attribs_cons]
      generalize fileWriteAttribs others ++ (tagEndText ret ++ rest) = behind at later
      have notClosed : ∀ text : List Byte, tagEnd (32 :: text) = none := fun _ => rfl
      rw [readTagRest, notClosed]
      simp only [List.drop_succ_cons, List.drop_zero]
      rw [read_attrs_more (read_attr_written name value.1 value.2 behind), later]
      rfl

theorem name_end_written (attribs : List Attrib) (ret : TagEnd) (rest : List Byte) :
    nameEnd (fileWriteAttribs attribs ++ (tagEndText ret ++ rest)) = true := by
  cases attribs with
  | nil =>
      rw [fileWriteAttribs, List.flatMap_nil, List.nil_append, nameEnd,
        tag_end_text_elems_end, Bool.or_true]
  | cons attr others =>
      rw [file_write_attribs_cons]
      rfl

theorem add_attrs_open (node : OpenNode) (above : List OpenNode) (attribs : List Attrib) :
    addAttrs (node :: above) (attrPairs attribs) =
      { node with attribs := node.attribs ++ attribs.map Attrib.asRead } :: above := by
  induction attribs generalizing node with
  | nil => simp only [attrPairs, addAttrs, List.map_nil, List.foldl_nil, List.append_nil]
  | cons attr others ih =>
      have first : addAttrs (node :: above) (attrPairs (attr :: others)) =
          addAttrs ({ node with attribs := node.attribs ++ [attr.asRead] } :: above)
            (attrPairs others) := rfl
      rw [first, ih]
      simp only [List.append_assoc, List.singleton_append, List.map_cons]

def opened (name : List Byte) (attribs : List Attrib) : OpenNode :=
  ⟨name, attribs.map Attrib.asRead, none, .null⟩

def behindStart (rest name : List Byte) (attribs : List Attrib) (names : List (List Byte))
    (nodes : List OpenNode) : TagEnd → Reader
  | .elesEnd => ⟨rest, name :: names, opened name attribs :: nodes⟩
  | .eleeEnd => ⟨rest, names, streamEndElement (opened name attribs :: nodes)⟩

variable {name : List Byte} {data : Option (List Byte)} {fChild : Xmln}

theorem read_element_start_written (fits : NodeFits name attribs data fChild) (ret : TagEnd)
    (rest : List Byte) {names : List (List Byte)} (nodes : List OpenNode)
    (shallow : names.length < 1023) :
    readElementStart ⟨name ++ (fileWriteAttribs attribs ++ (tagEndText ret ++ rest)), names,
      nodes⟩ = .ok (behindStart rest name attribs names nodes ret, ret) := by
  have stops := name_end_written attribs ret rest
  have more : fileWriteAttribs attribs ++ (tagEndText ret ++ rest) ≠ [] := by
    intro nothing
    exact tag_end_text_more ret rest (List.append_eq_nil_iff.mp nothing).2
  have named := read_name_identifier fits.name stops more
    fun c rest plain => name_passes_name_end rest plain
  have room : ¬maxStackDepth ≤ names.length + 1 := by
    rw [maxStackDepth]
    omega
  have count : (attrPairs attribs).length = attribs.length := List.length_map _
  have few := fits.few
  have fit : attrsFit (attrPairs attribs) true := by
    rw [attrsFit, count, maxAttrNum]
    constructor
    · omega
    · intro _
      omega
  have added : addAttrs (xmlNodeAddNew nodes name) (attrPairs attribs) =
      opened name attribs :: nodes := by
    rw [xmlNodeAddNew, add_attrs_open, List.nil_append]
    rfl
  rw [readElementStart, named]
  simp only
  rw [if_neg room, readStartTag,
    read_tag_rest_written fits.attrNames fits.attrData ret rest]
  simp only [Option.isSome_some]
  rw [if_pos fit]
  cases ret with
  | elesEnd => rw [Reader.start, added, behindStart]
  | eleeEnd => rw [Reader.start, added, behindStart]

end StartTags

section OnePass

variable {name : List Byte} {names : List (List Byte)} {nodes : List OpenNode}

theorem identifier_head (identifier : isIdentifier name) :
    ∃ c others, name = c :: others ∧ PlainByte c := by
  rcases identifier with ⟨notEmpty, every⟩
  cases name with
  | nil => exact absurd rfl notEmpty
  | cons c others => exact ⟨c, others, rfl, name_byte_plain (every c List.mem_cons_self)⟩

theorem read_pass_opening (identifier : isIdentifier name) (more : List Byte) :
    readPass ⟨60 :: (name ++ more), names, nodes⟩ = readOpening ⟨name ++ more, names, nodes⟩ := by
  rcases identifier_head identifier with ⟨c, others, rfl, plain⟩
  have notBang : isXmlCommentStart (60 :: (c :: others ++ more)) = false := by
    rw [isXmlCommentStart, starts_with_two, List.cons_append, starts_with_two,
      beq_eq_false_iff_ne.mpr plain.notBang.symm]
    rfl
  have noSpace : atSpace (60 :: (c :: others ++ more)) = false := rfl
  have gap : gapOff (60 :: (c :: others ++ more)) = some (60 :: (c :: others ++ more)) := by
    rw [gapOff, spaces_off_here noSpace, commentOff, notBang, if_neg Bool.false_ne_true,
      Option.map_some, spaces_off_here noSpace]
  have opens : startsWith [47] (c :: others ++ more) = false := by
    rw [List.cons_append, starts_with_one, beq_eq_false_iff_ne.mpr plain.notSlash.symm]
  exact @read_pass_start_tag ⟨_, names, nodes⟩ _ gap opens

theorem read_opening_written {attribs : List Attrib} {data : Option (List Byte)} {fChild : Xmln}
    (fits : NodeFits name attribs data fChild) (rest : List Byte)
    (shallow : names.length < 1023) :
    readOpening ⟨name ++ (fileWriteAttribs attribs ++ (tagEndText .elesEnd ++ rest)), names,
      nodes⟩ = readContent ⟨rest, name :: names, opened name attribs :: nodes⟩ := by
  have start := read_element_start_written fits .elesEnd rest nodes shallow
  rcases identifier_head fits.name with ⟨c, others, rfl, plain⟩
  have noSpace : ∀ more, atSpace (c :: others ++ more) = false := fun _ => plain.notSpace
  rw [readOpening]
  simp only [spaces_off_here (noSpace _)]
  simp only [List.cons_append] at start ⊢
  rw [start]
  rfl

theorem read_opening_empty {attribs : List Attrib} {data : Option (List Byte)} {fChild : Xmln}
    (fits : NodeFits name attribs data fChild) (rest : List Byte)
    (shallow : names.length < 1023) :
    readOpening ⟨name ++ (fileWriteAttribs attribs ++ (tagEndText .eleeEnd ++ rest)), names,
      nodes⟩ = .ok (Reader.finishOrAgain
        ⟨rest, names, streamEndElement (opened name attribs :: nodes)⟩) := by
  have start := read_element_start_written fits .eleeEnd rest nodes shallow
  rcases identifier_head fits.name with ⟨c, others, rfl, plain⟩
  have noSpace : ∀ more, atSpace (c :: others ++ more) = false := fun _ => plain.notSpace
  rw [readOpening]
  simp only [spaces_off_here (noSpace _)]
  simp only [List.cons_append] at start ⊢
  rw [start]
  rfl

theorem read_end_tag_written (identifier : isIdentifier name) (rest : List Byte) :
    readEndTag name (name ++ ([62] ++ rest)) = some rest := by
  have stops : endNameEnd ([62] ++ rest) = true := rfl
  have named := read_name_identifier identifier stops (List.cons_ne_nil _ _)
    fun c rest plain => name_passes_end_name_end rest plain
  have same : strcasecmpEq name name = true := beq_self_eq_true _
  rw [readEndTag, named]
  simp only [same]
  rfl

theorem read_element_end_written (identifier : isIdentifier name) (rest : List Byte) :
    readElementEnd ⟨name ++ ([62] ++ rest), name :: names, nodes⟩ =
      .ok ⟨rest, names, streamEndElement nodes⟩ := by
  rw [readElementEnd]
  simp only [read_end_tag_written identifier]

theorem read_pass_closing (identifier : isIdentifier name) (rest : List Byte) :
    readPass ⟨endTag name ++ rest, name :: names, nodes⟩ =
      .ok (Reader.finishOrAgain ⟨rest, names, streamEndElement nodes⟩) := by
  have ended := @read_element_end_written name names nodes identifier rest
  have spread : endTag name ++ rest = 60 :: 47 :: (name ++ ([62] ++ rest)) := by
    simp only [endTag, List.append_assoc, List.cons_append, List.nil_append]
  have pass : readPass ⟨60 :: 47 :: (name ++ ([62] ++ rest)), name :: names, nodes⟩ =
      readClosing ⟨name ++ ([62] ++ rest), name :: names, nodes⟩ := read_pass_end_tag rfl
  rw [spread, pass]
  rcases identifier_head identifier with ⟨c, others, rfl, plain⟩
  have noSpace : ∀ more, atSpace (c :: others ++ more) = false := fun _ => plain.notSpace
  rw [readClosing]
  simp only [spaces_off_here (noSpace _)]
  simp only [List.cons_append] at ended ⊢
  rw [ended]
  rfl

theorem read_content_tag {rest : List Byte} (tag : startsWith [60] rest = true) :
    readContent ⟨rest, names, nodes⟩ = .ok (.again ⟨rest, names, nodes⟩) := by
  cases rest with
  | nil => cases tag
  | cons c rest =>
      have here : c = 60 := by
        rw [starts_with_one, beq_iff_eq] at tag
        exact tag.symm
      subst here
      have noSpace : atSpace (60 :: rest) = false := rfl
      rw [readContent]
      simp only [spaces_off_here noSpace, tag, if_true]

theorem read_content_text {text : List Byte} (readable : isText text)
    (identifier : isIdentifier name) (rest : List Byte) :
    readContent ⟨text ++ (endTag name ++ rest), name :: names, nodes⟩ =
      .ok (.again ⟨rest, names, streamEndElement (streamCharData text nodes)⟩) := by
  rcases readable with ⟨notEmpty, noSpace, noTag, noNul⟩
  have ended := @read_element_end_written name names (streamCharData text nodes) identifier rest
  have spread : endTag name ++ rest = 60 :: 47 :: (name ++ ([62] ++ rest)) := by
    simp only [endTag, List.append_assoc, List.cons_append, List.nil_append]
  rw [spread]
  generalize name ++ ([62] ++ rest) = behind at ended
  have passes : ∀ c ∈ text, ∀ rest, startsWith [60] (c :: rest) = false := by
    intro c member rest
    rw [starts_with_one, beq_eq_false_iff_ne]
    rintro rfl
    exact noTag member
  have stops : startsWith [60] (60 :: 47 :: behind) = true := rfl
  have left : dropUntil (startsWith [60]) (text ++ 60 :: 47 :: behind) = 60 :: 47 :: behind := by
    rw [drop_until_past passes, drop_until_here stops]
  have taken : takeUntil (startsWith [60]) (text ++ 60 :: 47 :: behind) = text := by
    rw [take_until_past passes, take_until_here stops, List.append_nil]
  have slash : startsWith [47] (47 :: behind) = true := rfl
  cases text with
  | nil => exact absurd rfl notEmpty
  | cons c others =>
      have noTagHere := passes c List.mem_cons_self (others ++ 60 :: 47 :: behind)
      have noSpaceHere : atSpace (c :: others ++ 60 :: 47 :: behind) = false := noSpace
      rw [readContent]
      simp only [spaces_off_here noSpaceHere]
      simp only [List.cons_append] at left taken noTagHere ⊢
      simp only [noTagHere]
      rw [if_neg Bool.false_ne_true, readCharData]
      simp only [left, taken, cstring_of_free noNul, slash, if_true, List.drop_succ_cons,
        List.drop_zero]
      rw [ended]
      rfl

end OnePass

section Trees

variable {name : List Byte} {attribs : List Attrib} {data : Option (List Byte)} {fChild : Xmln}
  {rest : List Byte} {names : List (List Byte)} {nodes : List OpenNode}

theorem read_elements_at_end : readElements ⟨[], [], nodes⟩ = .ok ⟨[], [], nodes⟩ :=
  read_elements_finished rfl

/-- Behind the root nothing but the end follows, so it is the same whether the parser
stops there or looks for more. -/
theorem read_elements_finish_or_again {reader : Reader}
    (pass : readPass reader = .ok (Reader.finishOrAgain ⟨rest, names, nodes⟩))
    (inside : names ≠ [] ∨ rest = []) :
    readElements reader = readElements ⟨rest, names, nodes⟩ := by
  by_cases bottom : names = []
  · have nothing : rest = [] := inside.resolve_left fun above => above bottom
    subst bottom
    subst nothing
    rw [read_elements_finished pass, read_elements_at_end]
  · rw [Reader.finishOrAgain, if_neg bottom] at pass
    exact read_elements_again pass

theorem read_elements_empty (fits : NodeFits name attribs data fChild)
    (shallow : names.length < 1023) (inside : names ≠ [] ∨ rest = []) :
    readElements ⟨60 :: (name ++ (fileWriteAttribs attribs ++ (tagEndText .eleeEnd ++ rest))),
      names, nodes⟩ =
      readElements ⟨rest, names, streamEndElement (opened name attribs :: nodes)⟩ := by
  apply read_elements_finish_or_again _ inside
  rw [read_pass_opening fits.name, read_opening_empty fits rest shallow]

theorem read_elements_text {text : List Byte} (fits : NodeFits name attribs data fChild)
    (readable : isText text) (shallow : names.length < 1023) :
    readElements ⟨60 :: (name ++ (fileWriteAttribs attribs ++ (tagEndText .elesEnd ++
      (text ++ (endTag name ++ rest))))), names, nodes⟩ =
      readElements ⟨rest, names,
        streamEndElement ({ opened name attribs with data := some text } :: nodes)⟩ := by
  apply read_elements_again
  rw [read_pass_opening fits.name, read_opening_written fits _ shallow,
    read_content_text readable fits.name]
  rfl

theorem read_elements_parent (fits : NodeFits name attribs data fChild)
    (shallow : names.length < 1023) (inside : names ≠ [] ∨ rest = [])
    (tag : startsWith [60] (markup fChild ++ (endTag name ++ rest)) = true)
    (below : ∀ parent above,
      readElements ⟨markup fChild ++ (endTag name ++ rest), name :: names, parent :: above⟩ =
        readElements ⟨endTag name ++ rest, name :: names,
          parent.addChild fChild.asRead :: above⟩) :
    readElements ⟨60 :: (name ++ (fileWriteAttribs attribs ++ (tagEndText .elesEnd ++
      (markup fChild ++ (endTag name ++ rest))))), names, nodes⟩ =
      readElements ⟨rest, names,
        streamEndElement ((opened name attribs).addChild fChild.asRead :: nodes)⟩ := by
  have start : readPass ⟨60 :: (name ++ (fileWriteAttribs attribs ++ (tagEndText .elesEnd ++
      (markup fChild ++ (endTag name ++ rest))))), names, nodes⟩ =
      .ok (.again ⟨markup fChild ++ (endTag name ++ rest), name :: names,
        opened name attribs :: nodes⟩) := by
    rw [read_pass_opening fits.name, read_opening_written fits _ shallow, read_content_tag tag]
  rw [read_elements_again start, below]
  exact read_elements_finish_or_again (read_pass_closing fits.name rest) inside

theorem markup_node (name : List Byte) (attribs : List Attrib) (data : Option (List Byte))
    (fChild next : Xmln) (rest : List Byte) :
    markup (.node name attribs data fChild next) ++ rest =
      60 :: (name ++ (fileWriteAttribs attribs ++
        ((if fChild = .null then leafEnd name data
          else tagEndText .elesEnd ++ markup fChild ++ endTag name) ++
            (markup next ++ rest)))) := by
  simp only [markup, List.append_assoc, List.cons_append, List.nil_append]

theorem read_elements_node (fits : NodeFits name attribs data fChild)
    (shallow : names.length < 1023) (inside : names ≠ [] ∨ rest = [])
    (below : ∀ rest parent above,
      readElements ⟨markup fChild ++ rest, name :: names, parent :: above⟩ =
        readElements ⟨rest, name :: names, parent.addChild fChild.asRead :: above⟩) :
    readElements ⟨60 :: (name ++ (fileWriteAttribs attribs ++
        ((if fChild = .null then leafEnd name data
          else tagEndText .elesEnd ++ markup fChild ++ endTag name) ++ rest))), names, nodes⟩ =
      readElements ⟨rest, names, streamEndElement
        (⟨name, attribs.map Attrib.asRead, data, fChild.asRead⟩ :: nodes)⟩ := by
  by_cases childless : fChild = .null
  · rw [if_pos childless]
    subst childless
    cases data with
    | none => exact read_elements_empty fits shallow inside
    | some text =>
        rw [leafEnd]
        simp only [List.append_assoc]
        rw [read_elements_text fits (fits.text text rfl).2 shallow]
        rfl
  · have noText : data = none := by
      cases data with
      | none => rfl
      | some text => exact absurd (fits.text text rfl).1 childless
    subst noText
    rw [if_neg childless]
    simp only [List.append_assoc]
    have tag : startsWith [60] (markup fChild ++ (endTag name ++ rest)) = true := by
      cases fChild with
      | null => exact absurd rfl childless
      | node => rfl
    exact read_elements_parent fits shallow inside tag (below (endTag name ++ rest))

theorem read_elements_markup {tree : Xmln} (fits : tree.Every NodeFits) (rest : List Byte)
    (inside : names ≠ []) (shallow : names.length + tree.depth ≤ 1023) (parent : OpenNode)
    (above : List OpenNode) :
    readElements ⟨markup tree ++ rest, names, parent :: above⟩ =
      readElements ⟨rest, names, parent.addChild tree.asRead :: above⟩ := by
  induction tree generalizing rest names parent above with
  | null =>
      rw [OpenNode.addChild, Xmln.asRead, Xmln.append_null]
      rfl
  | node name attribs data fChild next belowIh behindIh =>
      rcases fits with ⟨own, fitsBelow, fitsBehind⟩
      have deep := Nat.le_max_left (fChild.depth + 1) next.depth
      have long := Nat.le_max_right (fChild.depth + 1) next.depth
      rw [Xmln.depth] at shallow
      have below := fun rest => belowIh fitsBelow rest (List.cons_ne_nil name names)
        (by rw [List.length_cons]; omega)
      rw [markup_node, read_elements_node own (by omega) (.inl inside) below, streamEndElement,
        behindIh fitsBehind rest inside (by omega)]
      simp only [OpenNode.addChild, OpenNode.sealed, Xmln.asRead, Xmln.append_assoc, Xmln.append]

theorem header_off_element (identifier : isIdentifier name) (more : List Byte) :
    headerOff (60 :: (name ++ more)) = some (60 :: (name ++ more)) := by
  rcases identifier_head identifier with ⟨c, others, rfl, plain⟩
  have noSpace : atSpace (60 :: (c :: others ++ more)) = false := rfl
  have noHeader : isXmlhStart (60 :: (c :: others ++ more)) = false := by
    rw [isXmlhStart, starts_with_two, List.cons_append, starts_with_one,
      beq_eq_false_iff_ne.mpr plain.notQuestion.symm]
    rfl
  rw [headerOff]
  simp only [spaces_off_here noSpace, noHeader]
  rfl

/-- The parser reads back the text of every tree within its limits. -/
theorem read_document_markup {tree : Xmln} (root : tree.IsRoot) (fits : tree.Every NodeFits)
    (shallow : tree.depth ≤ 1023) : readDocument (markup tree) = .ok (some tree.asRead) := by
  rcases is_root_node root with ⟨name, attribs, data, fChild, rfl⟩
  rcases fits with ⟨own, fitsBelow, _⟩
  have deep : fChild.depth + 1 ≤ 1023 := Nat.le_trans (Nat.le_max_left _ _) shallow
  have below := fun rest => @read_elements_markup [name] fChild fitsBelow rest
    (List.cons_ne_nil name []) (by rw [List.length_singleton]; omega)
  have read := @read_elements_node name attribs data fChild [] [] [] own (by decide) (.inr rfl)
    below
  have whole := markup_node name attribs data fChild .null []
  simp only [markup, List.append_nil] at whole read ⊢
  rw [readDocument, whole, header_off_element own.name]
  simp only [read, read_elements_at_end, streamEndElement, currentTree]
  rfl

end Trees

end Gk7102.Xml
