import Gk7102.XmlReadBack
import Gk7102.XmlSimulation

/-!
# Writing a tree and parsing what was written

Both writers put the text of a tree whose data they may have changed: `xml_write_buf`
puts none of it, and `xml_file_save` that of the childless nodes. The parser reads back
what was put.
-/

namespace Gk7102.Xml

open Gk7102.ByteBlocks

set_option autoImplicit false

section Comparison

def textOf (data : Option (List Byte)) : List Byte := data.getD []

def SameTree : Xmln → Xmln → Prop
  | .null, .null => True
  | .node name attribs data fChild next, .node name' attribs' data' fChild' next' =>
      name = name' ∧ attrPairs attribs = attrPairs attribs' ∧ textOf data = textOf data' ∧
        SameTree fChild fChild' ∧ SameTree next next'
  | _, _ => False

def Xmln.withData (put : Option (List Byte) → Xmln → Option (List Byte)) : Xmln → Xmln
  | .null => .null
  | .node name attribs data fChild next =>
      .node name attribs (put data fChild) (fChild.withData put) (next.withData put)

variable {put : Option (List Byte) → Xmln → Option (List Byte)}

theorem attr_pairs_as_read (attribs : List Attrib) :
    attrPairs (attribs.map Attrib.asRead) = attrPairs attribs := by
  simp only [attrPairs, List.map_map]
  rfl

theorem same_tree_with_data_iff (nodes : Xmln) :
    SameTree nodes (nodes.withData put).asRead ↔
      nodes.Every fun _ _ data fChild => textOf data = textOf (put data fChild) := by
  induction nodes with
  | null => exact Iff.rfl
  | node name attribs data fChild next below behind =>
      simp only [Xmln.withData, Xmln.asRead, SameTree, Xmln.Every, attr_pairs_as_read, below,
        behind, true_and]

theorem every_with_data
    {holds : List Byte → List Attrib → Option (List Byte) → Xmln → Prop} {nodes : Xmln}
    (every : nodes.Every fun name attribs data fChild =>
      holds name attribs (put data fChild) (fChild.withData put)) :
    (nodes.withData put).Every holds := by
  induction nodes with
  | null => trivial
  | node name attribs data fChild next below behind =>
      rcases every with ⟨own, everyBelow, everyBehind⟩
      exact ⟨own, below everyBelow, behind everyBehind⟩

theorem depth_with_data (nodes : Xmln) : (nodes.withData put).depth = nodes.depth := by
  induction nodes with
  | null => rfl
  | node name attribs data fChild next below behind =>
      rw [Xmln.withData, Xmln.depth, below, behind, Xmln.depth]

theorem is_root_with_data {tree : Xmln} (root : tree.IsRoot) : (tree.withData put).IsRoot := by
  rcases is_root_node root with ⟨name, attribs, data, fChild, rfl⟩
  trivial

theorem with_data_null_iff (nodes : Xmln) : nodes.withData put = .null ↔ nodes = .null := by
  cases nodes with
  | null => exact Iff.rfl
  | node => constructor <;> intro same <;> cases same

end Comparison

section WriteBuf

/-- Characters that belong to the markup. -/
def isMarkup (c : Byte) : Bool := c == 60 || c == 62 || c == 38 || c == 34 || c == 39

def isPlainText (text : List Byte) : Prop :=
  atSpace text = false ∧ ∀ c ∈ text, isMarkup c = false ∧ c ≠ 0

instance (text : List Byte) : Decidable (isPlainText text) :=
  @instDecidableAnd _ _ _ (List.decidableBAll _ text)

structure PlainNode (name : List Byte) (attribs : List Attrib) (data : Option (List Byte))
    (fChild : Xmln) : Prop where
  name : isIdentifier name
  attrNames : ∀ attr ∈ attribs, isIdentifier attr.name
  attrData : ∀ attr ∈ attribs, isPlainText attr.data
  few : attribs.length < 64
  text : isPlainText (textOf data)
  childless : textOf data ≠ [] → fChild = .null

/-- `xml_stream_parse` of the output of `xml_write_buf` gives an equal tree. -/
def WriteBufReadsBack (tree : Xmln) : Prop :=
  ∃ text parsed, xmlWriteBuf tree = some text ∧ xmlStreamParse text = .ok (some parsed) ∧
    SameTree tree parsed

def noData (_ : Option (List Byte)) (_ : Xmln) : Option (List Byte) := none

theorem write_buf_attribs_eq (name behind : List Byte) {attribs : List Attrib}
    (only : ∀ entry ∈ attribs, entry.type = .attrib) :
    writeBufAttribs name behind attribs = fileWriteAttribs attribs ++ behind := by
  induction attribs with
  | nil => rfl
  | cons attr others ih =>
      have own := only attr List.mem_cons_self
      have later := ih fun entry member => only entry (List.mem_cons_of_mem _ member)
      cases attr with
      | mk type attrName attrData =>
          simp only at own
          subst own
          rw [writeBufAttribs, later]
          simp only [fileWriteAttribs, List.flatMap_cons, List.append_assoc]

theorem write_buf_nodes_eq {nodes : Xmln} (only : nodes.OnlyAttributes) :
    writeBufNodes nodes = markup (nodes.withData noData) := by
  induction nodes with
  | null => rfl
  | node name attribs data fChild next below behind =>
      rcases only with ⟨own, onlyBelow, onlyBehind⟩
      rw [writeBufNodes, write_buf_attribs_eq _ _ own, below onlyBelow, behind onlyBehind,
        Xmln.withData, markup]
      simp only [with_data_null_iff, leafEnd, noData, tagEndText, endTag, List.append_assoc]

theorem plain_data_fits {data : List Byte} (plain : isPlainText data) :
    34 ∉ data ∧ 0 ∉ data := by
  constructor
  · intro member
    have quote := (plain.2 34 member).1
    cases quote
  · intro member
    exact (plain.2 0 member).2 rfl

theorem plain_nodes_fit {nodes : Xmln} (plain : nodes.Every PlainNode) :
    (nodes.withData noData).Every NodeFits := by
  apply every_with_data
  apply every_imp plain
  intro name attribs data fChild node
  exact {
    name := node.name
    attrNames := node.attrNames
    attrData := fun attr member => plain_data_fits (node.attrData attr member)
    few := node.few
    text := fun text member => nomatch member }

/-- Whatever text the tree has, what comes back has none. -/
theorem write_buf_parse {tree : Xmln} (built : Built tree) (plain : tree.Every PlainNode)
    (shallow : tree.depth ≤ 1023) :
    ∃ text, xmlWriteBuf tree = some text ∧
      xmlStreamParse text = .ok (some (tree.withData noData).asRead) := by
  have root := built_is_root built
  have only := built_only_attributes built
  rcases is_root_node root with ⟨name, attribs, data, fChild, rfl⟩
  refine ⟨_, rfl, ?_⟩
  rw [write_buf_nodes_eq only, xml_stream_parse_eq]
  exact read_document_markup (is_root_with_data root) (plain_nodes_fit plain)
    (by rw [depth_with_data]; exact shallow)

/-- The output reads back exactly when no node has text: the text of a node is in `data`,
and `xml_write_buf` looks for it among the entries of `f_attrib`. -/
theorem write_buf_reads_back_iff {tree : Xmln} (built : Built tree)
    (plain : tree.Every PlainNode) (shallow : tree.depth ≤ 1023) :
    WriteBufReadsBack tree ↔ tree.Every fun _ _ data _ => textOf data = [] := by
  rcases write_buf_parse built plain shallow with ⟨text, written, parsed⟩
  have same : SameTree tree (tree.withData noData).asRead ↔
      tree.Every fun _ _ data _ => textOf data = [] := same_tree_with_data_iff tree
  rw [← same]
  constructor
  · rintro ⟨text', parsed', written', read, alike⟩
    rw [written] at written'
    cases written'
    rw [parsed] at read
    cases read
    exact alike
  · intro alike
    exact ⟨text, _, written, parsed, alike⟩

/-- `<a b="c"><d/></a>` comes back as it was. -/
theorem write_buf_without_text_reads_back :
    WriteBufReadsBack (.node [97] [⟨.attrib, [98], [99]⟩] none
      (.node [100] [] none .null .null) .null) := by
  have built := ((Built.root [97]).call [] (.xmlAttrAdd [98] [99])).call [] (.xmlNodeAddNew [100])
  apply (write_buf_reads_back_iff built ⟨?_, ⟨?_, trivial, trivial⟩, trivial⟩ (by decide)).mpr
  · exact ⟨rfl, ⟨rfl, trivial, trivial⟩, trivial⟩
  · exact ⟨by decide, by decide, by decide, by decide, by decide, by decide⟩
  · exact ⟨by decide, by decide, by decide, by decide, by decide, by decide⟩

/-- The node `a` with the text `x` is written as `<a/>`. -/
theorem write_buf_loses_text :
    Built (.node [97] [] (some [120]) .null .null) ∧
      (Xmln.node [97] [] (some [120]) .null .null).Every PlainNode ∧
      (Xmln.node [97] [] (some [120]) .null .null).depth ≤ 1023 ∧
      ¬WriteBufReadsBack (.node [97] [] (some [120]) .null .null) := by
  have built := (Built.root [97]).call [] (.xmlNodeSetData [120])
  have plain : (Xmln.node [97] [] (some [120]) .null .null).Every PlainNode :=
    ⟨⟨by decide, by decide, by decide, by decide, by decide, by decide⟩, trivial, trivial⟩
  refine ⟨built, plain, by decide, ?_⟩
  rintro ⟨text, parsed, written, read, alike⟩
  rcases write_buf_parse built plain (by decide) with ⟨text', written', read'⟩
  have sameText := Option.some.inj (written.symm.trans written')
  rw [sameText, read'] at read
  cases read
  cases alike.2.2.1

end WriteBuf

section File

/-- A node that `xml_file_save` writes so that it can be read back. -/
structure SavableNode (name : List Byte) (attribs : List Attrib) (data : Option (List Byte))
    (fChild : Xmln) : Prop where
  name : isIdentifier name
  attrNames : ∀ attr ∈ attribs, isIdentifier attr.name
  attrData : ∀ attr ∈ attribs, 34 ∉ attr.data ∧ 0 ∉ attr.data
  few : attribs.length < 64
  leaf : fChild = .null → ∃ text, data = some text ∧ isText text
  parent : fChild ≠ .null → textOf data = []

/-- The data `file_write_node` writes: that of a node without children. -/
def leafData (data : Option (List Byte)) (fChild : Xmln) : Option (List Byte) :=
  if fChild = .null then data else none

/-- What stands between the start tag and the end tag. -/
def innerText (data : Option (List Byte)) (fChild : Xmln) : List Byte :=
  if fChild = .null then data.getD [] else markup (fChild.withData leafData)

theorem attribs_col_eq (attribs : List Attrib) (col : Nat) :
    attribsCol attribs col = col + (fileWriteAttribs attribs).length := by
  induction attribs generalizing col with
  | nil => rfl
  | cons attr others ih =>
      have first : attribsCol (attr :: others) col =
          attribsCol others (col + 1 + (attr.name.length + (attr.data.length + 3))) := rfl
      rw [first, ih]
      simp only [fileWriteAttribs, List.flatMap_cons, List.length_append, List.length_cons,
        List.length_nil]
      omega

theorem not_header_name {name : List Byte} (identifier : isIdentifier name) :
    isHeaderName name = false := by
  rcases identifier_head identifier with ⟨c, others, rfl, plain⟩
  rw [isHeaderName, starts_with_one, starts_with_one, beq_eq_false_iff_ne.mpr plain.notBang.symm,
    beq_eq_false_iff_ne.mpr plain.notQuestion.symm]
  rfl

theorem file_write_inner_eq {name : List Byte} {attribs : List Attrib}
    {data : Option (List Byte)} {fChild : Xmln} (savable : SavableNode name attribs data fChild)
    {children : Nat → Option (List Byte × Nat)} {col : Nat}
    (below : children col = some (markup (fChild.withData leafData),
      col + (markup (fChild.withData leafData)).length)) :
    fileWriteInner name data fChild children col =
      some (innerText data fChild, col + (innerText data fChild).length) := by
  rw [fileWriteInner, not_header_name savable.name, innerText]
  by_cases childless : fChild = .null
  · rcases savable.leaf childless with ⟨text, rfl, _⟩
    rw [if_pos childless, if_pos childless]
    rfl
  · rw [if_neg childless, if_neg childless, below]

theorem markup_savable {name : List Byte} {attribs : List Attrib} {data : Option (List Byte)}
    {fChild : Xmln} (savable : SavableNode name attribs data fChild) (next : Xmln) :
    markup ((Xmln.node name attribs data fChild next).withData leafData) =
      [60] ++ name ++ fileWriteAttribs attribs ++ [62] ++ innerText data fChild ++
        endTag name ++ markup (next.withData leafData) := by
  simp only [Xmln.withData, markup, with_data_null_iff, innerText]
  by_cases childless : fChild = .null
  · rcases savable.leaf childless with ⟨text, rfl, _⟩
    rw [if_pos childless, if_pos childless, leafData, if_pos childless, leafEnd, tagEndText,
      Option.getD_some]
    simp only [List.append_assoc]
  · rw [if_neg childless, if_neg childless, tagEndText]
    simp only [List.append_assoc]

theorem file_write_nodes_eq {nodes : Xmln} (savable : nodes.Every SavableNode) (col : Nat) :
    fileWriteNodes nodes col = some (markup (nodes.withData leafData),
      col + (markup (nodes.withData leafData)).length) := by
  induction nodes generalizing col with
  | null => rfl
  | node name attribs data fChild next below behind =>
      rcases savable with ⟨own, savableBelow, savableBehind⟩
      have closing : ∀ col, fileWriteClosing name col =
          (endTag name, col + (name.length + 3)) := by
        intro col
        rw [fileWriteClosing, not_header_name own.name, endTag]
        rfl
      rw [fileWriteNodes, file_write_inner_eq own (below savableBelow _)]
      simp only [closing, behind savableBehind, markup_savable own, attribs_col_eq]
      rw [endTag]
      simp only [List.length_append, List.length_cons, List.length_nil, Option.some.injEq,
        Prod.mk.injEq, true_and]
      omega

theorem savable_nodes_fit {nodes : Xmln} (savable : nodes.Every SavableNode) :
    (nodes.withData leafData).Every NodeFits := by
  apply every_with_data
  apply every_imp savable
  intro name attribs data fChild node
  have text : ∀ text ∈ leafData data fChild, fChild.withData leafData = .null ∧ isText text := by
    intro text member
    rw [leafData] at member
    split at member
    · rename_i childless
      rcases node.leaf childless with ⟨own, rfl, readable⟩
      cases member
      exact ⟨(with_data_null_iff fChild).mpr childless, readable⟩
    · cases member
  exact ⟨node.name, node.attrNames, node.attrData, node.few, text⟩

theorem savable_same {nodes : Xmln} (savable : nodes.Every SavableNode) :
    SameTree nodes (nodes.withData leafData).asRead := by
  apply (same_tree_with_data_iff nodes).mpr
  apply every_imp savable
  intro name attribs data fChild node
  by_cases childless : fChild = .null
  · rw [leafData, if_pos childless]
  · rw [leafData, if_neg childless, node.parent childless]
    rfl

theorem identifier_no_nul {name : List Byte} (identifier : isIdentifier name) : 0 ∉ name :=
  fun member => (name_byte_plain (identifier.2 0 member)).notNul rfl

theorem attribs_no_nul {attribs : List Attrib} (names : ∀ attr ∈ attribs, isIdentifier attr.name)
    (values : ∀ attr ∈ attribs, 34 ∉ attr.data ∧ 0 ∉ attr.data) :
    0 ∉ fileWriteAttribs attribs := by
  intro member
  rcases List.mem_flatMap.mp member with ⟨attr, present, inAttr⟩
  have name := identifier_no_nul (names attr present)
  have value := (values attr present).2
  simp only [List.mem_append, List.mem_cons, List.not_mem_nil] at inAttr
  simp only [name, value, or_false] at inAttr
  revert inAttr
  decide

theorem leaf_end_no_nul {name : List Byte} {data : Option (List Byte)}
    (identifier : isIdentifier name) (readable : ∀ text ∈ data, isText text) :
    0 ∉ leafEnd name data := by
  have inName := identifier_no_nul identifier
  cases data with
  | none =>
      change 0 ∉ ([47, 62] : List Byte)
      decide
  | some text =>
      have inText := (readable text rfl).2.2.2
      simp only [leafEnd, tagEndText, endTag, List.mem_append, List.mem_cons, List.not_mem_nil,
        inName, inText]
      decide

theorem markup_no_nul {nodes : Xmln} (fits : nodes.Every NodeFits) : 0 ∉ markup nodes := by
  induction nodes with
  | null => exact List.not_mem_nil
  | node name attribs data fChild next below behind =>
      rcases fits with ⟨own, fitsBelow, fitsBehind⟩
      have inName := identifier_no_nul own.name
      have inAttribs := attribs_no_nul own.attrNames own.attrData
      have inLeaf := leaf_end_no_nul own.name fun text member => (own.text text member).2
      have inside : 0 ∉ (if fChild = .null then leafEnd name data
          else tagEndText .elesEnd ++ markup fChild ++ endTag name) := by
        split
        · exact inLeaf
        · simp only [tagEndText, endTag, List.mem_append, List.mem_cons, List.not_mem_nil,
            inName, below fitsBelow]
          decide
      simp only [markup, List.mem_append, List.mem_cons, List.not_mem_nil, inName, inAttribs,
        inside, behind fitsBehind]
      decide

/-- The newline at the end of the file gives way to the NUL. -/
theorem xml_file_parse_line {text : List Byte} (free : 0 ∉ text) :
    xmlFileParse (text ++ [10]) = xmlStreamParse text := by
  have more : text ++ [10] ≠ [] := by
    intro nothing
    cases (List.append_eq_nil_iff.mp nothing).2
  have front : (text ++ [10]).take ((text ++ [10]).length - 1) = text := by
    rw [List.length_append, List.length_singleton, Nat.add_sub_cancel, List.take_left]
  rw [xmlFileParse, if_neg more, front, cstring_of_free free]

/-- What `xml_file_save` writes into an empty file, `xml_file_parse` reads back. -/
theorem xml_file_round_trip {tree : Xmln} (root : tree.IsRoot)
    (savable : tree.Every SavableNode) (shallow : tree.depth ≤ 1023) :
    ∃ file parsed, xmlFileSave tree = some file ∧ xmlFileParse file = .ok (some parsed) ∧
      SameTree tree parsed := by
  have fits := savable_nodes_fit savable
  have saved : xmlFileSave tree = some (markup (tree.withData leafData) ++ [10]) := by
    have written := file_write_nodes_eq savable 0
    rcases is_root_node root with ⟨name, attribs, data, fChild, rfl⟩
    have positive : 0 < (markup ((Xmln.node name attribs data fChild .null).withData
        leafData)).length := by
      rw [markup_savable savable.1]
      simp only [List.length_append, List.length_cons]
      omega
    rw [xmlFileSave, written]
    simp only [Option.bind_eq_bind, Option.bind_some, Nat.zero_add]
    rw [if_pos positive]
  refine ⟨_, _, saved, ?_, savable_same savable⟩
  rw [xml_file_parse_line (markup_no_nul fits), xml_stream_parse_eq]
  exact read_document_markup (is_root_with_data root) fits
    (by rw [depth_with_data]; exact shallow)

/-- `<a b="<>"><c>x</c><d>y></d></a>` -/
theorem xml_file_round_trip_of_three_nodes :
    ∃ file parsed,
      xmlFileSave (.node [97] [⟨.attrib, [98], [60, 62]⟩] none
        (.node [99] [] (some [120]) .null (.node [100] [] (some [121, 62]) .null .null)) .null) =
        some file ∧
      xmlFileParse file = .ok (some parsed) ∧
      SameTree (.node [97] [⟨.attrib, [98], [60, 62]⟩] none
        (.node [99] [] (some [120]) .null (.node [100] [] (some [121, 62]) .null .null)) .null)
        parsed := by
  have leaf : ∀ text, isText text → ∀ name, isIdentifier name →
      SavableNode name [] (some text) .null := by
    intro text readable name identifier
    exact ⟨identifier, by decide, by decide, by decide, fun _ => ⟨text, rfl, readable⟩,
      fun children => absurd rfl children⟩
  apply xml_file_round_trip
  · trivial
  · refine ⟨?_, ⟨?_, trivial, ?_, trivial, trivial⟩, trivial⟩
    · exact ⟨by decide, by decide, by decide, by decide, fun childless => (nomatch childless),
        fun _ => rfl⟩
    · exact leaf _ (by decide) _ (by decide)
    · exact leaf _ (by decide) _ (by decide)
  · decide

end File

end Gk7102.Xml
