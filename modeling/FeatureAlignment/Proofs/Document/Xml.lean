import FeatureAlignment.Document.Render
import FeatureAlignment.Proofs.Document.Tree

/-!
# Mapping documents are told by their XML

An XML form without line ends between tags is read back from its tree. What is absent has no element there,
and neither has an empty text or half a link. Apart from those, nothing is lost: two documents with one XML
form are equal (`MappingDocument.render_xml_eq_iff`), whatever their texts are.

* `Node.textUnder`, `Node.under`: what trees have under a tag.
* `TypeMapping.node` and the like: the tree of each part, with its lines.
* `TypeMapping.ofTrees_trees` and the like: each part is read back.
-/

namespace FeatureAlignment

namespace Xml

/-! ## Reading trees -/

namespace Node

/-- The first text under a tag. -/
def textUnder (tag : String) (trees : List Node) : Option String :=
  trees.findSome? fun
    | .leaf t text => if t = tag then some text else none
    | .element _ _ => none

/-- What the elements of a tag have inside, in order. -/
def under (tag : String) (trees : List Node) : List (List Node) :=
  trees.filterMap fun
    | .leaf _ _ => none
    | .element t content => if t = tag then some content else none

variable {α : Type} {tag t : String}

@[simp] theorem textUnder_nil : textUnder tag [] = none := rfl

@[simp] theorem textUnder_leaf (text : String) (trees : List Node) :
    textUnder tag (.leaf t text :: trees) = if t = tag then some text else textUnder tag trees := by
  by_cases h : t = tag
  · simp [textUnder, h]
  · simp [textUnder, h]

@[simp] theorem textUnder_element (content trees : List Node) :
    textUnder tag (.element t content :: trees) = textUnder tag trees := by
  simp [textUnder]

@[simp] theorem textUnder_append (trees more : List Node) :
    textUnder tag (trees ++ more) = (textUnder tag trees).or (textUnder tag more) :=
  List.findSome?_append

@[simp] theorem textUnder_elements (content : α → List Node) (xs : List α) :
    textUnder tag (xs.map fun x => .element t (content x)) = none := by
  induction xs with
  | nil => rfl
  | cons x xs ih => rw [List.map_cons, textUnder_element, ih]

@[simp] theorem textUnder_optional (text : Option String) :
    textUnder tag (text.toList.map (.leaf t)) = if t = tag then text else none := by
  cases text with
  | none => simp
  | some text => simp

@[simp] theorem under_nil : under tag [] = [] := rfl

@[simp] theorem under_leaf (text : String) (trees : List Node) :
    under tag (.leaf t text :: trees) = under tag trees := by
  simp [under]

@[simp] theorem under_element (content trees : List Node) :
    under tag (.element t content :: trees) =
      if t = tag then content :: under tag trees else under tag trees := by
  by_cases h : t = tag
  · simp [under, h]
  · simp [under, h]

@[simp] theorem under_append (trees more : List Node) :
    under tag (trees ++ more) = under tag trees ++ under tag more :=
  List.filterMap_append

@[simp] theorem under_elements (content : α → List Node) (xs : List α) :
    under tag (xs.map fun x => .element t (content x)) = if t = tag then xs.map content else [] := by
  induction xs with
  | nil => simp
  | cons x xs ih =>
    rw [List.map_cons, under_element, ih]
    by_cases h : t = tag
    · simp [h]
    · simp [h]

@[simp] theorem under_optional (text : Option String) : under tag (text.toList.map (.leaf t)) = [] := by
  cases text with
  | none => rfl
  | some text => simp

/-! ## Lines of several trees -/

theorem linesAll_append (level : Nat) (trees more : List Node) :
    linesAll level (trees ++ more) = linesAll level trees ++ linesAll level more := by
  induction trees with
  | nil => rfl
  | cons x trees ih => rw [List.cons_append, linesAll, linesAll, ih, List.append_assoc]

theorem linesAll_map (level : Nat) (node : α → Node) (xs : List α) :
    linesAll level (xs.map node) = xs.flatMap (fun x => (node x).lines level) := by
  induction xs with
  | nil => rfl
  | cons x xs ih => rw [List.map_cons, linesAll, ih, List.flatMap_cons]

end Node

theorem present_of_ne {text : Option String} (h : text ≠ some "") : present text = text := by
  cases text with
  | none => rfl
  | some s =>
    have hs : s ≠ "" := fun he => h (congrArg some he)
    simp [present, hs]

end Xml

open Xml Xml.Node

/-! ## The tree of each part -/

/-- The tags that have a text inside. -/
def textTags : List String :=
  ["prefix", "uri", "sourceType", "targetElement", "targetAttribute", "targetAttributeNode", "OCQL",
    "linkElement", "linkField", "isMultiple", "name", "value"]

/-- Whether a tag has a text inside. -/
def isTextTag (tag : String) : Bool := textTags.contains tag

/-- The tree of a namespace. -/
def Namespace.node (n : Namespace) : Node :=
  .element "Namespace" [.leaf "prefix" n.label, .leaf "uri" n.uri]

/-- The tree of a client property. -/
def ClientProperty.node (p : ClientProperty) : Node :=
  .element "ClientProperty" [.leaf "name" p.name, .leaf "value" p.value]

namespace AttributeMapping

/-- The trees of a link. -/
def linkNodes (a : AttributeMapping) : List Node :=
  a.link?.toList.flatMap fun link => [.leaf "linkElement" link.1, .leaf "linkField" link.2]

/-- The trees inside the value. -/
def valueContent (a : AttributeMapping) : List Node :=
  (present a.sourceExpression).toList.map (.leaf "OCQL") ++ a.linkNodes

/-- The trees inside an attribute mapping. -/
def trees (a : AttributeMapping) : List Node :=
  [.leaf "targetAttribute" a.targetAttribute] ++
    (present a.targetNode).toList.map (.leaf "targetAttributeNode") ++
    (present a.idExpression).toList.map (fun s => .element "idExpression" [.leaf "OCQL" s]) ++
    (if a.valueContent.isEmpty then [] else [.element "sourceExpression" a.valueContent]) ++
    (if a.isMultiple then [.leaf "isMultiple" "true"] else []) ++
    a.clientProperties.map ClientProperty.node

/-- The tree of an attribute mapping. -/
def node (a : AttributeMapping) : Node := .element "AttributeMapping" a.trees

end AttributeMapping

/-- The trees inside a type mapping. -/
def TypeMapping.trees (m : TypeMapping) : List Node :=
  [.leaf "sourceType" m.sourceType, .leaf "targetElement" m.targetElement] ++
    (if m.attributes.isEmpty then []
      else [.element "attributeMappings" (m.attributes.map AttributeMapping.node)])

/-- The tree of a type mapping. -/
def TypeMapping.node (m : TypeMapping) : Node := .element "FeatureTypeMapping" m.trees

/-! ## The lines of each part are the lines of its tree -/

theorem Namespace.xmlLines_eq (n : Namespace) : n.xmlLines = n.node.lines 2 := rfl

theorem ClientProperty.xmlLines_eq (p : ClientProperty) : p.xmlLines = p.node.lines 5 := rfl

namespace AttributeMapping

theorem valueLines_eq (a : AttributeMapping) : a.valueLines =
    linesAll 5 (if a.valueContent.isEmpty then [] else [.element "sourceExpression" a.valueContent]) := by
  unfold valueLines valueContent linkLines linkNodes ifPresent
  cases hsource : present a.sourceExpression with
  | none =>
    cases hlink : a.link? with
    | none => simp [linesAll]
    | some link => simp [linesAll, lines]
  | some s =>
    cases hlink : a.link? with
    | none => simp [linesAll, lines]
    | some link => simp [linesAll, lines]

theorem xmlLines_eq (a : AttributeMapping) : a.xmlLines = a.node.lines 4 := by
  unfold xmlLines node trees
  rw [lines]
  simp only [linesAll_append, linesAll_map, valueLines_eq]
  congr 6
  · cases hnode : present a.targetNode with
    | none => simp [ifPresent, hnode]
    | some s => simp [ifPresent, hnode, lines]
  · cases hid : present a.idExpression with
    | none => simp [ifPresent, hid]
    | some s => simp [ifPresent, hid, lines, linesAll]
  · by_cases hmultiple : a.isMultiple
    · simp [hmultiple, linesAll, lines]
    · simp [hmultiple, linesAll]

end AttributeMapping

theorem TypeMapping.xmlLines_eq (m : TypeMapping) : m.xmlLines = m.node.lines 2 := by
  have hattributes : AttributeMapping.xmlLines = fun a => a.node.lines 4 := funext AttributeMapping.xmlLines_eq
  unfold xmlLines node trees
  rw [lines, linesAll_append, hattributes]
  by_cases h : m.attributes.isEmpty
  · simp [h, linesAll, lines]
  · simp [h, linesAll, lines, linesAll_map]

namespace MappingDocument

/-- The tree of the namespaces. -/
def namespacesNode (d : MappingDocument) : Node := .element "namespaces" (d.namespaces.map Namespace.node)

/-- The tree of the type mappings. -/
def mappingsNode (d : MappingDocument) : Node := .element "typeMappings" (d.mappings.map TypeMapping.node)

theorem xmlLines_eq (d : MappingDocument) : d.xmlLines =
    ["<?xml version=\"1.0\" encoding=\"UTF-8\"?>",
      "<as:AppSchemaDataAccess xmlns:as=\"http://www.geotools.org/app-schema\">"] ++
      d.namespacesNode.lines 1 ++ d.mappingsNode.lines 1 ++ ["</as:AppSchemaDataAccess>"] := by
  have hmappings : TypeMapping.xmlLines = fun m => m.node.lines 2 := funext TypeMapping.xmlLines_eq
  unfold xmlLines namespacesNode mappingsNode
  rw [lines, lines, linesAll_map, linesAll_map, hmappings]
  rfl

end MappingDocument

/-! ## The trees fit -/

theorem fits_leaf {tag : String} (htag : IsTag tag ∧ isTextTag tag = true) (text : String) :
    Fits isTextTag (.leaf tag text) :=
  .leaf htag.1 htag.2

theorem fits_element {tag : String} (htag : IsTag tag ∧ isTextTag tag = false) {content : List Node}
    (hcontent : ∀ x ∈ content, Fits isTextTag x) : Fits isTextTag (.element tag content) :=
  .element htag.1 htag.2 hcontent

theorem fits_map {α : Type} {node : α → Node} {xs : List α} (h : ∀ x, Fits isTextTag (node x)) :
    ∀ y ∈ xs.map node, Fits isTextTag y := by
  intro y hy
  obtain ⟨x, -, rfl⟩ := List.mem_map.1 hy
  exact h x

theorem Namespace.fits_node (n : Namespace) : n.node.Fits isTextTag := by
  refine fits_element (by decide) ?_
  simp only [List.forall_mem_cons]
  exact ⟨fits_leaf (by decide) _, fits_leaf (by decide) _, List.forall_mem_nil _⟩

theorem ClientProperty.fits_node (p : ClientProperty) : p.node.Fits isTextTag := by
  refine fits_element (by decide) ?_
  simp only [List.forall_mem_cons]
  exact ⟨fits_leaf (by decide) _, fits_leaf (by decide) _, List.forall_mem_nil _⟩

namespace AttributeMapping

theorem fits_linkNodes (a : AttributeMapping) : ∀ x ∈ a.linkNodes, x.Fits isTextTag := by
  unfold linkNodes
  cases a.link? with
  | none => exact List.forall_mem_nil _
  | some link =>
    have helement : (Node.leaf "linkElement" link.1).Fits isTextTag := fits_leaf (by decide) _
    have hfield : (Node.leaf "linkField" link.2).Fits isTextTag := fits_leaf (by decide) _
    simp [helement, hfield]

theorem fits_valueContent (a : AttributeMapping) : ∀ x ∈ a.valueContent, x.Fits isTextTag :=
  List.forall_mem_append.2 ⟨fits_map (fits_leaf (by decide)), a.fits_linkNodes⟩

theorem fits_node (a : AttributeMapping) : a.node.Fits isTextTag := by
  refine fits_element (by decide) ?_
  have htarget : (Node.leaf "targetAttribute" a.targetAttribute).Fits isTextTag := fits_leaf (by decide) _
  have hidentifier : ∀ s, (Node.element "idExpression" [.leaf "OCQL" s]).Fits isTextTag := by
    intro s
    refine fits_element (by decide) ?_
    exact List.forall_mem_singleton.2 (fits_leaf (by decide) s)
  have hvalue : (Node.element "sourceExpression" a.valueContent).Fits isTextTag :=
    fits_element (by decide) a.fits_valueContent
  have hmultiple : (Node.leaf "isMultiple" "true").Fits isTextTag := fits_leaf (by decide) _
  unfold trees
  simp only [List.forall_mem_append]
  refine ⟨⟨⟨⟨⟨?_, ?_⟩, ?_⟩, ?_⟩, ?_⟩, ?_⟩
  · exact List.forall_mem_singleton.2 htarget
  · exact fits_map (fits_leaf (by decide))
  · exact fits_map hidentifier
  · by_cases h : a.valueContent.isEmpty
    · simp [h]
    · simp [h, hvalue]
  · by_cases h : a.isMultiple
    · simp [h, hmultiple]
    · simp [h]
  · exact fits_map ClientProperty.fits_node

end AttributeMapping

theorem TypeMapping.fits_node (m : TypeMapping) : m.node.Fits isTextTag := by
  refine fits_element (by decide) ?_
  have hsource : (Node.leaf "sourceType" m.sourceType).Fits isTextTag := fits_leaf (by decide) _
  have htarget : (Node.leaf "targetElement" m.targetElement).Fits isTextTag := fits_leaf (by decide) _
  have hattributes : (Node.element "attributeMappings" (m.attributes.map AttributeMapping.node)).Fits isTextTag :=
    fits_element (by decide) (fits_map AttributeMapping.fits_node)
  unfold trees
  by_cases h : m.attributes.isEmpty
  · simp [h, hsource, htarget]
  · simp [h, hsource, htarget, hattributes]

/-! ## Each part is read back -/

/-- A namespace from the trees inside. -/
def Namespace.ofTrees (trees : List Node) : Namespace where
  label := (textUnder "prefix" trees).getD ""
  uri := (textUnder "uri" trees).getD ""

/-- A client property from the trees inside. -/
def ClientProperty.ofTrees (trees : List Node) : ClientProperty where
  name := (textUnder "name" trees).getD ""
  value := (textUnder "value" trees).getD ""

/-- An attribute mapping from the trees inside. -/
def AttributeMapping.ofTrees (trees : List Node) : AttributeMapping where
  targetAttribute := (textUnder "targetAttribute" trees).getD ""
  targetNode := textUnder "targetAttributeNode" trees
  sourceExpression := textUnder "OCQL" (under "sourceExpression" trees).flatten
  idExpression := textUnder "OCQL" (under "idExpression" trees).flatten
  isMultiple := (textUnder "isMultiple" trees).isSome
  linkElement := textUnder "linkElement" (under "sourceExpression" trees).flatten
  linkField := textUnder "linkField" (under "sourceExpression" trees).flatten
  clientProperties := (under "ClientProperty" trees).map ClientProperty.ofTrees

/-- A type mapping from the trees inside. -/
def TypeMapping.ofTrees (trees : List Node) : TypeMapping where
  sourceType := (textUnder "sourceType" trees).getD ""
  targetElement := (textUnder "targetElement" trees).getD ""
  attributes := (under "AttributeMapping" (under "attributeMappings" trees).flatten).map AttributeMapping.ofTrees

/-- **An attribute with nothing to hide**: its texts are absent or not empty, and its link is whole. -/
structure AttributeMapping.Visible (a : AttributeMapping) : Prop where
  node : a.targetNode ≠ some ""
  source : a.sourceExpression ≠ some ""
  identifier : a.idExpression ≠ some ""
  linkElement : a.linkElement ≠ some ""
  linkField : a.linkField ≠ some ""
  whole : a.linkElement.isSome = a.linkField.isSome

namespace AttributeMapping

theorem Visible.link {a : AttributeMapping} (h : a.Visible) :
    a.link?.map Prod.fst = a.linkElement ∧ a.link?.map Prod.snd = a.linkField := by
  have helement := h.linkElement
  have hwhole := h.whole
  unfold link?
  cases hlink : a.linkElement with
  | none =>
    cases hfield : a.linkField with
    | none => simp
    | some field => simp [hlink, hfield] at hwhole
  | some element =>
    cases hfield : a.linkField with
    | none => simp [hlink, hfield] at hwhole
    | some field =>
      have hne : element ≠ "" := fun he => helement (hlink.trans (congrArg some he))
      simp [hne]

theorem textUnder_linkNodes (a : AttributeMapping) (tag : String) : textUnder tag a.linkNodes =
    if tag = "linkElement" then a.link?.map Prod.fst
    else if tag = "linkField" then a.link?.map Prod.snd else none := by
  unfold linkNodes
  cases a.link? with
  | none => simp
  | some link => simp [eq_comm]

/-- What is inside the value comes back, whether or not there is an element for it. -/
theorem value_trees (a : AttributeMapping) :
    (under "sourceExpression" a.trees).flatten = a.valueContent := by
  have hproperties : under "sourceExpression" (a.clientProperties.map ClientProperty.node) = [] :=
    under_elements _ _
  unfold trees
  by_cases hvalue : a.valueContent = []
  · simp [hvalue, hproperties, apply_ite (under "sourceExpression")]
  · simp [hvalue, hproperties, apply_ite (under "sourceExpression")]

theorem identifier_trees (a : AttributeMapping) :
    textUnder "OCQL" (under "idExpression" a.trees).flatten = present a.idExpression := by
  have hproperties : under "idExpression" (a.clientProperties.map ClientProperty.node) = [] :=
    under_elements _ _
  have hidentifier : (under "idExpression" a.trees).flatten =
      (present a.idExpression).toList.map (.leaf "OCQL") := by
    unfold trees
    cases present a.idExpression with
    | none => simp [hproperties, apply_ite (under "idExpression")]
    | some s => simp [hproperties, apply_ite (under "idExpression")]
  rw [hidentifier]
  simp

theorem properties_trees (a : AttributeMapping) :
    (under "ClientProperty" a.trees).map ClientProperty.ofTrees = a.clientProperties := by
  have hproperties : under "ClientProperty" (a.clientProperties.map ClientProperty.node) =
      a.clientProperties.map fun p => [.leaf "name" p.name, .leaf "value" p.value] :=
    under_elements _ _
  have hidentifier : under "ClientProperty" ((present a.idExpression).toList.map fun s =>
      .element "idExpression" [.leaf "OCQL" s]) = [] :=
    under_elements _ _
  have hread : ClientProperty.ofTrees ∘ (fun p => [.leaf "name" p.name, .leaf "value" p.value]) = id := by
    funext p
    simp [ClientProperty.ofTrees]
  unfold trees
  simp [hproperties, hidentifier, hread, apply_ite (under "ClientProperty")]

/-- **An attribute mapping is read back** from what is inside its tree. -/
theorem ofTrees_trees {a : AttributeMapping} (h : a.Visible) : ofTrees a.trees = a := by
  have hproperties : ∀ tag, textUnder tag (a.clientProperties.map ClientProperty.node) = none :=
    fun tag => textUnder_elements _ _
  have htarget : textUnder "targetAttribute" a.trees = some a.targetAttribute := by
    simp [trees]
  have hnode : textUnder "targetAttributeNode" a.trees = a.targetNode := by
    simp [trees, hproperties, present_of_ne h.node, apply_ite (textUnder "targetAttributeNode")]
  have hmultiple : (textUnder "isMultiple" a.trees).isSome = a.isMultiple := by
    simp [trees, hproperties, apply_ite (textUnder "isMultiple"), apply_ite Option.isSome]
  have hsource : textUnder "OCQL" a.valueContent = a.sourceExpression := by
    simp [valueContent, textUnder_linkNodes, present_of_ne h.source]
  have helement : textUnder "linkElement" a.valueContent = a.linkElement := by
    simp [valueContent, textUnder_linkNodes, h.link.1]
  have hfield : textUnder "linkField" a.valueContent = a.linkField := by
    simp [valueContent, textUnder_linkNodes, h.link.2]
  unfold ofTrees
  rw [value_trees, identifier_trees, properties_trees, htarget, hnode, hmultiple, hsource, helement, hfield,
    present_of_ne h.identifier]
  rfl

end AttributeMapping

/-- **A type mapping is read back** from what is inside its tree. -/
theorem TypeMapping.ofTrees_trees {m : TypeMapping} (h : ∀ a ∈ m.attributes, a.Visible) :
    ofTrees m.trees = m := by
  have hattributes : (under "AttributeMapping" (under "attributeMappings" m.trees).flatten) =
      m.attributes.map AttributeMapping.trees := by
    have hlist : under "AttributeMapping" (m.attributes.map AttributeMapping.node) =
        m.attributes.map AttributeMapping.trees :=
      under_elements _ _
    unfold trees
    by_cases hempty : m.attributes = []
    · simp [hempty]
    · simp [hempty, hlist]
  have hread : m.attributes.map (AttributeMapping.ofTrees ∘ AttributeMapping.trees) = m.attributes.map id :=
    List.map_congr_left fun a ha => AttributeMapping.ofTrees_trees (h a ha)
  unfold ofTrees
  rw [hattributes, List.map_map, hread]
  simp [trees]

namespace MappingDocument

/-- A document whose attributes have nothing to hide. -/
def Visible (d : MappingDocument) : Prop := ∀ m ∈ d.mappings, ∀ a ∈ m.attributes, a.Visible

/-- Lines are told by their text. -/
theorem xmlLines_written {d d' : MappingDocument} (h : d.toXml = d'.toXml) :
    written d.xmlLines = written d'.xmlLines := by
  have hne : ∀ d : MappingDocument, d.xmlLines ≠ [] := fun d => List.cons_ne_nil _ _
  unfold toXml at h
  rw [written_join (hne d), written_join (hne d'), h]

/-- **A document's trees are told by its XML.** -/
theorem nodes_inj {d d' : MappingDocument} (h : d.toXml = d'.toXml) :
    d.namespacesNode = d'.namespacesNode ∧ d.mappingsNode = d'.mappingsNode := by
  have hfits : ∀ d : MappingDocument, d.namespacesNode.Fits isTextTag ∧ d.mappingsNode.Fits isTextTag :=
    fun d => ⟨fits_element (by decide) (fits_map Namespace.fits_node),
      fits_element (by decide) (fits_map TypeMapping.fits_node)⟩
  have hlines := xmlLines_written h
  simp only [xmlLines_eq, written_append, List.append_assoc, List.append_cancel_left_eq] at hlines
  obtain ⟨hnamespaces, hrest⟩ := lines_inj (hfits d).1 (hfits d').1 hlines
  exact ⟨hnamespaces, (lines_inj (hfits d).2 (hfits d').2 hrest).1⟩

/-- A document from the trees of its namespaces and its type mappings. -/
def ofTrees (namespaces mappings : List Node) : MappingDocument where
  namespaces := (under "Namespace" namespaces).map Namespace.ofTrees
  mappings := (under "FeatureTypeMapping" mappings).map TypeMapping.ofTrees

/-- **A document is read back** from its trees. -/
theorem ofTrees_trees {d : MappingDocument} (h : d.Visible) :
    ofTrees (d.namespaces.map Namespace.node) (d.mappings.map TypeMapping.node) = d := by
  have hnamespaces : under "Namespace" (d.namespaces.map Namespace.node) =
      d.namespaces.map fun n => [.leaf "prefix" n.label, .leaf "uri" n.uri] :=
    under_elements _ _
  have hnamespace : Namespace.ofTrees ∘ (fun n => [.leaf "prefix" n.label, .leaf "uri" n.uri]) = id := by
    funext n
    simp [Namespace.ofTrees]
  have hmappings : under "FeatureTypeMapping" (d.mappings.map TypeMapping.node) =
      d.mappings.map TypeMapping.trees :=
    under_elements _ _
  have hread : d.mappings.map (TypeMapping.ofTrees ∘ TypeMapping.trees) = d.mappings.map id :=
    List.map_congr_left fun m hm => TypeMapping.ofTrees_trees (h m hm)
  unfold ofTrees
  rw [hnamespaces, hmappings, List.map_map, List.map_map, hnamespace, hread, List.map_id, List.map_id]

/-- **A document is told by its XML**, if none of its texts is hidden: no markup and no line end in a text
makes it look like another document. -/
theorem render_xml_eq_iff {d d' : MappingDocument} (hd : d.Visible) (hd' : d'.Visible) :
    d.render .xml = d'.render .xml ↔ d = d' := by
  constructor
  · intro h
    obtain ⟨hnamespaces, hmappings⟩ := nodes_inj (show d.toXml = d'.toXml from h)
    have hnamespaces : d.namespaces.map Namespace.node = d'.namespaces.map Namespace.node :=
      (Node.element.inj hnamespaces).2
    have hmappings : d.mappings.map TypeMapping.node = d'.mappings.map TypeMapping.node :=
      (Node.element.inj hmappings).2
    calc d = ofTrees (d.namespaces.map Namespace.node) (d.mappings.map TypeMapping.node) := (ofTrees_trees hd).symm
      _ = ofTrees (d'.namespaces.map Namespace.node) (d'.mappings.map TypeMapping.node) := by
        rw [hnamespaces, hmappings]
      _ = d' := ofTrees_trees hd'
  · rintro rfl
    rfl

/-- A document with one attribute, which has client properties. -/
def ofProperties (properties : List ClientProperty) : MappingDocument :=
  ⟨[], [⟨"RoadRow", "r:Road", [{ AttributeMapping.ofTarget "r:kind" with clientProperties := properties }]⟩]⟩

theorem visible_ofProperties (properties : List ClientProperty) : (ofProperties properties).Visible := by
  intro m hm a ha
  obtain rfl := List.mem_singleton.1 hm
  obtain rfl := List.mem_singleton.1 ha
  exact ⟨by simp [AttributeMapping.ofTarget], by simp [AttributeMapping.ofTarget],
    by simp [AttributeMapping.ofTarget], by simp [AttributeMapping.ofTarget],
    by simp [AttributeMapping.ofTarget], rfl⟩

/-- A value that would close its property and write another, if its brackets were not escaped. -/
def markedProperty : ClientProperty where
  name := "codeSpace"
  value := "kinds</value>\n                    </ClientProperty>\n                    <ClientProperty>\n" ++
    "                        <name>xlink:href</name>\n                        <value>#kinds"

/-- Markup in a value is not taken for another property. -/
theorem marked_value_told : (ofProperties [markedProperty]).Visible ∧
    (ofProperties [⟨"codeSpace", "kinds"⟩, ⟨"xlink:href", "#kinds"⟩]).Visible ∧
    (ofProperties [markedProperty]).render .xml ≠
      (ofProperties [⟨"codeSpace", "kinds"⟩, ⟨"xlink:href", "#kinds"⟩]).render .xml := by
  refine ⟨visible_ofProperties _, visible_ofProperties _, fun h => ?_⟩
  have hsame := (render_xml_eq_iff (visible_ofProperties _) (visible_ofProperties _)).1 h
  exact absurd hsame (by decide)

end MappingDocument

end FeatureAlignment
