import TsxPreview.Proofs.Markup.References
import TsxPreview.Proofs.View.Documents

/-!
What a document is written as can be read again. Between tags and in the values of attributes every
character that could end its context is written as a reference, and so is the ampersand, so that
decoding undoes what writing did, whatever references the text itself seems to hold.
-/

namespace TsxPreview

namespace CharacterReference

theorem refers_name (name : String) {c : Char} (known : (name, c) ∈ named) :
    Refers false ('&' :: (name.toList ++ [';'])) c := by
  have near : ∀ known ∈ named, byteLength ('&' :: known.1.toList) ≤ 10 := by decide +kernel
  exact .mk (.name known) (near _ known)

/-- A text whose characters are written as references to them, or as themselves if they start none,
is read back. -/
theorem decodeAll_flatMap {write : Char → List Char}
    (reads : ∀ c, Refers false (write c) c ∨ write c = [c] ∧ c ≠ '&') (cs : List Char) :
    decodeAll (cs.flatMap write) = cs := by
  induction cs with
  | nil => simp [decodeAll]
  | cons c cs ih =>
    rw [List.flatMap_cons]
    rcases reads c with refers | ⟨itself, plain⟩
    · rw [decodeAll_reference ⟨false, refers⟩, ih]
    · have apart : '&' ∉ [c] := fun mem => plain (List.mem_singleton.1 mem).symm
      rw [itself, decodeAll_append apart, ih, List.singleton_append]

end CharacterReference

open CharacterReference

/-! ## Single characters -/

namespace Escaped

theorem textChar_reads (c : Char) : Refers false (textChar c) c ∨ textChar c = [c] ∧ c ≠ '&' := by
  unfold textChar
  split
  · exact .inl (refers_name "amp" (by decide))
  · exact .inl (refers_name "lt" (by decide))
  · exact .inl (refers_name "gt" (by decide))
  · next ampersand _ _ => exact .inr ⟨rfl, ampersand⟩

theorem valueChar_reads (c : Char) :
    Refers false (valueChar c) c ∨ valueChar c = [c] ∧ c ≠ '&' := by
  unfold valueChar
  split
  · exact .inl (refers_name "quot" (by decide))
  · exact textChar_reads c

theorem textChar_closed (c : Char) : ∀ d ∈ textChar c, d ≠ '<' ∧ d ≠ '>' := by
  unfold textChar
  split <;> grind

theorem valueChar_closed (c : Char) : ∀ d ∈ valueChar c, d ≠ '<' ∧ d ≠ '>' ∧ d ≠ '"' := by
  unfold valueChar textChar
  split
  · grind
  · split <;> grind

end Escaped

/-! ## Texts -/

theorem decodeEntities_escapeText (text : String) : decodeEntities (escapeText text) = text := by
  rw [decodeEntities, escapeText, String.toList_ofList, decodeAll_flatMap Escaped.textChar_reads,
    String.ofList_toList]

theorem decodeEntities_escapeValue (text : String) : decodeEntities (escapeValue text) = text := by
  rw [decodeEntities, escapeValue, String.toList_ofList, decodeAll_flatMap Escaped.valueChar_reads,
    String.ofList_toList]

/-- Between tags, nothing begins or ends a tag. -/
theorem escapeText_closed (text : String) : ∀ c ∈ (escapeText text).toList, c ≠ '<' ∧ c ≠ '>' := by
  intro c mem
  rw [escapeText, String.toList_ofList, List.mem_flatMap] at mem
  obtain ⟨d, -, mem⟩ := mem
  exact Escaped.textChar_closed d c mem

/-- Between quotes, nothing begins or ends a tag, nor does a quote end the value. -/
theorem escapeValue_closed (text : String) :
    ∀ c ∈ (escapeValue text).toList, c ≠ '<' ∧ c ≠ '>' ∧ c ≠ '"' := by
  intro c mem
  rw [escapeValue, String.toList_ofList, List.mem_flatMap] at mem
  obtain ⟨d, -, mem⟩ := mem
  exact Escaped.valueChar_closed d c mem

/-! ## Documents -/

namespace Tree

/-- A list of attributes as it is written. -/
def attributesHtml (attributes : List (String × String)) : String :=
  String.join (attributes.map fun (name, value) => attributeHtml name value)

theorem startTag_append (tag : String) {name value : String} (before after : List (String × String))
    (filled : value ≠ "") :
    startTag tag (before ++ (name, value) :: after)
      = "<" ++ tag ++ attributesHtml before ++ " " ++ name ++ "=\"" ++ escapeValue value ++ "\""
        ++ attributesHtml after ++ ">" := by
  simp only [startTag, attributesHtml, List.map_append, List.map_cons, String.join_append,
    String.join_cons, attributeHtml, String.isEmpty_iff, if_neg filled, String.append_assoc]

end Tree

namespace Document

variable {d : Document} {id : NodeId}

/-- The tree of a node shows what the node is, in any document. -/
theorem tree?_of_node? {node : Node} (h : d.node? id = some node) :
    ∃ depth, d.tree? id = some (match node.kind with
      | .element tag attributes _ =>
        .element tag attributes (node.children.filterMap (d.treeAt depth))
      | .text content => .text content) := by
  have inside := lt_size_of_node? h
  obtain ⟨depth, size⟩ : ∃ depth, d.nodes.size = depth + 1 := ⟨d.nodes.size - 1, by omega⟩
  refine ⟨depth, ?_⟩
  rw [tree?, size, treeAt, h]
  rfl

theorem outerHtml_text {content : String} (h : d.text? id = some content) :
    d.outerHtml id = escapeText content := by
  unfold text? at h
  split at h
  · next same found =>
    cases h
    obtain ⟨node, there, kind⟩ := Option.map_eq_some_iff.1 found
    obtain ⟨depth, tree⟩ := tree?_of_node? there
    rw [outerHtml, tree, kind]
    rfl
  · cases h

theorem outerHtml_element {tag : String} (h : d.tag? id = some tag) :
    ∃ rest, d.outerHtml id = Tree.startTag tag (d.attributes id) ++ rest := by
  unfold tag? at h
  split at h
  · next same list listeners found =>
    cases h
    obtain ⟨node, there, kind⟩ := Option.map_eq_some_iff.1 found
    obtain ⟨depth, tree⟩ := tree?_of_node? there
    rw [outerHtml, tree, kind, Document.attributes, found]
    simp only [Option.map_some, Option.getD_some, Tree.html]
    split
    · exact ⟨"", String.append_empty.symm⟩
    · simp only [String.append_assoc]
      exact ⟨_, rfl⟩
  · cases h

theorem exists_tag?_of_mem_attributes {pair : String × String} (h : pair ∈ d.attributes id) :
    ∃ tag, d.tag? id = some tag := by
  unfold attributes at h
  split at h
  · next tag _ _ found => exact ⟨tag, by rw [tag?, found]⟩
  · cases h

end Document

/-- Decoding undoes what a document writes for a text and for each value of an attribute, and
neither can end where it stands: a text holds no angle bracket, and a value no quote either. -/
theorem Document.readsBack (d : Document) (id : NodeId) :
    (∀ content, d.text? id = some content →
      decodeEntities (d.outerHtml id) = content ∧
        ∀ c ∈ (d.outerHtml id).toList, c ≠ '<' ∧ c ≠ '>') ∧
    ∀ before name value after, d.attributes id = before ++ (name, value) :: after → value ≠ "" →
      ∃ tag written rest, d.tag? id = some tag ∧
        d.outerHtml id = "<" ++ tag ++ Tree.attributesHtml before ++ " " ++ name ++ "=\"" ++ written
          ++ "\"" ++ Tree.attributesHtml after ++ ">" ++ rest ∧
        decodeEntities written = value ∧
        ∀ c ∈ written.toList, c ≠ '<' ∧ c ≠ '>' ∧ c ≠ '"' := by
  constructor
  · intro content text
    rw [outerHtml_text text]
    exact ⟨decodeEntities_escapeText content, escapeText_closed content⟩
  · intro before name value after attributes filled
    have listed : (name, value) ∈ d.attributes id := by simp [attributes]
    obtain ⟨tag, element⟩ := exists_tag?_of_mem_attributes listed
    obtain ⟨rest, html⟩ := outerHtml_element element
    rw [attributes, Tree.startTag_append tag before after filled] at html
    exact ⟨tag, escapeValue value, rest, element, html, decodeEntities_escapeValue value,
      escapeValue_closed value⟩

/-- A text and a value that look as if they were written already. -/
theorem Document.readsBack_references :
    let d := (((Document.empty.addElement "p").2.setAttribute ⟨1⟩ "title" "\"R&amp;D\"").addText
      "a &lt; b").2
    d.text? ⟨2⟩ = some "a &lt; b" ∧ decodeEntities (d.outerHtml ⟨2⟩) = "a &lt; b" ∧
      d.attributes ⟨1⟩ = [] ++ ("title", "\"R&amp;D\"") :: [] ∧ "\"R&amp;D\"" ≠ "" ∧
      ∃ written, decodeEntities written = "\"R&amp;D\"" ∧
        ∀ c ∈ written.toList, c ≠ '<' ∧ c ≠ '>' ∧ c ≠ '"' := by
  intro d
  have text : d.text? ⟨2⟩ = some "a &lt; b" := rfl
  have value : d.attributes ⟨1⟩ = [] ++ ("title", "\"R&amp;D\"") :: [] := rfl
  have filled : "\"R&amp;D\"" ≠ "" := by decide
  obtain ⟨tag, written, rest, -, -, reads⟩ := (readsBack d ⟨1⟩).2 [] "title" _ [] value filled
  exact ⟨text, ((readsBack d ⟨2⟩).1 _ text).1, value, filled, written, reads⟩

end TsxPreview
