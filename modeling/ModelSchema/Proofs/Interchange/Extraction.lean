import ModelSchema.Proofs.Interchange.ObjectModel
import ModelSchema.Proofs.Interchange.Xmi
import ModelSchema.Reading.Source

/-!
# Extraction loses nothing

An outline that can be written in a format is read back from its document, whatever it declares
(`extract_render`). The formats share the walk over a document, and each has its own elements.
-/

namespace ModelSchema.Interchange

open Xml (Node)

/-- The document of an outline in a format. -/
def render : Format → Outline → Node
  | .objectModel => ObjectModel.document
  | .xmi => Xmi.document

/-- The outline of a written document is the one that was written. The condition is necessary for
texts with blanks and the like, which come back trimmed. -/
theorem extract_render (format : Format) (outline : Outline) (h : outline.Fits format) :
    (Reading.adapterOf format).extract (render format outline) = .ok outline := by
  cases format with
  | objectModel => exact ObjectModel.readBy_adapter.extract (ObjectModel.model?_document outline) h
  | xmi => exact Xmi.readBy_adapter.extract (Xmi.model?_document outline) h

/-- An outline in which each kind of declaration stands, and fields of each kind are there or
missing. `ref` is how the format names domains. -/
def library (ref : String → Outline.DomainRef) : Outline where
  name := "LIBRARY"
  label := "Lending library"
  domains :=
    [⟨"d1", "DO_TITLE", "Title", "String", "varchar", some 100, none⟩,
      ⟨"d2", "DO_FEE", none, "Decimal", none, some 10, some 2⟩]
  domainShortcuts := [⟨"d3", "DO_ID"⟩]
  namespaces :=
    [{ id := "n1", code := "Books", label := "Books", comment := none, creator := "Archivist"
       classes :=
        [{ id := "c1", code := "Book", label := none, comment := "A title  in print"
           stereotype := "Reference", isPersistent := true, persistentCode := "BOOK"
           trigram := "BOO", storage := none, isHistorized := true, isAudited := false
           isExportDelta := true
           properties :=
            [⟨"p1", "Title", none, none, true, "1..1", ref "DO_TITLE", true, true, false, false,
                "TITLE", none⟩,
              ⟨"p2", "Fee", "per day", "Decimal", false, "2..5", none, false, false, true, true, none,
                "numeric"⟩] },
          { id := "c2", code := "Copy", label := "Copy", comment := none, stereotype := none
            isPersistent := false, persistentCode := none, trigram := none, storage := "tape"
            isHistorized := false, isAudited := true, isExportDelta := false
            properties := [] }] },
      { id := "n2", code := "Loans", label := none, comment := "Empty", creator := none
        classes := [] }]
  classShortcuts := [⟨"c3", "Person"⟩]
  generalizations := [⟨"g1", "c3", "c2"⟩]
  associations :=
    [⟨"a1", "BookCopy", "copies", ⟨"c1", "1..1", none⟩, ⟨"c2", "0..N", "Copies"⟩, some .a⟩,
      ⟨"a2", none, none, ⟨"c2", "", "Held"⟩, ⟨"c3", "0..1", none⟩, none⟩]

/-- Both formats, each with its own way to name domains. -/
theorem extract_render_library :
    (library .id).Fits .objectModel ∧ (library .code).Fits .xmi ∧
      ObjectModel.adapter.extract (render .objectModel (library .id)) = .ok (library .id) ∧
      Xmi.adapter.extract (render .xmi (library .code)) = .ok (library .code) := by
  have hobject : (library .id).Fits .objectModel := by decide +kernel
  have hxmi : (library .code).Fits .xmi := by decide +kernel
  exact ⟨hobject, hxmi, extract_render .objectModel _ hobject, extract_render .xmi _ hxmi⟩

end ModelSchema.Interchange
