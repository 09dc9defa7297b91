/-
Documents and their JSON text. The document of a text is readable: its keys are
distinct in every object, its only integers are bounds of lists, which come
from counts within the limit, and it holds no doubles. So the rendering of
a document, read again, is the document.

All of that is known of what documents are made of (`Json.Formed`). A reader of
JSON has no wish about which words are keys, so every key is admitted here.
-/
import ApiScaffold.Api.Transform
import ApiScaffold.Proofs.Api.Contents
import ApiScaffold.Proofs.Json.ReadBack

namespace ApiScaffold

/-- What the diagram may count, a reader of JSON may read. -/
theorem WithinLimit.readable {n : Int} (h : WithinLimit n) :
    (Json.int n).Readable := by
  have hlimits : numeralLimit = digitLimit := rfl
  unfold WithinLimit at h
  rw [hlimits] at h
  exact .int h

/-- What documents are made of is readable, whichever keys are admitted. -/
theorem Json.Formed.readable {Admits : String → Prop} {levels : Nat} {j : Json}
    (h : j.Formed Admits levels) : j.Readable := by
  induction h with
  | bool levels b => exact .bool b
  | int levels h => exact h.readable
  | str levels s => exact .str s
  | arr _ ih => exact .arr ih
  | obj hdistinct _ _ ih => exact .obj hdistinct ih

/-- The document of a diagram whose counts are within the limit. -/
theorem Document.toJson_readable (info : Info) {d : Diagram}
    (h : ∀ r ∈ d.relations, r.Limited) :
    (ofDiagram info d).toJson.Readable := by
  have hkeys : d.AdmitsKeys fun _ => True := by
    constructor <;> simp
  exact (toJson_formed (fun _ _ => trivial) info hkeys trivial h).readable

/-- Transforming a text with the format `json` answers with its document and
with a text that, read as JSON, is that document: the same values, the same
characters in every text and the same order of keys, whatever title, version
and description are asked for. -/
theorem transform_json_reads_back (info : Info) {text : String}
    {doc : Document} (h : Document.ofText info text = .ok doc) :
    ∃ rendered,
      transform info text (some "json") false
          = .ok { document := doc, rendered := some rendered }
        ∧ Json.read rendered.toList = .ok doc.toJson := by
  obtain ⟨d, hparse, rfl⟩ := Document.ofText_eq_ok.mp h
  refine ⟨(Document.ofDiagram info d).toJson.indented, ?_, ?_⟩
  · unfold transform
    rw [h]
    rfl
  · exact Json.read_indented
      (Document.toJson_readable info (Diagram.gives_parse text d hparse))

/-- An enumeration whose values hold a quote, a backslash, a control and a
character beyond the basic plane, a list with two bounds, and a title that
runs over two lines. -/
theorem transform_json_reads_back_of_quoted_values :
    let info : Info :=
      { title := "\"A\"\n\\B", version := "", description := "\t\x01𝄞" }
    let text := "class A \x7b\n+x: int\n\x7d\nenum E \x7b\na\"\\\x02😀\n\x7d\n"
      ++ "A --> \"2..5\" E\n"
    ∃ doc, Document.ofText info text = .ok doc
      ∧ ∃ rendered,
        transform info text (some "json") false
            = .ok { document := doc, rendered := some rendered }
          ∧ Json.read rendered.toList = .ok doc.toJson := by
  intro info text
  let d : Diagram := {
    classes := [{ name := "A", attributes := [⟨"x", some "int", .pub⟩] }]
    enums := [⟨"E", ["a\"\\\x02😀"]⟩]
    relations := [⟨"A", "E", .association, "-->", none,
      some ⟨.range, "2..5", none, some 2, some 5, none⟩⟩] }
  have hparse : Diagram.parse text = .ok d := by
    decide +kernel
  have hdoc : Document.ofText info text = .ok (Document.ofDiagram info d) :=
    Document.ofText_eq_ok.mpr ⟨d, hparse, rfl⟩
  exact ⟨_, hdoc, transform_json_reads_back info hdoc⟩

end ApiScaffold
