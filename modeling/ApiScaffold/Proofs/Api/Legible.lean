/-
Documents and their YAML text. The keys of a document are names, paths and fixed
words, all of them legible, and its blocks are at most ten levels deep, so the
reader of YAML gets through its text: title, descriptions and values of
enumerations may be any texts, and each is read back, as text and character for
character, but for one case. A text that holds a next-line character and stands in
single quotes is folded there.

The levels, and where the keys come from, are known of what documents are made of
(`Json.Formed`). What is left for YAML is that each of the fixed words is legible,
which is looked at, and that the names in a text are, since they are identifiers.
-/
import ApiScaffold.Proofs.Api.KeyNames
import ApiScaffold.Proofs.Api.Rendering
import ApiScaffold.Proofs.Diagram.DeclaredName
import ApiScaffold.Proofs.Yaml.Whole

namespace ApiScaffold

open Yaml (Legible LegibleKey)

-- ================================================================= keys

/-- The words that stand in every document are legible. -/
theorem legibleKey_of_mem_documentWords : ∀ key ∈ documentWords, LegibleKey key.toList := by
  decide

/-- The names in a text are identifiers, so all keys of its document are legible. -/
theorem Diagram.admitsKeys_of_parse {text : String} {d : Diagram}
    (h : Diagram.parse text = .ok d) : d.AdmitsKeys fun key => LegibleKey key.toList := by
  have hdeclared : ∀ name ∈ d.declaredNames, LegibleKey name.toList := fun _ hname =>
    legibleKey_of_isWord (Diagram.isName_of_mem_declaredNames h hname).word
  refine ⟨hdeclared, fun e he a ha => ?_, fun name hname => ?_, fun c hc e he => ?_⟩
  · exact legibleKey_of_isWord (Diagram.isName_of_mem_attributes h he ha).word
  · exact legibleKey_propertyName (hdeclared name hname)
  · have hname : c.name ∈ d.declaredNames :=
      List.mem_append_left _ (List.mem_map_of_mem (List.mem_append_left _ hc))
    exact legibleKey_of_mem_crudPaths (hdeclared _ hname) he

/-- What documents are made of is legible where the keys admitted are. -/
theorem Json.Formed.legible {levels : Nat} {j : Json}
    (h : j.Formed (fun key => LegibleKey key.toList) levels) : Legible levels j := by
  induction h with
  | bool levels b => exact .leaf levels rfl
  | int levels h => exact .leaf levels rfl
  | str levels s => exact .leaf levels rfl
  | arr _ ih => exact .arr ih
  | obj _ hkeys _ ih => exact .obj hkeys ih

-- ============================================================ documents

namespace Document

/-- The YAML text of a document, read again. -/
theorem read_yaml {info : Info} {text : String} {doc : Document}
    (h : ofText info text = .ok doc) :
    Yaml.read (Yaml.text doc.toJson).toList = some (Yaml.asRead doc.toJson) := by
  obtain ⟨d, hparse, rfl⟩ := ofText_eq_ok.mp h
  have hformed := toJson_formed legibleKey_of_mem_documentWords info
    (Diagram.admitsKeys_of_parse hparse) (by decide) (Diagram.gives_parse text d hparse)
  exact Yaml.read_text (List.cons_ne_nil _ _) hformed.readable hformed.legible (by decide)

end Document

theorem transform_yaml {info : Info} {text name : String} {doc : Document}
    (h : Document.ofText info text = .ok doc) (hname : OutputFormat.ofName name = .ok .yaml) :
    transform info text (some name) false
      = .ok { document := doc, rendered := some (Yaml.text doc.toJson) } := by
  have hne : name.isEmpty = false := by
    rw [Bool.eq_false_iff]
    intro hempty
    have hnone : OutputFormat.ofWord? (lowerText (trimText "")) = none := by decide +kernel
    rw [String.isEmpty_iff.mp hempty, OutputFormat.ofName, hnone] at hname
    cases hname
  unfold transform
  rw [h]
  show doc.answer (some name) false = _
  unfold Document.answer Json.renderAs
  simp only [hne, hname]
  rfl

/-- Transforming a text with YAML for its format answers with its document and with a
text that is read as YAML, whatever title, version and description are asked for: the
same keys in the same order and the same kinds of values, no text among them read as
a boolean, a null, a number or a date. That text is read as the document itself if and
only if no text in the document both holds a next-line character and is written in
single quotes. -/
theorem transform_yaml_reads_back_iff (info : Info) {text name : String} {doc : Document}
    (h : Document.ofText info text = .ok doc) (hname : OutputFormat.ofName name = .ok .yaml) :
    ∃ rendered,
      transform info text (some name) false
          = .ok { document := doc, rendered := some rendered }
        ∧ Yaml.read rendered.toList = some (Yaml.asRead doc.toJson)
        ∧ (Yaml.read rendered.toList = some doc.toJson
          ↔ ∀ s ∈ Yaml.texts doc.toJson,
            '\u0085' ∈ s.toList → Yaml.styleOf s.toList ≠ .single) := by
  have hread := Document.read_yaml h
  refine ⟨_, transform_yaml h hname, hread, ?_⟩
  rw [hread, Option.some.injEq]
  exact Yaml.asRead_eq_self_iff doc.toJson

/-- Values of an enumeration that YAML would take for booleans, null, numbers and a date,
an ampersand, a long title with a blank line in it, and the short name of the format. -/
theorem transform_yaml_reads_back_of_reserved_values :
    let info : Info :=
      { title := "API:\n\n" ++ String.ofList (List.replicate 90 'x') ++ " # 1"
        version := "1.0", description := "" }
    let text := "enum E \x7b\nNO\non\n~\n0x1F\n1_000\n2024-01-01\n&A\n\x7d\n"
    ∃ doc, Document.ofText info text = .ok doc
      ∧ OutputFormat.ofName " YML " = .ok .yaml
      ∧ ∃ rendered,
        transform info text (some " YML ") false
            = .ok { document := doc, rendered := some rendered }
          ∧ Yaml.read rendered.toList = some doc.toJson := by
  intro info text
  let d : Diagram := { enums := [⟨"E", ["NO", "on", "~", "0x1F", "1_000", "2024-01-01", "&A"]⟩] }
  have hparse : Diagram.parse text = .ok d := by
    decide +kernel
  have hdoc : Document.ofText info text = .ok (Document.ofDiagram info d) :=
    Document.ofText_eq_ok.mpr ⟨d, hparse, rfl⟩
  have hname : OutputFormat.ofName " YML " = .ok .yaml := by
    have hword : OutputFormat.ofWord? (lowerText (trimText " YML ")) = some .yaml := by
      decide +kernel
    rw [OutputFormat.ofName, hword]
  have hkept : ∀ s ∈ Yaml.texts (Document.ofDiagram info d).toJson, '\u0085' ∉ s.toList := by
    decide +kernel
  obtain ⟨rendered, hrun, -, hread⟩ := transform_yaml_reads_back_iff info hdoc hname
  exact ⟨_, hdoc, hname, rendered, hrun, hread.mpr fun s hs hmem => absurd hmem (hkept s hs)⟩

/-- A value of an enumeration with a next-line character is written in single quotes,
and read with a blank in its place. -/
theorem yaml_folds_next_line :
    let text := "enum E \x7b\nA\u0085B\n\x7d\n"
    ∃ doc rendered,
      transform {} text (some "yaml") false
          = .ok { document := doc, rendered := some rendered }
        ∧ "A\u0085B" ∈ Yaml.texts doc.toJson
        ∧ ∃ j, Yaml.read rendered.toList = some j
          ∧ "A B" ∈ Yaml.texts j ∧ "A\u0085B" ∉ Yaml.texts j ∧ j ≠ doc.toJson := by
  intro text
  let d : Diagram := { enums := [⟨"E", ["A\u0085B"]⟩] }
  have hparse : Diagram.parse text = .ok d := by
    decide +kernel
  have hdoc : Document.ofText {} text = .ok (Document.ofDiagram {} d) :=
    Document.ofText_eq_ok.mpr ⟨d, hparse, rfl⟩
  have hname : OutputFormat.ofName "yaml" = .ok .yaml := by
    have hword : OutputFormat.ofWord? (lowerText (trimText "yaml")) = some .yaml := by
      decide +kernel
    rw [OutputFormat.ofName, hword]
  have hmem : "A\u0085B" ∈ Yaml.texts (Document.ofDiagram {} d).toJson := by
    decide +kernel
  have hblank : "A B" ∈ Yaml.texts (Yaml.asRead (Document.ofDiagram {} d).toJson) := by
    decide +kernel
  have hnone : "A\u0085B" ∉ Yaml.texts (Yaml.asRead (Document.ofDiagram {} d).toJson) := by
    decide +kernel
  refine ⟨_, _, transform_yaml hdoc hname, hmem, _, Document.read_yaml hdoc, hblank, hnone, ?_⟩
  intro heq
  rw [heq] at hnone
  exact hnone hmem

end ApiScaffold
