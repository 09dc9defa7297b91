/-
Segments in paths. The segment of an identifier can stand between the slashes of
a path as it is, and is its own segment (`isSegment_pathSegment`): what it is made
of is in lower case, and no letter has a blank, a slash or a brace for its lower
case. So a path of a document can be told to be that of a collection or of an
item, and both hold such a segment (`segments_safe_and_stable`).
-/
import ApiScaffold.Proofs.Api.Identifiers
import ApiScaffold.Proofs.Api.Naming
import ApiScaffold.Proofs.Diagram.DeclaredName

namespace ApiScaffold

-- =================================================== statement vocabulary

/-- A segment that can stand in a path and stays the same where it is taken for a
name: none of its characters is a slash, a brace, a blank or a capital. -/
structure IsSegment (s : String) : Prop where
  ne_empty : s ≠ ""
  last : s.toList.getLast? = some 's'
  plain : ∀ c ∈ s.toList, c ∉ ['/', '\x7b', '\x7d']
  ink : ∀ c ∈ s.toList, isBlank c = false
  small : ∀ c ∈ s.toList, c.isUpper = false
  own : pathSegment s = s

/-- The paths of a document. -/
def Json.pathNames (doc : Json) : List String :=
  ((doc.field? "paths").elim [] Json.fieldsOf).map Prod.fst

-- ============================================================ characters

/-- A character that neither ends a segment nor is trimmed. -/
def IsPlain (c : Char) : Prop := c ∉ ['/', '\x7b', '\x7d'] ∧ isBlank c = false

instance (c : Char) : Decidable (IsPlain c) := inferInstanceAs (Decidable (_ ∧ _))

theorem isPlain_of_above {c : Char} (h : 0xA0 < c.toNat) (hink : isBlank c = false) :
    IsPlain c := by
  refine ⟨fun hmem => ?_, hink⟩
  have hmark : ∀ d ∈ ['/', '\x7b', '\x7d'], d.toNat < 0xA0 :=
    forall_mem_of_all (by decide)
  have hc := hmark c hmem
  omega

/-- The other forms of letters lie between the blanks, but for that of the kelvin
sign. -/
theorem lowerRuns_betweenBlanks : ∀ r ∈ lowerRuns, r = (0x212A, 0x212A, 1, 0x6B)
    ∨ liesBetweenBlanks r.2.2.2 (r.2.2.2 + (r.2.1 - r.1)) = true := by
  decide +kernel

theorem isPlain_of_image? {n m : Nat} (h : lowerRuns.image? n = some m) :
    IsPlain (Char.ofNat m) := by
  obtain ⟨r, hr, hn, hm⟩ := CaseRuns.exists_of_image? h
  rcases lowerRuns_betweenBlanks r hr with rfl | hbetween
  · simp only at hn hm
    have hk : m = 0x6B := by omega
    rw [hk]
    decide
  rcases toNat_ofNat_or m with hcode | hnull
  · have habove := above_of_liesBetweenBlanks hbetween
    apply isPlain_of_above
    · omega
    · exact isBlank_of_liesBetweenBlanks hbetween (by omega)
  · rw [hnull]
    decide

/-- The lower case of an identifier character is plain. -/
theorem isPlain_of_mem_lowerChar {c d : Char} (hc : isWord c = true)
    (hd : d ∈ lowerChar c) : IsPlain d := by
  by_cases hascii : c.toNat < 128
  · unfold lowerChar at hd
    rw [if_pos hascii] at hd
    rw [List.mem_singleton.mp hd]
    exact forall_char_below (n := 128)
      (P := fun c => isWord c = true → IsPlain c.toLower) (by decide +kernel) c hascii hc
  rcases mem_lowerChar_of_above hascii hd with
    ⟨e, he, n, hn, rfl⟩ | ⟨n, hn, rfl⟩ | ⟨-, rfl⟩
  · have hlong : ∀ e ∈ lowerExpansions, ∀ n ∈ e.2, IsPlain (Char.ofNat n) := by
      decide +kernel
    exact hlong e he n hn
  · exact isPlain_of_image? hn
  · refine ⟨fun hmem => ?_, isBlank_of_isWord hc⟩
    have hmark : ∀ e ∈ ['/', '\x7b', '\x7d'], isWord e = false :=
      forall_mem_of_all (by decide)
    rw [hmark _ hmem] at hc
    cases hc

-- ============================================================== segments

/-- The segment of an identifier can stand in a path and is its own segment. -/
theorem isSegment_pathSegment {name : String} (h : IsName name.toList) :
    IsSegment (pathSegment name) := by
  have hlast : (pathSegment name).toList.getLast? = some 's' := by
    rw [toList_pathSegment, getLast?_plural]
  have hplain : ∀ c ∈ (pathSegment name).toList, IsPlain c ∧ IsLowered c := by
    have hends : ∀ c ∈ ['-', 'ς', 'i', 'e', 's'], IsPlain c ∧ IsLowered c :=
      forall_mem_of_all (by decide +kernel)
    intro c hc
    rcases mem_pathSegment hc with hc | ⟨d, hd, -, hc⟩
    · exact hends c hc
    · exact ⟨isPlain_of_mem_lowerChar (h.word d hd) hc, isLowered_of_mem_lowerChar hc⟩
  have hink : ∀ c ∈ (pathSegment name).toList, isBlank c = false :=
    fun c hc => (hplain c hc).1.2
  exact {
    ne_empty := fun hempty => by
      rw [hempty] at hlast
      cases hlast
    last := hlast
    plain := fun c hc => (hplain c hc).1.1
    ink := hink
    small := fun c hc => (hplain c hc).2.isUpper
    own := pathSegment_eq_self (fun c hc => (hplain c hc).2) hink hlast }

-- ================================================================= paths

namespace Document

theorem pathNames_toJson (doc : Document) : doc.toJson.pathNames = doc.paths.keys :=
  OrderedMap.keys_mapValues PathItem.toJson doc.paths

/-- The paths of a document are the two of each class. -/
theorem mem_keys_paths {info : Info} {d : Diagram} {path : String} :
    path ∈ (ofDiagram info d).paths.keys ↔ ∃ c ∈ d.classes,
      path = collectionPath (pathSegment c.name) ∨ path = itemPath (pathSegment c.name) := by
  constructor
  · intro hpath
    obtain ⟨e, he, rfl⟩ := List.mem_map.mp hpath
    obtain ⟨c, hc, hcrud⟩ := paths_ofDiagram info d e he
    simp only [crudPaths, List.mem_cons, List.not_mem_nil, or_false] at hcrud
    rcases hcrud with rfl | rfl
    · exact ⟨c, hc, Or.inl rfl⟩
    · exact ⟨c, hc, Or.inr rfl⟩
  · rintro ⟨c, hc, hpath⟩
    obtain ⟨last, -, -, hlast⟩ :=
      exists_lastWithSegment (List.mem_map_of_mem (f := Entity.name) hc)
    have hserves := servesLast_ofDiagram info d
    have hcollection := hserves.collection c.name
    have hitem := hserves.item c.name
    rw [hlast] at hcollection hitem
    rcases hpath with rfl | rfl
    · exact List.mem_map_of_mem (f := Prod.fst) (OrderedMap.mem_entries_of_get? hcollection)
    · exact List.mem_map_of_mem (f := Prod.fst) (OrderedMap.mem_entries_of_get? hitem)

end Document

/-- The segment of every identifier can stand in a path and is its own segment. So
the paths of a document made from a text are those of collections and of items,
with such segments, and none is both. -/
theorem segments_safe_and_stable :
    (∀ name : String, IsName name.toList → IsSegment (pathSegment name))
      ∧ ∀ (info : Info) (text : String) (doc : Document),
        Document.ofText info text = .ok doc → ∃ d, Diagram.parse text = .ok d
          ∧ (∀ path, path ∈ doc.toJson.pathNames ↔ ∃ c ∈ d.classes,
            path = collectionPath (pathSegment c.name)
              ∨ path = itemPath (pathSegment c.name))
          ∧ (∀ c ∈ d.classes, IsSegment (pathSegment c.name))
          ∧ ∀ c ∈ d.classes, ∀ c' ∈ d.classes,
            collectionPath (pathSegment c.name) ≠ itemPath (pathSegment c'.name) := by
  refine ⟨fun name => isSegment_pathSegment, fun info text doc h => ?_⟩
  obtain ⟨d, hparse, rfl⟩ := Document.ofText_eq_ok.mp h
  refine ⟨d, hparse, fun path => ?_, fun c hc => ?_, fun c _ c' _ => ?_⟩
  · rw [Document.pathNames_toJson]
    exact Document.mem_keys_paths
  · apply isSegment_pathSegment
    apply Diagram.isName_of_mem_declaredNames hparse
    exact List.mem_append_left _ (List.mem_map_of_mem (List.mem_append_left _ hc))
  · exact collectionPath_ne_itemPath c.name _

/-- A name whose lower case ends in a final sigma, beside one with two words. -/
theorem segments_safe_and_stable_of_final_sigma :
    let text := "class ΟΔΟΣ \x7b\n\x7d\nclass OrderItem \x7b\n\x7d\n"
    pathSegment "ΟΔΟΣ" = "οδοςs" ∧ IsSegment "οδοςs"
      ∧ ∃ doc, Document.ofText {} text = .ok doc
        ∧ doc.toJson.pathNames = ["/οδοςs", "/οδοςs/\x7bid\x7d", "/order-items",
          "/order-items/\x7bid\x7d"]
        ∧ IsSegment "order-items" ∧ collectionPath "οδοςs" ≠ itemPath "order-items" := by
  intro text
  let d : Diagram := { classes := [{ name := "ΟΔΟΣ" }, { name := "OrderItem" }] }
  have hparse : Diagram.parse text = .ok d := by decide +kernel
  have hdoc : Document.ofText {} text = .ok (Document.ofDiagram {} d) :=
    Document.ofText_eq_ok.mpr ⟨d, hparse, rfl⟩
  have hfirst : pathSegment "ΟΔΟΣ" = "οδοςs" := by decide +kernel
  have hsecond : pathSegment "OrderItem" = "order-items" := by decide +kernel
  obtain ⟨hnames, htexts⟩ := segments_safe_and_stable
  obtain ⟨d', hparse', -, hsegments, hapart⟩ := htexts {} text _ hdoc
  rw [hparse] at hparse'
  injection hparse' with hd
  subst hd
  refine ⟨hfirst, ?_, _, hdoc, by decide +kernel, ?_, ?_⟩
  · rw [← hfirst]
    exact hnames "ΟΔΟΣ" ⟨by decide, forall_mem_of_all (by decide +kernel)⟩
  · rw [← hsecond]
    exact hsegments { name := "OrderItem" } (by simp [d])
  · rw [← hfirst, ← hsecond]
    exact hapart { name := "ΟΔΟΣ" } (by simp [d]) { name := "OrderItem" } (by simp [d])

end ApiScaffold
