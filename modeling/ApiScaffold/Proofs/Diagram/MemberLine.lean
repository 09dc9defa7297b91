/-
Written members are read back. The visibility symbol is what stands before
a name, so taking it off leaves the name with what follows it
(`Member.unwrap_printed`); the name is all identifier characters, so it
ends where they end; and what follows holds the type behind a colon, in a
method after the last closing parenthesis, which no type holds. A value of
an enumeration is a line of its own.
-/
import ApiScaffold.Proofs.Diagram.Layout
import ApiScaffold.Proofs.Diagram.Printed

namespace ApiScaffold

-- =============================================================== names

namespace IsName

variable {s rest : List Char}

/-- A name holds no blank. -/
theorem ink (h : IsName s) : AllInk s :=
  fun c hc => isBlank_of_isWord (h.word c hc)

/-- A name holds no character that is none of an identifier. -/
theorem not_mem (h : IsName s) {c : Char} (hc : isWord c = false) : c ∉ s :=
  fun hmem => ne_of_isWord (h.word c hmem) hc rfl

/-- A name starts with an identifier character. -/
theorem exists_cons (h : IsName s) : ∃ c r, s = c :: r ∧ isWord c = true := by
  obtain ⟨c, r, rfl⟩ := List.exists_cons_of_ne_nil h.ne_nil
  exact ⟨c, r, rfl, h.word c (List.mem_cons_self ..)⟩

/-- A name ends where no identifier character follows. -/
theorem takeWhile_append (h : IsName s)
    (hrest : ∀ c ∈ rest.head?, isWord c = false) :
    (s ++ rest).takeWhile isWord = s :=
  (run_append h.word hrest).1

/-- Behind a name the rest is left. -/
theorem dropWhile_append (h : IsName s)
    (hrest : ∀ c ∈ rest.head?, isWord c = false) :
    (s ++ rest).dropWhile isWord = rest :=
  (run_append h.word hrest).2

/-- A name in front keeps a text from being trimmed at its start. -/
theorem trim_append (h : IsName s) (hrest : InkEnd rest) :
    trim (s ++ rest) = s ++ rest := by
  have hend : InkEnd (s ++ rest) := (inkEnd_of_ink h.ink).append hrest
  obtain ⟨c, r, rfl, hc⟩ := h.exists_cons
  exact trim_cons_of_inkEnd (isBlank_of_isWord hc) hend

end IsName

namespace Member

-- =============================================================== types

/-- No character of a type is a blank. -/
theorem isBlank_of_isTypeChar {c : Char} (h : isTypeChar c = true) :
    isBlank c = false := by
  unfold isTypeChar at h
  simp only [Bool.or_eq_true, beq_iff_eq] at h
  rcases h with (((h | rfl) | rfl) | rfl) | rfl
  · exact isBlank_of_isWord h
  all_goals decide

theorem ne_of_isTypeChar {c d : Char} (h : isTypeChar c = true)
    (hd : isTypeChar d = false) : c ≠ d := by
  intro heq
  rw [heq, hd] at h
  cases h

/-- A line with a type ends in no blank. -/
theorem inkEnd_printedType {t : Option String}
    (h : ∀ s ∈ t, IsTypeToken s.toList) : InkEnd (printedType t) := by
  cases t with
  | none => exact inkEnd_of_ink (s := []) (by decide)
  | some s =>
      have hs := h s rfl
      exact InkEnd.append_left
        (inkEnd_of_ink fun c hc => isBlank_of_isTypeChar (hs.type c hc))
        hs.ne_nil [':', ' ']

/-- A printed type starts with a colon, so the name in front of it ends there. -/
theorem head?_printedType (t : Option String) :
    ∀ c ∈ (printedType t).head?, isWord c = false := by
  cases t with
  | none => simp [printedType]
  | some s =>
      rintro c ⟨⟩
      decide

/-- Characters of a written type: those of types, the colon and the
space. -/
theorem not_mem_printedType {t : Option String}
    (h : ∀ s ∈ t, IsTypeToken s.toList) {c : Char}
    (hc : isTypeChar c = false) (hcolon : c ≠ ':') (hspace : c ≠ ' ') :
    c ∉ printedType t := by
  cases t with
  | none => simp [printedType]
  | some s =>
      intro hmem
      simp only [printedType, List.mem_cons, hcolon, hspace, false_or] at hmem
      exact ne_of_isTypeChar ((h s rfl).type c hmem) hc rfl

/-- A type ends where no type character follows. -/
theorem typeAfterColon?_append {type rest : List Char} (htype : IsTypeToken type)
    (hrest : ∀ c ∈ rest.head?, isTypeChar c = false) :
    typeAfterColon? (':' :: ' ' :: (type ++ rest))
      = some (String.ofList type) := by
  obtain ⟨c, r, rfl⟩ := List.exists_cons_of_ne_nil htype.ne_nil
  have hstart : trimStart (c :: r ++ rest) = c :: r ++ rest :=
    trimStart_cons_of_ink
      (isBlank_of_isTypeChar (htype.type c (List.mem_cons_self ..)))
  unfold typeAfterColon?
  rw [trimStart_cons_of_ink (by decide)]
  simp only
  rw [trimStart_cons_of_blank (by decide), hstart,
    (run_append htype.type hrest).1]

/-- A printed type is read back. -/
theorem typeAfterColon?_printedType {t : Option String}
    (h : ∀ s ∈ t, IsTypeToken s.toList) :
    typeAfterColon? (printedType t) = t := by
  cases t with
  | none => rfl
  | some s =>
      have hnil : ∀ c ∈ ([] : List Char).head?, isTypeChar c = false := by simp
      have hread := typeAfterColon?_append (h s rfl) hnil
      rw [List.append_nil, String.ofList_toList] at hread
      exact hread

-- =============================================================== lines

/-- An access level is read back from its symbol. -/
theorem ofSymbol?_symbol (a : Access) :
    Access.ofSymbol? a.symbol = some a := by
  cases a <;> rfl

/-- Taking the visibility symbol off leaves what stands behind it. -/
theorem unwrap_printed (a : Access) {name rest : List Char}
    (hname : IsName name) (hrest : InkEnd rest) :
    unwrap (a.symbol :: (name ++ rest)) = (a, name ++ rest) := by
  have hsymbol : dropModifiers (a.symbol :: (name ++ rest))
      = a.symbol :: (name ++ rest) :=
    dropModifiers_of_ne (by cases a <;> simp [Access.symbol])
  have hplain : dropModifiers (name ++ rest) = name ++ rest := by
    obtain ⟨c, r, rfl, hc⟩ := hname.exists_cons
    refine dropModifiers_of_ne fun h => ?_
    injection h with h
    exact ne_of_isWord hc (by decide) h
  unfold unwrap
  simp only [hsymbol]
  rw [ofSymbol?_symbol]
  simp only
  rw [hname.trim_append hrest, hplain]

/-- The text after a closing parenthesis that no other one follows. -/
theorem afterLast?_append {c : Char} (s : List Char) {rest : List Char}
    (h : c ∉ rest) : afterLast? c (s ++ c :: rest) = some rest := by
  have hall : ∀ d ∈ rest.reverse, (decide (d ≠ c)) = true := by
    intro d hd
    refine decide_eq_true fun heq => ?_
    exact h (heq ▸ List.mem_reverse.mp hd)
  unfold afterLast?
  rw [if_pos (by simp), List.reverse_append, List.reverse_cons,
    List.append_assoc, List.takeWhile_append_of_pos hall,
    List.singleton_append, List.takeWhile_cons_of_neg (by simp),
    List.append_nil, List.reverse_reverse]

/-- A name behind its symbol, without a parenthesis, is an attribute. -/
theorem ofLine?_of_name (access : Access) {name rest : List Char}
    (hname : IsName name) (hhead : ∀ c ∈ rest.head?, isWord c = false)
    (hend : InkEnd rest) (hparen : '(' ∉ rest) :
    ofLine? (access.symbol :: (name ++ rest))
      = some (.attribute ⟨String.ofList name, typeAfterColon? rest, access⟩) := by
  have hno : (name ++ rest).contains '(' = false := by
    rw [← Bool.not_eq_true, List.contains_iff_mem, List.mem_append, not_or]
    exact ⟨hname.not_mem (by decide), hparen⟩
  unfold ofLine?
  rw [unwrap_printed access hname hend]
  simp only [hno]
  unfold readAttribute?
  rw [hname.takeWhile_append hhead, hname.dropWhile_append hhead]
  obtain ⟨c, r, rfl, -⟩ := hname.exists_cons
  rfl

/-- An attribute is read back from its line. -/
theorem ofLine?_attribute {a : Attribute} (h : a.Canonical) :
    ofLine? a.printed = some (.attribute a) := by
  have hparen : '(' ∉ printedType a.type :=
    not_mem_printedType h.type (by decide) (by decide) (by decide)
  have hread := ofLine?_of_name a.access h.name (head?_printedType a.type)
    (inkEnd_printedType h.type) hparen
  rw [typeAfterColon?_printedType h.type, String.ofList_toList] at hread
  exact hread

/-- A method is read back from its line. -/
theorem ofLine?_method {m : Method} (h : m.Canonical) :
    ofLine? m.printed = some (.method m) := by
  have htype := inkEnd_printedType h.returnType
  have hend : InkEnd ('(' :: ')' :: printedType m.returnType) :=
    (inkEnd_of_ink (s := ['(', ')']) (by decide)).append htype
  have hhead : ∀ c ∈ ('(' :: ')' :: printedType m.returnType).head?,
      isWord c = false := by
    rintro c ⟨⟩
    decide
  have hafter : afterLast? ')'
      (m.name.toList ++ '(' :: ')' :: printedType m.returnType)
      = some (printedType m.returnType) := by
    rw [List.append_cons]
    exact afterLast?_append _
      (not_mem_printedType h.returnType (by decide) (by decide) (by decide))
  unfold ofLine? Method.printed
  rw [unwrap_printed m.access h.name hend]
  simp only
  rw [if_pos (by simp)]
  unfold readMethod?
  simp only
  rw [h.name.takeWhile_append hhead, h.name.dropWhile_append hhead,
    trimStart_cons_of_ink (by decide), hafter, Option.bind_some,
    typeAfterColon?_printedType h.returnType]
  obtain ⟨c, r, hcons, -⟩ := h.name.exists_cons
  rw [hcons]
  simp only
  rw [← hcons, String.ofList_toList]
  rfl

end Member

-- ============================================================== blocks

/-- Lines that are all read are read one by one. -/
theorem filterMap_map_eq {α β γ : Type} {f : α → β} {g : β → Option γ}
    {k : α → γ} {l : List α} (h : ∀ a ∈ l, g (f a) = some (k a)) :
    (l.map f).filterMap g = l.map k := by
  induction l with
  | nil => rfl
  | cons a l ih =>
      rw [List.map_cons, List.filterMap_cons_some (h a (List.mem_cons_self ..)),
        ih fun b hb => h b (List.mem_cons_of_mem _ hb), List.map_cons]

/-- The members of an entity are read back from its block. -/
theorem Entity.members_block {kind : EntityKind} {e : Entity}
    (h : e.Canonical kind) (k : Keyword) :
    (e.block k).members
      = e.attributes.map .attribute ++ e.methods.map .method := by
  have hattributes : ∀ a ∈ e.attributes,
      Member.ofLine? a.printed = some (.attribute a) :=
    fun a ha => Member.ofLine?_attribute (h.attributes a ha)
  have hmethods : ∀ m ∈ e.methods,
      Member.ofLine? m.printed = some (.method m) :=
    fun m hm => Member.ofLine?_method (h.methods m hm)
  unfold BareBlock.members Entity.block
  rw [List.filterMap_append, filterMap_map_eq hattributes,
    filterMap_map_eq hmethods]

/-- The entity of a written block is the one that was written. -/
theorem Entity.entity_block {kind : EntityKind} {e : Entity}
    (h : e.Canonical kind) (k : Keyword) : (e.block k).entity kind = e := by
  have hattributes : (e.block k).members.filterMap Member.attribute?
      = e.attributes := by
    rw [e.members_block h, List.filterMap_append, List.filterMap_map,
      List.filterMap_map]
    simp [Function.comp_def, Member.attribute?]
  have hmethods : (e.block k).members.filterMap Member.method?
      = e.methods := by
    rw [e.members_block h, List.filterMap_append, List.filterMap_map,
      List.filterMap_map]
    simp [Function.comp_def, Member.method?]
  unfold BareBlock.entity
  rw [hattributes, hmethods, ← h.kind_eq]
  unfold Entity.block
  rw [String.ofList_toList]

/-- A name on a line is the one value of the line. -/
theorem valuesOfLine_of_name {s : List Char} (h : IsName s) :
    valuesOfLine s = [s] := by
  have hquote : ¬ (s.head? == some '\'') = true := by
    intro heq
    exact h.not_mem (c := '\'') (by decide)
      (List.mem_of_head? (beq_iff_eq.mp heq))
  have hend : dropSemicolons s = s := by
    unfold dropSemicolons
    cases hrev : s.reverse with
    | nil => rw [List.reverse_eq_nil_iff.mp hrev]; rfl
    | cons d r =>
        have hd : d ≠ ';' := by
          have hmem : d ∈ s := List.mem_reverse.mp (hrev ▸ List.mem_cons_self ..)
          exact ne_of_isWord (h.word d hmem) (by decide)
        rw [List.dropWhile_cons_of_neg (by simpa using hd), ← hrev,
          List.reverse_reverse]
  unfold valuesOfLine
  rw [if_neg hquote, hend, pieces_of_not_mem (h.not_mem (by decide)),
    List.map_singleton, trim_of_ink h.ink,
    List.filter_cons_of_pos (by simpa using h.ne_nil)]
  rfl

/-- The enumeration of a written block is the one that was written. -/
theorem Enumeration.enumeration_block {e : Enumeration} (h : e.Canonical) :
    e.block.enumeration = e := by
  have hvalues : (e.values.map String.toList).flatMap valuesOfLine
      = e.values.map String.toList := by
    have hone : ∀ v ∈ e.values, valuesOfLine v.toList = [v.toList] :=
      fun v hv => valuesOfLine_of_name (h.values v hv)
    rw [List.flatMap_map, List.flatMap_congr hone, List.map_eq_flatMap]
  unfold BareBlock.enumeration Enumeration.block
  simp only
  rw [hvalues, List.map_map, String.ofList_toList]
  simp [Function.comp_def]

end ApiScaffold
