/-
The blocks of a text by places alone. A brace counts at a place whose line is
no comment and has no open quote there (`ActiveAt`). From the end of one
region to the end of the next a text is delimited by three searches for a
first place: the first opening brace that counts, the first closing brace
that counts and ends no modifier, and, where the text in front of the opening
brace ends with no header, the first brace behind it whose own line ends with
one (`Region.Stands`). Each search has one answer, so the regions of a text
are determined (`Delimited.unique`); a region with a header is a block.
-/
import ApiScaffold.Proofs.Diagram.HeaderText
import Mathlib.Algebra.Group.Nat.Even

namespace ApiScaffold

-- ================================================================ places

/-- The line on which a place of a text stands. -/
def lineAt (text : List Char) (i : Nat) : List Char :=
  lastPart (text.take i) ++ (text.drop i).takeWhile (· ≠ '\n')

/-- A character stands at a place on a line that is no comment, with an even
number of quotes in front of it on the line. -/
structure ActiveAt (text : List Char) (i : Nat) (c : Char) : Prop where
  char : text[i]? = some c
  uncommented : isComment (lineAt text i) = false
  unquoted : Even ((lastPart (text.take i)).count '"')

/-- A modifier reaches from its opening brace at one place to its closing
brace at another. -/
def ModifierSpan (text : List Char) (p q : Nat) : Prop :=
  ∃ word rest, word ≠ [] ∧ (∀ c ∈ word, isWord c = true)
    ∧ text.drop p = '\x7b' :: (word ++ '\x7d' :: rest) ∧ q = p + word.length + 1

/-- A place has a property that no earlier place has. -/
def FirstPlace (P : Nat → Prop) (i : Nat) : Prop := P i ∧ ∀ j, P j → i ≤ j

-- =============================================================== regions

/-- From a place on, an opening brace counts. -/
def OpensFrom (text : List Char) (past o : Nat) : Prop :=
  past ≤ o ∧ ActiveAt text o '\x7b'

/-- Behind an opening brace, a closing brace counts and ends no modifier
that starts behind the opening brace. -/
def Closes (text : List Char) (o c : Nat) : Prop :=
  o < c ∧ ActiveAt text c '\x7d'
    ∧ ∀ p, o < p → ActiveAt text p '\x7b' → ¬ ModifierSpan text p c

/-- The header that the text in front of an opening brace ends with. The text
reaches back to the end of the last region, at `past`, or to the last comment
line, whichever is later; comment lines in a region end before the region
does. -/
def headerBefore? (text : List Char) (past o : Nat) : Option Header :=
  Header.find? ((text.take o).drop (max past (afterComment (text.take o))))

/-- The header that the text in front of a brace ends with on its line, or
behind the brace at `o` that opened the region, whichever is later. -/
def lineHeader? (text : List Char) (o p : Nat) : Option Header :=
  Header.find? (lastPart ((text.take p).drop (o + 1)))

/-- A brace in a region without a header starts a block there. -/
def Restarts (text : List Char) (o p : Nat) : Prop :=
  o < p ∧ ActiveAt text p '\x7b' ∧ (∀ q, ¬ ModifierSpan text p q)
    ∧ (lineHeader? text o p).isSome = true

/-- The brace in front of the body of a region that is opened at `start` and
is known up to a place, and its header. -/
inductive Headed (text : List Char) (past start upto : Nat) :
    Nat → Option Header → Prop where
  /-- The region has a header. -/
  | own {h : Header} : headerBefore? text past start = some h →
      Headed text past start upto start (some h)
  /-- It has none, but a block starts in it. -/
  | restarted {p : Nat} {h : Header} : headerBefore? text past start = none →
      p < upto → FirstPlace (Restarts text start) p →
      lineHeader? text start p = some h →
      Headed text past start upto p (some h)
  /-- It has none, and no block starts in it. -/
  | unheaded : headerBefore? text past start = none →
      (∀ p, p < upto → ¬ Restarts text start p) →
      Headed text past start upto start none

/-- A part of a text between braces: where it is opened and closed, the brace
in front of its body, and its header. -/
structure Region where
  start : Nat
  own : Nat
  stop : Nat
  header : Option Header

namespace Region

/-- A region with a header is a block. -/
def block? (text : List Char) (r : Region) : Option Block :=
  r.header.map fun h => ⟨h.keyword, h.name, (text.take r.stop).drop (r.own + 1)⟩

/-- A region is the next one from a place on. -/
structure Stands (text : List Char) (past : Nat) (r : Region) : Prop where
  opens : FirstPlace (OpensFrom text past) r.start
  closes : FirstPlace (Closes text r.start) r.stop
  headed : Headed text past r.start r.stop r.own r.header
  opens_own : ActiveAt text r.own '\x7b'
  closes_own : FirstPlace (Closes text r.own) r.stop

end Region

/-- The regions of a text from a place on, up to an opening brace that is
not closed, if there is one. -/
inductive Delimited (text : List Char) : Nat → List Region → Prop where
  | last {past : Nat} :
      (∀ o, FirstPlace (OpensFrom text past) o → ∀ c, ¬ Closes text o c) →
      Delimited text past []
  | next {past : Nat} {r : Region} {rs : List Region} : r.Stands text past →
      Delimited text (r.stop + 1) rs → Delimited text past (r :: rs)

-- ========================================================== one delimitation

/-- There is one first place. -/
theorem FirstPlace.unique {P : Nat → Prop} {i j : Nat} (hi : FirstPlace P i)
    (hj : FirstPlace P j) : i = j :=
  Nat.le_antisymm (hi.2 j hj.1) (hj.2 i hi.1)

variable {text : List Char}

/-- A region has one brace in front of its body, and one header at most. -/
theorem Headed.unique {past start upto own own' : Nat}
    {header header' : Option Header}
    (h : Headed text past start upto own header)
    (h' : Headed text past start upto own' header') :
    own = own' ∧ header = header' := by
  cases h with
  | own hbefore =>
      cases h' with
      | own hbefore' => exact ⟨rfl, hbefore.symm.trans hbefore'⟩
      | restarted hnone => rw [hnone] at hbefore; cases hbefore
      | unheaded hnone => rw [hnone] at hbefore; cases hbefore
  | restarted hnone hp hfirst hown =>
      cases h' with
      | own hbefore => rw [hnone] at hbefore; cases hbefore
      | restarted hnone' hp' hfirst' hown' =>
          obtain rfl := hfirst.unique hfirst'
          exact ⟨rfl, hown.symm.trans hown'⟩
      | unheaded hnone' hno => exact absurd hfirst.1 (hno _ hp)
  | unheaded hnone hno =>
      cases h' with
      | own hbefore => rw [hnone] at hbefore; cases hbefore
      | restarted hnone' hp hfirst => exact absurd hfirst.1 (hno _ hp)
      | unheaded => exact ⟨rfl, rfl⟩

/-- Behind a place one region stands. -/
theorem Region.Stands.unique {past : Nat} {r r' : Region} (h : r.Stands text past)
    (h' : r'.Stands text past) : r = r' := by
  obtain ⟨start, own, stop, header⟩ := r
  obtain ⟨start', own', stop', header'⟩ := r'
  obtain rfl : start = start' := h.opens.unique h'.opens
  obtain rfl : stop = stop' := h.closes.unique h'.closes
  obtain ⟨rfl, rfl⟩ := h.headed.unique h'.headed
  rfl

/-- A text is delimited in one way. -/
theorem Delimited.unique {past : Nat} {rs rs' : List Region}
    (h : Delimited text past rs) (h' : Delimited text past rs') : rs = rs' := by
  induction h generalizing rs' with
  | last hopen =>
      cases h' with
      | last => rfl
      | next hr => exact absurd hr.closes.1 (hopen _ hr.opens _)
  | next hr hrest ih =>
      cases h' with
      | last hopen => exact absurd hr.closes.1 (hopen _ hr.opens _)
      | next hr' hrest' =>
          obtain rfl := hr.unique hr'
          rw [ih hrest']

/-- The brace in front of the body is the one at the start or stands behind it. -/
theorem Headed.start_le {past start upto own : Nat} {header : Option Header}
    (h : Headed text past start upto own header) : start ≤ own := by
  cases h with
  | own => exact Nat.le_refl _
  | restarted _ _ hfirst => exact Nat.le_of_lt hfirst.1.1
  | unheaded => exact Nat.le_refl _

/-- The brace in front of the body of a region counts. -/
theorem Headed.active {past start upto own : Nat} {header : Option Header}
    (h : Headed text past start upto own header)
    (hstart : ActiveAt text start '\x7b') : ActiveAt text own '\x7b' := by
  cases h with
  | own => exact hstart
  | restarted _ _ hfirst => exact hfirst.1.2.1
  | unheaded => exact hstart

/-- No region starts in front of the place where the last one ended. -/
theorem Delimited.past_le {past : Nat} {rs : List Region}
    (h : Delimited text past rs) : ∀ r ∈ rs, past ≤ r.own := by
  induction h with
  | last => exact fun r hr => by cases hr
  | next hr _ ih =>
      intro r' hr'
      have hown := hr.opens.1.1.trans hr.headed.start_le
      have hstop := hr.closes_own.1.1
      rcases List.mem_cons.mp hr' with rfl | hr'
      · exact hown
      · have hlater := ih r' hr'
        omega

/-- Bodies stand one behind the other. -/
theorem Delimited.ordered {past : Nat} {rs : List Region}
    (h : Delimited text past rs) :
    (∀ r ∈ rs, r.own < r.stop) ∧ rs.Pairwise fun r r' => r.stop < r'.own := by
  induction h with
  | last => exact ⟨fun r hr => (by cases hr), List.Pairwise.nil⟩
  | next hr hrest ih =>
      refine ⟨fun r' hr' => ?_, List.Pairwise.cons (fun r' hr' => ?_) ih.2⟩
      · rcases List.mem_cons.mp hr' with rfl | hr'
        · exact hr.closes_own.1.1
        · exact ih.1 r' hr'
      · exact hrest.past_le r' hr'

end ApiScaffold
