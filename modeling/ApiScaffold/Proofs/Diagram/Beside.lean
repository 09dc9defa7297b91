/-
Two walks that stand alike. A plain walk over a text and one over the text
wrapped in a package are in lockstep where both are outside any block or
both inside one; `Beside` says what their zones then have in common, and
that a character, a comment line or a brace keeps it.

Where the wrapped walk has lost a header, the plain one may be in a block
that the wrapped one is not in. That the walks then read different blocks is
seen by weighing what a walk has read of blocks, the one it is in included
(`Course.weight`): no step adds more to the wrapped walk than to the plain
one.
-/
import ApiScaffold.Proofs.Diagram.HeaderText

namespace ApiScaffold

-- ================================================================ weights

/-- The weight of blocks: one for each and one for each character of its
body. -/
def weightOf : List Block → Nat
  | [] => 0
  | b :: blocks => b.body.length + 1 + weightOf blocks

theorem weightOf_append (blocks more : List Block) :
    weightOf (blocks ++ more) = weightOf blocks + weightOf more := by
  induction blocks with
  | nil => exact (Nat.zero_add _).symm
  | cons b blocks ih => simp only [List.cons_append, weightOf, ih, Nat.add_assoc]

/-- The weight of the block that a walk is in. -/
def Zone.weight : Zone → Nat
  | .inside (some _) content => content.length + 1
  | _ => 0

/-- The weight of the block that a mark completes. -/
def markWeight (m : Option Mark) : Nat := weightOf (m.bind Mark.block?).toList

/-- The weight of a zone after a brace, with that of the block it completes. -/
def Zone.braceWeight (c : Char) (z : Zone) : Nat :=
  markWeight (z.brace c).2 + (z.brace c).1.weight

/-- The weight of all that a walk has read of blocks. -/
def Course.weight (w : Course) : Nat :=
  weightOf (blocksAmong w.past) + w.zone.weight

/-- A mark adds the weight of the block that it completes. -/
theorem weight_mark (quoted : Bool) (skip : Nat) (zone : Zone)
    (past : List (Nat × Mark)) (m : Option Mark) (n : Nat) :
    (Course.mk quoted skip zone (past ++ (m.map (n, ·)).toList)).weight
      = weightOf (blocksAmong past) + markWeight m + zone.weight := by
  unfold Course.weight markWeight
  rw [blocksAmong_mark, weightOf_append]

/-- A brace weighs what it completes and what it leaves open. -/
theorem weight_brace (quoted : Bool) (skip : Nat) (z : Zone)
    (past : List (Nat × Mark)) (c : Char) (n : Nat) :
    (Course.mk quoted skip (z.brace c).1
        (past ++ ((z.brace c).2.map (n, ·)).toList)).weight
      = weightOf (blocksAmong past) + z.braceWeight c := by
  rw [weight_mark, Nat.add_assoc]
  rfl

/-- A closing brace turns the block that a walk is in into one completed. -/
theorem weight_closeBrace (h : Option Header) (c : List Char) :
    (Zone.inside h c).braceWeight '\x7d' = (Zone.inside h c).weight := by
  unfold Zone.braceWeight
  cases h with
  | none => rfl
  | some header =>
      rw [Zone.brace_headed_close]
      simp [markWeight, weightOf, Mark.block?, Zone.weight]

/-- An opening brace joins the body of a block with a header. -/
theorem weight_openBrace_headed (header : Header) (c : List Char) :
    (Zone.inside (some header) c).braceWeight '\x7b'
      = (Zone.inside (some header) c).weight + 1 := by
  unfold Zone.braceWeight
  rw [Zone.brace_headed_open]
  simp [markWeight, weightOf, Zone.weight]

/-- An opening brace inside a block adds one at most. -/
theorem weight_openBrace_le (h : Option Header) (c : List Char) :
    (Zone.inside h c).braceWeight '\x7b' ≤ (Zone.inside h c).weight + 1 := by
  cases h with
  | some header => exact Nat.le_of_eq (weight_openBrace_headed header c)
  | none =>
      unfold Zone.braceWeight
      cases hown : Header.find? (Zone.lastLine c) with
      | none =>
          rw [Zone.brace_unheaded_open hown]
          simp [markWeight, weightOf, Zone.weight]
      | some header =>
          rw [Zone.brace_unheaded_reopen hown]
          simp [markWeight, weightOf, Zone.weight, Mark.block?]

/-- The opening of a block adds no weight of its own. -/
theorem weight_opened (quoted : Bool) (skip : Nat) (zone : Zone)
    (past : List (Nat × Mark)) (n : Nat) :
    (Course.mk quoted skip zone (past ++ [(n, .opened)])).weight
      = weightOf (blocksAmong past) + zone.weight :=
  weight_mark quoted skip zone past (some .opened) n

/-- Nor does a block that starts over. -/
theorem weight_reopened (quoted : Bool) (skip : Nat) (zone : Zone)
    (past : List (Nat × Mark)) (n : Nat) :
    (Course.mk quoted skip zone (past ++ [(n, .reopened)])).weight
      = weightOf (blocksAmong past) + zone.weight :=
  weight_mark quoted skip zone past (some .reopened) n

-- ============================================================ in lockstep

/-- How the zones of the walks stand to each other where both are outside
any block or both inside one. Where a header was lost, the plain walk may be
in a block that the wrapped one is not in, or in all of it. -/
inductive Beside (lost closed : Prop) : Zone → Zone → Prop
  | outside {p p' : List Char} (hclosed : closed)
      (h : sinceBrace p = sinceBrace p') :
      Beside lost closed (.outside p) (.outside p')
  | unheaded {c c' : List Char} (h : sinceStop c = sinceStop c') :
      Beside lost closed (.inside none c) (.inside none c')
  | headed {h : Header} {c : List Char} :
      Beside lost closed (.inside (some h) c) (.inside (some h) c)
  | ahead {h : Header} {h' : Option Header} {c c' : List Char} (hlost : lost) :
      Beside lost closed (.inside (some h) c) (.inside h' c')

namespace Beside

variable {lost closed lost' closed' : Prop} {z z' : Zone}

/-- Zones beside each other are outside any block alike. -/
theorem isOutside_eq (hz : Beside lost closed z z') :
    z.isOutside = z'.isOutside := by
  cases hz <;> rfl

/-- What may be lost or be closed may be more. -/
theorem mono (hz : Beside lost closed z z') (hlost : lost → lost')
    (hclosed : closed → closed') : Beside lost' closed' z z' := by
  cases hz with
  | outside hc h => exact .outside (hclosed hc) h
  | unheaded h => exact .unheaded h
  | headed => exact .headed
  | ahead hl => exact .ahead (hlost hl)

/-- A character that is read. -/
theorem push (hz : Beside lost closed z z') (d : Char) :
    Beside lost closed (z.push d) (z'.push d)
      ∧ (z'.push d).weight + z.weight ≤ (z.push d).weight + z'.weight := by
  cases hz with
  | outside hc h => exact ⟨.outside hc (sinceBrace_cons_congr h d), Nat.le_refl _⟩
  | unheaded h => exact ⟨.unheaded (sinceStop_cons_congr h d), Nat.le_refl _⟩
  | headed => exact ⟨.headed, Nat.le_refl _⟩
  | @ahead _ h' _ _ hl =>
      refine ⟨.ahead hl, ?_⟩
      cases h' <;> simp only [Zone.push, Zone.weight, List.length_cons] <;> omega

/-- A comment line with its break. -/
theorem passComment (hz : Beside lost closed z z') (line : List Char) :
    Beside lost closed ((z.passComment line).push '\n')
        ((z'.passComment line).push '\n')
      ∧ ((z'.passComment line).push '\n').weight + z.weight
        ≤ ((z.passComment line).push '\n').weight + z'.weight := by
  cases hz with
  | outside hc h => exact ⟨.outside hc rfl, Nat.le_refl _⟩
  | unheaded h =>
      refine ⟨.unheaded ?_, Nat.le_refl _⟩
      rw [sinceStop_break, sinceStop_break]
  | headed => exact ⟨.headed, Nat.le_refl _⟩
  | @ahead _ h' _ _ hl =>
      refine ⟨.ahead hl, ?_⟩
      cases h' <;>
        simp only [Zone.passComment, Zone.push, Zone.weight, List.length_cons,
          List.length_append] <;>
        omega

/-- An opening brace. -/
theorem openBrace (hz : Beside lost closed z z') :
    Beside lost closed (z.brace '\x7b').1 (z'.brace '\x7b').1
      ∧ ((z.brace '\x7b').2 = (z'.brace '\x7b').2 ∨ lost)
      ∧ z'.braceWeight '\x7b' + z.weight ≤ z.braceWeight '\x7b' + z'.weight := by
  cases hz with
  | @outside p p' hc h =>
      unfold Zone.braceWeight
      have hfind : Header.find? p.reverse = Header.find? p'.reverse := by
        rw [← find?_sinceBrace, h, find?_sinceBrace]
      rw [Zone.brace_outside_open, Zone.brace_outside_open, hfind]
      refine ⟨?_, Or.inl rfl, Nat.le_refl _⟩
      cases Header.find? p'.reverse with
      | none => exact .unheaded rfl
      | some header => exact .headed
  | @unheaded c c' h =>
      unfold Zone.braceWeight
      have hfind : Header.find? (Zone.lastLine c)
          = Header.find? (Zone.lastLine c') := by
        rw [find?_lastLine, h, ← find?_lastLine]
      cases hown : Header.find? (Zone.lastLine c') with
      | none =>
          rw [Zone.brace_unheaded_open hown,
            Zone.brace_unheaded_open (hfind.trans hown)]
          exact ⟨.unheaded (sinceStop_cons_congr h _), Or.inl rfl, Nat.le_refl _⟩
      | some header =>
          rw [Zone.brace_unheaded_reopen hown,
            Zone.brace_unheaded_reopen (hfind.trans hown)]
          exact ⟨.headed, Or.inl rfl, Nat.le_refl _⟩
  | headed => exact ⟨.headed, Or.inl rfl, Nat.le_refl _⟩
  | @ahead header h' c c' hl =>
      obtain ⟨header'', c'', hinside⟩ := Zone.exists_inside_open h' c'
      have hheaded := weight_openBrace_headed header c
      have hinside' := weight_openBrace_le h' c'
      rw [Zone.brace_headed_open, hinside]
      exact ⟨.ahead hl, Or.inr hl, by omega⟩

/-- A closing brace. Inside a block it closes the package. -/
theorem closeBrace (hz : Beside lost closed z z') (hkept : closed → closed')
    (hclosed : z'.isOutside = false → closed') :
    Beside lost closed' (z.brace '\x7d').1 (z'.brace '\x7d').1
      ∧ ((z.brace '\x7d').2 = (z'.brace '\x7d').2 ∨ lost)
      ∧ z'.braceWeight '\x7d' + z.weight ≤ z.braceWeight '\x7d' + z'.weight := by
  cases hz with
  | outside hc h =>
      refine ⟨.outside (hkept hc) ?_, Or.inl rfl, Nat.le_refl _⟩
      rw [sinceBrace_brace (by decide), sinceBrace_brace (by decide)]
  | unheaded h => exact ⟨.outside (hclosed rfl) rfl, Or.inl rfl, Nat.le_refl _⟩
  | headed => exact ⟨.outside (hclosed rfl) rfl, Or.inl rfl, Nat.le_refl _⟩
  | @ahead header h' c c' hl =>
      refine ⟨?_, Or.inr hl, ?_⟩
      · cases h' <;> exact .outside (hclosed rfl) rfl
      · rw [weight_closeBrace, weight_closeBrace]
        omega

/-- A brace: it does the same to both walks unless a header was lost, and
adds no more weight to the wrapped one than to the plain one. -/
theorem brace (hz : Beside lost closed z z') {d : Char}
    (hd : Header.isBrace d = true) (lost' closed' : Prop) (hlost : lost → lost')
    (hkept : closed → closed')
    (hclosed : ∀ m, (z'.brace d).2 = some m → m.closes = true → closed') :
    Beside lost' closed' (z.brace d).1 (z'.brace d).1
      ∧ ((z.brace d).2 = (z'.brace d).2 ∨ lost)
      ∧ z'.braceWeight d + z.weight ≤ z.braceWeight d + z'.weight := by
  rcases eq_of_isBrace hd with rfl | rfl
  · exact ⟨hz.openBrace.1.mono hlost hkept, hz.openBrace.2⟩
  · have hclose : z'.isOutside = false → closed' := by
      intro hin
      obtain ⟨m, hm, hcloses⟩ := Zone.exists_closes hin
      exact hclosed m hm hcloses
    exact ⟨(hz.closeBrace hkept hclose).1.mono hlost id,
      (hz.closeBrace hkept hclose).2⟩

end Beside

end ApiScaffold
