/-
Texts that differ in the widths of their runs of blanks. `Respaced s t`
says that both have the same characters but for that: where one has a run
of blanks the other has one too, of any blanks and any length but zero.
Searches that look at blanks only as gaps cannot tell such texts apart,
and each law here says so for one way of cutting a text: trimming it,
taking or dropping characters of a class, stripping a word from its
start, reading it backwards.

`squash` gives the last characters read their spacing: it reads a text
whose last character comes first and leaves one space for every run of
blanks, none at the start of the text. It is computed one character at a
time, so two texts with the same squash keep it as they grow alike, and
a run that grows changes nothing (`squash_blank_blanks_append`).
-/
import ApiScaffold.Proofs.Text.Lines

namespace ApiScaffold

/-- The same characters with other runs of blanks. -/
inductive Respaced : List Char → List Char → Prop
  | nil : Respaced [] []
  | cons (c : Char) {s t : List Char} : Respaced s t →
      Respaced (c :: s) (c :: t)
  | gap {g g' s t : List Char} : AllBlank g → AllBlank g' → g ≠ [] →
      g' ≠ [] → Respaced s t → Respaced (g ++ s) (g' ++ t)

namespace Respaced

variable {s t u v : List Char}

theorem refl (s : List Char) : Respaced s s := by
  induction s with
  | nil => exact nil
  | cons c s ih => exact cons c ih

theorem symm (h : Respaced s t) : Respaced t s := by
  induction h with
  | nil => exact nil
  | cons c _ ih => exact cons c ih
  | gap hg hg' hne hne' _ ih => exact gap hg' hg hne' hne ih

/-- Respaced texts stay respaced behind one another. -/
theorem append (h : Respaced s t) (h' : Respaced u v) :
    Respaced (s ++ u) (t ++ v) := by
  induction h with
  | nil => exact h'
  | cons c _ ih => exact cons c ih
  | gap hg hg' hne hne' _ ih =>
      rw [List.append_assoc, List.append_assoc]
      exact gap hg hg' hne hne' ih

/-- Two runs of blanks are respaced. -/
theorem blanks {g g' : List Char} (hg : AllBlank g) (hg' : AllBlank g')
    (hne : g ≠ []) (hne' : g' ≠ []) : Respaced g g' := by
  have h := gap hg hg' hne hne' nil
  rwa [List.append_nil, List.append_nil] at h

/-- Respaced texts are respaced backwards. -/
theorem reverse (h : Respaced s t) : Respaced s.reverse t.reverse := by
  induction h with
  | nil => exact nil
  | cons c _ ih =>
      rw [List.reverse_cons, List.reverse_cons]
      exact ih.append (refl [c])
  | gap hg hg' hne hne' _ ih =>
      rw [List.reverse_append, List.reverse_append]
      exact ih.append
        (blanks hg.reverse hg'.reverse (by simpa using hne)
          (by simpa using hne'))

-- ================================================================ cutting

/-- A run of blanks at the start starts with a blank. -/
theorem exists_blank_cons {g : List Char} (hg : AllBlank g) (hne : g ≠ [])
    (s : List Char) : ∃ b r, g ++ s = b :: r ∧ isBlank b = true := by
  cases g with
  | nil => exact absurd rfl hne
  | cons b g => exact ⟨b, g ++ s, rfl, hg b (List.mem_cons_self ..)⟩

/-- Ink at the start is the same. -/
theorem cons_of_ink {c : Char} (hc : isBlank c = false)
    (h : Respaced (c :: s) t) : ∃ t', t = c :: t' ∧ Respaced s t' := by
  generalize heq : c :: s = r at h
  cases h with
  | nil => cases heq
  | cons d h =>
      injection heq with hd hs
      subst hd hs
      exact ⟨_, rfl, h⟩
  | gap hg hg' hne hne' h =>
      obtain ⟨b, r, hr, hb⟩ := exists_blank_cons hg hne _
      rw [hr] at heq
      injection heq with hd
      rw [hd, hb] at hc
      cases hc

/-- A blank at the start is some blank at the start. -/
theorem cons_of_blank {c : Char} (hc : isBlank c = true)
    (h : Respaced (c :: s) t) : ∃ b t', t = b :: t' ∧ isBlank b = true := by
  generalize heq : c :: s = r at h
  cases h with
  | nil => cases heq
  | cons d h =>
      injection heq with hd
      exact ⟨d, _, rfl, hd ▸ hc⟩
  | gap hg hg' hne hne' h => exact exists_blank_cons hg' hne' _

/-- The empty text is respaced to itself only. -/
theorem eq_nil (h : Respaced [] t) : t = [] := by
  generalize heq : ([] : List Char) = r at h
  cases h with
  | nil => rfl
  | cons d h => cases heq
  | gap hg hg' hne hne' h =>
      exact absurd (List.append_eq_nil_iff.mp heq.symm).1 hne

/-- A text is empty with the other. -/
theorem eq_nil_iff (h : Respaced s t) : s = [] ↔ t = [] :=
  ⟨fun hs => (hs ▸ h).eq_nil, fun ht => (ht ▸ h.symm).eq_nil⟩

/-- Respaced texts are respaced once their starts are trimmed. -/
theorem trimStart (h : Respaced s t) :
    Respaced (trimStart s) (trimStart t) := by
  induction h with
  | nil => exact nil
  | cons c h ih =>
      cases hc : isBlank c with
      | true => rwa [trimStart_cons_of_blank hc, trimStart_cons_of_blank hc]
      | false =>
          rw [trimStart_cons_of_ink hc, trimStart_cons_of_ink hc]
          exact cons c h
  | gap hg hg' _ _ _ ih =>
      rwa [trimStart_blanks_append hg, trimStart_blanks_append hg']

/-- Respaced texts are respaced once their ends are trimmed. -/
theorem trimEnd (h : Respaced s t) : Respaced (trimEnd s) (trimEnd t) :=
  h.reverse.trimStart.reverse

/-- Characters of a class without blanks are the same at the start. -/
theorem takeWhile_eq {p : Char → Bool} (hp : ∀ c, isBlank c = true → p c = false)
    (h : Respaced s t) : s.takeWhile p = t.takeWhile p := by
  induction h with
  | nil => rfl
  | cons c _ ih => rw [List.takeWhile_cons, List.takeWhile_cons, ih]
  | @gap g g' s t hg hg' hne hne' _ ih =>
      obtain ⟨b, r, hr, hb⟩ := exists_blank_cons hg hne s
      obtain ⟨b', r', hr', hb'⟩ := exists_blank_cons hg' hne' t
      rw [hr, hr', List.takeWhile_cons_of_neg (by simp [hp b hb]),
        List.takeWhile_cons_of_neg (by simp [hp b' hb'])]

/-- What follows characters of a class without blanks is respaced. -/
theorem dropWhile {p : Char → Bool} (hp : ∀ c, isBlank c = true → p c = false)
    (h : Respaced s t) : Respaced (s.dropWhile p) (t.dropWhile p) := by
  induction h with
  | nil => exact nil
  | cons c h ih =>
      rw [List.dropWhile_cons, List.dropWhile_cons]
      split
      · exact ih
      · exact cons c h
  | @gap g g' s t hg hg' hne hne' h _ =>
      have hall := gap hg hg' hne hne' h
      obtain ⟨b, r, hr, hb⟩ := exists_blank_cons hg hne s
      obtain ⟨b', r', hr', hb'⟩ := exists_blank_cons hg' hne' t
      rw [hr, hr'] at hall ⊢
      rwa [List.dropWhile_cons_of_neg (by simp [hp b hb]),
        List.dropWhile_cons_of_neg (by simp [hp b' hb'])]

/-- What follows characters of a class with all blanks is respaced. -/
theorem dropWhile_of_blanks {p : Char → Bool}
    (hp : ∀ c, isBlank c = true → p c = true) (h : Respaced s t) :
    Respaced (s.dropWhile p) (t.dropWhile p) := by
  induction h with
  | nil => exact nil
  | cons c h ih =>
      rw [List.dropWhile_cons, List.dropWhile_cons]
      split
      · exact ih
      · exact cons c h
  | gap hg hg' _ _ _ ih =>
      rwa [List.dropWhile_append_of_pos fun c hc => hp c (hg c hc),
        List.dropWhile_append_of_pos fun c hc => hp c (hg' c hc)]

/-- A class with all blanks holds all of one when all of the other. -/
theorem all_eq {p : Char → Bool} (hp : ∀ c, isBlank c = true → p c = true)
    (h : Respaced s t) : s.all p = t.all p := by
  have hblank : ∀ g : List Char, AllBlank g → g.all p = true :=
    fun g hg => List.all_eq_true.mpr fun c hc => hp c (hg c hc)
  induction h with
  | nil => rfl
  | cons c _ ih => rw [List.all_cons, List.all_cons, ih]
  | gap hg hg' _ _ _ ih =>
      rw [List.all_append, List.all_append, hblank _ hg, hblank _ hg', ih]

/-- A word that the one text starts with starts the other, and what
follows it is respaced. -/
theorem strip {w : List Char} (hw : AllInk w)
    (h : Respaced (w ++ s) t) : ∃ t', t = w ++ t' ∧ Respaced s t' := by
  induction w generalizing t with
  | nil => exact ⟨t, rfl, h⟩
  | cons c w ih =>
      obtain ⟨t', rfl, h'⟩ := h.cons_of_ink (hw c (List.mem_cons_self ..))
      obtain ⟨t'', rfl, h''⟩ := ih
        (fun d hd => hw d (List.mem_cons_of_mem _ hd)) h'
      exact ⟨t'', rfl, h''⟩

/-- A run of blanks that grows at its start is one run still. -/
theorem blank_cons {b c : Char} (hb : isBlank b = true) (hc : isBlank c = true)
    (h : Respaced s (c :: t)) : Respaced (b :: s) (c :: t) := by
  generalize heq : c :: t = r at h
  cases h with
  | nil => cases heq
  | @cons d s t' h =>
      injection heq with hd ht
      subst hd ht
      have hgap : AllBlank [b, c] := fun d hd => by
        simp only [List.mem_cons, List.not_mem_nil, or_false] at hd
        rcases hd with rfl | rfl
        · exact hb
        · exact hc
      exact gap hgap (allBlank_singleton hc) (by simp) (by simp) h
  | @gap g g' s t' hg hg' hne hne' h =>
      rw [← List.cons_append]
      exact gap ((allBlank_singleton hb).append hg) hg' (by simp) hne' h

end Respaced

-- ============================================================== squashing

/-- A text, last character first, with one space for every run of blanks
and none at its start. -/
def squash : List Char → List Char
  | [] => []
  | c :: s =>
    if isBlank c then
      match squash s with
      | [] => []
      | d :: r => if d = ' ' then d :: r else ' ' :: d :: r
    else c :: squash s

/-- Whether a blank after a text leaves its squash as it is. -/
def Settled (s : List Char) : Prop := ∀ d r, squash s = d :: r → d = ' '

/-- A character that is no blank is kept by the squash. -/
theorem squash_cons_of_ink {c : Char} (hc : isBlank c = false)
    (s : List Char) : squash (c :: s) = c :: squash s := by
  rw [squash, if_neg (by simp [hc])]

theorem squash_cons_of_blank {c : Char} (hc : isBlank c = true)
    (s : List Char) :
    squash (c :: s) = match squash s with
      | [] => []
      | d :: r => if d = ' ' then d :: r else ' ' :: d :: r := by
  rw [squash, if_pos hc]

/-- Squashes stay equal when the same character follows. -/
theorem squash_cons_congr {s t : List Char} (h : squash s = squash t)
    (c : Char) : squash (c :: s) = squash (c :: t) := by
  rw [squash, squash, h]

/-- A blank in front of a settled text is squashed into it. -/
theorem squash_blank_cons_of_settled {b : Char} (hb : isBlank b = true)
    {s : List Char} (hs : Settled s) : squash (b :: s) = squash s := by
  rw [squash_cons_of_blank hb]
  cases hsq : squash s with
  | nil => rfl
  | cons d r => exact if_pos (hs d r hsq)

/-- A text that starts with a blank is settled. -/
theorem settled_blank_cons {b : Char} (hb : isBlank b = true)
    (s : List Char) : Settled (b :: s) := by
  intro d r h
  rw [squash_cons_of_blank hb] at h
  cases hsq : squash s with
  | nil => rw [hsq] at h; cases h
  | cons d' r' =>
      rw [hsq] at h
      simp only at h
      split at h
      next hd =>
        injection h with hd'
        exact hd' ▸ hd
      next =>
        injection h with hd'
        exact hd'.symm

/-- A blank, and more blanks before it, count as one. -/
theorem squash_blank_blanks_append {b : Char} (hb : isBlank b = true)
    {g : List Char} (hg : AllBlank g) (s : List Char) :
    squash (b :: (g ++ s)) = squash (b :: s) := by
  induction g with
  | nil => rfl
  | cons c g ih =>
      have hc : isBlank c = true := hg c (List.mem_cons_self ..)
      have hstep := squash_blank_cons_of_settled hb
        (settled_blank_cons hc (g ++ s))
      have hswap : squash (c :: (g ++ s)) = squash (b :: (g ++ s)) := by
        rw [squash_cons_of_blank hc, squash_cons_of_blank hb]
      exact hstep.trans (hswap.trans
        (ih fun d hd => hg d (List.mem_cons_of_mem _ hd)))

/-- The squash of a text, last character first, is the text respaced, but
for blanks at its end. -/
theorem respaced_trimEnd_squash (s : List Char) :
    Respaced (trimEnd s) (squash s) := by
  induction s with
  | nil => exact .nil
  | cons c s ih =>
      cases hc : isBlank c with
      | false =>
          rw [squash_cons_of_ink hc, trimEnd_cons_of_ink hc]
          exact .cons c ih
      | true =>
          rw [squash_cons_of_blank hc, trimEnd_cons_of_blank hc]
          cases hsq : squash s with
          | nil =>
              rw [hsq] at ih
              rw [if_pos (ih.eq_nil_iff.mpr rfl)]
              exact .nil
          | cons d r =>
              rw [hsq] at ih
              have hne : trimEnd s ≠ [] := fun h =>
                absurd (ih.eq_nil_iff.mp h) (by simp)
              rw [if_neg hne]
              simp only
              split
              next hd =>
                exact ih.blank_cons hc (hd ▸ rfl)
              next =>
                exact Respaced.gap (allBlank_singleton hc)
                  (allBlank_singleton (c := ' ') rfl) (by simp) (by simp) ih

/-- Texts with the same squash are respaced, but for blanks at their
starts. -/
theorem respaced_of_squash_eq {s t : List Char} (h : squash s = squash t) :
    ∃ r, Respaced (trimStart s.reverse) r ∧ Respaced (trimStart t.reverse) r := by
  have hrev : ∀ s : List Char, (trimEnd s).reverse = trimStart s.reverse := by
    intro s
    unfold trimEnd
    rw [List.reverse_reverse]
    rfl
  refine ⟨(squash s).reverse, ?_, ?_⟩
  · rw [← hrev]
    exact (respaced_trimEnd_squash s).reverse
  · rw [← hrev, h]
    exact (respaced_trimEnd_squash t).reverse

end ApiScaffold
