/-
What the command that transforms a diagram does, for a source that can be
read and a diagram with a document. The command is a sequence of steps
over a growing run; `Steps.exec` runs steps from a run that has begun, and
each kind of step has one equation. From these the two ends of the command
follow: a diagram beyond the size limit is refused with one message and
nothing on the output (`transformCommand_of_large`), and any other is
printed (`transformCommand_of_small`).

Messages go through markup before they are laid out. A message of letters
and numerals holds no tag, so it is shown as it is (`Markup.shown_of_plain`).
-/
import ApiScaffold.CommandLine.Run
import ApiScaffold.Proofs.Json.Token
import ApiScaffold.Proofs.Text.Character

namespace ApiScaffold

-- ========================================================= running steps

namespace Steps

variable {α β : Type}

/-- Run steps from a run that has begun. -/
def exec (steps : Steps α) (run : Run) : Except Exit α × Run :=
  (ExceptT.run steps).run run

@[simp] theorem exec_pure (a : α) (run : Run) :
    exec (pure a) run = (.ok a, run) := rfl

@[simp] theorem exec_ofOutcome_ok (a : α) (run : Run) :
    exec (ofOutcome (.ok a)) run = (.ok a, run) := rfl

@[simp] theorem exec_orRefuse_ok (a : α) (run : Run) :
    exec (orRefuse (.ok a)) run = (.ok a, run) := rfl

/-- Steps in a row are run one after another until one ends the run. -/
theorem exec_bind (steps : Steps α) (next : α → Steps β) (run : Run) :
    exec (steps >>= next) run = match exec steps run with
      | (.ok a, after) => exec (next a) after
      | (.error e, after) => (.error e, after) := by
  unfold exec
  rw [ExceptT.run_bind, StateT.run_bind]
  generalize (ExceptT.run steps).run run = done
  obtain ⟨result, after⟩ := done
  cases result <;> rfl

/-- Steps that succeed are followed by the next ones. -/
theorem exec_bind_of_ok {steps : Steps α} {f : α → Steps β} {run after : Run} {a : α}
    (h : exec steps run = (.ok a, after)) :
    exec (steps >>= f) run = exec (f a) after := by
  rw [exec_bind, h]

/-- Steps that end the run are followed by nothing. -/
theorem exec_bind_of_error {steps : Steps α} {next : α → Steps β} {run after : Run}
    {e : Exit} (h : exec steps run = (.error e, after)) :
    exec (steps >>= next) run = (.error e, after) := by
  rw [exec_bind, h]

@[simp] theorem exec_print (text : String) (run : Run) :
    exec (print text) run = (.ok (), { run with output := run.output ++ [.text text] }) :=
  rfl

/-- Reports in a row are added in order. -/
theorem exec_forM_report (make : α → Report) (xs : List α) (run : Run) :
    exec (xs.forM fun x => report (make x)) run
      = (.ok (), { run with reports := run.reports ++ xs.map make }) := by
  induction xs generalizing run with
  | nil => simp
  | cons x xs ih =>
      have hfirst : exec (report (make x)) run
          = (.ok (), { run with reports := run.reports ++ [make x] }) := rfl
      change exec (report (make x) >>= fun _ => xs.forM fun x => report (make x)) run = _
      rw [exec_bind_of_ok hfirst, ih]
      simp

/-- The reports of a text that is told after a heading. -/
def toldLines (heading text : String) : List Report :=
  (layOutOnTerminal (heading ++ ": " ++ text).toList).map fun line =>
    .line (String.ofList line)

/-- Telling a text that is shown as it is. -/
theorem exec_tell {heading text : String}
    (h : Markup.shown (heading ++ ": " ++ text) = .ok (heading ++ ": " ++ text).toList)
    (run : Run) :
    exec (tell heading text) run
      = (.ok (), { run with reports := run.reports ++ toldLines heading text }) := by
  have hlines : exec (shownLines (heading ++ ": " ++ text)) run
      = (.ok ((layOutOnTerminal (heading ++ ": " ++ text).toList).map String.ofList), run) := by
    unfold shownLines
    rw [h]
    rfl
  unfold tell
  rw [exec_bind_of_ok hlines, exec_forM_report]
  unfold toldLines
  rw [List.map_map]
  rfl

/-- A run of steps, by how they end. -/
theorem run_of_exec_ok {steps : Steps Unit} {after : Run}
    (h : exec steps {} = (.ok (), after)) : run steps = after := by
  unfold run
  unfold exec at h
  rw [h]

/-- A run that is ended with a code has it as its status. -/
theorem run_of_exec_status {steps : Steps Unit} {after : Run} {code : Nat}
    (h : exec steps {} = (.error (.status code), after)) :
    run steps = { after with status := code } := by
  unfold run
  unfold exec at h
  rw [h]

end Steps

-- ============================================================== messages

/-- A character that is shown as it is wherever it stands. -/
def IsShownPlain (c : Char) : Prop :=
  c ≠ '[' ∧ c ≠ '\\' ∧ Markup.isTerminalControl c = false

namespace Markup

/-- A message without markup is one piece per character. -/
theorem piecesFrom_of_plain {cs : List Char} (h : ∀ c ∈ cs, IsShownPlain c) :
    piecesFrom 0 0 cs = cs.map (fun c => .plain [c]) ++ [.plain []] := by
  induction cs with
  | nil => rfl
  | cons c cs ih =>
      obtain ⟨⟨hbracket, hslash, -⟩, hcs⟩ := List.forall_mem_cons.mp h
      have htag : tag? (c :: cs) = none := by
        unfold tag?
        split
        next heq => exact absurd (List.cons.inj heq).1 hbracket
        next => rfl
      unfold piecesFrom
      rw [if_neg (Nat.lt_irrefl 0), if_neg hslash, htag]
      simp [hbracket, ih hcs]

/-- Text without tags is shown as it is. -/
theorem shown_of_plain {text : String} (h : ∀ c ∈ text.toList, IsShownPlain c) :
    shown text = .ok text.toList := by
  have hplain : ∀ cs : List Char,
      plainOf? [] (cs.map (fun c => .plain [c]) ++ [.plain []]) = some cs := by
    intro cs
    induction cs with
    | nil => rfl
    | cons c cs ih => simp [plainOf?, ih]
  unfold shown
  rw [piecesFrom_of_plain h, hplain]
  have hfilter : text.toList.filter (fun c => !isTerminalControl c) = text.toList := by
    rw [List.filter_eq_self]
    intro c hc
    simp [(h c hc).2.2]
  simp only [hfilter]

end Markup

/-- A digit is no markup. -/
theorem isShownPlain_of_isDigit {c : Char} (h : c.isDigit = true) : IsShownPlain c := by
  obtain ⟨hzero, hnine⟩ := Char.isDigit_iff_toNat.mp h
  have hlow : 48 ≤ c.toNat := hzero
  have hhigh : c.toNat ≤ 57 := hnine
  refine ⟨?_, ?_, ?_⟩
  · rintro rfl
    exact absurd hhigh (by decide)
  · rintro rfl
    exact absurd hhigh (by decide)
  · simp only [Markup.isTerminalControl, Bool.or_eq_false_iff, beq_eq_false_iff_ne]
    omega

/-- The message to a text beyond the size limit. -/
def sizeMessage (size : Nat) (limit : Int) : String :=
  "Diagram is " ++ toString size ++ " bytes; the limit is " ++ toString limit ++ " bytes"

instance (c : Char) : Decidable (IsShownPlain c) :=
  inferInstanceAs (Decidable (c ≠ '[' ∧ c ≠ '\\' ∧ Markup.isTerminalControl c = false))

/-- A message of words and numerals is shown as it is. -/
theorem shown_sizeMessage (heading : String) (size : Nat) (limit : Int)
    (hheading : ∀ c ∈ heading.toList, IsShownPlain c) :
    Markup.shown (heading ++ sizeMessage size limit)
      = .ok (heading ++ sizeMessage size limit).toList := by
  refine Markup.shown_of_plain fun c hc => ?_
  have hnat : ∀ n : Nat, ∀ c ∈ (toString n).toList, IsShownPlain c := by
    intro n c hc
    have hrepr : (toString n).toList = Nat.toDigits 10 n := Nat.toList_repr
    rw [hrepr] at hc
    exact isShownPlain_of_isDigit (Nat.isDigit_of_mem_toDigits (by decide) (by decide) hc)
  have hint : ∀ c ∈ (toString limit).toList, IsShownPlain c := by
    cases limit with
    | ofNat n => exact hnat n
    | negSucc n =>
        have hrepr : toString (Int.negSucc n) = "-" ++ toString n.succ := rfl
        rw [hrepr, String.toList_append, List.forall_mem_append]
        exact ⟨forall_mem_of_all (by decide), hnat n.succ⟩
  unfold sizeMessage at hc
  simp only [String.toList_append, List.mem_append] at hc
  rcases hc with hc | ((((hc | hc) | hc) | hc) | hc)
  · exact hheading c hc
  · exact forall_mem_of_all (by decide) c hc
  · exact hnat size c hc
  · exact forall_mem_of_all (by decide) c hc
  · exact hint c hc
  · exact forall_mem_of_all (by decide) c hc

-- =============================================================== sources

/-- A source holds a text: it is the hyphen for the standard input, or the
path of a file with the text as UTF-8. -/
def Surroundings.Supplies (s : Surroundings) (source text : String) : Prop :=
  if source = "-" then s.input = text
  else s.files.read? (.ofText source) = .ok (some text.toUTF8)

/-- A text is decoded from its bytes, with its line breaks unified. -/
theorem decodeText?_toUTF8 (text : String) :
    decodeText? text.toUTF8 = some (unifyBreaksText text) := by
  unfold decodeText? String.fromUTF8?
  have hvalid : text.toUTF8.IsValidUTF8 := text.isValidUTF8
  rw [dif_pos hvalid]
  rfl

namespace Surroundings

variable {s : Surroundings} {source text : String}

/-- A source is read with its line endings made uniform. -/
theorem exec_readSource (h : s.Supplies source text) (run : Run) :
    Steps.exec (s.readSource source) run = (.ok (unifyBreaksText text), run) := by
  unfold Supplies at h
  unfold readSource
  by_cases hsource : source = "-"
  · rw [if_pos hsource] at h
    rw [if_pos (beq_iff_eq.mpr hsource), h]
    rfl
  · rw [if_neg hsource] at h
    rw [if_neg (by simpa using hsource), h]
    have hread : Steps.exec (Steps.ofOutcome (PathFault.outcome (.ok (some text.toUTF8)))) run
        = (.ok (some text.toUTF8), run) := rfl
    rw [Steps.exec_bind_of_ok hread]
    simp only [decodeText?_toUTF8]
    rfl

end Surroundings

-- ============================================================ the command

variable {s : Surroundings} {source text : String} {settings : Settings} {rank : Nat}

/-- The size limit of the command: a larger text ends the run with one
message. -/
theorem Steps.exec_orRefuse_allow (settings : Settings) (text : String) (run : Run) :
    exec (orRefuse (settings.allow text)) run =
      if settings.maxDiagramBytes < diagramSize text then
        (.error (.status 1), { run with
          reports := run.reports ++ toldLines "Error"
            (sizeMessage (diagramSize text) settings.maxDiagramBytes) })
      else (.ok (), run) := by
  unfold Settings.allow
  split
  · have hshown := shown_sizeMessage ("Error" ++ ": ") (diagramSize text)
      settings.maxDiagramBytes (forall_mem_of_all (by decide))
    change exec (tell "Error" (sizeMessage _ _) >>= fun _ => throw (.status 1)) run = _
    rw [exec_bind_of_ok (exec_tell hshown run)]
    rfl
  · rfl

/-- Notices are reported as numbered records. -/
theorem exec_reportNotices (rank : Nat) (notices : List Notice) (run : Run) :
    Steps.exec (reportNotices rank notices) run
      = (.ok (), { run with
          reports := run.reports ++ (recordsFrom rank serviceName notices).map .record }) :=
  Steps.exec_forM_report Report.record _ run

/-- Without a file to write, the text goes to the output. -/
theorem exec_deliver_none (s : Surroundings) (text : String) (run : Run) :
    Steps.exec (deliver s none text) run
      = (.ok (), { run with output := run.output ++ [.text (text ++ "\n")] }) :=
  Steps.exec_print (text ++ "\n") run

/-- A diagram with a document is transformed into its indented JSON. -/
theorem transform_json_of_document {info : Info} {text : String} {d : Document}
    (h : Document.ofText info text = .ok d) :
    transform info text (some "json") false
      = .ok { document := d, rendered := some d.toJson.indented } := by
  unfold transform
  rw [h]
  rfl

/-- The command once its settings and its format are settled. -/
def transformSource (s : Surroundings) (settings : Settings) (rank : Nat)
    (source : String) : Steps Unit := do
  let text ← s.readDiagram settings source
  reportNotices rank (transformNotices settings.info text (some "json") false)
  let answer ← Steps.orRefuse (transform settings.info text (some "json") false)
  deliver s none (answer.rendered.getD "")
  match answer.verdict with
  | some verdict => tellVerdict verdict
  | none => pure ()

variable (hsettings : (Settings.read { environment := s.environment }).outcome = .ok settings)
  (hrank : threshold settings.logLevel = .ok rank) (hsource : s.Supplies source text)

include hsettings hrank

/-- Without a check the command is the transformation of its source. -/
theorem exec_transformCommand (run : Run) :
    Steps.exec (transformCommand s source "json" none false) run
      = Steps.exec (transformSource s settings rank source) run := by
  have hpath : Steps.exec (Steps.ofOutcome (((none : Option String).map checkPath).getD (.ok ())))
      run = (.ok (), run) := rfl
  have hread : Steps.exec s.settings run = (.ok settings, run) := by
    unfold Surroundings.settings
    rw [hsettings]
    rfl
  have hname : lowerText "json" = "json" := by decide
  unfold transformCommand transformSource
  rw [Steps.exec_bind_of_ok hpath, Steps.exec_bind_of_ok hread,
    hrank, Steps.exec_bind_of_ok (Steps.exec_ofOutcome_ok rank run)]
  simp only [hname]
  rfl

include hsource

/-- The command refuses a text that is too large as it is read. -/
theorem transformCommand_of_large
    (hlarge : settings.maxDiagramBytes < diagramSize (unifyBreaksText text)) :
    (transformCommand s source "json" none false).run =
      { status := 1
        reports := Steps.toldLines "Error" (sizeMessage
          (diagramSize (unifyBreaksText text)) settings.maxDiagramBytes) } := by
  have hallow := Steps.exec_orRefuse_allow settings (unifyBreaksText text) {}
  rw [if_pos hlarge] at hallow
  simp only [List.nil_append] at hallow
  have hread := (Steps.exec_bind_of_ok (f := fun text => do
      Steps.orRefuse (settings.allow text)
      return text) (Surroundings.exec_readSource hsource {})).trans
    (Steps.exec_bind_of_error hallow)
  rw [Steps.run_of_exec_status ((exec_transformCommand hsettings hrank {}).trans
    (Steps.exec_bind_of_error hread))]

/-- The command prints the document of any other text. -/
theorem transformCommand_of_small
    (hsmall : ¬ settings.maxDiagramBytes < diagramSize (unifyBreaksText text))
    {d : Document} (hdoc : Document.ofText settings.info (unifyBreaksText text) = .ok d) :
    (transformCommand s source "json" none false).run =
      { output := [.text (d.toJson.indented ++ "\n")]
        reports := (recordsFrom rank serviceName (transformNotices settings.info
          (unifyBreaksText text) (some "json") false)).map .record } := by
  have hallow := Steps.exec_orRefuse_allow settings (unifyBreaksText text) {}
  rw [if_neg hsmall] at hallow
  have hread : Steps.exec (s.readDiagram settings source) {}
      = (.ok (unifyBreaksText text), {}) :=
    (Steps.exec_bind_of_ok (Surroundings.exec_readSource hsource {})).trans
      ((Steps.exec_bind_of_ok hallow).trans (Steps.exec_pure ..))
  have hanswer := transform_json_of_document hdoc
  have hnotices := exec_reportNotices rank
    (transformNotices settings.info (unifyBreaksText text) (some "json") false) {}
  refine Steps.run_of_exec_ok ((exec_transformCommand hsettings hrank {}).trans ?_)
  unfold transformSource
  rw [Steps.exec_bind_of_ok hread, Steps.exec_bind_of_ok hnotices, hanswer,
    Steps.exec_bind_of_ok (Steps.exec_orRefuse_ok ..),
    Steps.exec_bind_of_ok (exec_deliver_none ..), Steps.exec_pure]
  simp only [List.nil_append, Option.getD_some]

end ApiScaffold
