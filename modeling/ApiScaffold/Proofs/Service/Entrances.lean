/-
The two entrances side by side. The command line and the service take
their settings from the same environment and hand a diagram to the same
transformation, so what they print and answer for it is the same text. The
size limit is where they part: the command measures a diagram after its
line endings are made uniform, one byte less for each carriage return that
a line feed follows, and the service as it comes.

A request is described by what it asks for (`Request.AsksFor`); the one
that a client makes of a text is of the kind (`posted_asksFor`), whatever
brackets and quotes the text holds.
-/
import ApiScaffold.Proofs.CommandLine.Transforming
import ApiScaffold.Proofs.Json.ReadBack
import ApiScaffold.Service.Reply
import Mathlib

namespace ApiScaffold

-- ============================================================== requests

/-- A request asks for the transformation of a text into JSON. -/
structure Request.AsksFor (r : Request) (text : String) : Prop where
  method : upperText r.method = "POST"
  route : Route.ofPath? (Target.ofText r.target).path = some .transform
  body : readBody TransformationRequest.read r = .ok { diagram := text, format := some "json" }

namespace Json

/-- Inside a text no bracket counts. -/
theorem next_inside (d m : Nat) {cs : List Char} (h : ∀ c ∈ cs, c ≠ '"' ∧ c ≠ '\\') :
    cs.foldl Nesting.next ⟨d, m, true, false⟩ = ⟨d, m, true, false⟩ := by
  induction cs with
  | nil => rfl
  | cons c cs ih =>
      obtain ⟨⟨hquote, hslash⟩, hcs⟩ := List.forall_mem_cons.mp h
      have hstay : Nesting.next ⟨d, m, true, false⟩ c = ⟨d, m, true, false⟩ := by
        simp [Nesting.next, hquote, hslash]
      rw [List.foldl_cons, hstay, ih hcs]

/-- A character inside a text, escaped or not, opens and closes no level. -/
theorem next_stringChar (d m : Nat) (c : Char) :
    (stringChar c).foldl Nesting.next ⟨d, m, true, false⟩ = ⟨d, m, true, false⟩ := by
  unfold stringChar
  split
  next e => simp [Nesting.next]
  next hshort =>
    split
    next hcontrol =>
      -- the escape by number: after its first two characters come digits
      have hdigits : ∀ x ∈ hexDigits 4 c.toNat, x ≠ '"' ∧ x ≠ '\\' := by
        have hall : ∀ n < 32, (hexDigits 4 n).all fun x => decide (x ≠ '"' ∧ x ≠ '\\') := by
          decide
        exact forall_mem_of_all (hall c.toNat hcontrol)
      change (hexDigits 4 c.toNat).foldl Nesting.next ⟨d, m, true, false⟩ = _
      exact next_inside d m hdigits
    next hcontrol =>
      have hquote : c ≠ '"' := by
        rintro rfl
        cases hshort
      have hslash : c ≠ '\\' := by
        rintro rfl
        cases hshort
      exact next_inside d m (List.forall_mem_singleton.mpr ⟨hquote, hslash⟩)

/-- A text opens and closes no level. -/
theorem next_stringText (d m : Nat) (s : String) :
    (stringText s).foldl Nesting.next ⟨d, m, false, false⟩ = ⟨d, m, false, false⟩ := by
  have hinside : ∀ cs : List Char,
      (cs.flatMap stringChar).foldl Nesting.next ⟨d, m, true, false⟩ = ⟨d, m, true, false⟩ := by
    intro cs
    induction cs with
    | nil => rfl
    | cons c cs ih => rw [List.flatMap_cons, List.foldl_append, next_stringChar, ih]
  unfold stringText
  rw [List.cons_append, List.foldl_cons, List.foldl_append]
  have hopen : Nesting.next ⟨d, m, false, false⟩ '"' = ⟨d, m, true, false⟩ := rfl
  rw [hopen, hinside]
  rfl

end Json

/-- The body that a client sends for a text. -/
def postedBody (text : String) : String :=
  (TransformationRequest.toJson { diagram := text, format := some "json" }).indented

theorem toList_postedBody (text : String) :
    (postedBody text).toList = "\x7b\n  \"diagram\": ".toList ++ (Json.stringText text
      ++ ",\n  \"format\": \"json\",\n  \"validate_output\": false\n\x7d".toList) := by
  unfold postedBody Json.indented
  rw [String.toList_ofList]
  rfl

/-- It is one object with the text in it. -/
theorem nesting_postedBody (text : String) : Json.nesting (postedBody text).toList = 1 := by
  unfold Json.nesting
  rw [toList_postedBody, List.foldl_append, List.foldl_append]
  have hfront : "\x7b\n  \"diagram\": ".toList.foldl Json.Nesting.next {}
      = ⟨1, 1, false, false⟩ := by decide
  rw [hfront, Json.next_stringText]
  decide +kernel

/-- The body that is posted is read as the request that it states. -/
theorem read_postedBody (text : String) :
    Json.read (postedBody text).toList
      = .ok (TransformationRequest.toJson { diagram := text, format := some "json" }) := by
  refine Json.read_indented (.obj (by decide : ["diagram", "format", "validate_output"].Nodup) ?_)
  simp only [List.forall_mem_cons]
  exact ⟨.str _, .str _, .bool _, List.forall_mem_nil _⟩

/-- The request that a client makes of a text. -/
def Request.posted (text : String) : Request where
  method := "POST"
  target := "/api/transform"
  body := some (postedBody text)

/-- A body of JSON without a mark in front is the value that it reads
as. -/
theorem bodyValue_of_json {r : Request} {body : String} {j : Json}
    (hbody : r.body.getD "" = body) (hempty : body.isEmpty = false)
    (htype : r.isJson = true) (hmark : body.toList.head? ≠ some '\uFEFF')
    (hjson : jsonValue body.toList = .ok j) : bodyValue r = .ok (some j) := by
  unfold bodyValue
  simp only [hbody, hempty, htype, Bool.not_true, Bool.false_eq_true, if_false]
  split
  next heq =>
    rw [heq] at hmark
    exact absurd rfl hmark
  next =>
    rw [hjson]
    rfl

/-- It asks for the transformation of that text, whatever the text is. -/
theorem Request.posted_asksFor (text : String) : (posted text).AsksFor text where
  method := by
    change upperText "POST" = "POST"
    decide
  route := by
    change Route.ofPath? (Target.ofText "/api/transform").path = some .transform
    cbv
  body := by
    have hlist := toList_postedBody text
    have hempty : (postedBody text).isEmpty = false := by
      rw [String.isEmpty_eq_false_iff, ne_eq, ← String.toList_eq_nil_iff, hlist]
      exact List.cons_ne_nil _ _
    have hmark : (postedBody text).toList.head? ≠ some '\uFEFF' := by
      rw [hlist, List.head?_append]
      simp
    have hjson : jsonValue (postedBody text).toList
        = .ok (TransformationRequest.toJson { diagram := text, format := some "json" }) := by
      unfold jsonValue
      simp only [read_postedBody, nesting_postedBody]
      rfl
    have hvalue := bodyValue_of_json (r := posted text) rfl hempty rfl hmark hjson
    unfold readBody
    rw [hvalue]
    rfl

-- =============================================================== service

variable {environment : List (String × String)} {files : FileTree} {uptime : Binary64}
  {service : Service}

/-- A service that starts has settings that can be read, and a level of
logging. -/
theorem Service.settings_of_start
    (h : Service.start environment files uptime = .ok service) :
    (Settings.read { environment }).outcome = .ok service.settings
      ∧ ∃ rank, threshold service.settings.logLevel = .ok rank := by
  unfold start at h
  cases hsettings : (Settings.read { environment }).outcome with
  | error f => rw [hsettings] at h; cases h
  | ok settings =>
      cases hrank : threshold settings.logLevel with
      | error f => rw [hsettings] at h; simp only [bind, Except.bind, hrank] at h; cases h
      | ok rank =>
          rw [hsettings] at h
          simp only [bind, Except.bind, hrank] at h
          cases h
          exact ⟨rfl, rank, hrank⟩

/-- A service starts with the settings of its environment. -/
theorem Service.start_of_settings (files : FileTree) (uptime : Binary64)
    {settings : Settings} {rank : Nat}
    (hsettings : (Settings.read { environment }).outcome = .ok settings)
    (hrank : threshold settings.logLevel = .ok rank) :
    Service.start environment files uptime = .ok { settings, files, uptime } := by
  unfold start
  rw [hsettings]
  simp only [bind, Except.bind, hrank]
  rfl

variable {r : Request} {text : String}

/-- A request for a transformation is answered with what serving it
gives. -/
theorem Service.answer_of_asksFor (s : Service) (h : r.AsksFor text) :
    s.answer r = match (do
        Served.ofOutcome (s.settings.allow text)
        let t ← Served.ofOutcome (ApiScaffold.transform s.settings.info text (some "json") false)
        return t.toJson) with
      | .ok j => ⟨200, some r.trace, .json j⟩
      | .error fault => faultReply r.trace fault := by
  have hserve : ∀ query, s.serve query r .transform = (do
        Served.ofOutcome (s.settings.allow text)
        let t ← Served.ofOutcome (ApiScaffold.transform s.settings.info text (some "json") false)
        return t.toJson) := by
    intro query
    unfold serve
    simp only [h.body]
    rfl
  have hmethods : Route.transform.methods.contains "POST" = true := rfl
  unfold answer
  simp only [h.route, h.method, hserve, hmethods]
  rfl

/-- The service refuses a text that is too large as it comes. -/
theorem Service.answer_of_large (s : Service) (h : r.AsksFor text)
    (hlarge : s.settings.maxDiagramBytes < diagramSize text) :
    s.answer r = ⟨422, some r.trace, detailBody (.str
      (sizeMessage (diagramSize text) s.settings.maxDiagramBytes))⟩ := by
  rw [answer_of_asksFor s h]
  unfold Settings.allow
  rw [if_pos hlarge]
  rfl

/-- The service answers any other text with its document. -/
theorem Service.answer_of_small (s : Service) (h : r.AsksFor text)
    (hsmall : ¬ s.settings.maxDiagramBytes < diagramSize text)
    {d : Document} (hdoc : Document.ofText s.settings.info text = .ok d) :
    s.answer r = ⟨200, some r.trace, .json (Transformed.toJson
      { document := d, rendered := some d.toJson.indented })⟩ := by
  rw [answer_of_asksFor s h, transform_json_of_document hdoc]
  unfold Settings.allow
  rw [if_neg hsmall]
  rfl

-- ================================================================= sizes

/-- The number of carriage returns that a line feed follows. -/
def breakPairs : List Char → Nat
  | [] => 0
  | '\r' :: '\n' :: cs => breakPairs cs + 1
  | _ :: cs => breakPairs cs

/-- Uniform line endings are a byte shorter for each of them. -/
theorem utf8Len_unifyBreaks (cs : List Char) :
    String.utf8Len (unifyBreaks cs) + breakPairs cs = String.utf8Len cs := by
  fun_induction unifyBreaks cs with
  | case1 => rfl
  | case2 cs ih =>
      rw [breakPairs, String.utf8Len_cons, String.utf8Len_cons, String.utf8Len_cons, ← ih]
      have hsizes : '\n'.utf8Size = 1 ∧ '\r'.utf8Size = 1 := by decide
      omega
  | case3 cs hpair ih =>
      have hpairs : breakPairs ('\r' :: cs) = breakPairs cs := by
        rw [breakPairs]
        exact fun r _ hr => hpair r hr
      rw [hpairs, String.utf8Len_cons, String.utf8Len_cons, ← ih]
      have hsizes : '\n'.utf8Size = 1 ∧ '\r'.utf8Size = 1 := by decide
      omega
  | case4 c cs _ hc ih =>
      have hpairs : breakPairs (c :: cs) = breakPairs cs := by
        rw [breakPairs]
        exact fun _ hreturn _ => hc hreturn
      rw [hpairs, String.utf8Len_cons, String.utf8Len_cons, ← ih]
      omega

/-- Unifying the line breaks takes off one byte for every pair of them. -/
theorem diagramSize_unifyBreaksText (text : String) :
    diagramSize (unifyBreaksText text) + breakPairs text.toList = diagramSize text := by
  unfold diagramSize unifyBreaksText
  rw [String.utf8ByteSize_ofList, utf8Len_unifyBreaks, ← String.utf8ByteSize_ofList,
    String.ofList_toList]

/-- Line endings made uniform beforehand change nothing. -/
theorem normalize_unifyBreaks (cs : List Char) :
    normalize (unifyBreaks cs) = normalize cs := by
  have hmarks : (unifyBreaks cs).dropWhile (· == '\uFEFF')
      = unifyBreaks (cs.dropWhile (· == '\uFEFF')) := by
    induction cs with
    | nil => rfl
    | cons c cs ih =>
        by_cases hc : c = '\uFEFF'
        · subst hc
          rw [unifyBreaks_cons_of_ne (by decide)]
          exact ih
        · obtain ⟨e, rest, heq, he⟩ : ∃ e rest, unifyBreaks (c :: cs) = e :: rest
              ∧ e ≠ '\uFEFF' := by
            rw [unifyBreaks.eq_def]
            split
            next heq => cases heq
            next => exact ⟨_, _, rfl, by decide⟩
            next => exact ⟨_, _, rfl, by decide⟩
            next heq =>
              cases heq
              exact ⟨c, _, rfl, hc⟩
          rw [heq, List.dropWhile_cons_of_neg (by simpa using he),
            List.dropWhile_cons_of_neg (by simpa using hc), heq]
  unfold normalize
  rw [hmarks, unifyBreaks_of_not_mem (not_mem_unifyBreaks _)]

/-- The document of a text does not depend on its line breaks. -/
theorem Document.ofText_unifyBreaksText (info : Info) (text : String) :
    ofText info (unifyBreaksText text) = ofText info text := by
  unfold ofText Diagram.parse unifyBreaksText
  rw [String.toList_ofList, normalize_unifyBreaks]

-- ========================================================= the comparison

/-- A run of the command that refuses a text for its size. -/
def Run.RefusesSize (run : Run) : Prop :=
  ∃ size limit, limit < Int.ofNat size ∧ run = {
    status := 1, reports := Steps.toldLines "Error" (sizeMessage size limit) }

/-- A reply that refuses a text for its size. -/
def Reply.RefusesSize (reply : Reply) : Prop :=
  ∃ size limit, limit < Int.ofNat size ∧ reply.status = 422
    ∧ reply.body = Service.detailBody (.str (sizeMessage size limit))

/-- The command refuses a text for its size exactly if it is too large as
it is read. -/
theorem Command.refusesSize_iff {s : Surroundings} {source text : String}
    {settings : Settings} {rank : Nat}
    (hsettings : (Settings.read { environment := s.environment }).outcome = .ok settings)
    (hrank : threshold settings.logLevel = .ok rank) (hsource : s.Supplies source text)
    {d : Document} (hdoc : Document.ofText settings.info text = .ok d) :
    (Command.run s (.transform source "json" none false)).RefusesSize
      ↔ settings.maxDiagramBytes < (diagramSize text : Int) - breakPairs text.toList := by
  have hsize : (diagramSize (unifyBreaksText text) : Int)
      = diagramSize text - breakPairs text.toList := by
    have h := diagramSize_unifyBreaksText text
    omega
  rw [← hsize]
  by_cases hlarge : settings.maxDiagramBytes < (diagramSize (unifyBreaksText text) : Int)
  · exact ⟨fun _ => hlarge, fun _ => ⟨_, _, hlarge,
      transformCommand_of_large hsettings hrank hsource hlarge⟩⟩
  · refine ⟨fun ⟨_, _, _, hrefused⟩ => ?_, fun h => absurd h hlarge⟩
    have hprinted := transformCommand_of_small hsettings hrank hsource hlarge
      ((Document.ofText_unifyBreaksText _ text).trans hdoc)
    have hstatus := congrArg Run.status (hprinted.symm.trans hrefused)
    simp at hstatus

/-- The service refuses a text for its size exactly if it is too large as it
comes. -/
theorem Service.refusesSize_iff (s : Service) (hasks : r.AsksFor text) {d : Document}
    (hdoc : Document.ofText s.settings.info text = .ok d) :
    (s.answer r).RefusesSize ↔ s.settings.maxDiagramBytes < (diagramSize text : Int) := by
  by_cases hlarge : s.settings.maxDiagramBytes < (diagramSize text : Int)
  · refine ⟨fun _ => hlarge, fun _ => ⟨_, _, hlarge, ?_⟩⟩
    rw [s.answer_of_large hasks hlarge]
    exact ⟨rfl, rfl⟩
  · refine ⟨fun ⟨_, _, _, hrefused, _⟩ => ?_, fun h => absurd h hlarge⟩
    rw [s.answer_of_small hasks hlarge hdoc] at hrefused
    simp at hrefused

/-- The size limit at the two entrances, and what they make of a text that
both accept. The service refuses a text exactly if it is larger than the
limit, and the command exactly if it is with a byte less for each carriage
return that a line feed follows; so they differ exactly for a text that is
larger than the limit by no more than these. A text that both accept is
printed by the one as the other renders it. -/
theorem size_limit_parts_at_break_pairs {s : Surroundings} {files : FileTree}
    {uptime : Binary64} {service : Service} {source text : String} {r : Request}
    (hstart : Service.start s.environment files uptime = .ok service)
    (hsource : s.Supplies source text) (hasks : r.AsksFor text) {d : Document}
    (hdoc : Document.ofText service.settings.info text = .ok d) :
    let run := Command.run s (.transform source "json" none false)
    let reply := service.answer r
    let limit := service.settings.maxDiagramBytes
    let size := (diagramSize text : Int)
    let pairs := (breakPairs text.toList : Int)
    (run.RefusesSize ↔ limit < size - pairs) ∧
    (reply.RefusesSize ↔ limit < size) ∧
    ((run.RefusesSize ↔ reply.RefusesSize) ↔ ¬ (size - pairs ≤ limit ∧ limit < size)) ∧
    (¬ run.RefusesSize → ¬ reply.RefusesSize → ∃ rendered,
      run.status = 0 ∧ run.failure = none ∧ run.output = [.text (rendered ++ "\n")] ∧
      reply.status = 200 ∧ ∃ j, reply.body = .json j ∧ j.field? "rendered" = some (.str rendered)) := by
  intro run reply limit size pairs
  obtain ⟨hsettings, rank, hrank⟩ := Service.settings_of_start hstart
  have hrun : run.RefusesSize ↔ limit < size - pairs :=
    Command.refusesSize_iff hsettings hrank hsource hdoc
  have hreply : reply.RefusesSize ↔ limit < size := service.refusesSize_iff hasks hdoc
  refine ⟨hrun, hreply, ?_, fun hsmall hsmall' => ⟨d.toJson.indented, ?_⟩⟩
  · rw [hrun, hreply]
    omega
  · rw [hreply] at hsmall'
    have hread : ¬ limit < (diagramSize (unifyBreaksText text) : Int) := by
      have h := diagramSize_unifyBreaksText text
      omega
    have hprinted : run = _ := transformCommand_of_small hsettings hrank hsource hread
      ((Document.ofText_unifyBreaksText _ text).trans hdoc)
    have hanswered : reply = _ := service.answer_of_small hasks hsmall' hdoc
    rw [hprinted, hanswered]
    exact ⟨rfl, rfl, rfl, rfl, _, rfl, rfl⟩

/-- A text of two lines that end in carriage return and line feed. -/
def twoLines : String := "class A \x7b\r\n\x7d\r\n"

/-- The text as a file, under a size limit. -/
def aroundTwoLines (limit : String) : Surroundings where
  environment := [("MAX_DIAGRAM_BYTES", limit)]
  files := ⟨[(["a.plant"], .file twoLines.toUTF8)]⟩
  input := ""

theorem aroundTwoLines_supplies (limit : String) :
    (aroundTwoLines limit).Supplies "a.plant" twoLines := by
  have hread : FileTree.read? ⟨[(["a.plant"], .file twoLines.toUTF8)]⟩ (.ofText "a.plant")
      = .ok (some twoLines.toUTF8) := by cbv
  exact hread

/-- The text of two lines has a document. -/
theorem exists_document_twoLines (info : Info) :
    ∃ d, Document.ofText info twoLines = .ok d := by
  have hparse : Diagram.parse twoLines = .ok { classes := [{ name := "A" }] } := by
    decide +kernel
  refine ⟨Document.ofDiagram info { classes := [{ name := "A" }] }, ?_⟩
  rw [Document.ofText, hparse]
  rfl

/-- Under a limit of just its bytes, the text passes at both entrances. -/
theorem size_limit_parts_at_break_pairs_of_exact_size :
    let s := aroundTwoLines "14"
    ∃ service d, Service.start s.environment .empty default = .ok service ∧
      s.Supplies "a.plant" twoLines ∧ (Request.posted twoLines).AsksFor twoLines ∧
      Document.ofText service.settings.info twoLines = .ok d ∧ ∃ rendered,
        let run := Command.run s (.transform "a.plant" "json" none false)
        run.status = 0 ∧ run.failure = none ∧ run.output = [.text (rendered ++ "\n")] ∧
        (service.answer (.posted twoLines)).status = 200 := by
  intro s
  have hsettings : (Settings.read { environment := s.environment }).outcome
      = .ok { maxDiagramBytes := 14 } := by decide +kernel
  have hrank : threshold ({ maxDiagramBytes := 14 } : Settings).logLevel = .ok 20 := by decide
  have hstart := Service.start_of_settings .empty default hsettings hrank
  obtain ⟨d, hdoc⟩ := exists_document_twoLines ({ maxDiagramBytes := 14 } : Settings).info
  obtain ⟨hrun, hreply, -, hboth⟩ := size_limit_parts_at_break_pairs hstart
    (aroundTwoLines_supplies "14") (Request.posted_asksFor twoLines) hdoc
  have hsize : (diagramSize twoLines : Int) = 14 ∧ breakPairs twoLines.toList = 2 := by decide
  rw [hsize.1, hsize.2] at hrun
  rw [hsize.1] at hreply
  obtain ⟨rendered, hstatus, hfailure, houtput, hanswered, -⟩ :=
    hboth (by rw [hrun]; decide) (by rw [hreply]; decide)
  exact ⟨_, d, hstart, aroundTwoLines_supplies "14", Request.posted_asksFor twoLines, hdoc,
    rendered, hstatus, hfailure, houtput, hanswered⟩

/-- Under a limit of one byte less, the command transforms the text that
the service refuses. -/
theorem broken_lines_pass_the_command_alone :
    let s := aroundTwoLines "13"
    ∃ service d, Service.start s.environment .empty default = .ok service ∧
      s.Supplies "a.plant" twoLines ∧ (Request.posted twoLines).AsksFor twoLines ∧
      Document.ofText service.settings.info twoLines = .ok d ∧
      ¬ ((Command.run s (.transform "a.plant" "json" none false)).RefusesSize
        ↔ (service.answer (.posted twoLines)).RefusesSize) := by
  intro s
  have hsettings : (Settings.read { environment := s.environment }).outcome
      = .ok { maxDiagramBytes := 13 } := by decide +kernel
  have hrank : threshold ({ maxDiagramBytes := 13 } : Settings).logLevel = .ok 20 := by decide
  have hstart := Service.start_of_settings .empty default hsettings hrank
  obtain ⟨d, hdoc⟩ := exists_document_twoLines ({ maxDiagramBytes := 13 } : Settings).info
  refine ⟨_, d, hstart, aroundTwoLines_supplies "13", Request.posted_asksFor twoLines, hdoc, ?_⟩
  rw [Command.refusesSize_iff hsettings hrank (aroundTwoLines_supplies "13") hdoc,
    Service.refusesSize_iff _ (Request.posted_asksFor twoLines) hdoc]
  decide

end ApiScaffold
