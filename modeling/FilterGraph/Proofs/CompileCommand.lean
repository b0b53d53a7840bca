import FilterGraph.CommandLine.Commands
import FilterGraph.Proofs.Building
import FilterGraph.Proofs.DocumentShape
import FilterGraph.Proofs.Faults

/-!
# What printing the command of a document comes to

The task has a file to read, and either prints one command or reports one error. It stops without
either when the file is not UTF-8, which no report covers.

* `Session.Prints`: what a step prints, when it does nothing else;
* `Files.readPipeline_notText_iff`: which files are not read as text;
* `Commands`, `Reported`: a file has a command, or an error is to be reported on it; `Verdict`,
  `verdict`: which of these there is, and what else;
* `on_compileJob_of_built`, `Commands.printed`, `Reported.printed`: what the task then does;
* **`compile_prints_or_reports`**: which exit code comes when, with all that is printed;
* `compile_stops_at_garbled_bytes`: a file that is not UTF-8 stops the task.
-/

namespace FilterGraph

/-! ## 1. Printed texts -/

namespace Event

variable (a b : List Event)

theorem standardOutput_append : standardOutput (a ++ b) = standardOutput a ++ standardOutput b := by
  unfold standardOutput
  rw [List.map_append, String.join_append]

theorem standardError_append : standardError (a ++ b) = standardError a ++ standardError b := by
  unfold standardError
  rw [List.map_append, String.join_append]

theorem standardOutput_debug (ms : List String) : standardOutput (ms.map .debug) = "" := by
  induction ms with
  | nil => rfl
  | cons m ms ih =>
    exact (standardOutput_append [.debug m] _).trans (by rw [ih]; rfl)

theorem standardError_debug (ms : List String) : standardError (ms.map .debug) = "" := by
  induction ms with
  | nil => rfl
  | cons m ms ih =>
    exact (standardError_append [.debug m] _).trans (by rw [ih]; rfl)

theorem standardOutput_output (l : String) : standardOutput [.output l] = l ++ "\n" :=
  String.empty_append

theorem standardError_error (l : String) : standardError [.error l] = l ++ "\n" :=
  String.empty_append

end Event

/-- What was printed from one session to another, between which nothing else happened. -/
def Session.Prints (s s' : Session) (out err : String) : Prop :=
  ∃ said, s' = s.saying said ∧ Event.standardOutput said = out ∧ Event.standardError said = err

/-- What a compilation says goes to the log and is not printed. -/
theorem Session.prints_after_report (s : Session) (g : Graph) (settings : Settings)
    (streams : List Stream) (events : List Event) :
    s.Prints ((s.saying (g.compileReport settings streams)).saying events)
      (Event.standardOutput events) (Event.standardError events) := by
  refine ⟨_, saying_saying .., ?_, ?_⟩
  · rw [Event.standardOutput_append, Graph.compileReport, Event.standardOutput_debug]
    exact String.empty_append
  · rw [Event.standardError_append, Graph.compileReport, Event.standardError_debug]
    exact String.empty_append

/-! ## 2. Files -/

namespace Files

variable {fs : Files} {p : Path}

/-- A file that is there can be read. -/
theorem exists_read_of_isFile (h : fs.isFile p = .ok true) :
    p.hasNull = false ∧ ∃ bytes, fs.read p = .ok bytes := by
  unfold isFile at h
  unfold read
  split at h
  · rename_i content hstat
    rw [hstat]
    exact ⟨by simpa using h, content, rfl⟩
  · cases hp : fs.present p <;> rw [hp] at h <;> cases h

/-- Of the files that are there those that are not UTF-8 are not read as text. -/
theorem readPipeline_notText_iff (h : fs.isFile p = .ok true) :
    fs.readPipeline p = .error .notText ↔
      ∃ bytes, fs.read p = .ok bytes ∧ String.fromUTF8? ⟨bytes.toArray⟩ = none := by
  obtain ⟨null, bytes, hread⟩ := exists_read_of_isFile h
  unfold readPipeline
  rw [null, hread]
  cases htext : String.fromUTF8? ⟨bytes.toArray⟩ with
  | none => simp [htext]
  | some text =>
    cases hc : Schema.Check.ofText Pipeline.ofJson text <;> simp [htext, hc, Except.mapError]

/-- A file that is there is not read as text, holds no document, or holds one. -/
theorem readPipeline_cases (h : fs.isFile p = .ok true) :
    fs.readPipeline p = .error .notText ∨
      (∃ issues, fs.readPipeline p = .error (.invalid issues)) ∨
      ∃ document, fs.readPipeline p = .ok document := by
  obtain ⟨null, bytes, hread⟩ := exists_read_of_isFile h
  unfold readPipeline
  rw [null, hread]
  cases htext : String.fromUTF8? ⟨bytes.toArray⟩ with
  | none => exact .inl (by simp [htext])
  | some text =>
    cases hc : Schema.Check.ofText Pipeline.ofJson text with
    | error issues => exact .inr (.inl ⟨issues, by simp [htext, hc, Except.mapError]⟩)
    | ok document => exact .inr (.inr ⟨document, by simp [htext, hc, Except.mapError]⟩)

end Files

/-- A text is read as a document of the shape that it has, if the rules are kept. -/
theorem Pipeline.ofText_eq_ok {text : String} {d : Document} {order : List String}
    (shape : Schema.Check.ofText Document.check text = .ok d) (h : d.order = .ok order) :
    Schema.Check.ofText Pipeline.ofJson text = .ok ⟨d, order, h⟩ := by
  unfold Schema.Check.ofText at shape ⊢
  cases hv : Json.read? Schema.Check.textLimits text with
  | none =>
    rw [hv] at shape
    cases shape
  | some v =>
    rw [hv] at shape
    exact ofJson_eq_ok shape h

/-! ## 3. What there is to do -/

namespace CommandLine

variable {o : Job} {s : Session}

/-- A document that has a command: the document, its graph with the streams, and the command. -/
def Commands (o : Job) (s : Session) (args : List String) : Prop :=
  ∃ p g streams, s.files.readPipeline o.pipeline = .ok p ∧
    p.toGraph .empty = .ok (g, streams) ∧ g.compile o.settings streams = .ok args

/-- What is reported on a file without a document, and on a document without a command. -/
inductive Reported (o : Job) (s : Session) : String → Prop where
  | document {issues : List Schema.Issue}
      (read : s.files.readPipeline o.pipeline = .error (.invalid issues)) :
      Reported o s (loadReport o.pipeline (Schema.report documentTitle .text issues))
  | command {p : Pipeline} {g : Graph} {streams : List Stream} {e : GraphError}
      (read : s.files.readPipeline o.pipeline = .ok p)
      (built : p.toGraph .empty = .ok (g, streams))
      (compiled : g.compile o.settings streams = .error (.graph e)) : Reported o s (e.message g)

/-- Every report says something. -/
theorem Reported.ne_empty {message : String} (h : Reported o s message) : message ≠ "" := by
  cases h with
  | document => exact append_colon_ne_empty _ _ _
  | command => exact GraphError.message_ne_empty _ _

/-- What there is to do with a file. -/
inductive Verdict (o : Job) (s : Session) : Prop where
  | notText (read : s.files.readPipeline o.pipeline = .error .notText)
  | command (args : List String) (h : Commands o s args)
  | report (message : String) (h : Reported o s message)
  | unnamed (p : Pipeline) (g : Graph) (streams : List Stream) (u : Unnamed)
      (read : s.files.readPipeline o.pipeline = .ok p)
      (built : p.toGraph .empty = .ok (g, streams))
      (compiled : g.compile o.settings streams = .error (.unnamed u))
      (collision : ¬ g.Collisionless (g.terminals streams))

/-- **There is nothing else to do with a file that is there.** -/
theorem verdict (h : s.files.isFile o.pipeline = .ok true) : Verdict o s := by
  rcases Files.readPipeline_cases h with read | ⟨issues, read⟩ | ⟨p, read⟩
  · exact .notText read
  · exact .report _ (.document read)
  · obtain ⟨w, streams, built, _, hw, hss⟩ := p.exists_built .empty
    rcases hc : w.graph.compile o.settings streams with (e | u) | args
    · exact .report _ (.command read built hc)
    · refine .unnamed p w.graph streams u read built hc fun collisionless => ?_
      rcases hw.command_or_shared hss o.settings collisionless with ⟨_, ok⟩ | ⟨_, _, _, shared⟩
      · exact absurd (hc.symm.trans ok) nofun
      · exact absurd (hc.symm.trans shared) nofun
    · exact .command args ⟨p, w.graph, streams, read, built, hc⟩

/-! ## 4. The steps of the task -/

/-- Opening a document answers as the file is read. -/
theorem on_openDocument (callback : Option Sink) (p : Path) (s : Session) :
    (openDocument callback p).on s = match s.files.readPipeline p with
      | .ok document => (.ok (some document), s)
      | .error (.unreadable e) => (.ok none, s.saying [report callback (loadReport p e.message)])
      | .error (.invalid issues) => (.ok none, s.saying
          [report callback (loadReport p (Schema.report documentTitle .text issues))])
      | .error .notText => (.error .notText, s)
      | .error .nullInPath => (.error .nullInPath, s) := by
  unfold openDocument
  rw [Act.on_bind, Act.on_get]
  dsimp only
  rcases s.files.readPipeline p with (_ | _ | _ | _) | _ <;> rfl

theorem on_compileJob_of_notText (read : s.files.readPipeline o.pipeline = .error .notText) :
    (compileJob o).on s = (.error .notText, s) := by
  rw [compileJob, Act.on_bind, on_openDocument, read]

/-- What the task does with the graph of a document. -/
theorem on_compileJob_of_built {p : Pipeline} {g : Graph} {streams : List Stream}
    (read : s.files.readPipeline o.pipeline = .ok p)
    (built : p.toGraph .empty = .ok (g, streams)) :
    (compileJob o).on s =
      let reported := s.saying (g.compileReport o.settings streams)
      match g.compile o.settings streams with
      | .ok args => (.ok 0, reported.saying [.output (Shell.line args)])
      | .error (.graph e) => (.ok 1, reported.saying [.error (e.message g)])
      | .error (.unnamed u) => (.error (.run g (.unnamed u)), reported) := by
  have graph : (graphOf p).on s = (.ok (g, streams), s) := by
    unfold graphOf
    rw [built]
    rfl
  rw [compileJob, Act.on_bind, on_openDocument, read]
  dsimp only
  rw [Act.on_bind, graph]
  dsimp only
  rw [List.forM_eq_forM, Act.on_bind, Act.on_forM_say, Graph.outcome]
  rcases g.compile o.settings streams with (e | u) | args <;> rfl

/-- A document with a command comes to code 0, and the command is printed. -/
theorem Commands.printed {args : List String} (h : Commands o s args) :
    ((compileJob o).on s).1 = .ok 0 ∧
      s.Prints ((compileJob o).on s).2 (Shell.line args ++ "\n") "" := by
  obtain ⟨p, g, streams, read, built, compiled⟩ := h
  have prints := s.prints_after_report g o.settings streams [.output (Shell.line args)]
  rw [Event.standardOutput_output] at prints
  rw [on_compileJob_of_built read built, compiled]
  exact ⟨rfl, prints⟩

/-- What is to be reported comes to code 1, and the report is printed. -/
theorem Reported.printed {message : String} (h : Reported o s message) :
    ((compileJob o).on s).1 = .ok 1 ∧ s.Prints ((compileJob o).on s).2 "" (message ++ "\n") := by
  cases h with
  | document read =>
    rw [compileJob, Act.on_bind, on_openDocument, read]
    exact ⟨rfl, _, rfl, rfl, Event.standardError_error _⟩
  | @command p g streams e read built compiled =>
    have prints := s.prints_after_report g o.settings streams [.error (e.message g)]
    rw [Event.standardError_error] at prints
    rw [on_compileJob_of_built read built, compiled]
    exact ⟨rfl, prints⟩

/-- A stream without a name stops the task. -/
theorem on_compileJob_of_unnamed {p : Pipeline} {g : Graph} {streams : List Stream} {u : Unnamed}
    (read : s.files.readPipeline o.pipeline = .ok p)
    (built : p.toGraph .empty = .ok (g, streams))
    (compiled : g.compile o.settings streams = .error (.unnamed u)) :
    ((compileJob o).on s).1 = .error (.run g (.unnamed u)) := by
  rw [on_compileJob_of_built read built, compiled]

/-! ## 5. Codes -/

theorem code_zero_iff (h : s.files.isFile o.pipeline = .ok true) :
    ((compileJob o).on s).1 = .ok 0 ↔ ∃ args, Commands o s args := by
  refine ⟨fun code => ?_, fun ⟨_, hc⟩ => hc.printed.1⟩
  cases verdict h with
  | notText read => cases code.symm.trans (congrArg Prod.fst (on_compileJob_of_notText read))
  | command args hc => exact ⟨args, hc⟩
  | report message hr => cases code.symm.trans hr.printed.1
  | unnamed p g streams u read built compiled _ =>
    cases code.symm.trans (on_compileJob_of_unnamed read built compiled)

theorem code_one_iff (h : s.files.isFile o.pipeline = .ok true) :
    ((compileJob o).on s).1 = .ok 1 ↔ ∃ message, Reported o s message := by
  refine ⟨fun code => ?_, fun ⟨_, hr⟩ => hr.printed.1⟩
  cases verdict h with
  | notText read => cases code.symm.trans (congrArg Prod.fst (on_compileJob_of_notText read))
  | command args hc => cases code.symm.trans hc.printed.1
  | report message hr => exact ⟨message, hr⟩
  | unnamed p g streams u read built compiled _ =>
    cases code.symm.trans (on_compileJob_of_unnamed read built compiled)

/-- There are no other codes. -/
theorem code_cases (h : s.files.isFile o.pipeline = .ok true) {n : Nat}
    (code : ((compileJob o).on s).1 = .ok n) : n = 0 ∨ n = 1 := by
  cases verdict h with
  | notText read => cases code.symm.trans (congrArg Prod.fst (on_compileJob_of_notText read))
  | command args hc => exact .inl (Except.ok.inj (code.symm.trans hc.printed.1))
  | report message hr => exact .inr (Except.ok.inj (code.symm.trans hr.printed.1))
  | unnamed p g streams u read built compiled _ =>
    cases code.symm.trans (on_compileJob_of_unnamed read built compiled)

/-- What stops the task. -/
theorem fault_cases (h : s.files.isFile o.pipeline = .ok true) {f : CommandFault}
    (fault : ((compileJob o).on s).1 = .error f) :
    s.files.readPipeline o.pipeline = .error .notText ∨
      ∃ p g streams, s.files.readPipeline o.pipeline = .ok p ∧
        p.toGraph .empty = .ok (g, streams) ∧ ¬ g.Collisionless (g.terminals streams) := by
  cases verdict h with
  | notText read => exact .inl read
  | command args hc => cases fault.symm.trans hc.printed.1
  | report message hr => cases fault.symm.trans hr.printed.1
  | unnamed p g streams u read built _ collision =>
    exact .inr ⟨p, g, streams, read, built, collision⟩

/-- **A command is printed, or an error is reported**: with code 0 the one command of the document and
nothing else, with code 1 the one report and nothing else. A file that is not UTF-8 stops the task
without either, and nothing else does unless digests collide. -/
theorem compile_prints_or_reports (o : Job) (s : Session)
    (h : s.files.isFile o.pipeline = .ok true) :
    (((compileJob o).on s).1 = .ok 0 ↔ ∃ args, Commands o s args) ∧
    (∀ args, Commands o s args → s.Prints ((compileJob o).on s).2 (Shell.line args ++ "\n") "") ∧
    (((compileJob o).on s).1 = .ok 1 ↔ ∃ message, Reported o s message) ∧
    (∀ message, Reported o s message →
      message ≠ "" ∧ s.Prints ((compileJob o).on s).2 "" (message ++ "\n")) ∧
    (∀ n, ((compileJob o).on s).1 = .ok n → n = 0 ∨ n = 1) ∧
    ((∃ bytes, s.files.read o.pipeline = .ok bytes ∧ String.fromUTF8? ⟨bytes.toArray⟩ = none) →
      (compileJob o).on s = (.error .notText, s)) ∧
    ∀ f, ((compileJob o).on s).1 = .error f →
      (∃ bytes, s.files.read o.pipeline = .ok bytes ∧ String.fromUTF8? ⟨bytes.toArray⟩ = none) ∨
      ∃ p g streams, s.files.readPipeline o.pipeline = .ok p ∧
        p.toGraph .empty = .ok (g, streams) ∧ ¬ g.Collisionless (g.terminals streams) := by
  rw [← Files.readPipeline_notText_iff h]
  exact ⟨code_zero_iff h, fun _ hc => hc.printed.2, code_one_iff h,
    fun _ hr => ⟨hr.ne_empty, hr.printed.2⟩, fun _ => code_cases h, on_compileJob_of_notText,
    fun _ => fault_cases h⟩

/-- A session whose only file has the given bytes. -/
def holdingBytes (bytes : List UInt8) : Session := .new ⟨[], [], [], [(["p.json"], .file bytes)]⟩

/-- The task to print the command of that file. -/
def jobOnFile : Job := ⟨⟨"/", ["p.json"]⟩, .standard, .standard⟩

theorem isFile_holdingBytes (bytes : List UInt8) :
    (holdingBytes bytes).files.isFile jobOnFile.pipeline = .ok true := rfl

theorem read_holdingBytes (bytes : List UInt8) :
    (holdingBytes bytes).files.read jobOnFile.pipeline = .ok bytes := rfl

/-- The file with a text holds the document that the text writes. -/
theorem readPipeline_holdingBytes (text : String) :
    (holdingBytes text.toByteArray.data.toList).files.readPipeline jobOnFile.pipeline =
      (Schema.Check.ofText Pipeline.ofJson text).mapError .invalid := by
  have decoded : String.fromUTF8? ⟨text.toByteArray.data.toList.toArray⟩ = some text :=
    dif_pos text.isValidUTF8
  unfold Files.readPipeline
  rw [read_holdingBytes]
  dsimp only
  rw [decoded]
  rfl

/-- A text of the document whose output takes the second output of a filter first. -/
def crossedText : String :=
  "\x7b\"inputs\":\x7b\"in\":\x7b\"path\":\"in.mp4\"\x7d\x7d," ++
    "\"filters\":\x7b\"cut\":\x7b\"name\":\"split\",\"inputs\":[\"in\"]\x7d\x7d," ++
    "\"outputs\":[\x7b\"path\":\"out.mp4\",\"inputs\":[\"cut.1\",\"cut.0\"]\x7d]\x7d"

/-- The session with this text in its file. -/
def crossedSession : Session := holdingBytes crossedText.toByteArray.data.toList

theorem crossedSession_readPipeline : crossedSession.files.readPipeline jobOnFile.pipeline =
    .ok ⟨crossedDocument, ["cut"], crossedDocument_order⟩ := by
  have shape : Schema.Check.ofText Document.check crossedText = .ok crossedDocument := by
    decide +kernel
  rw [crossedSession, readPipeline_holdingBytes,
    Pipeline.ofText_eq_ok shape crossedDocument_order]
  rfl

/-- The command of this file is printed. -/
theorem compile_prints_or_reports_crossed :
    crossedSession.files.isFile jobOnFile.pipeline = .ok true ∧
      Commands jobOnFile crossedSession Graph.crossedVector ∧
      ((compileJob jobOnFile).on crossedSession).1 = .ok 0 ∧
      crossedSession.Prints ((compileJob jobOnFile).on crossedSession).2
        (Shell.line Graph.crossedVector ++ "\n") "" := by
  have file : crossedSession.files.isFile jobOnFile.pipeline = .ok true := isFile_holdingBytes _
  have command : Commands jobOnFile crossedSession Graph.crossedVector :=
    ⟨_, _, _, crossedSession_readPipeline, crossedDocument_toGraph, Graph.crossed_compile⟩
  have outcomes := compile_prints_or_reports jobOnFile crossedSession file
  exact ⟨file, command, outcomes.1.mpr ⟨_, command⟩, outcomes.2.1 _ command⟩

/-- **A file that is not UTF-8 stops the task.** -/
theorem compile_stops_at_garbled_bytes :
    (holdingBytes [0xff]).files.isFile jobOnFile.pipeline = .ok true ∧
      (compileJob jobOnFile).on (holdingBytes [0xff]) = (.error .notText, holdingBytes [0xff]) := by
  have read : (holdingBytes [0xff]).files.readPipeline jobOnFile.pipeline = .error .notText :=
    (Files.readPipeline_notText_iff (isFile_holdingBytes _)).mpr
      ⟨[0xff], read_holdingBytes _, by decide⟩
  exact ⟨isFile_holdingBytes _, on_compileJob_of_notText read⟩

end CommandLine

end FilterGraph
