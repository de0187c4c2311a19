import Recast.Command.Run
import Recast.Proofs.Config.Toml
import Recast.Proofs.Detect.Batch
import Recast.Proofs.Document.Text

/-!
# Documents are detected apart from each other

A run of `detect` reads each of its documents, and what becomes of one depends on its own file
alone. Documents that load make the batch in which is searched; each of the others leaves one line
on the error stream. Since a loaded document has all its numbers in range, the batch itself never
fails.

* `Loads`, `Refused`: a document loads, or does not for a reason;
* `loads_or_refused`: **one of the two is the case, and is the answer of `loadDocument`**;
* `forall₂_loadDocument`: what loads and what does not, in the order of the arguments;
* `failures_detectMany_loadedOf`: nothing fails in the batch of loaded documents;
* `runDetect_isolated`: **what is written to either stream, and the exit code**;
* `fault_in_logLevel`: a log level that keeps a run from coming this far.
-/

namespace Recast.Invocation

variable {wording : Wording} {files : Files} {path : String}

/-! ## 1. One document -/

/-- The document at a path loads: its file has a text, the text is a document and the document is
    valid. It gives the path it is about and the difference. -/
inductive Loads (files : Files) (path : String) : String × Diff → Prop where
  | intro {text : String} {doc : Document} {d : Diff} (hread : files.read path = .ok text)
      (hparse : Document.ofText text = .ok doc) (hload : doc.load = .ok d) :
      Loads files path (doc.path, d)

/-- The first of these steps that fails, in words. -/
inductive Refused (wording : Wording) (files : Files) (path : String) : String → Prop where
  | unread {e : ReadError} (hread : files.read path = .error e) :
      Refused wording files path s!"reading diff document: {e.message}"
  | unparsed {text : String} {e : DocumentError} (hread : files.read path = .ok text)
      (hparse : Document.ofText text = .error e) :
      Refused wording files path (e.fullMessage (wording.document text))
  | invalid {text : String} {doc : Document} {e : DocumentError}
      (hread : files.read path = .ok text) (hparse : Document.ofText text = .ok doc)
      (hload : doc.load = .error e) :
      Refused wording files path (e.fullMessage (wording.document text))

/-- **A document loads or is refused for a reason**, and this is what is computed. -/
theorem loads_or_refused (wording : Wording) (files : Files) (path : String) :
    (∃ pair, Loads files path pair ∧ loadDocument wording files path = .ok pair) ∨
      ∃ reason, Refused wording files path reason ∧
        loadDocument wording files path = .error (.refused path reason) := by
  unfold loadDocument
  cases hread : files.read path with
  | error e => exact .inr ⟨_, .unread hread, rfl⟩
  | ok text =>
    cases hparse : Document.ofText text with
    | error e => exact .inr ⟨_, .unparsed hread hparse, by simp only [hparse]⟩
    | ok doc =>
      cases hload : doc.load with
      | error e => exact .inr ⟨_, .invalid hread hparse hload, by simp only [hparse, hload]⟩
      | ok d => exact .inl ⟨_, ⟨hread, hparse, hload⟩, by simp only [hparse, hload]⟩

theorem loadDocument_eq_ok {pair : String × Diff} :
    loadDocument wording files path = .ok pair ↔ Loads files path pair := by
  constructor
  · intro h
    obtain ⟨pair', hpair, hload⟩ | ⟨reason, -, herror⟩ := loads_or_refused wording files path
    · rw [hload] at h
      cases h
      exact hpair
    · rw [herror] at h
      cases h
  · intro h
    obtain ⟨hread, hparse, hload⟩ := h
    unfold loadDocument
    simp only [hread, hparse, hload]

theorem loads_unique : Relator.RightUnique (Loads files) := by
  intro path pair pair' h h'
  have hpair : loadDocument {} files path = .ok pair := loadDocument_eq_ok.2 h
  rw [loadDocument_eq_ok.2 h'] at hpair
  exact (Except.ok.inj hpair).symm

/-- What a loaded document describes has all its numbers in range. -/
theorem Loads.inRange {pair : String × Diff} (h : Loads files path pair) : pair.2.InRange := by
  obtain ⟨-, -, hload⟩ := h
  exact (Document.numbered_of_load hload).inRange

/-- The document at a path loads. -/
def Loadable (files : Files) (path : String) : Prop := ∃ pair, Loads files path pair

theorem loadable_iff (wording : Wording) :
    Loadable files path ↔ (loadDocument wording files path).isOk = true := by
  have hloads : Loadable files path ↔ ∃ pair, loadDocument wording files path = .ok pair :=
    exists_congr fun _ => loadDocument_eq_ok.symm
  rw [hloads]
  constructor
  · intro h
    obtain ⟨pair, h⟩ := h
    rw [h]
    rfl
  · exact exists_of_isOk

instance : DecidablePred (Loadable files) := fun _ => decidable_of_iff _ (loadable_iff {}).symm

/-! ## 2. All documents -/

/-- The differences of the documents that load. -/
def loadedOf (wording : Wording) (files : Files) (documents : List String) :
    List (String × Diff) :=
  (documents.map (loadDocument wording files)).filterMap Except.toOption

/-- The failures of those that do not. -/
def refusedOf (wording : Wording) (files : Files) (documents : List String) : List Failure :=
  (documents.map (loadDocument wording files)).filterMap fun r =>
    match r with
    | .error f => some f
    | .ok _ => none

/-- **What loads and what does not, in the order of the arguments.** -/
theorem forall₂_loadDocument (wording : Wording) (files : Files) (documents : List String) :
    List.Forall₂ (Loads files) (documents.filter (Loadable files))
        (loadedOf wording files documents) ∧
      List.Forall₂
        (fun path f => ∃ reason, Refused wording files path reason ∧ f = .refused path reason)
        (documents.filter (¬ Loadable files ·)) (refusedOf wording files documents) := by
  induction documents with
  | nil => exact ⟨.nil, .nil⟩
  | cons path documents ih =>
    obtain ⟨hloaded, hrefused⟩ := ih
    unfold loadedOf refusedOf
    rw [List.map_cons]
    obtain ⟨pair, hpair, hload⟩ | ⟨reason, hreason, hload⟩ := loads_or_refused wording files path
    · have hloadable : Loadable files path := ⟨pair, hpair⟩
      rw [hload, List.filter_cons_of_pos (by simpa using hloadable),
        List.filter_cons_of_neg (by simpa using hloadable)]
      exact ⟨.cons hpair hloaded, hrefused⟩
    · have hnot : ¬ Loadable files path := by
        rw [loadable_iff wording, hload]
        exact Bool.false_ne_true
      rw [hload, List.filter_cons_of_neg (by simpa using hnot),
        List.filter_cons_of_pos (by simpa using hnot)]
      exact ⟨hloaded, .cons ⟨reason, hreason, rfl⟩ hrefused⟩

/-- Nothing fails in the batch of loaded documents. -/
theorem failures_detectMany_loadedOf (wording : Wording) (files : Files) (documents : List String)
    (passes : Passes) : (detectMany (loadedOf wording files documents) passes).failures = [] := by
  refine failures_detectMany_of_inRange fun pair hpair => ?_
  obtain ⟨r, hr, hpair⟩ := List.mem_filterMap.1 hpair
  obtain ⟨path, -, rfl⟩ := List.mem_map.1 hr
  exact (loadDocument_eq_ok.1 (eq_ok_of_toOption hpair)).inRange

/-- A run reports on the documents that load and lists the failures of the others. -/
theorem runDetect_eq (c : Config) (wording : Wording) (files : Files) (documents : List String)
    (json : Bool) :
    runDetect c wording files documents json =
      { code := if (refusedOf wording files documents).isEmpty then 0 else 1
        stdout :=
          renderFound json (detectMany (loadedOf wording files documents) c.passes).refactorings
        errors := (refusedOf wording files documents).map Failure.message } := by
  show (let report := detectMany (loadedOf wording files documents) c.passes
    let failures := refusedOf wording files documents ++ report.failures
    Outcome.mk (if failures.isEmpty then 0 else 1) (renderFound json report.refactorings)
      (failures.map Failure.message)) = _
  dsimp only
  rw [failures_detectMany_loadedOf, List.append_nil]

theorem refusedOf_eq_nil_iff {documents : List String} :
    refusedOf wording files documents = [] ↔ ∀ path ∈ documents, Loadable files path := by
  have hlength := (forall₂_loadDocument wording files documents).2.length_eq
  rw [← List.length_eq_zero_iff, ← hlength, List.length_eq_zero_iff, List.filter_eq_nil_iff]
  simp only [decide_eq_true_eq, not_not]

/-! ## 3. A run -/

theorem runCommand_eq_perform {c : Config} {args : List String} {inv : Invocation}
    {s : Surroundings} (hargs : ofArguments args = .ok inv) (hconfig : inv.loadConfig s = .ok c) :
    runCommand args s = perform inv.action c s := by
  unfold runCommand run
  simp only [hargs, hconfig]

/-- The exit code tells whether every document loads. -/
theorem code_runDetect (c : Config) (wording : Wording) (files : Files) (documents : List String)
    (json : Bool) : (runDetect c wording files documents json).code =
      if ∀ path ∈ documents, Loadable files path then 0 else 1 := by
  rw [runDetect_eq]
  simp only [List.isEmpty_iff, refusedOf_eq_nil_iff]

theorem perform_of_fault {action : Action} {c : Config} {s : Surroundings} {fault : Fault}
    (h : c.logging.filter s.logDirectives = .error fault) :
    perform action c s = { code := 101, stdout := "", errors := [fault.message] } := by
  unfold perform
  rw [h]

/-- Detection is reached exactly when the log filter can be made. -/
theorem perform_detect_iff {c : Config} {s : Surroundings} {documents : List String} {json : Bool} :
    perform (.detect documents json) c s = runDetect c s.wording s.files documents json ↔
      ∃ filter, c.logging.filter s.logDirectives = .ok filter := by
  cases hfilter : c.logging.filter s.logDirectives with
  | ok filter =>
    have hrun : perform (.detect documents json) c s =
        runDetect c s.wording s.files documents json := by
      unfold perform
      rw [hfilter]
    exact ⟨fun _ => ⟨filter, rfl⟩, fun _ => hrun⟩
  | error fault =>
    rw [perform_of_fault hfilter]
    constructor
    · intro h
      -- no detection ends with the code of a fault
      have hcode : 101 = _ := congrArg Outcome.code h
      rw [code_runDetect] at hcode
      split at hcode <;> omega
    · intro h
      obtain ⟨filter, hfilter⟩ := h
      cases hfilter

/-- **Documents are detected apart from each other.** What is found in those that load is written
    out as if the others were not there; each of the others has its line, with its path and the
    reason, in the order of the arguments; and the exit code tells whether there are such. A command
    line that asks for this and has its configuration comes to this outcome exactly when its log
    filter can be made. -/
theorem runDetect_isolated (c : Config) (wording : Wording) (files : Files)
    (documents : List String) (json : Bool) :
    let outcome := runDetect c wording files documents json
    (∃ diffs, List.Forall₂ (Loads files) (documents.filter (Loadable files)) diffs ∧
      outcome.stdout = renderFound json (detectMany diffs c.passes).refactorings) ∧
    (∀ others, others.filter (Loadable files) = documents.filter (Loadable files) →
      (runDetect c wording files others json).stdout = outcome.stdout) ∧
    List.Forall₂ (fun path line => ∃ reason, Refused wording files path reason ∧
        line = s!"failed to diff `{path}`: {reason}")
      (documents.filter (¬ Loadable files ·)) outcome.errors ∧
    outcome.code = (if ∀ path ∈ documents, Loadable files path then 0 else 1) ∧
    ∀ args inv s, ofArguments args = .ok inv → inv.action = .detect documents json →
      s.files = files → s.wording = wording → inv.loadConfig s = .ok c →
      (runCommand args s = outcome ↔ ∃ filter, c.logging.filter s.logDirectives = .ok filter) := by
  intro outcome
  have houtcome : outcome = _ := runDetect_eq c wording files documents json
  obtain ⟨hloaded, hrefused⟩ := forall₂_loadDocument wording files documents
  refine ⟨⟨_, hloaded, by rw [houtcome]⟩, ?_, ?_, code_runDetect c wording files documents json, ?_⟩
  · intro others hothers
    have hothers' := (forall₂_loadDocument wording files others).1
    rw [hothers] at hothers'
    rw [houtcome, runDetect_eq, List.right_unique_forall₂' loads_unique hothers' hloaded]
  · rw [houtcome, List.forall₂_map_right_iff]
    refine hrefused.imp fun path f h => ?_
    obtain ⟨reason, hreason, rfl⟩ := h
    exact ⟨reason, hreason, rfl⟩
  · intro args inv s hargs haction hfiles hwording hconfig
    rw [runCommand_eq_perform hargs hconfig, haction]
    subst hfiles hwording
    exact perform_detect_iff

/-- Two files: a document that loads, and a text that is none. -/
def twoFiles : Files where
  read path :=
    if path = "good.json" then .ok renamedMethod.toText
    else if path = "bad.json" then .ok "" else .error .notFound

theorem ofText_toText (doc : Document)
    (h : Document.decode? Json.maxLevels doc.encode = some doc) :
    Document.ofText doc.toText = .ok doc := by
  have hparse : Json.parse? doc.toText = some doc.encode :=
    Json.parse?_render doc.printable_encode
  unfold Document.ofText
  rw [hparse, Option.bind_some, h]

theorem loads_renamedMethod (hread : files.read path = .ok renamedMethod.toText) :
    Loads files path ("A.java", renamedTrees) := by
  have hload : renamedMethod.load = .ok renamedTrees := by
    unfold renamedTrees
    exact eq_ok_of_toOption (Option.some_get _).symm
  exact .intro hread (ofText_toText renamedMethod (by decide +kernel)) hload

theorem loads_good : Loads twoFiles "good.json" ("A.java", renamedTrees) :=
  loads_renamedMethod (by simp [twoFiles])

/-- Between a text that is no document and a file that is not there, a document is reported as it is
    when it stands alone. -/
theorem runDetect_isolated_twoFiles :
    let s : Surroundings := { files := twoFiles, dir := "/work" }
    let outcome := runCommand ["detect", "bad.json", "good.json", "none.json"] s
    outcome.code = 1 ∧
      outcome.stdout =
        "Rename Method package f() : void renamed to package g() : void in class A\n" ∧
      outcome.errors.length = 2 ∧
      (runCommand ["detect", "good.json"] s).stdout = outcome.stdout := by
  intro s outcome
  have hgood : Loadable twoFiles "good.json" := ⟨_, loads_good⟩
  have hbad : ¬ Loadable twoFiles "bad.json" := by decide +kernel
  have hnone : ¬ Loadable twoFiles "none.json" := by decide +kernel
  have hdiscover : Config.discover? twoFiles "/work" none = none := by decide +kernel
  have hlog : LoggingConfig.filter {} none = .ok [{ level := .info }] := by decide +kernel
  have hconfig (documents : List String) :
      (Invocation.mk none (.detect documents false)).loadConfig s = .ok {} := by
    unfold loadConfig Config.loadFor
    rw [hdiscover]
  obtain ⟨⟨diffs, hdiffs, hstdout⟩, hothers, herrors, hcode, hrun⟩ :=
    runDetect_isolated {} {} twoFiles ["bad.json", "good.json", "none.json"] false
  obtain ⟨-, -, -, -, hrunGood⟩ := runDetect_isolated {} {} twoFiles ["good.json"] false
  have hfilter : ["bad.json", "good.json", "none.json"].filter (Loadable twoFiles) =
      ["good.json"] := by simp [hgood, hbad, hnone]
  have hpair : diffs = [("A.java", renamedTrees)] := by
    rw [hfilter] at hdiffs
    exact List.right_unique_forall₂' loads_unique hdiffs (.cons loads_good .nil)
  have houtcome : outcome = _ :=
    (hrun _ _ s (by decide +kernel) rfl rfl rfl (hconfig _)).2 ⟨_, hlog⟩
  have hsingle : runCommand ["detect", "good.json"] s = _ :=
    (hrunGood _ _ s (by decide +kernel) rfl rfl rfl (hconfig _)).2 ⟨_, hlog⟩
  rw [hsingle, houtcome]
  refine ⟨?_, ?_, ?_, hothers _ ?_⟩
  · rw [hcode]
    exact if_neg fun h => hbad (h _ List.mem_cons_self)
  · rw [hstdout, hpair]
    decide +kernel
  · rw [← herrors.length_eq]
    simp [hgood, hbad, hnone]
  · rw [hfilter]
    simp [hgood]

/-- A document that loads, and a configuration whose log level has a blank of two bytes in front of
    its second directive. -/
def loggedFiles : Files where
  read path :=
    if path = "good.json" then .ok renamedMethod.toText
    else if path = "log.toml" then .ok "[logging]\nlevel = \"info,\u00a0a=debug\"\n"
    else .error .notFound

/-- With this configuration a run ends in a fault before its one document is looked at. -/
theorem fault_in_logLevel :
    let outcome := runCommand ["--config", "log.toml", "detect", "good.json"]
      { files := loggedFiles, dir := "/work" }
    (∀ path ∈ ["good.json"], Loadable loggedFiles path) ∧ outcome.code = 101 ∧
      outcome.stdout = "" := by
  intro outcome
  have hgood : Loadable loggedFiles "good.json" := ⟨_, loads_renamedMethod (by simp [loggedFiles])⟩
  have hconfig : (Invocation.mk (some "log.toml") (.detect ["good.json"] false)).loadConfig
      { files := loggedFiles, dir := "/work" } =
      .ok { logging := { level := "info,\u00a0a=debug" } } := by
    have hlines : "[logging]\n" ++ keyLine "level" (String.ofList
        (Toml.quoteString "info,\u00a0a=debug".toList)) =
        "[logging]\nlevel = \"info,\u00a0a=debug\"\n" := by decide +kernel
    have htext := Config.ofText?_level "info,\u00a0a=debug"
    rw [hlines] at htext
    simp [loadConfig, Config.loadFile, loggedFiles, htext, Except.mapError]
  have hfilter : LoggingConfig.filter { level := "info,\u00a0a=debug" } none =
      .error (.badCut (.inside .stop 1 '\u00a0' 0)) := by decide +kernel
  have houtcome : outcome = _ :=
    (runCommand_eq_perform (by decide +kernel) hconfig).trans (perform_of_fault hfilter)
  rw [houtcome]
  exact ⟨List.forall_mem_singleton.2 hgood, rfl, rfl⟩

end Recast.Invocation
