import LexiconAudit.CommandLine.Report
import LexiconAudit.Proofs.CommandLine.Arguments
import LexiconAudit.Proofs.Files.Writing
import LexiconAudit.Proofs.Json.Pretty

/-!
This module contains what the outcome of a command line tells: its status is 0 if and only if everything that the
run needs is there and the check of the fixture passes, and a failure is told as it is, in a line or in JSON.
-/

namespace LexiconAudit.CommandLine

section Runs

variable (files : Files.Tree) (environment : List (String × String))

inductive Checks (config : String) : Command → (Node → Except Failure Unit) → Prop where
  | parse : Checks config .parse fun _ => .ok ()
  | repositoryAt {settings : Settings} (root : String) : Settings.load files environment config = .ok settings →
    Checks config (.auditRepository (some root)) fun tree => (Repository.verify files root tree).mapError .repository
  | repository {settings : Settings} : Settings.load files environment config = .ok settings →
    Checks config (.auditRepository none) fun tree =>
      (Repository.verify files settings.root tree).mapError .repository
  | dumps {settings : Settings} (project directory : String) :
    Settings.load files environment config = .ok settings →
      Checks config (.auditDatabase project (some directory)) fun tree =>
        (Database.verify (Database.Dump.store files directory) (settings.databasePrefix ++ project) tree).mapError
          .database
  | server {settings : Settings} (project : String) : Settings.load files environment config = .ok settings →
    Checks config (.auditDatabase project none) fun tree =>
      (Database.verify (settings.server.store files) (settings.databasePrefix ++ project) tree).mapError .database

/--
The settings load, the fixture is there and accepted, and the check of its tree passes.
-/
def Passes (invocation : Invocation) : Prop :=
  ∃ check text tree, Checks files environment invocation.config invocation.command check ∧
    files.readText invocation.fixture = .ok text ∧ Fixture.parse text = .ok tree ∧ check tree = .ok ()

/--
The settings load and the fixture is there, but it is not accepted or the check of its tree fails.
-/
def Fails (invocation : Invocation) (failure : Failure) : Prop :=
  ∃ check text, Checks files environment invocation.config invocation.command check ∧
    files.readText invocation.fixture = .ok text ∧
      ((∃ rejection, Fixture.parse text = .error rejection ∧ failure = .fixture rejection) ∨
        ∃ tree, Fixture.parse text = .ok tree ∧ check tree = .error failure)

end Runs

def Announces (json : Bool) (failure : Failure) (outcome : Outcome) : Prop :=
  if json then
    ∃ report, Json.parse outcome.output = .ok report ∧ report.field? "result" = some (.string "fail") ∧
      report.field? "class" = some (.string failure.failureClass.key) ∧
        report.field? "side" = some ((failure.side?.map fun side => Json.string side.key).getD .null) ∧
          report.field? "message" = some (.string failure.message)
  else
    outcome.output = "" ∧ outcome.errors = "error: " ++ failure.message ++ "\n"

/-! What a run finds. -/

section Runs

variable {files : Files.Tree} {environment : List (String × String)}

theorem loadSettings_of_load {path : String} {settings : Settings}
    (h : Settings.load files environment path = .ok settings) : loadSettings files environment path = .ok settings := by
  rw [loadSettings, h]
  rfl

theorem readFixture_eq_ok_iff {path : String} {tree : Node} :
    readFixture files path = .ok tree ↔ ∃ text, files.readText path = .ok text ∧ Fixture.parse text = .ok tree := by
  unfold readFixture
  cases files.readText path with
  | error fault => simp
  | ok text =>
    cases hparse : Fixture.parse text <;> simp [Except.mapError, hparse]

theorem readFixture_eq_failure_iff {path : String} {failure : Failure} :
    readFixture files path = .error (.failure failure) ↔ ∃ text, files.readText path = .ok text ∧
      ∃ rejection, Fixture.parse text = .error rejection ∧ failure = .fixture rejection := by
  unfold readFixture
  cases files.readText path with
  | error fault => simp
  | ok text =>
    cases hparse : Fixture.parse text <;> simp [Except.mapError, hparse, eq_comm]

theorem exists_run_eq_of_checks {invocation : Invocation} {check : Node → Except Failure Unit}
    (h : Checks files environment invocation.config invocation.command check) : ∃ finding : Node → Finding,
      invocation.run files environment = readFixture files invocation.fixture >>= fun tree =>
        ((check tree).map fun _ => finding tree).mapError .failure := by
  obtain ⟨command, fixture, config, json⟩ := invocation
  unfold Invocation.run
  cases h with
  | parse => exact ⟨.tree, rfl⟩
  | repositoryAt root hload =>
    refine ⟨fun _ => .agreement .repository root, ?_⟩
    rw [loadSettings_of_load hload]
    refine congrArg (readFixture files fixture >>= ·) (funext fun tree => ?_)
    cases hverify : Repository.verify files root tree <;> simp only [Option.getD_some, hverify] <;> rfl
  | @repository settings hload =>
    refine ⟨fun _ => .agreement .repository settings.root, ?_⟩
    rw [loadSettings_of_load hload]
    refine congrArg (readFixture files fixture >>= ·) (funext fun tree => ?_)
    cases hverify : Repository.verify files settings.root tree <;> simp only [Option.getD_none, hverify] <;> rfl
  | @dumps settings project directory hload =>
    let database := settings.databasePrefix ++ project
    refine ⟨fun _ => .agreement .database (Origin.of files settings database directory).target, ?_⟩
    rw [loadSettings_of_load hload]
    refine congrArg (readFixture files fixture >>= ·) (funext fun tree => ?_)
    cases hverify : Database.verify (Database.Dump.store files directory) database tree <;>
      simp only [Origin.of, Settings.databaseOf, Database.databaseName, database, hverify] <;> rfl
  | @server settings project hload =>
    let database := settings.databasePrefix ++ project
    refine ⟨fun _ => .agreement .database (Origin.of files settings database none).target, ?_⟩
    rw [loadSettings_of_load hload]
    refine congrArg (readFixture files fixture >>= ·) (funext fun tree => ?_)
    cases hverify : Database.verify (settings.server.store files) database tree <;>
      simp only [Origin.of, Settings.databaseOf, Database.databaseName, database, hverify] <;> rfl

theorem checks_or_run_eq_fault (files : Files.Tree) (environment : List (String × String)) (invocation : Invocation) :
    (∃ check, Checks files environment invocation.config invocation.command check) ∨
      ∃ fault, invocation.run files environment = .error (.settings fault) := by
  obtain ⟨command, fixture, config, json⟩ := invocation
  unfold Invocation.run
  cases hload : Settings.load files environment config with
  | error fault =>
    have hfault : loadSettings files environment config = .error (.settings fault) := by
      rw [loadSettings, hload]
      rfl
    cases command with
    | parse => exact .inl ⟨_, .parse⟩
    | auditRepository root? =>
      refine .inr ⟨fault, ?_⟩
      rw [hfault]
      rfl
    | auditDatabase project dumps =>
      refine .inr ⟨fault, ?_⟩
      rw [hfault]
      rfl
  | ok settings =>
    cases command with
    | parse => exact .inl ⟨_, .parse⟩
    | auditRepository root? =>
      cases root? with
      | none => exact .inl ⟨_, .repository hload⟩
      | some root => exact .inl ⟨_, .repositoryAt root hload⟩
    | auditDatabase project dumps =>
      cases dumps with
      | none => exact .inl ⟨_, .server project hload⟩
      | some directory => exact .inl ⟨_, .dumps project directory hload⟩

theorem toBool_run_eq_true_iff {invocation : Invocation} :
    (invocation.run files environment).toBool = true ↔ Passes files environment invocation := by
  constructor
  . intro htrue
    rcases checks_or_run_eq_fault files environment invocation with ⟨check, hcheck⟩ | ⟨fault, hfault⟩
    . obtain ⟨finding, hrun⟩ := exists_run_eq_of_checks hcheck
      rw [hrun] at htrue
      cases htree : readFixture files invocation.fixture with
      | error fault =>
        rw [htree] at htrue
        cases htrue
      | ok tree =>
        obtain ⟨text, htext, hparse⟩ := readFixture_eq_ok_iff.1 htree
        refine ⟨check, text, tree, hcheck, htext, hparse, ?_⟩
        rw [htree] at htrue
        change (((check tree).map fun _ => finding tree).mapError Fault.failure).toBool = true at htrue
        cases hresult : check tree with
        | ok _ => rfl
        | error failure =>
          rw [hresult] at htrue
          cases htrue
    . rw [hfault] at htrue
      cases htrue
  . intro ⟨check, text, tree, hcheck, htext, hparse, hpass⟩
    obtain ⟨finding, hrun⟩ := exists_run_eq_of_checks hcheck
    rw [hrun, readFixture_eq_ok_iff.2 ⟨text, htext, hparse⟩]
    change (((check tree).map fun _ => finding tree).mapError Fault.failure).toBool = true
    rw [hpass]
    rfl

theorem run_eq_of_fails {invocation : Invocation} {failure : Failure}
    (h : Fails files environment invocation failure) :
    invocation.run files environment = .error (.failure failure) := by
  obtain ⟨check, text, hcheck, htext, hfails⟩ := h
  obtain ⟨finding, hrun⟩ := exists_run_eq_of_checks hcheck
  rw [hrun, bind_eq_error_iff]
  rcases hfails with ⟨rejection, hparse, hfailure⟩ | ⟨tree, hparse, hfails⟩
  . exact .inl (readFixture_eq_failure_iff.2 ⟨text, htext, rejection, hparse, hfailure⟩)
  . refine .inr ⟨tree, readFixture_eq_ok_iff.2 ⟨text, htext, hparse⟩, ?_⟩
    rw [hfails]
    rfl

end Runs

/-! What a run writes. -/

theorem status_ofRun (invocation : Invocation) (result : Except Fault Finding) :
    (Outcome.ofRun invocation result).status = if result.toBool then 0 else 1 := by
  unfold Outcome.ofRun
  split
  . rfl
  . split <;> rfl
  . rfl

theorem bounded_failureToJson (fixture : String) (failure : Failure) :
    Json.Bounded Json.maxDepth (failureToJson fixture failure) := by
  refine .object (by simp) fun field hfield => ?_
  simp only [List.mem_cons, List.not_mem_nil, or_false] at hfield
  rcases hfield with rfl | rfl | rfl | rfl | rfl
  . exact .string _
  . exact .string _
  . exact .string _
  . cases failure.side? with
    | none => exact .null
    | some side => exact .string _
  . exact .string _

theorem announces_ofRun (invocation : Invocation) (failure : Failure) :
    Announces invocation.json failure (Outcome.ofRun invocation (.error (.failure failure))) := by
  unfold Announces Outcome.ofRun
  split
  . refine ⟨_, Json.parse_pretty (bounded_failureToJson invocation.fixture failure), rfl, rfl, ?_, rfl⟩
    cases failure <;> rfl
  . exact ⟨rfl, rfl⟩

section Words

variable {files : Files.Tree} {environment : List (String × String)} {words : List String} {invocation : Invocation}
  (h : Invocation.read words = .ok invocation)

include h

theorem outcome_eq_ofRun : outcome files environment words = .ofRun invocation (invocation.run files environment) := by
  rw [outcome, h]

theorem status_outcome :
    (outcome files environment words).status = if (invocation.run files environment).toBool then 0 else 1 := by
  rw [outcome_eq_ofRun h, status_ofRun]

theorem announces_outcome {failure : Failure} (hfails : Fails files environment invocation failure) :
    Announces invocation.json failure (outcome files environment words) := by
  rw [outcome_eq_ofRun h, run_eq_of_fails hfails]
  exact announces_ofRun invocation failure

end Words

/--
The status tells whether the check passes, and a failure is announced in the form that is asked for. Adding the word
for JSON anywhere changes nothing but that form, and there is a place where it can be added.
-/
theorem outcome_of_read (files : Files.Tree) (environment : List (String × String)) {words : List String}
    {invocation : Invocation} (h : Invocation.read words = .ok invocation) :
    ((outcome files environment words).status = 0 ↔ Passes files environment invocation) ∧
      (¬Passes files environment invocation → (outcome files environment words).status = 1) ∧
      (∀ failure, Fails files environment invocation failure →
        Announces invocation.json failure (outcome files environment words)) ∧
      (invocation.json = true → jsonWord ∈ words) ∧
      (∀ front back invocation', words = front ++ back →
        Invocation.read (front ++ jsonWord :: back) = .ok invocation' →
          (outcome files environment (front ++ jsonWord :: back)).status = (outcome files environment words).status ∧
            ∀ failure, Fails files environment invocation failure →
              Announces true failure (outcome files environment (front ++ jsonWord :: back))) ∧
      (invocation.json = false → ∃ front back, words = front ++ back ∧
        Invocation.read (front ++ jsonWord :: back) = .ok { invocation with json := true }) := by
  rw [status_outcome h, ← toBool_run_eq_true_iff]
  refine ⟨by simp, fun hpasses => if_neg hpasses, fun _ => announces_outcome h, jsonWord_mem_of_readFrom h, ?_,
    exists_readFrom_insert h⟩
  rintro front back invocation' rfl h'
  cases readFrom_insert h h'
  exact ⟨(status_outcome h').trans rfl, fun _ => announces_outcome h'⟩

def noNotesFiles : Files.Tree where
  tops := [(some 0, [("none", .file (.plain (Text.Utf8.encode "[\x7bnotes: []\x7d]")) false)])]

def noNotesInvocation : Invocation where
  command := .auditRepository "depot"
  fixture := "none"
  config := defaultConfig
  json := false

theorem fails_noNotes : Fails noNotesFiles [] noNotesInvocation
    (.repository (.notesFileMissing "depot/Lexicon.fwstub.ChorusNotes")) := by
  have hload : Settings.load noNotesFiles [] defaultConfig = .ok {} := by with_unfolding_all rfl
  have hfind : noNotesFiles.find "none" =
      .ok (⟨some 0, ["none"]⟩, .file (.plain (Text.Utf8.encode "[\x7bnotes: []\x7d]")) false) := by
    with_unfolding_all rfl
  exact ⟨_, _, .repositoryAt "depot" hload, Files.Tree.readText_of_find hfind,
    .inr ⟨_, by with_unfolding_all rfl, by with_unfolding_all rfl⟩⟩

theorem outcome_noNotes :
    Invocation.read ["verify-depot", "none", "--repo", "depot"] = .ok noNotesInvocation ∧
      (outcome noNotesFiles [] ["verify-depot", "none", "--repo", "depot"]).errors =
        "error: LanguageDepot: Can't find annotations file depot/Lexicon.fwstub.ChorusNotes\n" ∧
      ∃ report, Json.parse (outcome noNotesFiles [] ["verify-depot", "none", "--json", "--repo", "depot"]).output =
        .ok report ∧ report.field? "class" = some (.string "missing_artifact") := by
  have hread : Invocation.read ["verify-depot", "none", "--repo", "depot"] = .ok noNotesInvocation := by
    decide +kernel
  have hread' : Invocation.read ["verify-depot", "none", "--json", "--repo", "depot"] =
      .ok { noNotesInvocation with json := true } := by decide +kernel
  obtain ⟨_, _, hplain, _, hjson, _⟩ := outcome_of_read noNotesFiles [] hread
  obtain ⟨_, htold⟩ := hjson ["verify-depot", "none"] ["--repo", "depot"] _ rfl hread'
  obtain ⟨report, hreport, _, hclass, _⟩ := htold _ fails_noNotes
  exact ⟨hread, (hplain _ fails_noNotes).2, report, hreport, hclass⟩

end LexiconAudit.CommandLine
