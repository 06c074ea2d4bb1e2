import ComponentCatalog.Proofs.Runs
import ComponentCatalog.Proofs.Snapshot
import ComponentCatalog.Proofs.ToolCalls

/-!
# One look-up, two ways to ask

A question for one resource can be asked at a terminal and through a tool. Both ways lead to the answer
of the index that the library gets from one build, and to the same words where there is none.
-/

namespace ComponentCatalog

open Work

variable {lib : Library}

/-! ## Answers of a new index -/

/-- The answer of an index to a question for one resource. -/
def Index.answer (index : Index) (settings : Settings) : Question → Except SettingError Answer
  | .component name hint => .component <$> index.answerComponent settings name hint.text?
  | .utility name => .utility <$> index.answerUtility settings name
  | .plugin name => .plugin <$> index.answerPlugin settings name

namespace Work

variable {α β : Type}

theorem setting_fresh (hlog : lib.logger.Accepts) (x : Index → Except SettingError α) (level : Level)
    (text : Text) :
    ∃ log, (do
      note .queries level text
      ensureBuilt lib
      setting (x (← get).index)) {} = ending ((x lib.snapshot).mapError .setting) ⟨lib.snapshot, log⟩ := by
  obtain ⟨log, hbuild⟩ := (build_snapshot lib hlog).2 { log := [⟨.queries, level, text⟩] }
  refine ⟨[⟨.queries, level, text⟩] ++ lib.openingEntry :: log, ?_⟩
  rw [bind_apply]
  show (ensureBuilt lib >>= fun _ => _) ({ log := [⟨.queries, level, text⟩] } : Workspace) = _
  have hbuilt : ensureBuilt lib { log := [⟨.queries, level, text⟩] } = _ := hbuild
  rw [bind_apply, hbuilt]
  show setting (x lib.snapshot) _ = _
  cases x lib.snapshot <;> rfl

theorem map_mapError {ε ε' : Type} (f : α → β) (g : ε → ε') (x : Except ε α) :
    f <$> x.mapError g = (f <$> x).mapError g := by
  cases x <;> rfl

theorem map_ending (f : α → β) {x : Work α} {r : Except Fault α} {w left : Workspace} (h : x w = ending r left) :
    (f <$> x) w = ending (f <$> r) left := by
  rw [map_eq_pure_bind, bind_apply, h]
  cases r <;> rfl

end Work

namespace Question

/-- A question that is asked of a new index is answered by the index that it becomes. -/
theorem ask_fresh (hlog : lib.logger.Accepts) (q : Question) :
    ∃ log, q.ask lib {} =
      ending ((lib.snapshot.answer lib.settings q).mapError .setting) ⟨lib.snapshot, log⟩ := by
  cases q with
  | component name hint =>
      obtain ⟨log, h⟩ := setting_fresh hlog (fun index => index.answerComponent lib.settings name hint.text?) _ _
      exact ⟨log, (map_ending Answer.component h).trans (congrArg (ending · _) (map_mapError _ _ _))⟩
  | utility name =>
      obtain ⟨log, h⟩ := setting_fresh hlog (fun index => index.answerUtility lib.settings name) _ _
      exact ⟨log, (map_ending Answer.utility h).trans (congrArg (ending · _) (map_mapError _ _ _))⟩
  | plugin name =>
      obtain ⟨log, h⟩ := setting_fresh hlog (fun index => index.answerPlugin lib.settings name) _ _
      exact ⟨log, (map_ending Answer.plugin h).trans (congrArg (ending · _) (map_mapError _ _ _))⟩

/-! ## Questions as calls of tools -/

/-- The name that a question is about. -/
def name : Question → Text
  | component name _ | utility name | plugin name => name

/-- The tool that answers a question. -/
def tool : Question → Tool
  | component .. => .component
  | utility _ => .utility
  | plugin _ => .plugin

/-- The hint of a question, as far as it says something. -/
def category : Question → Option Text
  | component _ hint => hint.text?
  | utility _ | plugin _ => none

/-- The arguments with which a tool is asked a question. -/
def arguments (q : Question) : Arguments :=
  ("name".toList, .str q.name) :: match q.category with
    | some category => [("category".toList, .str category)]
    | none => []

/-- A question as it reaches the index by way of a tool, for which an empty hint is none. -/
def heard : Question → Question
  | component name hint => component name (.ofText? (hint.text?.filter (!·.isEmpty)))
  | q => q

theorem isSupplied_arguments {q : Question} (hname : q.name ≠ []) (htrim : q.name.trim = q.name) :
    q.tool.IsSupplied q.arguments q.name := by
  intro key hkey
  obtain rfl : "name".toList = key := by cases q <;> exact Option.some.inj hkey
  exact ⟨q.name, rfl, htrim, hname⟩

theorem optionalText_arguments (q : Question) :
    optionalText q.arguments "category" = q.category.filter (!·.isEmpty) := by
  unfold arguments
  cases q.category with
  | none => rfl
  | some category => cases category <;> rfl

theorem operation_heard (lib : Library) (q : Question) :
    q.tool.operation lib q.name (optionalText q.arguments "category") = Answer.toJson <$> q.heard.ask lib := by
  rw [optionalText_arguments]
  cases q with
  | component name hint => exact (Functor.map_map Answer.component Answer.toJson _).symm
  | utility name => exact (Functor.map_map Answer.utility Answer.toJson _).symm
  | plugin name => exact (Functor.map_map Answer.plugin Answer.toJson _).symm

end Question

/-! ## What both ways come to -/

theorem Answer.found_field (a : Answer) : a.toJson.field? "found" = some (.bool a.isFound) := by
  cases a with
  | component a => cases a <;> rfl
  | utility a => cases a <;> rfl
  | plugin a => cases a <;> rfl

/-- An empty hint is not told from an absent one. -/
theorem Index.answerComponent_empty (index : Index) (settings : Settings) (name : Text) :
    ComponentAnswer.toJson <$> index.answerComponent settings name (some []) =
      ComponentAnswer.toJson <$> index.answerComponent settings name none := by
  have hfind : findComponent? index settings name (some []) = findComponent? index settings name none := rfl
  unfold Index.answerComponent
  rw [hfind]
  cases findComponent? index settings name none with
  | error e => rfl
  | ok found =>
      cases found with
      | some c => rfl
      | none => cases suggest settings name index.componentCandidates <;> rfl

theorem Index.answer_heard (index : Index) (settings : Settings) (q : Question) :
    Answer.toJson <$> index.answer settings q.heard = Answer.toJson <$> index.answer settings q := by
  cases q with
  | component name hint =>
      cases hint with
      | given category =>
          cases category with
          | nil =>
              have hempty := (index.answerComponent_empty settings name).symm
              show Answer.toJson <$> Answer.component <$> _ = Answer.toJson <$> Answer.component <$> _
              rw [Functor.map_map, Functor.map_map]
              exact hempty
          | cons c category => rfl
      | _ => rfl
  | _ => rfl

/-- What a tool answers where an index comes to an answer or not. -/
def toolAnswer : Except SettingError Json → Json
  | .ok v => v
  | .error e => errorAnswer e.message

theorem callTool_arguments (hlog : lib.logger.Accepts) {q : Question} (hname : q.name ≠ [])
    (htrim : q.name.trim = q.name) :
    (callTool lib q.tool.name q.arguments {}).1 =
      toolAnswer (Answer.toJson <$> lib.snapshot.answer lib.settings q) := by
  obtain ⟨log, hask⟩ := Question.ask_fresh hlog q.heard
  rw [callTool_of_isSupplied (Question.isSupplied_arguments hname htrim), Question.operation_heard,
    map_ending Answer.toJson hask, map_mapError, Index.answer_heard]
  cases lib.snapshot.answer lib.settings q <;> rfl

namespace CommandLine

variable {host : Host} {disk : Disk} {r : Request} {q : Question} {json : Bool}

/-- The lines that tell of a fault. -/
def faultNotice (message : Text) : Text :=
  Text.ofLines [[], "❌ Error: " ++ message, "   Run with -v for details."]

theorem runQuery_fresh (hlog : lib.logger.Accepts) (q : Question) (json : Bool) (disk : Disk) :
    ∃ log, Request.runQuery lib q json { disk } = match lib.snapshot.answer lib.settings q with
      | .ok a => .ok (if a.isFound then 0 else 1)
          { disk, output := if json then Text.ofLines [a.toJson.text] else a.report, log }
      | .error e => .error (.setting e) { disk, log } := by
  obtain ⟨log, hask⟩ := Question.ask_fresh hlog q
  have hask' : q.ask lib { log := ({ disk } : RunState).log } = _ := hask
  refine ⟨log, ?_⟩
  rw [Request.runQuery, Run.bind_apply, Run.onIndex, hask']
  cases lib.snapshot.answer lib.settings q with
  | error e => rfl
  | ok a => cases json <;> rfl

/-- A look-up at a terminal, and the same one by a call of a tool on a new index of the same library. The
run ends with zero exactly if the answer of the tool says that something was found. If the look-up comes
to an answer, a run that is to print JSON prints the answer of the tool; if it fails, the run gives the
message that the tool gives. -/
theorem lookups_agree {left : RunState} (haction : r.action = .query q json)
    (hopen : r.openLibrary host.environment { disk } = .ok lib left) (hname : q.name ≠ [])
    (htrim : q.name.trim = q.name) :
    let answer := (callTool lib q.tool.name q.arguments {}).1
    let outcome := (r.run host disk).1
    (outcome.code = 0 ↔ answer.field? "found" = some (.bool true)) ∧
    ((∃ a w, q.ask lib {} = .ok a w ∧ answer = a.toJson ∧ outcome.code ≤ 1 ∧
        (json = true → outcome.output = Text.ofLines [answer.text])) ∨
      ∃ fault w, q.ask lib {} = .error fault w ∧ answer = errorAnswer fault.message ∧ outcome.code = 1 ∧
        (r.verbose = false → outcome.output = faultNotice fault.message)) := by
  obtain ⟨hlogger, rfl⟩ := r.openLibrary_brings host.environment _ _ _ hopen
  have hlog : lib.logger.Accepts := hlogger ▸ Logger.silent_accepts
  obtain ⟨log, hask⟩ := Question.ask_fresh hlog q
  obtain ⟨log', hrun⟩ := runQuery_fresh hlog q json disk
  have hperform : r.perform host { disk } = Request.runQuery lib q json { disk } := by
    simp only [Request.perform, haction]
    rw [Run.bind_apply, hopen]
  rw [callTool_arguments hlog hname htrim]
  intro answer outcome
  cases hresult : lib.snapshot.answer lib.settings q with
  | ok a =>
      rw [hresult] at hask hrun
      have hanswer : answer = a.toJson := by simp only [answer, hresult]; rfl
      have houtcome : outcome.code = (if a.isFound then 0 else 1) ∧
          outcome.output = if json then Text.ofLines [a.toJson.text] else a.report := by
        simp only [outcome, Request.run, hperform, hrun, and_self]
      rw [hanswer, houtcome.1, houtcome.2, a.found_field]
      refine ⟨?_, .inl ⟨a, _, hask, rfl, ?_, fun hjson => by rw [if_pos hjson]⟩⟩
      · cases a.isFound <;> simp
      · split <;> decide
  | error e =>
      rw [hresult] at hask hrun
      have hanswer : answer = errorAnswer e.message := by simp only [answer, hresult]; rfl
      have houtcome : outcome.code = 1 ∧ (r.verbose = false → outcome.output = faultNotice e.message) := by
        simp only [outcome, Request.run, hperform, hrun]
        cases r.verbose with
        | true => exact ⟨rfl, nofun⟩
        | false => exact ⟨rfl, fun _ => rfl⟩
      rw [hanswer, houtcome.1]
      exact ⟨⟨nofun, nofun⟩, .inr ⟨_, _, hask, rfl, rfl, houtcome.2⟩⟩

/-- A look-up that names its base directory and its library. -/
def avatarLookup : Request where
  base := some "base"
  library := some "lib"
  action := .query (.component "yb-avatar" (.given "form")) true

theorem lookups_agree_avatarLookup :
    let q : Question := .component "yb-avatar" (.given "form")
    let answer := (callTool bareLibrary q.tool.name q.arguments {}).1
    let outcome := (avatarLookup.run plainHost bareDisk).1
    avatarLookup.openLibrary plainHost.environment { disk := bareDisk } = .ok bareLibrary { disk := bareDisk } ∧
    (outcome.code = 0 ↔ answer.field? "found" = some (.bool true)) ∧
    ((∃ a w, q.ask bareLibrary {} = .ok a w ∧ answer = a.toJson ∧ outcome.code ≤ 1 ∧
        outcome.output = Text.ofLines [answer.text]) ∨
      ∃ fault w, q.ask bareLibrary {} = .error fault w ∧ answer = errorAnswer fault.message ∧ outcome.code = 1 ∧
        outcome.output = faultNotice fault.message) := by
  have hbase : Settings.findBase plainHost.environment avatarLookup.base = .ok ⟨["/", "base"]⟩ := rfl
  have hload : Settings.load bareDisk ⟨["/", "base"]⟩ = .ok (Settings.ofBase ⟨["/", "base"]⟩) := rfl
  have hopen : avatarLookup.openLibrary plainHost.environment { disk := bareDisk } =
      .ok bareLibrary { disk := bareDisk } := Request.openLibrary_apply hbase hload rfl rfl rfl rfl
  obtain ⟨hcode, h⟩ := lookups_agree (r := avatarLookup) rfl hopen (by decide) (by decide)
  refine ⟨hopen, hcode, h.imp ?_ ?_⟩
  · rintro ⟨a, w, hask, hanswer, hle, houtput⟩
    exact ⟨a, w, hask, hanswer, hle, houtput rfl⟩
  · rintro ⟨fault, w, hask, hanswer, hone, houtput⟩
    exact ⟨fault, w, hask, hanswer, hone, houtput rfl⟩

end CommandLine

end ComponentCatalog
