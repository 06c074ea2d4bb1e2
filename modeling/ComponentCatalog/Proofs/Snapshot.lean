import ComponentCatalog.Proofs.BuildEdits
import ComponentCatalog.Session

/-!
# The index along a session

At every point of a session the index is the one that a new index would have got from the library as
it was when the most recent build began. Questions build an index that is not ready, and leave one
that is as it is.
-/

namespace ComponentCatalog

open Work

variable {α β : Type} {lib : Library}

namespace Work

/-- The index is left as it is, and its logger is told nothing. -/
def Kept (w w' : Workspace) : Prop :=
  w'.index = w.index ∧ ∃ log, w'.log = w.log ++ log ∧ ∀ e ∈ log, e.channel ≠ .index

theorem Kept.refl (w : Workspace) : Kept w w := ⟨rfl, [], by simp, by simp⟩

theorem Kept.trans {w₁ w₂ w₃ : Workspace} (h : Kept w₁ w₂) (h' : Kept w₂ w₃) : Kept w₁ w₃ := by
  obtain ⟨hindex, log, hlog, hchannel⟩ := h
  obtain ⟨hindex', log', hlog', hchannel'⟩ := h'
  refine ⟨hindex'.trans hindex, log ++ log', by rw [hlog', hlog, List.append_assoc], fun e he => ?_⟩
  rcases List.mem_append.1 he with he | he
  · exact hchannel e he
  · exact hchannel' e he

end Work

/-- The index that a new index becomes by one build. -/
def Library.snapshot (lib : Library) : Index := ((build lib).after {}).index

/-- The message with which a build begins. -/
def Library.openingEntry (lib : Library) : LogEntry := ⟨.index, .info, lib.opening⟩

theorem build_snapshot (lib : Library) (hlog : lib.logger.Accepts) :
    lib.snapshot.ready = true ∧ ∀ w, ∃ log,
      build lib w = .ok () ⟨lib.snapshot, w.log ++ lib.openingEntry :: log⟩ := by
  obtain ⟨index, hready, hbuild⟩ := build_ok hlog
  have hsnapshot : lib.snapshot = index := by
    obtain ⟨log, h⟩ := hbuild {}
    rw [Library.snapshot, Work.after, h]
  rw [hsnapshot]
  exact ⟨hready, hbuild⟩

namespace Work

/-- The index was built, and its logger was told so. -/
def Rebuilt (lib : Library) (w w' : Workspace) : Prop :=
  w'.index = lib.snapshot ∧ ∃ log, w'.log = w.log ++ log ∧ lib.openingEntry ∈ log

theorem Kept.rebuilt {w₁ w₂ w₃ : Workspace} (h : Kept w₁ w₂) (h' : Rebuilt lib w₂ w₃) :
    Rebuilt lib w₁ w₃ := by
  obtain ⟨-, log, hlog, -⟩ := h
  obtain ⟨hindex, log', hlog', hmem⟩ := h'
  exact ⟨hindex, log ++ log', by rw [hlog', hlog, List.append_assoc], List.mem_append_right _ hmem⟩

theorem Rebuilt.kept {w₁ w₂ w₃ : Workspace} (h : Rebuilt lib w₁ w₂) (h' : Kept w₂ w₃) :
    Rebuilt lib w₁ w₃ := by
  obtain ⟨hindex, log, hlog, hmem⟩ := h
  obtain ⟨hindex', log', hlog', -⟩ := h'
  exact ⟨hindex'.trans hindex, log ++ log', by rw [hlog', hlog, List.append_assoc],
    List.mem_append_left _ hmem⟩

theorem build_rebuilt (hlog : lib.logger.Accepts) (w : Workspace) :
    Rebuilt lib w ((build lib).after w) := by
  obtain ⟨log, h⟩ := (build_snapshot lib hlog).2 w
  rw [after, h]
  exact ⟨rfl, _, rfl, List.mem_cons_self⟩

/-! ## Work that builds the index only as needed -/

/-- Work that leaves the index as it is, or builds one that was not ready. -/
def AsNeeded (lib : Library) (body : Work α) : Prop :=
  ∀ w, Kept w (body.after w) ∨ w.index.ready = false ∧ Rebuilt lib w (body.after w)

theorem after_bind (x : Work α) (k : α → Work β) (w : Workspace) :
    (x >>= k).after w = match x w with
      | .ok a w => (k a).after w
      | .error _ w => w := by
  rw [after, bind_apply]
  cases x w <;> rfl

theorem AsNeeded.of_kept {body : Work α} (h : ∀ w, Kept w (body.after w)) : AsNeeded lib body :=
  fun w => .inl (h w)

theorem AsNeeded.pure (a : α) : AsNeeded lib (pure a) := .of_kept Kept.refl

theorem AsNeeded.throw (fault : Fault) : AsNeeded lib (throw fault : Work α) := .of_kept Kept.refl

theorem AsNeeded.get : AsNeeded lib (get : Work Workspace) := .of_kept Kept.refl

theorem AsNeeded.note {channel : Channel} (h : channel ≠ .index) (level : Level) (text : Text) :
    AsNeeded lib (Work.note channel level text) :=
  .of_kept fun w => ⟨rfl, [⟨channel, level, text⟩], rfl, by simpa using h⟩

theorem AsNeeded.check {ε : Type} {cause : ε → Fault} {x : Except ε α} :
    AsNeeded lib (Work.check cause x) := by
  cases x with
  | ok a => exact .pure a
  | error e => exact .throw (cause e)

theorem AsNeeded.bind (hlog : lib.logger.Accepts) {x : Work α} {k : α → Work β} (hx : AsNeeded lib x)
    (hk : ∀ a, AsNeeded lib (k a)) : AsNeeded lib (x >>= k) := by
  intro w
  have hfirst := hx w
  rw [after_bind]
  unfold after at hfirst
  cases hr : x w with
  | error fault w' =>
      rw [hr] at hfirst
      exact hfirst
  | ok a w' =>
      rw [hr] at hfirst
      rcases hfirst with hkept | ⟨hready, hrebuilt⟩
      · rcases hk a w' with hkept' | ⟨hready', hrebuilt'⟩
        · exact .inl (hkept.trans hkept')
        · exact .inr ⟨hkept.1 ▸ hready', hkept.rebuilt hrebuilt'⟩
      · rcases hk a w' with hkept' | ⟨hready', -⟩
        · exact .inr ⟨hready, hrebuilt.kept hkept'⟩
        -- The index is ready after the first build, so there is no second one.
        · rw [hrebuilt.1, (build_snapshot lib hlog).1] at hready'
          cases hready'

theorem AsNeeded.map (hlog : lib.logger.Accepts) {x : Work α} (f : α → β) (hx : AsNeeded lib x) :
    AsNeeded lib (f <$> x) := by
  rw [map_eq_pure_bind]
  exact hx.bind hlog fun a => .pure (f a)

theorem AsNeeded.ensureBuilt (hlog : lib.logger.Accepts) : AsNeeded lib (ensureBuilt lib) := by
  intro w
  have hafter : (ComponentCatalog.ensureBuilt lib).after w =
      (if (!w.index.ready) = true then build lib else Pure.pure ()).after w := by
    unfold ComponentCatalog.ensureBuilt
    rw [after_bind]
    rfl
  rw [hafter]
  cases hready : w.index.ready with
  | true => exact .inl (Kept.refl w)
  | false => exact .inr ⟨rfl, build_rebuilt hlog w⟩

theorem build_bind_rebuilt (hlog : lib.logger.Accepts) {k : Unit → Work β} (hk : AsNeeded lib (k ()))
    (w : Workspace) : Rebuilt lib w ((build lib >>= k).after w) := by
  have hbuild := build_rebuilt hlog w
  obtain ⟨log, h⟩ := (build_snapshot lib hlog).2 w
  rw [after, h] at hbuild
  rw [after_bind, h]
  rcases hk ⟨lib.snapshot, w.log ++ lib.openingEntry :: log⟩ with hkept | ⟨hready, -⟩
  · exact hbuild.kept hkept
  · rw [(build_snapshot lib hlog).1] at hready
    cases hready

end Work

/-! ## Questions -/

section Questions

variable (hlog : lib.logger.Accepts)

include hlog

theorem question_asNeeded {x : Index → Work β} (hx : ∀ index, AsNeeded lib (x index)) (level : Level)
    (text : Text) :
    AsNeeded lib (do
      note .queries level text
      ensureBuilt lib
      x (← get).index) := by
  refine (AsNeeded.note (by decide) _ _).bind hlog fun _ => (AsNeeded.ensureBuilt hlog).bind hlog fun _ => ?_
  exact AsNeeded.get.bind hlog fun w => hx w.index

theorem queryComponent_asNeeded (name : Text) (hint : CategoryHint) :
    AsNeeded lib (queryComponent lib name hint) :=
  question_asNeeded hlog
    (x := fun index => setting (index.answerComponent lib.settings name hint.text?)) (fun _ => .check) _ _

theorem queryUtility_asNeeded (name : Text) : AsNeeded lib (queryUtility lib name) :=
  question_asNeeded hlog (x := fun index => setting (index.answerUtility lib.settings name))
    (fun _ => .check) _ _

theorem queryPlugin_asNeeded (name : Text) : AsNeeded lib (queryPlugin lib name) :=
  question_asNeeded hlog (x := fun index => setting (index.answerPlugin lib.settings name))
    (fun _ => .check) _ _

theorem queryPractices_asNeeded (topic : Text) : AsNeeded lib (queryPractices lib topic) :=
  question_asNeeded hlog (x := fun index => setting (index.answerPractices lib.root lib.settings topic))
    (fun _ => .check) _ _

theorem queryListing_asNeeded (kind : ListedKind) : AsNeeded lib (queryListing lib kind) := by
  refine (AsNeeded.ensureBuilt hlog).bind hlog fun _ => AsNeeded.get.bind hlog fun w => ?_
  dsimp only
  split
  · exact (AsNeeded.throw _).bind hlog fun _ => .pure _
  · exact .pure _

theorem queryStatus_asNeeded : AsNeeded lib (queryStatus lib) :=
  (AsNeeded.ensureBuilt hlog).bind hlog fun _ => AsNeeded.get.bind hlog fun _ => .pure _

theorem answer_asNeeded {tool : Tool} (h : tool ≠ .buildIndex) (args : Arguments) :
    AsNeeded lib (tool.answer lib args) := by
  cases tool with
  | buildIndex => exact absurd rfl h
  | indexStatus => exact (queryStatus_asNeeded hlog).map hlog _
  | component =>
      exact AsNeeded.check.bind hlog fun name => (queryComponent_asNeeded hlog name _).map hlog _
  | utility => exact AsNeeded.check.bind hlog fun name => (queryUtility_asNeeded hlog name).map hlog _
  | plugin => exact AsNeeded.check.bind hlog fun name => (queryPlugin_asNeeded hlog name).map hlog _
  | practices =>
      exact AsNeeded.check.bind hlog fun topic => (queryPractices_asNeeded hlog topic).map hlog _
  | listing kind => exact (queryListing_asNeeded hlog kind).bind hlog fun _ => .pure _

end Questions

/-! ## Steps -/

/-- Does a step ask for a build whether the index is ready or not? -/
def Step.rebuilds : Step → Bool
  | build => true
  | tool name _ | toolText name _ => Tool.ofName? name == some .buildIndex
  | _ => false

/-- A step that does not put a logger that refuses messages in the place of the one that is there. -/
def Step.KeepsAccepting : Step → Prop
  | listenTo logger => logger.Accepts
  | _ => True

namespace Session

/-- The workspace that a step leaves, with what was logged during it. -/
def left (s : Session) (step : Step) : Workspace := ⟨(s.perform step).2.index, (s.perform step).1.log⟩

/-- The workspace in which a step begins, with nothing logged yet. -/
def begun (s : Session) : Workspace := { index := s.index }

theorem work_left (s : Session) (body : Library → Work Json) :
    (⟨(s.work body).2.index, (s.work body).1.log⟩ : Workspace) = (body s.library).after s.begun := by
  unfold work Work.after begun
  cases body s.library { index := s.index } <;> rfl

theorem tool_left (s : Session) (name : Text) (args : Arguments) (encode : Json → Json) :
    (⟨(s.tool name args encode).2.index, (s.tool name args encode).1.log⟩ : Workspace) =
      match Tool.ofName? name with
      | none => s.begun
      | some tool => (tool.answer s.library args).after s.begun := by
  unfold tool callTool Work.after begun
  cases Tool.ofName? name with
  | none => rfl
  | some tool =>
      dsimp only
      cases tool.answer s.library args { index := s.index } <;> rfl

/-- The workspace `w` is left by a step that may build: as it was if the step does not ask for a build,
or with an index that was built because it was not ready or because the step asks for it. -/
def Leaves (s : Session) (step : Step) (w : Workspace) : Prop :=
  step.rebuilds = false ∧ Kept s.begun w ∨
    (s.index.ready = false ∨ step.rebuilds = true) ∧ Rebuilt s.library s.begun w

theorem leaves_of_asNeeded {s : Session} {body : Work α} (h : AsNeeded s.library body) {step : Step}
    (hstep : step.rebuilds = false) : s.Leaves step (body.after s.begun) := by
  rcases h s.begun with hkept | ⟨hready, hrebuilt⟩
  · exact .inl ⟨hstep, hkept⟩
  · exact .inr ⟨.inl hready, hrebuilt⟩

theorem leaves_of_tool {s : Session} (hlog : s.logger.Accepts) {step : Step} {name : Text}
    (hstep : step.rebuilds = (Tool.ofName? name == some .buildIndex)) (args : Arguments) :
    s.Leaves step (match Tool.ofName? name with
      | none => s.begun
      | some tool => (tool.answer s.library args).after s.begun) := by
  cases hname : Tool.ofName? name with
  | none => exact .inl ⟨by rw [hstep, hname]; rfl, Kept.refl _⟩
  | some tool =>
      by_cases htool : tool = .buildIndex
      · subst htool
        refine .inr ⟨.inr (by rw [hstep, hname]; rfl), build_bind_rebuilt hlog ?_ _⟩
        exact AsNeeded.get.bind hlog fun _ => .pure _
      · refine leaves_of_asNeeded (answer_asNeeded hlog htool args) ?_
        rw [hstep, hname]
        exact beq_false_of_ne fun h => htool (Option.some.inj h)

/-- A step leaves the index as it is, or it builds the index: one that is not ready, or by demand. -/
theorem perform_leaves {s : Session} (hlog : s.logger.Accepts) (step : Step) :
    s.Leaves step (s.left step) := by
  have hlib : s.library.logger.Accepts := hlog
  have hkept : step.rebuilds = false → ∀ w, w = s.begun → s.Leaves step w :=
    fun hstep w h => .inl ⟨hstep, h ▸ Kept.refl _⟩
  cases step with
  | build =>
      refine .inr ⟨.inr rfl, ?_⟩
      rw [left, perform, work_left]
      refine build_bind_rebuilt hlib ?_ _
      exact AsNeeded.get.bind hlib fun _ => .pure _
  | ensureBuilt =>
      rw [left, perform, work_left]
      exact leaves_of_asNeeded ((AsNeeded.ensureBuilt hlib).bind hlib fun _ => .pure _) rfl
  | stats => exact hkept rfl _ rfl
  | status =>
      rw [left, perform, work_left]
      exact leaves_of_asNeeded ((queryStatus_asNeeded hlib).map hlib _) rfl
  | component name category =>
      rw [left, perform, work_left]
      exact leaves_of_asNeeded ((queryComponent_asNeeded hlib name _).map hlib _) rfl
  | utility name =>
      rw [left, perform, work_left]
      exact leaves_of_asNeeded ((queryUtility_asNeeded hlib name).map hlib _) rfl
  | plugin name =>
      rw [left, perform, work_left]
      exact leaves_of_asNeeded ((queryPlugin_asNeeded hlib name).map hlib _) rfl
  | practices topic =>
      rw [left, perform, work_left]
      exact leaves_of_asNeeded ((queryPractices_asNeeded hlib topic).map hlib _) rfl
  | listing kind =>
      rw [left, perform, work_left]
      exact leaves_of_asNeeded ((queryListing_asNeeded hlib kind).bind hlib fun _ => .pure _) rfl
  | tool name args =>
      rw [left, perform, tool_left]
      exact leaves_of_tool hlog rfl args
  | toolText name args =>
      rw [left, perform, tool_left]
      exact leaves_of_tool hlog rfl args
  | toolOffer => exact hkept rfl _ rfl
  | write path content =>
      refine hkept rfl _ ?_
      rw [left, perform]
      cases s.storage.write path content <;> rfl
  | delete path => exact hkept rfl _ rfl
  | fail path kind message => exact hkept rfl _ rfl
  | unfail path => exact hkept rfl _ rfl
  | set group option value => exact hkept rfl _ rfl
  | listenTo logger => exact hkept rfl _ rfl

theorem perform_library {s : Session} (hlog : s.logger.Accepts) {step : Step}
    (hstep : step.KeepsAccepting) :
    (s.perform step).2.root = s.root ∧ (s.perform step).2.logger.Accepts := by
  have hwork : ∀ body, (s.work body).2.root = s.root ∧ (s.work body).2.logger.Accepts := by
    intro body
    unfold work
    cases body s.library { index := s.index } <;> exact ⟨rfl, hlog⟩
  cases step with
  | listenTo logger => exact ⟨rfl, hstep⟩
  | write path content =>
      rw [perform]
      cases s.storage.write path content <;> exact ⟨rfl, hlog⟩
  | stats => exact ⟨rfl, hlog⟩
  | tool name args => exact ⟨rfl, hlog⟩
  | toolText name args => exact ⟨rfl, hlog⟩
  | toolOffer => exact ⟨rfl, hlog⟩
  | delete path => exact ⟨rfl, hlog⟩
  | fail path kind message => exact ⟨rfl, hlog⟩
  | unfail path => exact ⟨rfl, hlog⟩
  | set group option value => exact ⟨rfl, hlog⟩
  | _ => exact hwork _

/-! ## Runs -/

/-- The session after steps, from first to last. -/
def run (s : Session) (steps : List Step) : Session := steps.foldl (fun s step => (s.perform step).2) s

/-- Does a step tell the logger that it builds? -/
def builds (s : Session) (step : Step) : Bool := s.library.openingEntry ∈ (s.perform step).1.log

/-- The session in which the most recent build of a run began, if there was a build. -/
def lastBuild? (s : Session) : List Step → Option Session
  | [] => none
  | step :: steps => ((s.perform step).2.lastBuild? steps).or (if s.builds step then some s else none)

/-- A step that builds leaves the index that a new one would get, and any other leaves the index. -/
theorem perform_index {s : Session} (hlog : s.logger.Accepts) (step : Step) :
    (s.perform step).2.index = if s.builds step then s.library.snapshot else s.index := by
  rcases perform_leaves hlog step with ⟨-, hindex, log, htold, hchannel⟩ | ⟨-, hindex, log, htold, hmem⟩
  · have hlog' : (s.perform step).1.log = log := htold
    have hno : s.builds step = false := by
      refine decide_eq_false fun hmem => ?_
      rw [hlog'] at hmem
      exact hchannel _ hmem rfl
    rw [hno]
    exact hindex
  · have hlog' : (s.perform step).1.log = log := htold
    have hyes : s.builds step = true := decide_eq_true (hlog' ▸ hmem)
    rw [hyes]
    exact hindex

theorem perform_ready {s : Session} (hlog : s.logger.Accepts) (hready : s.index.ready = true)
    {step : Step} (hstep : step.rebuilds = false) : (s.perform step).2.index = s.index := by
  rcases perform_leaves hlog step with ⟨-, hkept⟩ | ⟨hno | hyes, -⟩
  · exact hkept.1
  · rw [hready] at hno
    cases hno
  · rw [hstep] at hyes
    cases hyes

theorem perform_builds {s : Session} (hlog : s.logger.Accepts) {step : Step}
    (hstep : step.rebuilds = true) : s.builds step = true := by
  rcases perform_leaves hlog step with ⟨hno, -⟩ | ⟨-, -, log, htold, hmem⟩
  · rw [hstep] at hno
    cases hno
  · have hlog' : (s.perform step).1.log = log := htold
    exact decide_eq_true (hlog' ▸ hmem)

theorem run_library {s : Session} (hlog : s.logger.Accepts) {steps : List Step}
    (hsteps : ∀ step ∈ steps, step.KeepsAccepting) :
    (s.run steps).root = s.root ∧ (s.run steps).logger.Accepts := by
  induction steps generalizing s with
  | nil => exact ⟨rfl, hlog⟩
  | cons step steps ih =>
      obtain ⟨hroot, hlog'⟩ := perform_library hlog (hsteps step (by simp))
      obtain ⟨hroot', hlog''⟩ := ih hlog' fun step' h => hsteps step' (by simp [h])
      exact ⟨hroot'.trans hroot, hlog''⟩

theorem run_index {s : Session} (hlog : s.logger.Accepts) {steps : List Step}
    (hsteps : ∀ step ∈ steps, step.KeepsAccepting) :
    match s.lastBuild? steps with
    | none => (s.run steps).index = s.index
    | some b => b.root = s.root ∧ b.logger.Accepts ∧ (s.run steps).index = b.library.snapshot := by
  induction steps generalizing s with
  | nil => rfl
  | cons step steps ih =>
      obtain ⟨hroot, hlog'⟩ := perform_library hlog (hsteps step (by simp))
      have hrest := ih hlog' fun step' h => hsteps step' (by simp [h])
      have hrun : s.run (step :: steps) = (s.perform step).2.run steps := rfl
      -- The most recent build is one of the later steps, or else the first step if that builds.
      rw [lastBuild?, hrun]
      cases hlast : (s.perform step).2.lastBuild? steps with
      | some b =>
          rw [hlast] at hrest
          exact ⟨hrest.1.trans hroot, hrest.2⟩
      | none =>
          rw [hlast] at hrest
          have hstep := perform_index hlog step
          cases hb : s.builds step with
          | false =>
              rw [hb] at hstep
              exact hrest.trans hstep
          | true =>
              rw [hb] at hstep
              exact ⟨rfl, hlog, hrest.trans hstep⟩

/-- What holds after a run of steps: the index is empty if nothing was built, and else the one that a
new index gets from the library as it was when the most recent build began; a build does not fail; the
demand for a build is always met, and nothing else changes a ready index. -/
structure Snapshots (s : Session) (steps : List Step) : Prop where
  unbuilt : s.lastBuild? steps = none → (s.run steps).index = {}
  built : ∀ b, s.lastBuild? steps = some b → b.root = s.root ∧ (s.run steps).index.ready = true ∧
    ∃ log, build b.library {} = .ok () ⟨(s.run steps).index, log⟩
  builds : ∀ w, ∃ w', build (s.run steps).library w = .ok () w'
  demanded : ∀ step, step.rebuilds = true → (s.run steps).builds step = true
  settled : (s.run steps).index.ready = true → ∀ step, step.rebuilds = false →
    ((s.run steps).perform step).2.index = (s.run steps).index

/-- Whatever is asked, written, deleted, failing or set in between. -/
theorem run_snapshots {s : Session} (hnew : s.index = {}) (hlog : s.logger.Accepts) {steps : List Step}
    (hsteps : ∀ step ∈ steps, step.KeepsAccepting) : s.Snapshots steps := by
  obtain ⟨-, hlog'⟩ := run_library hlog hsteps
  have hindex := run_index hlog hsteps
  refine ⟨fun hlast => ?_, fun b hlast => ?_, fun w => ?_, fun step => perform_builds hlog',
    fun hready step => perform_ready hlog' hready⟩
  · rw [hlast] at hindex
    exact hindex.trans hnew
  · rw [hlast] at hindex
    obtain ⟨hroot, hb, hsnapshot⟩ := hindex
    obtain ⟨hready, hbuild⟩ := build_snapshot b.library hb
    obtain ⟨log, h⟩ := hbuild {}
    rw [hsnapshot]
    exact ⟨hroot, hready, _, h⟩
  · obtain ⟨log, h⟩ := (build_snapshot (s.run steps).library hlog').2 w
    exact ⟨_, h⟩

/-- A session over a library of one component. -/
def small : Session where
  storage := .memory (({} : MemoryFiles).write "/lib/src/scripts/components/a.vue" "")
  root := Path.ofText "/lib"
  settings := .ofBase ⟨[]⟩

/-- A question, a change of the files and a build. -/
def smallSteps : List Step :=
  [.utility "a", .delete "/lib/src/scripts/components/a.vue", .tool "build_index" []]

theorem small_keepsAccepting : ∀ step ∈ smallSteps, step.KeepsAccepting := by
  simp [smallSteps, Step.KeepsAccepting]

theorem small_snapshots : small.Snapshots smallSteps :=
  run_snapshots rfl Logger.silent_accepts small_keepsAccepting

end Session

end ComponentCatalog
