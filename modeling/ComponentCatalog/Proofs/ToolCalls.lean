import ComponentCatalog.Proofs.Trimming
import ComponentCatalog.Proofs.Work
import ComponentCatalog.Query.Tool

/-!
# Calls of tools

A call whose tool is unknown, or that lacks what its tool needs, is answered with an error before any
work begins. Any other call is answered by what its tool does.
-/

namespace ComponentCatalog

open Work

variable {lib : Library} {args : Arguments} {name text : Text} {w : Workspace}

/-! ## Arguments -/

/-- A call lacks an argument if it is not given, is no text, or is blank. -/
def Arguments.Lacks (args : Arguments) (name : Text) : Prop :=
  ∀ t, args.find? name = some (.str t) → ∀ c ∈ t, isBlank c = true

theorem requiredText_of_lacks (h : args.Lacks name) : requiredText args name = .error (.missingArgument name) := by
  unfold requiredText
  split
  · next t ht => rw [if_pos (List.isEmpty_iff.2 (Text.trim_eq_nil_iff.2 (h t ht)))]
  · rfl

theorem requiredText_of_find? {t : Text} (h : args.find? name = some (.str t)) (hne : t.trim ≠ []) :
    requiredText args name = .ok t.trim := by
  unfold requiredText
  rw [h]
  exact if_neg (by simpa using hne)

theorem exists_of_not_lacks (h : ¬ args.Lacks name) : ∃ t, args.find? name = some (.str t) ∧ t.trim ≠ [] := by
  unfold Arguments.Lacks at h
  push Not at h
  obtain ⟨t, ht, c, hc, hblank⟩ := h
  exact ⟨t, ht, fun hnil => hblank (Text.trim_eq_nil_iff.1 hnil c hc)⟩

/-! ## Errors and results -/

theorem field?_errorAnswer (message : Text) : (errorAnswer message).field? "error" = some (.str message) := rfl

theorem exists_of_map_ok {α : Type} {f : α → Json} {x : Work α} {v : Json} {w w' : Workspace}
    (h : (f <$> x) w = .ok v w') : ∃ a, f a = v := by
  rw [map_eq_pure_bind, bind_apply] at h
  cases hx : x w with
  | error fault w₁ =>
      rw [hx] at h
      cases h
  | ok a w₁ =>
      rw [hx] at h
      cases h
      exact ⟨a, rfl⟩

/-! ## Tools and their names -/

namespace Tool

theorem ofName?_name (tool : Tool) : ofName? tool.name = some tool := by
  cases tool with
  | listing kind => cases kind <;> decide
  | _ => decide

theorem ofName?_eq_some_iff {tool : Tool} : ofName? name = some tool ↔ tool.name = name :=
  ⟨fun h => by simpa using List.find?_some h, fun h => h ▸ ofName?_name tool⟩

theorem ofName?_eq_none_iff : ofName? name = none ↔ name ∉ all.map Tool.name := by
  simp [ofName?, List.find?_eq_none]

/-! ## What tools do -/

/-- What a tool does with the text that it needs and the category that it may be given. -/
def operation (lib : Library) (text : Text) (category : Option Text) : Tool → Work Json
  | buildIndex => do
    build lib
    return ((← get).index.stats lib.root).toJson
  | indexStatus => Stats.toJson <$> queryStatus lib
  | component => ComponentAnswer.toJson <$> queryComponent lib text (.ofText? category)
  | utility => UtilityAnswer.toJson <$> queryUtility lib text
  | plugin => PluginAnswer.toJson <$> queryPlugin lib text
  | practices => PracticeAnswer.toJson <$> queryPractices lib text
  | listing kind => do
    return .arr ((← queryListing lib kind).map ListedItem.toJson)

/-- The argument that a tool needs. -/
def needed? (tool : Tool) : Option Text := (tool.arguments.find? (·.required)).map (·.name)

/-- A call lacks what its tool needs. -/
def IsStarved (tool : Tool) (args : Arguments) : Prop := ∃ key, tool.needed? = some key ∧ args.Lacks key

/-- A call gives its tool the text that it needs; any text will do for a tool that needs none. -/
def IsSupplied (tool : Tool) (args : Arguments) (text : Text) : Prop :=
  ∀ key, tool.needed? = some key → ∃ t, args.find? key = some (.str t) ∧ t.trim = text ∧ text ≠ []

theorem isStarved_or_isSupplied (tool : Tool) (args : Arguments) :
    tool.IsStarved args ∨ ∃ text, tool.IsSupplied args text := by
  cases hneeded : tool.needed? with
  | none => exact .inr ⟨[], fun key hkey => nomatch hneeded.symm.trans hkey⟩
  | some key =>
      by_cases hlacks : args.Lacks key
      · exact .inl ⟨key, hneeded, hlacks⟩
      · obtain ⟨t, ht, hne⟩ := exists_of_not_lacks hlacks
        refine .inr ⟨t.trim, fun key' hkey' => ?_⟩
        obtain rfl := Option.some.inj (hneeded.symm.trans hkey')
        exact ⟨t, ht, rfl, hne⟩

theorem answer_of_isSupplied {tool : Tool} (h : tool.IsSupplied args text) :
    tool.answer lib args = tool.operation lib text (optionalText args "category") := by
  have hcheck : ∀ key, tool.needed? = some key → check id (requiredText args key) = pure text := by
    intro key hkey
    obtain ⟨t, ht, rfl, hne⟩ := h key hkey
    rw [requiredText_of_find? ht hne]
    rfl
  cases tool with
  | component => exact congrArg (· >>= _) (hcheck "name" rfl)
  | utility => exact congrArg (· >>= _) (hcheck "name" rfl)
  | plugin => exact congrArg (· >>= _) (hcheck "name" rfl)
  | practices => exact congrArg (· >>= _) (hcheck "topic" rfl)
  | _ => rfl

/-- The check of the arguments comes before all work. -/
theorem answer_of_isStarved {tool : Tool} (h : tool.IsStarved args) :
    ∃ key, tool.needed? = some key ∧ ∀ lib w, tool.answer lib args w = .error (.missingArgument key) w := by
  obtain ⟨key, hkey, hlacks⟩ := h
  have hcheck : (check id (requiredText args key) : Work Text) = throw (.missingArgument key) := by
    rw [requiredText_of_lacks hlacks]
    rfl
  refine ⟨key, hkey, fun lib w => ?_⟩
  cases tool with
  | component =>
      obtain rfl : "name".toList = key := Option.some.inj hkey
      exact congrFun (congrArg (· >>= _) hcheck) w
  | utility =>
      obtain rfl : "name".toList = key := Option.some.inj hkey
      exact congrFun (congrArg (· >>= _) hcheck) w
  | plugin =>
      obtain rfl : "name".toList = key := Option.some.inj hkey
      exact congrFun (congrArg (· >>= _) hcheck) w
  | practices =>
      obtain rfl : "topic".toList = key := Option.some.inj hkey
      exact congrFun (congrArg (· >>= _) hcheck) w
  | _ => cases hkey

/-- What a tool does comes to a result that is encoded without an error. -/
theorem operation_eq_map (lib : Library) (text : Text) (category : Option Text) (tool : Tool) :
    ∃ (α : Type) (f : α → Json) (x : Work α), (∀ a, (f a).field? "error" = none) ∧
      tool.operation lib text category = f <$> x := by
  cases tool with
  | buildIndex =>
      exact ⟨_, Stats.toJson, do build lib; return (← get).index.stats lib.root, fun _ => rfl, by
        simp only [operation, map_bind, map_pure]⟩
  | indexStatus => exact ⟨_, _, _, fun _ => rfl, rfl⟩
  | component => exact ⟨_, _, _, fun a => by cases a <;> rfl, rfl⟩
  | utility => exact ⟨_, _, _, fun a => by cases a <;> rfl, rfl⟩
  | plugin => exact ⟨_, _, _, fun a => by cases a <;> rfl, rfl⟩
  | practices => exact ⟨_, _, _, fun _ => rfl, rfl⟩
  | listing kind =>
      exact ⟨_, fun items => .arr (items.map ListedItem.toJson), queryListing lib kind, fun _ => rfl, by
        simp only [operation, map_eq_pure_bind]⟩

end Tool

/-! ## Calls -/

/-- A call that is rejected names no tool, or lacks what its tool needs. -/
def Rejects (name : Text) (args : Arguments) : Prop :=
  name ∉ Tool.all.map Tool.name ∨ ∃ tool : Tool, tool.name = name ∧ tool.IsStarved args

theorem callTool_of_rejects (h : Rejects name args) :
    ∃ message, ∀ lib w, callTool lib name args w = (errorAnswer message, w) := by
  rcases h with hname | ⟨tool, rfl, hstarved⟩
  · refine ⟨"Unknown tool: " ++ name, fun lib w => ?_⟩
    rw [callTool, Tool.ofName?_eq_none_iff.2 hname]
  · obtain ⟨key, -, hanswer⟩ := Tool.answer_of_isStarved hstarved
    refine ⟨(Fault.missingArgument key).message, fun lib w => ?_⟩
    simp only [callTool, Tool.ofName?_name, hanswer]

theorem callTool_of_isSupplied {tool : Tool} (h : tool.IsSupplied args text) (lib : Library) (w : Workspace) :
    callTool lib tool.name args w = match tool.operation lib text (optionalText args "category") w with
      | .ok v w => (v, w)
      | .error fault w => (errorAnswer fault.message, w) := by
  cases hdone : tool.operation lib text (optionalText args "category") w <;>
    simp only [callTool, Tool.ofName?_name, Tool.answer_of_isSupplied h, hdone]

/-- The answer to a call is an error exactly if the call is rejected or its tool fails. A call that is
rejected has the same answer on every library, and leaves the index and the log as they are: nothing is
read or built for it. -/
theorem callTool_rejections (lib : Library) (name : Text) (args : Arguments) (w : Workspace) :
    ((∃ message, (callTool lib name args w).1 = errorAnswer message) ↔
      Rejects name args ∨ ∃ tool : Tool, tool.name = name ∧ ∃ text, tool.IsSupplied args text ∧
        ∃ fault left, tool.operation lib text (optionalText args "category") w = .error fault left) ∧
    (Rejects name args → ∀ other, callTool other name args w = ((callTool lib name args w).1, w)) := by
  refine ⟨⟨fun ⟨message, hmessage⟩ => ?_, ?_⟩, fun hrejects other => ?_⟩
  · cases hname : Tool.ofName? name with
    | none => exact .inl (.inl (Tool.ofName?_eq_none_iff.1 hname))
    | some tool =>
        obtain rfl := Tool.ofName?_eq_some_iff.1 hname
        rcases tool.isStarved_or_isSupplied args with hstarved | ⟨text, hsupplied⟩
        · exact .inl (.inr ⟨tool, rfl, hstarved⟩)
        · refine .inr ⟨tool, rfl, text, hsupplied, ?_⟩
          rw [callTool_of_isSupplied hsupplied] at hmessage
          obtain ⟨α, f, x, hfield, hmap⟩ := tool.operation_eq_map lib text (optionalText args "category")
          cases hx : tool.operation lib text (optionalText args "category") w with
          | error fault left => exact ⟨fault, left, rfl⟩
          | ok v left =>
              obtain ⟨a, rfl⟩ := exists_of_map_ok (hmap ▸ hx)
              simp only [hx] at hmessage
              have herror := hfield a
              rw [hmessage, field?_errorAnswer] at herror
              cases herror
  · rintro (hrejects | ⟨tool, rfl, text, hsupplied, fault, left, hfails⟩)
    · obtain ⟨message, hcall⟩ := callTool_of_rejects hrejects
      exact ⟨message, by rw [hcall]⟩
    · exact ⟨fault.message, by rw [callTool_of_isSupplied hsupplied, hfails]⟩
  · obtain ⟨message, hcall⟩ := callTool_of_rejects hrejects
    rw [hcall, hcall]

/-- A disk with an empty library. -/
def bareDisk : Disk where
  root := .directory "lib" .empty .empty

/-- The library on this disk. -/
def bareLibrary : Library where
  root := ⟨["/", "lib"]⟩
  files := bareDisk.fileSystem
  settings := { Settings.ofBase ⟨["/", "base"]⟩ with pinned := some ⟨["/", "lib"]⟩ }

theorem callTool_rejections_blankName :
    Rejects "query_component" [("name", .str "\t ")] ∧
      ∀ other, callTool other "query_component" [("name", .str "\t ")] {} =
        ((callTool bareLibrary "query_component" [("name", .str "\t ")] {}).1, {}) := by
  have hrejects : Rejects "query_component" [("name", .str "\t ")] := by
    refine .inr ⟨.component, rfl, "name", rfl, fun t ht => ?_⟩
    obtain rfl : "\t ".toList = t := Json.str.inj (Option.some.inj ht)
    exact List.all_eq_true.1 (by decide)
  exact ⟨hrejects, (callTool_rejections bareLibrary "query_component" [("name", .str "\t ")] {}).2 hrejects⟩

end ComponentCatalog
